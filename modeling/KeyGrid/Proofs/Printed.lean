import KeyGrid.Proofs.Arranged

/-!
# Canonical texts

Declarations are printed with one directive, row or entry on a line, blanks between
its pieces and quotes around typed texts and labels. A printed text is scanned into just
the lexemes that were printed.
-/

namespace KeyGrid.Source

/-! ### Pieces and lines -/

/-- Lexemes that are printed without blanks between them. -/
abbrev Piece := List Lexeme

abbrev Line := List Piece

def Lexeme.chars : Lexeme → List Char
  | .word text => text.toList
  | .quoted text _ => '"' :: text.toList ++ ['"']
  | .symbol c => [c]
  | .lineEnd => ['\n']

def Piece.chars (piece : Piece) : List Char := piece.flatMap Lexeme.chars

def Line.chars : Line → List Char
  | [] => ['\n']
  | [piece] => Piece.chars piece ++ ['\n']
  | piece :: others => Piece.chars piece ++ ' ' :: Line.chars others

def Line.lexemes (line : Line) : List Lexeme := line.flatten ++ [.lineEnd]

/-! ### Declarations -/

def Cell.lexeme : Cell → Lexeme
  | .absent => .symbol '*'
  | .text typed => .quoted typed true
  | .code name => .word name

def LayerRef.piece (ref : LayerRef) : Piece :=
  match ref.modifier with
  | .plain => [.word ref.name]
  | .shift => [.word "shift", .symbol ':', .word ref.name]
  | .ctrl => [.word "ctrl", .symbol ':', .word ref.name]

def MetaDecl.pieces : MetaDecl → List Piece
  | .dead refs => [.word "dead"] :: refs.map LayerRef.piece
  | .state target => [[.word "state"], [.word target]]
  | .deadLatch target => [[.word "deadlatch"], [.word target]]

def Entry.printed : Entry → Line
  | .layers swipe refs _ => [.word swipe.keyword] :: refs.map LayerRef.piece
  | .slot digits label change _ =>
    [.word ("S" ++ digits)] :: [.quoted label true] :: change.pieces

/-- The rows of a layout; the last one is followed by the closing brace. -/
def rowLines : List (List CellDecl) → List Line
  | [] => []
  | [cells] => [cells.map (fun written => [written.cell.lexeme]) ++ [[.symbol '\x7d']]]
  | cells :: others => cells.map (fun written => [written.cell.lexeme]) :: rowLines others

def heading (keyword name : String) : Line := [[.word keyword], [.word name], [.symbol '\x7b']]

def Item.lines : Item → List Line
  | .size decl =>
    [[[.word "size"], [.word (toString decl.grid.rows)], [.word (toString decl.grid.cols)]]]
  | .layout decl => heading "layout" decl.name :: rowLines decl.rows
  | .state decl =>
    heading "state" decl.name :: (decl.entries.map Entry.printed ++ [[[.symbol '\x7d']]])

/-- The canonical text of declarations. -/
def print (items : List Item) : String :=
  String.ofList ((items.flatMap Item.lines).flatMap Line.chars)

/-! ### What a piece is read as -/

/-- Where no lexeme has been begun, the characters are read as these lexemes, unless the
text goes on with a word. -/
def Reads (chars : List Char) (lexemes : List Lexeme) : Prop :=
  ∀ (scanner : Scanner) (c : Char) (more : List Char),
    scanner.begun = .nothing → isWordChar c = false →
      (chars ++ c :: more).foldl Scanner.read scanner =
        (c :: more).foldl Scanner.read (lexemes.foldl Scanner.emit scanner)

def Piece.Spelled (piece : Piece) : Prop := Reads (Piece.chars piece) piece

theorem begun_foldl_emit {scanner : Scanner} (h : scanner.begun = .nothing)
    (lexemes : List Lexeme) : (lexemes.foldl Scanner.emit scanner).begun = .nothing := by
  induction lexemes generalizing scanner with
  | nil => exact h
  | cons lexeme lexemes ih => exact ih rfl

theorem foldl_read_word (scanner : Scanner) (word more letters : List Char)
    (hw : ∀ c ∈ word, isWordChar c) (hb : scanner.begun = .word letters) :
    (word ++ more).foldl Scanner.read scanner =
      more.foldl Scanner.read { scanner with begun := .word (word.reverse ++ letters) } := by
  induction word generalizing scanner letters with
  | nil =>
    rw [List.reverse_nil, List.nil_append, List.nil_append, ← hb]
  | cons c word ih =>
    have hc := hw c (List.mem_cons_self ..)
    have hread : scanner.read c = { scanner with begun := .word (c :: letters) } := by
      simp only [Scanner.read, hb, if_pos hc]
    rw [List.cons_append, List.foldl_cons, hread]
    rw [ih _ (c :: letters) (fun d hd => hw d (List.mem_cons_of_mem _ hd)) rfl]
    rw [List.reverse_cons, List.append_assoc]
    rfl

theorem foldl_read_quoted (scanner : Scanner) (text more chars : List Char)
    (hq : '"' ∉ text) (hn : '\n' ∉ text) (hb : scanner.begun = .quoted chars) :
    (text ++ more).foldl Scanner.read scanner =
      more.foldl Scanner.read { scanner with begun := .quoted (text.reverse ++ chars) } := by
  induction text generalizing scanner chars with
  | nil =>
    rw [List.reverse_nil, List.nil_append, List.nil_append, ← hb]
  | cons c text ih =>
    rw [List.mem_cons, not_or] at hq hn
    have hread : scanner.read c = { scanner with begun := .quoted (c :: chars) } := by
      simp only [Scanner.read, hb, if_neg (Ne.symm hq.1), if_neg (Ne.symm hn.1)]
    rw [List.cons_append, List.foldl_cons, hread]
    rw [ih _ (c :: chars) hq.2 hn.2 rfl]
    rw [List.reverse_cons, List.append_assoc]
    rfl

/-- A character that is a symbol wherever no lexeme has been begun. -/
def IsSymbol (c : Char) : Prop :=
  (c ≠ '\n' ∧ c ≠ '#' ∧ c ≠ '"') ∧ isGap c = false ∧ isWordChar c = false

instance (c : Char) : Decidable (IsSymbol c) :=
  inferInstanceAs (Decidable (_ ∧ _))

/-- What can stand in a word means nothing else where no lexeme has been begun. -/
theorem plain_of_isWordChar {c : Char} (h : isWordChar c) :
    c ≠ '\n' ∧ isGap c = false ∧ c ≠ '#' ∧ c ≠ '"' := by
  refine ⟨?_, ?_, ?_, ?_⟩
  · rintro rfl
    exact absurd h (by decide)
  · refine Bool.eq_false_iff.mpr fun hgap => ?_
    simp only [isGap, Bool.or_eq_true, beq_iff_eq] at hgap
    obtain ((rfl | rfl) | rfl) | rfl := hgap <;> exact absurd h (by decide)
  · rintro rfl
    exact absurd h (by decide)
  · rintro rfl
    exact absurd h (by decide)

/-- A word is begun with its first letter and goes on with the others. -/
theorem foldl_read_isWord {text : String} (h : IsWord text) {scanner : Scanner}
    (hb : scanner.begun = .nothing) (more : List Char) :
    (text.toList ++ more).foldl Scanner.read scanner =
      more.foldl Scanner.read { scanner with begun := .word text.toList.reverse } := by
  obtain ⟨hne, hchars⟩ := h
  cases hlist : text.toList with
  | nil => exact absurd hlist hne
  | cons first others =>
    rw [hlist] at hchars
    have hfirst := hchars first (List.mem_cons_self ..)
    obtain ⟨hnewline, hgap, hhash, hquote⟩ := plain_of_isWordChar hfirst
    have hopen : scanner.read first = { scanner with begun := .word [first] } := by
      simp [Scanner.read, hb, Scanner.opening, hnewline, hgap, hhash, hquote, hfirst]
    rw [List.cons_append, List.foldl_cons, hopen]
    rw [foldl_read_word _ others more [first]
      (fun d hd => hchars d (List.mem_cons_of_mem _ hd)) rfl]
    rw [List.reverse_cons]

theorem foldl_read_quotable {text : String} (h : Quotable text) {scanner : Scanner}
    (hb : scanner.begun = .nothing) (more : List Char) :
    ('"' :: text.toList ++ more).foldl Scanner.read scanner =
      more.foldl Scanner.read { scanner with begun := .quoted text.toList.reverse } := by
  have hopen : scanner.read '"' = { scanner with begun := .quoted [] } := by
    simp [Scanner.read, hb, Scanner.opening, isGap]
  rw [List.cons_append, List.foldl_cons, hopen]
  rw [foldl_read_quoted _ text.toList more [] h.1 h.2 rfl, List.append_nil]

theorem read_symbol {c : Char} (h : IsSymbol c) {scanner : Scanner}
    (hb : scanner.begun = .nothing) : scanner.read c = scanner.emit (.symbol c) := by
  obtain ⟨⟨hnewline, hhash, hquote⟩, hgap, hword⟩ := h
  simp [Scanner.read, hb, Scanner.opening, hnewline, hgap, hhash, hquote, hword]

/-- A word is complete where the text goes on with anything else. -/
theorem read_behind_word {text : String} {scanner : Scanner} {c : Char}
    (hc : isWordChar c = false) :
    Scanner.read { scanner with begun := .word text.toList.reverse } c =
      (scanner.emit (.word text)).read c := by
  simp only [Scanner.read, hc, Bool.false_eq_true, if_false, Scanner.settle, List.reverse_reverse,
    String.ofList_toList]
  rfl

/-- A double quote completes the quoted text. -/
theorem read_quote_behind_quoted (text : String) (scanner : Scanner) :
    Scanner.read { scanner with begun := .quoted text.toList.reverse } '"' =
      scanner.emit (.quoted text true) := by
  simp only [Scanner.read, if_true, List.reverse_reverse, String.ofList_toList]
  rfl

namespace Reads

theorem nil : Reads [] [] := fun _ _ _ _ _ => rfl

theorem word {text : String} (h : IsWord text) : Reads text.toList [.word text] := by
  intro scanner c more hb hc
  rw [foldl_read_isWord h hb, List.foldl_cons, read_behind_word hc]
  rfl

theorem quoted {text : String} (h : Quotable text) :
    Reads ('"' :: text.toList ++ ['"']) [.quoted text true] := by
  intro scanner c more hb _
  rw [List.append_assoc, foldl_read_quotable h hb, List.cons_append, List.foldl_cons,
    read_quote_behind_quoted]
  rfl

theorem cons_symbol {c : Char} (hc : IsSymbol c) {chars : List Char} {lexemes : List Lexeme}
    (h : Reads chars lexemes) : Reads (c :: chars) (.symbol c :: lexemes) := by
  intro scanner d more hb hd
  rw [List.cons_append, List.foldl_cons, read_symbol hc hb]
  exact h (scanner.emit (.symbol c)) d more rfl hd

theorem append {xs ys : List Char} {first second : List Lexeme} {c : Char}
    (hfirst : Reads xs first) (hc : isWordChar c = false) (hsecond : Reads (c :: ys) second) :
    Reads (xs ++ c :: ys) (first ++ second) := by
  intro scanner d more hb hd
  rw [List.append_assoc, List.cons_append, hfirst scanner c (ys ++ d :: more) hb hc]
  rw [← List.cons_append, hsecond _ d more (begun_foldl_emit hb first) hd]
  rw [List.foldl_append]

end Reads

/-! ### Lines -/

theorem Line.foldl_read_chars {line : Line} (h : ∀ piece ∈ line, Piece.Spelled piece)
    {scanner : Scanner} (hb : scanner.begun = .nothing) (more : List Char) :
    (Line.chars line ++ more).foldl Scanner.read scanner =
      more.foldl Scanner.read ((Line.lexemes line).foldl Scanner.emit scanner) := by
  have hnewline : ∀ scanner : Scanner, scanner.begun = .nothing →
      scanner.read '\n' = scanner.emit .lineEnd := by
    intro scanner hb
    simp only [Scanner.read, hb, Scanner.opening, if_true]
  have hblank : ∀ scanner : Scanner, scanner.begun = .nothing → scanner.read ' ' = scanner := by
    intro scanner hb
    simp [Scanner.read, hb, Scanner.opening, isGap]
  induction line using Line.chars.induct generalizing scanner with
  | case1 =>
    show more.foldl Scanner.read (scanner.read '\n') = _
    rw [hnewline scanner hb]
    rfl
  | case2 piece =>
    have hpiece := h piece (List.mem_singleton_self piece)
    have hbegun := begun_foldl_emit hb piece
    show ((Piece.chars piece ++ ['\n']) ++ more).foldl Scanner.read scanner = _
    rw [List.append_assoc, List.singleton_append]
    rw [hpiece scanner '\n' more hb (by decide), List.foldl_cons, hnewline _ hbegun]
    simp only [Line.lexemes, List.flatten_cons, List.flatten_nil, List.append_nil,
      List.foldl_append, List.foldl_cons, List.foldl_nil]
  | case3 piece others hne ih =>
    have hpiece := h piece (List.mem_cons_self ..)
    have hbegun := begun_foldl_emit hb piece
    have hothers : ∀ other ∈ others, Piece.Spelled other :=
      fun other hother => h other (List.mem_cons_of_mem _ hother)
    have hchars : Line.chars (piece :: others) =
        Piece.chars piece ++ ' ' :: Line.chars others := by
      rw [Line.chars]
      exact hne
    rw [hchars, List.append_assoc, List.cons_append]
    rw [hpiece scanner ' ' (Line.chars others ++ more) hb (by decide), List.foldl_cons,
      hblank _ hbegun, ih hothers hbegun]
    simp only [Line.lexemes, List.flatten_cons, List.foldl_append]

theorem foldl_read_lines {lines : List Line}
    (h : ∀ line ∈ lines, ∀ piece ∈ line, Piece.Spelled piece) {scanner : Scanner}
    (hb : scanner.begun = .nothing) :
    (lines.flatMap Line.chars).foldl Scanner.read scanner =
      (lines.flatMap Line.lexemes).foldl Scanner.emit scanner := by
  induction lines generalizing scanner with
  | nil => rfl
  | cons line lines ih =>
    have hline := h line (List.mem_cons_self ..)
    have hlines : ∀ other ∈ lines, ∀ piece ∈ other, Piece.Spelled piece :=
      fun other hother => h other (List.mem_cons_of_mem _ hother)
    rw [List.flatMap_cons, List.flatMap_cons, Line.foldl_read_chars hline hb,
      List.foldl_append, ih hlines (begun_foldl_emit hb _)]

theorem foldl_emit (scanner : Scanner) (lexemes : List Lexeme) :
    (lexemes.foldl Scanner.emit scanner).emitted.reverse =
        scanner.emitted.reverse ++ locate scanner.line lexemes ∧
      (lexemes.foldl Scanner.emit scanner).line = lineBehind scanner.line lexemes := by
  induction lexemes generalizing scanner with
  | nil =>
    rw [List.foldl_nil, locate, List.append_nil]
    exact ⟨rfl, rfl⟩
  | cons lexeme lexemes ih =>
    obtain ⟨hemitted, hline⟩ := ih (scanner.emit lexeme)
    rw [List.foldl_cons]
    refine ⟨?_, hline⟩
    rw [hemitted, locate]
    show (_ :: scanner.emitted).reverse ++ _ = _
    rw [List.reverse_cons, List.append_assoc]
    rfl

/-- A printed text is scanned into the lexemes printed, on the lines that they lead to. -/
theorem scan_lines {lines : List Line}
    (h : ∀ line ∈ lines, ∀ piece ∈ line, Piece.Spelled piece) :
    (scan (lines.flatMap Line.chars)).lexemes = locate 1 (lines.flatMap Line.lexemes) ∧
      (scan (lines.flatMap Line.chars)).line = lineBehind 1 (lines.flatMap Line.lexemes) := by
  have hread : scan (lines.flatMap Line.chars) =
      (lines.flatMap Line.lexemes).foldl Scanner.emit .start := foldl_read_lines h rfl
  obtain ⟨hemitted, hline⟩ := foldl_emit .start (lines.flatMap Line.lexemes)
  have hbegun : ((lines.flatMap Line.lexemes).foldl Scanner.emit .start).begun = .nothing :=
    begun_foldl_emit rfl _
  rw [hread]
  refine ⟨?_, hline⟩
  unfold Scanner.lexemes Scanner.settle
  rw [hbegun]
  exact hemitted

/-! ### Pieces of declarations -/

theorem isWord_slot {digits : String} (h : Decimal.isDigits digits.toList) :
    IsWord ("S" ++ digits) := by
  have hlist : ("S" ++ digits).toList = 'S' :: digits.toList := String.toList_append
  unfold IsWord
  rw [hlist]
  refine ⟨List.cons_ne_nil _ _, ?_⟩
  intro c hc
  rcases List.mem_cons.mp hc with rfl | hc
  · decide
  · exact (isWord_of_isDigits h).2 c hc

theorem isWord_keyword (swipe : Swipe) : IsWord swipe.keyword := by
  cases swipe <;> decide

theorem spelled_word {text : String} (h : IsWord text) : Piece.Spelled [.word text] := by
  have hchars : Piece.chars [.word text] = text.toList := List.append_nil _
  unfold Piece.Spelled
  rw [hchars]
  exact Reads.word h

theorem spelled_quoted {text : String} (h : Quotable text) :
    Piece.Spelled [.quoted text true] := by
  have hchars : Piece.chars [.quoted text true] = '"' :: text.toList ++ ['"'] :=
    List.append_nil _
  unfold Piece.Spelled
  rw [hchars]
  exact Reads.quoted h

theorem spelled_symbol {c : Char} (h : IsSymbol c) : Piece.Spelled [.symbol c] :=
  Reads.cons_symbol h Reads.nil

theorem spelled_prefixed {keyword name : String} (hk : IsWord keyword) (hn : IsWord name) :
    Piece.Spelled [.word keyword, .symbol ':', .word name] := by
  have hchars : Piece.chars [.word keyword, .symbol ':', .word name] =
      keyword.toList ++ ':' :: name.toList := by
    simp [Piece.chars, Lexeme.chars]
  unfold Piece.Spelled
  rw [hchars]
  exact (Reads.word hk).append (by decide) (Reads.cons_symbol (by decide) (Reads.word hn))

theorem LayerRef.Proper.spelled {ref : LayerRef} (h : ref.Proper) :
    Piece.Spelled ref.piece := by
  unfold LayerRef.piece
  have hname := h.name.1
  cases ref.modifier with
  | plain => exact spelled_word hname
  | shift => exact spelled_prefixed (by decide) hname
  | ctrl => exact spelled_prefixed (by decide) hname

theorem spelled_refs {refs : List LayerRef} (h : ∀ ref ∈ refs, ref.Proper) :
    ∀ piece ∈ refs.map LayerRef.piece, Piece.Spelled piece := by
  intro piece hpiece
  obtain ⟨ref, href, rfl⟩ := List.mem_map.mp hpiece
  exact (h ref href).spelled

theorem Cell.Proper.spelled {cell : Cell} (h : cell.Proper) : Piece.Spelled [cell.lexeme] := by
  cases cell with
  | absent => exact spelled_symbol (by decide)
  | text typed => exact spelled_quoted h.2
  | code name => exact spelled_word h.1

theorem MetaDecl.Proper.spelled {change : MetaDecl} (h : change.Proper) :
    ∀ piece ∈ change.pieces, Piece.Spelled piece := by
  have htarget : ∀ keyword target : String, IsWord keyword → IsName target →
      ∀ piece ∈ ([[.word keyword], [.word target]] : List Piece), Piece.Spelled piece := by
    intro keyword target hkeyword htarget
    simp only [List.forall_mem_cons]
    exact ⟨spelled_word hkeyword, spelled_word htarget.1, fun _ he => by cases he⟩
  cases change with
  | dead refs =>
    rw [MetaDecl.pieces, List.forall_mem_cons]
    exact ⟨spelled_word (by decide), spelled_refs h⟩
  | state target => exact htarget "state" target (by decide) h
  | deadLatch target => exact htarget "deadlatch" target (by decide) h

theorem Entry.Proper.spelled {entry : Entry} (h : entry.Proper) :
    ∀ piece ∈ entry.printed, Piece.Spelled piece := by
  cases entry with
  | layers swipe refs line =>
    rw [Entry.printed, List.forall_mem_cons]
    exact ⟨spelled_word (isWord_keyword swipe), spelled_refs h⟩
  | slot digits label change line =>
    obtain ⟨hdigits, hlabel, hchange⟩ := h
    rw [Entry.printed, List.forall_mem_cons, List.forall_mem_cons]
    exact ⟨spelled_word (isWord_slot hdigits), spelled_quoted hlabel, hchange.spelled⟩

theorem spelled_rows {rows : List (List CellDecl)}
    (h : ∀ cells ∈ rows, ∀ written ∈ cells, written.cell.Proper) :
    ∀ line ∈ rowLines rows, ∀ piece ∈ line, Piece.Spelled piece := by
  have hcells : ∀ cells : List CellDecl, (∀ written ∈ cells, written.cell.Proper) →
      ∀ piece ∈ cells.map (fun written => [written.cell.lexeme]), Piece.Spelled piece := by
    intro cells hcells piece hpiece
    obtain ⟨written, hwritten, rfl⟩ := List.mem_map.mp hpiece
    exact (hcells written hwritten).spelled
  induction rows using rowLines.induct with
  | case1 => exact fun _ he => by cases he
  | case2 cells =>
    intro line hline piece hpiece
    rw [List.mem_singleton.mp hline, List.mem_append, List.mem_singleton] at hpiece
    rcases hpiece with hpiece | rfl
    · exact hcells cells (h cells (List.mem_singleton_self cells)) piece hpiece
    · exact spelled_symbol (by decide)
  | case3 cells others hne ih =>
    rw [rowLines, List.forall_mem_cons]
    · refine ⟨hcells cells (h cells (List.mem_cons_self ..)), ih ?_⟩
      exact fun row hrow => h row (List.mem_cons_of_mem _ hrow)
    · exact hne

theorem spelled_heading {keyword name : String} (hk : IsWord keyword) (hn : IsWord name) :
    ∀ piece ∈ heading keyword name, Piece.Spelled piece := by
  simp only [heading, List.forall_mem_cons]
  exact ⟨spelled_word hk, spelled_word hn, spelled_symbol (by decide), fun _ he => by cases he⟩

theorem Item.Arranged.spelled {front : List Item} {item : Item} (h : item.Arranged front) :
    ∀ line ∈ item.lines, ∀ piece ∈ line, Piece.Spelled piece := by
  cases item with
  | size decl =>
    simp only [Item.lines, List.forall_mem_cons]
    exact ⟨⟨spelled_word (by decide),
      spelled_word (isWord_of_isDigits (Decimal.isDigits_toString _)),
      spelled_word (isWord_of_isDigits (Decimal.isDigits_toString _)), fun _ he => by cases he⟩,
      fun _ he => by cases he⟩
  | layout decl =>
    obtain ⟨grid, _, hfits⟩ := h
    rw [Item.lines, List.forall_mem_cons]
    exact ⟨spelled_heading (by decide) hfits.name.1, spelled_rows hfits.cells⟩
  | state decl =>
    rw [Item.lines, List.forall_mem_cons]
    refine ⟨spelled_heading (by decide) (StateDecl.Proper.name h).1, ?_⟩
    intro line hline
    rcases List.mem_append.mp hline with hline | hline
    · obtain ⟨entry, hentry, rfl⟩ := List.mem_map.mp hline
      exact (StateDecl.Proper.entries h entry hentry).spelled
    · rw [List.mem_singleton.mp hline, List.forall_mem_cons]
      exact ⟨spelled_symbol (by decide), fun _ he => by cases he⟩

end KeyGrid.Source
