import KeyGrid.Proofs.Printed
import KeyGrid.Source.Token

/-!
# Slices

How a text falls into lexemes, said without a scanner. In front of a lexeme stands a gap of
blanks and comments, and a lexeme takes as many characters as it can. These rules leave
nothing open: every text can be cut in just one way, and this is the way it is scanned,
whatever its digits stand for in each place.
-/

namespace KeyGrid.Source

/-! ### Gaps -/

/-- A line is over here, or the whole text. -/
def AtLineEnd (text : List Char) : Prop := text.head?.all (· == '\n')

instance (text : List Char) : Decidable (AtLineEnd text) := inferInstanceAs (Decidable (_ = _))

/-- What can stand between lexemes: blanks, and a comment if its line ends behind it. -/
def Gap (rest : List Char) : List Char → Prop
  | [] => True
  | c :: gap => (isGap c ∧ Gap rest gap) ∨ (c = '#' ∧ '\n' ∉ gap ∧ AtLineEnd rest)

instance decidableGap (rest : List Char) : (gap : List Char) → Decidable (Gap rest gap)
  | [] => inferInstanceAs (Decidable True)
  | c :: gap =>
    have := decidableGap rest gap
    inferInstanceAs (Decidable ((isGap c ∧ Gap rest gap) ∨ _))

/-- No gap goes on here. -/
def Bare (text : List Char) : Prop := text.head?.any (fun c => isGap c || c == '#') = false

theorem bare_cons {c : Char} {text : List Char} :
    Bare (c :: text) ↔ isGap c = false ∧ c ≠ '#' := by
  simp [Bare]

theorem newline_of_atLineEnd {c : Char} {text : List Char} (h : AtLineEnd (c :: text)) :
    c = '\n' := by
  simpa [AtLineEnd] using h

theorem ne_newline_of_isGap {c : Char} (h : isGap c) : c ≠ '\n' := by
  rintro rfl
  exact absurd h (by decide)

theorem ne_hash_of_isGap {c : Char} (h : isGap c) : c ≠ '#' := by
  rintro rfl
  exact absurd h (by decide)

theorem exists_span (p : Char → Bool) (text : List Char) :
    ∃ front back, text = front ++ back ∧ (∀ c ∈ front, p c) ∧ back.head?.any p = false := by
  induction text with
  | nil => exact ⟨[], [], rfl, by simp, rfl⟩
  | cons c text ih =>
    cases hp : p c with
    | true =>
      obtain ⟨front, back, rfl, hfront, hback⟩ := ih
      refine ⟨c :: front, back, rfl, ?_, hback⟩
      rw [List.forall_mem_cons]
      exact ⟨hp, hfront⟩
    | false => exact ⟨[], c :: text, rfl, by simp, by simpa using hp⟩

theorem exists_line (text : List Char) :
    ∃ line rest, text = line ++ rest ∧ '\n' ∉ line ∧ AtLineEnd rest := by
  obtain ⟨line, rest, rfl, hline, hrest⟩ := exists_span (fun c => c != '\n') text
  refine ⟨line, rest, rfl, ?_, ?_⟩
  · intro hmem
    have hne := hline '\n' hmem
    revert hne
    decide
  · cases rest with
    | nil => rfl
    | cons c rest => simpa [AtLineEnd] using hrest

theorem exists_gap (text : List Char) :
    ∃ gap rest, text = gap ++ rest ∧ Gap rest gap ∧ Bare rest := by
  induction text with
  | nil => exact ⟨[], [], rfl, trivial, rfl⟩
  | cons c text ih =>
    by_cases hblank : isGap c
    · obtain ⟨gap, rest, rfl, hgap, hbare⟩ := ih
      exact ⟨c :: gap, rest, rfl, Or.inl ⟨hblank, hgap⟩, hbare⟩
    · by_cases hhash : c = '#'
      · subst hhash
        obtain ⟨line, rest, rfl, hline, hrest⟩ := exists_line text
        refine ⟨'#' :: line, rest, rfl, Or.inr ⟨rfl, hline, hrest⟩, ?_⟩
        cases rest with
        | nil => rfl
        | cons d rest =>
          rw [newline_of_atLineEnd hrest, bare_cons]
          decide
      · refine ⟨[], c :: text, rfl, trivial, ?_⟩
        rw [bare_cons]
        exact ⟨Bool.eq_false_iff.mpr hblank, hhash⟩

namespace Gap

variable {rest gap : List Char}

theorem newline_not_mem (h : Gap rest gap) : '\n' ∉ gap := by
  induction gap with
  | nil => exact List.not_mem_nil
  | cons c gap ih =>
    rw [List.mem_cons, not_or]
    rcases h with ⟨hblank, h⟩ | ⟨rfl, hline, _⟩
    · exact ⟨(ne_newline_of_isGap hblank).symm, ih h⟩
    · exact ⟨by decide, hline⟩

/-- Of what stands behind a gap only the first character counts. -/
theorem congr (h : Gap rest gap) {other : List Char} (hhead : rest.head? = other.head?) :
    Gap other gap := by
  induction gap with
  | nil => trivial
  | cons c gap ih =>
    rcases h with ⟨hblank, h⟩ | ⟨hhash, hline, hend⟩
    · exact Or.inl ⟨hblank, ih h⟩
    · refine Or.inr ⟨hhash, hline, ?_⟩
      unfold AtLineEnd at hend ⊢
      rw [← hhead]
      exact hend

theorem not_bare {c : Char} (h : Gap rest (c :: gap)) (more : List Char) :
    ¬Bare (c :: more) := by
  rw [bare_cons]
  rintro ⟨hblank, hhash⟩
  rcases h with ⟨h, _⟩ | ⟨h, _⟩
  · rw [hblank] at h
    cases h
  · exact hhash h

/-- A text is divided in one way only into a gap and what stands behind it. -/
theorem unique (h : Gap rest gap) (hrest : Bare rest) {other more : List Char}
    (ho : Gap more other) (hmore : Bare more) (heq : gap ++ rest = other ++ more) :
    gap = other ∧ rest = more := by
  induction gap generalizing other with
  | nil =>
    cases other with
    | nil => exact ⟨rfl, heq⟩
    | cons d other =>
      rw [List.nil_append] at heq
      rw [heq] at hrest
      exact absurd hrest (ho.not_bare _)
  | cons c gap ih =>
    cases other with
    | nil =>
      rw [List.nil_append] at heq
      rw [← heq] at hmore
      exact absurd hmore (h.not_bare _)
    | cons d other =>
      rw [List.cons_append, List.cons_append] at heq
      obtain ⟨rfl, htext⟩ := List.cons.inj heq
      rcases h with ⟨hblank, h⟩ | ⟨hhash, hline, hend⟩
      · rcases ho with ⟨_, ho⟩ | ⟨hhash, _⟩
        · obtain ⟨rfl, hrest⟩ := ih h ho htext
          exact ⟨rfl, hrest⟩
        · exact absurd hhash (ne_hash_of_isGap hblank)
      · rcases ho with ⟨hblank, _⟩ | ⟨_, hotherLine, hotherEnd⟩
        · exact absurd hhash (ne_hash_of_isGap hblank)
        · -- both comments go on to the first line end
          rcases List.append_eq_append_iff.mp htext with ⟨more, rfl, hback⟩ | ⟨more, rfl, hback⟩
          · cases more with
            | nil => exact ⟨by rw [List.append_nil], hback⟩
            | cons e more =>
              rw [hback, List.cons_append] at hend
              rw [newline_of_atLineEnd hend] at hotherLine
              exact absurd (by simp) hotherLine
          · cases more with
            | nil => exact ⟨by rw [List.append_nil], hback.symm⟩
            | cons e more =>
              rw [hback, List.cons_append] at hotherEnd
              rw [newline_of_atLineEnd hotherEnd] at hline
              exact absurd (by simp) hline

end Gap

/-! ### Lexemes -/

/-- The characters of a lexeme. -/
def Lexeme.spelling : Lexeme → List Char
  | .word text => text.toList
  | .quoted text closed => '"' :: text.toList ++ if closed then ['"'] else []
  | .symbol c => [c]
  | .lineEnd => ['\n']

/-- In front of the rest of a text the lexeme is complete: a word goes no further, and a
quoted text without a second quote ends with its line. -/
def Lexeme.Whole (rest : List Char) : Lexeme → Prop
  | .word text => IsWord text ∧ rest.head?.any isWordChar = false
  | .quoted text closed => Quotable text ∧ (closed = false → AtLineEnd rest)
  | .symbol c => IsSymbol c
  | .lineEnd => True

instance (rest : List Char) : (lexeme : Lexeme) → Decidable (lexeme.Whole rest)
  | .word _ => inferInstanceAs (Decidable (_ ∧ _))
  | .quoted _ closed => inferInstanceAs (Decidable (_ ∧ (closed = false → _)))
  | .symbol c => inferInstanceAs (Decidable (IsSymbol c))
  | .lineEnd => inferInstanceAs (Decidable True)

theorem exists_lexeme {c : Char} {text : List Char} (h : Bare (c :: text)) :
    ∃ lexeme rest, c :: text = Lexeme.spelling lexeme ++ rest ∧ lexeme.Whole rest := by
  rw [bare_cons] at h
  by_cases hnewline : c = '\n'
  · subst hnewline
    exact ⟨.lineEnd, text, rfl, trivial⟩
  by_cases hquote : c = '"'
  · subst hquote
    obtain ⟨chars, rest, rfl, hchars, hrest⟩ := exists_span (fun c => c != '"' && c != '\n') text
    have hquotable : Quotable (String.ofList chars) := by
      unfold Quotable
      rw [String.toList_ofList]
      constructor <;> intro hmem <;> exact absurd (hchars _ hmem) (by decide)
    cases rest with
    | nil =>
      refine ⟨.quoted (String.ofList chars) false, [], ?_, hquotable, fun _ => rfl⟩
      simp [Lexeme.spelling]
    | cons d rest =>
      by_cases hd : d = '"'
      · subst hd
        refine ⟨.quoted (String.ofList chars) true, rest, ?_, hquotable, fun h => by cases h⟩
        simp [Lexeme.spelling]
      · refine ⟨.quoted (String.ofList chars) false, d :: rest, ?_, hquotable, fun _ => ?_⟩
        · simp [Lexeme.spelling]
        · simpa [AtLineEnd, hd] using hrest
  cases hword : isWordChar c with
  | true =>
    obtain ⟨letters, rest, heq, hletters, hrest⟩ := exists_span isWordChar (c :: text)
    have hne : letters ≠ [] := by
      rintro rfl
      rw [List.nil_append] at heq
      rw [← heq] at hrest
      rw [List.head?_cons, Option.any_some, hword] at hrest
      cases hrest
    refine ⟨.word (String.ofList letters), rest, ?_, ⟨?_, ?_⟩, hrest⟩
    · rw [heq, Lexeme.spelling, String.toList_ofList]
    · rw [String.toList_ofList]
      exact hne
    · rw [String.toList_ofList]
      exact hletters
  | false => exact ⟨.symbol c, text, rfl, ⟨hnewline, h.2, hquote⟩, h.1, hword⟩

theorem bare_of_isWord {text : String} (h : IsWord text) (more : List Char) :
    Bare (text.toList ++ more) := by
  obtain ⟨hne, hchars⟩ := h
  cases hlist : text.toList with
  | nil => exact absurd hlist hne
  | cons c others =>
    rw [hlist] at hchars
    obtain ⟨_, hgap, hhash, _⟩ := plain_of_isWordChar (hchars c (List.mem_cons_self ..))
    exact bare_cons.mpr ⟨hgap, hhash⟩

namespace Lexeme.Whole

variable {lexeme : Lexeme} {rest : List Char} (h : lexeme.Whole rest)
include h

theorem spelling_ne_nil : lexeme.spelling ≠ [] := by
  cases lexeme with
  | word text => exact h.1.1
  | quoted text closed => exact List.cons_ne_nil _ _
  | symbol c => exact List.cons_ne_nil _ _
  | lineEnd => exact List.cons_ne_nil _ _

theorem bare (more : List Char) : Bare (lexeme.spelling ++ more) := by
  cases lexeme with
  | word text => exact bare_of_isWord h.1 more
  | quoted text closed => exact bare_cons.mpr (by decide)
  | symbol c => exact bare_cons.mpr ⟨h.2.1, h.1.2.1⟩
  | lineEnd => exact bare_cons.mpr (by decide)

theorem count_newline : lexeme.spelling.count '\n' = if lexeme = .lineEnd then 1 else 0 := by
  cases lexeme with
  | word text =>
    rw [if_neg (by simp)]
    exact List.count_eq_zero.mpr (newline_not_mem_of_isWord h.1)
  | quoted text closed =>
    rw [if_neg (by simp)]
    have hchars := List.count_eq_zero.mpr h.1.2
    cases closed <;> simp [spelling, hchars]
  | symbol c =>
    have hne : c ≠ '\n' := h.1.1
    simp [spelling, hne]
  | lineEnd => rfl

end Lexeme.Whole

/-! ### Cuts -/

/-- A lexeme and the gap in front of it. -/
structure Slice where
  gap : List Char
  lexeme : Lexeme
deriving DecidableEq

def Slice.chars (slice : Slice) : List Char := slice.gap ++ slice.lexeme.spelling

/-- The text that slices and a tail make up. -/
def joined (slices : List Slice) (tail : List Char) : List Char :=
  slices.flatMap Slice.chars ++ tail

/-- Every slice is a gap and a lexeme in front of those behind it, and the tail is a gap. -/
def Maximal (tail : List Char) : List Slice → Prop
  | [] => Gap [] tail
  | slice :: slices =>
    Gap (slice.lexeme.spelling ++ joined slices tail) slice.gap ∧
      slice.lexeme.Whole (joined slices tail) ∧ Maximal tail slices

instance decidableMaximal (tail : List Char) :
    (slices : List Slice) → Decidable (Maximal tail slices)
  | [] => inferInstanceAs (Decidable (Gap [] tail))
  | _ :: slices =>
    have := decidableMaximal tail slices
    inferInstanceAs (Decidable (_ ∧ _ ∧ Maximal tail slices))

/-- A text falls into slices and a gap behind the last one. -/
structure Cut (text : List Char) (slices : List Slice) (tail : List Char) : Prop where
  joined : text = joined slices tail
  maximal : Maximal tail slices

instance (text : List Char) (slices : List Slice) (tail : List Char) :
    Decidable (Cut text slices tail) :=
  decidable_of_iff (text = joined slices tail ∧ Maximal tail slices)
    ⟨fun h => ⟨h.1, h.2⟩, fun h => ⟨h.joined, h.maximal⟩⟩

@[simp] theorem joined_nil (tail : List Char) : joined [] tail = tail := rfl

theorem joined_cons (slice : Slice) (slices : List Slice) (tail : List Char) :
    joined (slice :: slices) tail =
      slice.gap ++ (slice.lexeme.spelling ++ joined slices tail) := by
  simp [joined, Slice.chars]

theorem exists_cut (text : List Char) : ∃ slices tail, Cut text slices tail := by
  -- on the length of the text: behind a slice a shorter text is left
  induction hn : text.length using Nat.strong_induction_on generalizing text with
  | _ n ih =>
    obtain ⟨gap, rest, rfl, hgap, hbare⟩ := exists_gap text
    cases rest with
    | nil => exact ⟨[], gap, List.append_nil gap, hgap⟩
    | cons c rest =>
      obtain ⟨lexeme, back, hrest, hwhole⟩ := exists_lexeme hbare
      have hpos := List.length_pos_of_ne_nil hwhole.spelling_ne_nil
      have hlt : back.length < n := by
        rw [← hn, hrest, List.length_append, List.length_append]
        omega
      obtain ⟨slices, tail, rfl, hmaximal⟩ := ih back.length hlt back rfl
      refine ⟨⟨gap, lexeme⟩ :: slices, tail, ?_, ?_, hwhole, hmaximal⟩
      · rw [joined_cons, hrest]
      · rw [← hrest]
        exact hgap

/-! ### Scanning a cut text -/

namespace Scanner

theorem begun_settle (scanner : Scanner) : scanner.settle.begun = .nothing := by
  obtain ⟨line, emitted, begun⟩ := scanner
  cases begun <;> rfl

theorem settle_of_begun {scanner : Scanner} (hb : scanner.begun = .nothing) :
    scanner.settle = scanner := by
  simp only [settle, hb]

theorem read_of_isGap {scanner : Scanner} (hb : scanner.begun = .nothing) {c : Char}
    (hc : isGap c) : scanner.read c = scanner := by
  simp only [read, hb, opening, if_neg (ne_newline_of_isGap hc), hc, if_true]

/-- Where a lexeme ends anyway it can be settled before the text goes on. -/
theorem settle_foldl_read {scanner : Scanner} {rest : List Char}
    (h : ∀ c, rest.head? = some c → scanner.read c = scanner.settle.read c) :
    (rest.foldl read scanner).settle = (rest.foldl read scanner.settle).settle := by
  cases rest with
  | nil => exact (settle_of_begun scanner.begun_settle).symm
  | cons c rest => rw [List.foldl_cons, List.foldl_cons, h c rfl]

theorem settle_foldl_read_of_atLineEnd {scanner : Scanner} {rest : List Char}
    (h : AtLineEnd rest) :
    (rest.foldl read scanner).settle = (rest.foldl read scanner.settle).settle := by
  apply settle_foldl_read
  intro c hc
  cases rest with
  | nil => cases hc
  | cons d rest =>
    cases hc
    rw [newline_of_atLineEnd h, read_newline, read_newline,
      settle_of_begun scanner.begun_settle]

theorem foldl_read_comment {line : List Char} (hline : '\n' ∉ line) {scanner : Scanner}
    (hb : scanner.begun = .comment) : line.foldl read scanner = scanner := by
  induction line with
  | nil => rfl
  | cons c line ih =>
    rw [List.mem_cons, not_or] at hline
    have hread : scanner.read c = scanner := by
      simp only [read, hb, if_neg (Ne.symm hline.1)]
    rw [List.foldl_cons, hread, ih hline.2]

end Scanner

/-- A gap leaves nothing behind. -/
theorem Gap.settle_foldl_read {rest gap : List Char} (h : Gap rest gap) {scanner : Scanner}
    (hb : scanner.begun = .nothing) :
    ((gap ++ rest).foldl Scanner.read scanner).settle =
      (rest.foldl Scanner.read scanner).settle := by
  induction gap with
  | nil => rfl
  | cons c gap ih =>
    rcases h with ⟨hblank, h⟩ | ⟨rfl, hline, hend⟩
    · rw [List.cons_append, List.foldl_cons, Scanner.read_of_isGap hb hblank]
      exact ih h
    · have hopen : scanner.read '#' = { scanner with begun := .comment } := by
        simp [Scanner.read, hb, Scanner.opening, isGap]
      have hsettle : Scanner.settle { scanner with begun := .comment } = scanner := by
        show { scanner with begun := .nothing } = scanner
        rw [← hb]
      rw [List.cons_append, List.foldl_cons, hopen, List.foldl_append,
        Scanner.foldl_read_comment hline rfl, Scanner.settle_foldl_read_of_atLineEnd hend,
        hsettle]

/-- The characters of a lexeme are scanned into the lexeme. -/
theorem Lexeme.Whole.settle_foldl_read {lexeme : Lexeme} {rest : List Char}
    (h : lexeme.Whole rest) {scanner : Scanner} (hb : scanner.begun = .nothing) :
    ((lexeme.spelling ++ rest).foldl Scanner.read scanner).settle =
      (rest.foldl Scanner.read (scanner.emit lexeme)).settle := by
  cases lexeme with
  | word text =>
    have hsettle : Scanner.settle { scanner with begun := .word text.toList.reverse } =
        scanner.emit (.word text) := by
      simp only [Scanner.settle, List.reverse_reverse, String.ofList_toList]
      rfl
    rw [spelling, foldl_read_isWord h.1 hb, Scanner.settle_foldl_read, hsettle]
    intro c hc
    have hnot : isWordChar c = false := by simpa [hc] using h.2
    rw [hsettle, read_behind_word hnot]
  | quoted text closed =>
    cases closed with
    | true =>
      have hspelling : spelling (.quoted text true) ++ rest =
          '"' :: text.toList ++ '"' :: rest := by
        simp [spelling]
      rw [hspelling, foldl_read_quotable h.1 hb, List.foldl_cons, read_quote_behind_quoted]
    | false =>
      have hspelling : spelling (.quoted text false) ++ rest = '"' :: text.toList ++ rest := by
        simp [spelling]
      have hsettle : Scanner.settle { scanner with begun := .quoted text.toList.reverse } =
          scanner.emit (.quoted text false) := by
        simp only [Scanner.settle, List.reverse_reverse, String.ofList_toList]
        rfl
      rw [hspelling, foldl_read_quotable h.1 hb,
        Scanner.settle_foldl_read_of_atLineEnd (h.2 rfl), hsettle]
  | symbol c =>
    rw [spelling, List.singleton_append, List.foldl_cons, read_symbol h hb]
  | lineEnd =>
    rw [spelling, List.singleton_append, List.foldl_cons, Scanner.read_newline,
      Scanner.settle_of_begun hb]

theorem Maximal.settle_foldl_read {slices : List Slice} {tail : List Char}
    (h : Maximal tail slices) {scanner : Scanner} (hb : scanner.begun = .nothing) :
    ((joined slices tail).foldl Scanner.read scanner).settle =
      (slices.map Slice.lexeme).foldl Scanner.emit scanner := by
  induction slices generalizing scanner with
  | nil =>
    have htail := Gap.settle_foldl_read h hb
    rw [List.append_nil] at htail
    exact htail.trans (Scanner.settle_of_begun hb)
  | cons slice slices ih =>
    obtain ⟨hgap, hwhole, h⟩ := h
    rw [joined_cons, hgap.settle_foldl_read hb, hwhole.settle_foldl_read hb, ih h rfl]
    rfl

/-! ### Lines of a cut text -/

theorem Maximal.count_newline {slices : List Slice} {tail : List Char}
    (h : Maximal tail slices) {slice : Slice} (hs : slice ∈ slices) :
    slice.chars.count '\n' = if slice.lexeme = .lineEnd then 1 else 0 := by
  induction slices with
  | nil => cases hs
  | cons first slices ih =>
    obtain ⟨hgap, hwhole, h⟩ := h
    rcases List.mem_cons.mp hs with rfl | hs
    · have hnone := List.count_eq_zero.mpr hgap.newline_not_mem
      rw [Slice.chars, List.count_append, hnone, Nat.zero_add, hwhole.count_newline]
    · exact ih h hs

/-- Lines are counted alike in the slices and in the lexemes. -/
theorem lineBehind_map_lexeme {slices : List Slice}
    (h : ∀ slice ∈ slices, slice.chars.count '\n' = if slice.lexeme = .lineEnd then 1 else 0)
    (line : Nat) :
    lineBehind line (slices.map Slice.lexeme) =
      line + (slices.flatMap Slice.chars).count '\n' := by
  induction slices generalizing line with
  | nil => rfl
  | cons slice slices ih =>
    rw [List.forall_mem_cons] at h
    have hbehind : slice.lexeme.lineBehind line = line + slice.chars.count '\n' := by
      rw [h.1]
      unfold Lexeme.lineBehind
      split <;> rfl
    rw [List.flatMap_cons, List.count_append, ← Nat.add_assoc, ← hbehind, ← ih h.2]
    rfl

theorem count_lineEnd {slices : List Slice}
    (h : ∀ slice ∈ slices, slice.chars.count '\n' = if slice.lexeme = .lineEnd then 1 else 0) :
    slices.countP (·.lexeme = .lineEnd) = (slices.flatMap Slice.chars).count '\n' := by
  induction slices with
  | nil => rfl
  | cons slice slices ih =>
    rw [List.forall_mem_cons] at h
    rw [List.flatMap_cons, List.count_append, ← ih h.2, h.1, List.countP_cons, Nat.add_comm]
    simp

theorem getElem?_locate (line : Nat) (lexemes : List Lexeme) (index : Nat) :
    (locate line lexemes)[index]? =
      lexemes[index]?.map fun lexeme => ⟨lineBehind line (lexemes.take index), lexeme⟩ := by
  induction lexemes generalizing line index with
  | nil => rfl
  | cons lexeme lexemes ih =>
    cases index with
    | zero => rfl
    | succ index =>
      rw [locate, List.getElem?_cons_succ, List.getElem?_cons_succ, ih]
      rfl

theorem map_item_locate (line : Nat) (lexemes : List Lexeme) :
    (locate line lexemes).map (·.item) = lexemes := by
  induction lexemes generalizing line with
  | nil => rfl
  | cons lexeme lexemes ih => rw [locate, List.map_cons, ih]

namespace Cut

variable {text tail : List Char} {slices : List Slice} (h : Cut text slices tail)
include h

theorem lexemes : (scan text).lexemes = locate 1 (slices.map Slice.lexeme) := by
  have hscan : (scan text).settle = (slices.map Slice.lexeme).foldl Scanner.emit .start := by
    unfold scan
    rw [h.joined]
    exact h.maximal.settle_foldl_read rfl
  unfold Scanner.lexemes
  rw [hscan]
  exact (foldl_emit .start _).1

theorem items : (scan text).lexemes.map (·.item) = slices.map Slice.lexeme := by
  rw [h.lexemes, map_item_locate]

end Cut

theorem line_scan (text : List Char) : (scan text).line = 1 + text.count '\n' :=
  (Scanner.follows_scan text).line

/-! ### One cut only -/

theorem Maximal.bare {slice : Slice} {slices : List Slice} {tail : List Char}
    (h : Maximal tail (slice :: slices)) : Bare (slice.lexeme.spelling ++ joined slices tail) :=
  h.2.1.bare _

theorem Maximal.unique {slices others : List Slice} {tail rest : List Char}
    (h : Maximal tail slices) (ho : Maximal rest others)
    (hsame : slices.map Slice.lexeme = others.map Slice.lexeme)
    (heq : joined slices tail = joined others rest) : slices = others ∧ tail = rest := by
  induction slices generalizing others with
  | nil =>
    cases others with
    | nil => exact ⟨rfl, heq⟩
    | cons other others => cases hsame
  | cons slice slices ih =>
    cases others with
    | nil => cases hsame
    | cons other others =>
      rw [List.map_cons, List.map_cons] at hsame
      obtain ⟨hlexeme, hsame⟩ := List.cons.inj hsame
      rw [joined_cons, joined_cons] at heq
      obtain ⟨hgap, hback⟩ := h.1.unique h.bare ho.1 ho.bare heq
      rw [hlexeme] at hback
      obtain ⟨rfl, htail⟩ := ih h.2.2 ho.2.2 hsame (List.append_cancel_left hback)
      refine ⟨?_, htail⟩
      obtain ⟨gap, lexeme⟩ := slice
      obtain ⟨otherGap, otherLexeme⟩ := other
      cases hgap
      cases hlexeme
      rfl

/-- The rules for gaps and lexemes leave nothing open. -/
theorem Cut.unique {text tail rest : List Char} {slices others : List Slice}
    (h : Cut text slices tail) (ho : Cut text others rest) : slices = others ∧ tail = rest := by
  apply h.maximal.unique ho.maximal
  · rw [← h.items, ho.items]
  · rw [← h.joined, ho.joined]

/-! ### Words apart from one another -/

theorem joined_eq {slices : List Slice} {index : Nat} {slice : Slice}
    (hs : slices[index]? = some slice) (tail : List Char) :
    joined slices tail = (slices.take index).flatMap Slice.chars ++ slice.gap ++
      (slice.lexeme.spelling ++ joined (slices.drop (index + 1)) tail) := by
  induction slices generalizing index with
  | nil => cases hs
  | cons first slices ih =>
    cases index with
    | zero =>
      cases hs
      rw [joined_cons]
      rfl
    | succ index =>
      rw [List.getElem?_cons_succ] at hs
      rw [joined_cons, ih hs]
      simp [Slice.chars]

theorem Maximal.getElem? {slices : List Slice} {tail : List Char} (h : Maximal tail slices)
    {index : Nat} {slice : Slice} (hs : slices[index]? = some slice) :
    Gap (slice.lexeme.spelling ++ joined (slices.drop (index + 1)) tail) slice.gap ∧
      slice.lexeme.Whole (joined (slices.drop (index + 1)) tail) := by
  induction slices generalizing index with
  | nil => cases hs
  | cons first slices ih =>
    cases index with
    | zero =>
      cases hs
      exact ⟨h.1, h.2.1⟩
    | succ index => exact ih h.2.2 hs

theorem Maximal.tail {slices : List Slice} {tail : List Char} (h : Maximal tail slices) :
    Gap [] tail := by
  induction slices with
  | nil => exact h
  | cons slice slices ih => exact ih h.2.2

theorem isWordChar_of_isGap {c : Char} (h : isGap c) : isWordChar c = false := by
  refine Bool.eq_false_iff.mpr fun hword => ?_
  rw [(plain_of_isWordChar hword).2.1] at h
  cases h

theorem head?_of_atLineEnd {rest : List Char} (h : AtLineEnd rest) :
    rest.head?.any isWordChar = false := by
  cases rest with
  | nil => rfl
  | cons c rest =>
    rw [newline_of_atLineEnd h]
    rfl

theorem head?_of_isWord {text : String} (h : IsWord text) (rest : List Char) :
    (text.toList ++ rest).head?.any isWordChar := by
  obtain ⟨hne, hchars⟩ := h
  cases hlist : text.toList with
  | nil => exact absurd hlist hne
  | cons c others =>
    rw [hlist] at hchars
    exact hchars c (List.mem_cons_self ..)

theorem Gap.getLast? {rest gap : List Char} (h : Gap rest gap)
    (hrest : rest.head?.any isWordChar) : gap.getLast?.any isWordChar = false := by
  induction gap with
  | nil => rfl
  | cons c gap ih =>
    rcases h with ⟨hblank, h⟩ | ⟨_, _, hend⟩
    · cases gap with
      | nil => exact isWordChar_of_isGap hblank
      | cons d gap =>
        rw [List.getLast?_cons_cons]
        exact ih h
    · rw [head?_of_atLineEnd hend] at hrest
      cases hrest

theorem Lexeme.Whole.getLast? {lexeme : Lexeme} {rest : List Char} (h : lexeme.Whole rest)
    (hrest : rest.head?.any isWordChar) : lexeme.spelling.getLast?.any isWordChar = false := by
  cases lexeme with
  | word text =>
    rw [h.2] at hrest
    cases hrest
  | quoted text closed =>
    cases closed with
    | true =>
      simp only [spelling, if_true, List.getLast?_append]
      rfl
    | false =>
      rw [head?_of_atLineEnd (h.2 rfl)] at hrest
      cases hrest
  | symbol c => exact h.2.2
  | lineEnd => rfl

/-- A word does not go on to the left: no letter stands in front of it. -/
theorem Maximal.apart {slices : List Slice} {tail : List Char} (h : Maximal tail slices)
    {index : Nat} {slice : Slice} (hs : slices[index]? = some slice) {text : String}
    (ht : slice.lexeme = .word text) :
    ((slices.take index).flatMap Slice.chars ++ slice.gap).getLast?.any isWordChar = false := by
  induction slices generalizing index with
  | nil => cases hs
  | cons first slices ih =>
    obtain ⟨hgap, hwhole, h⟩ := h
    cases index with
    | zero =>
      cases hs
      rw [ht] at hgap hwhole
      exact hgap.getLast? (head?_of_isWord hwhole.1 _)
    | succ index =>
      rw [List.getElem?_cons_succ] at hs
      have hback := ih h hs
      have hjoined := joined_eq hs tail
      rw [List.take_succ_cons, List.flatMap_cons, List.append_assoc]
      generalize (slices.take index).flatMap Slice.chars ++ slice.gap = front at hback hjoined ⊢
      cases front with
      | cons c front =>
        rw [List.getLast?_append_of_ne_nil _ (List.cons_ne_nil c front)]
        exact hback
      | nil =>
        -- the word follows the first lexeme at once
        have hword := (h.getElem? hs).2
        rw [ht] at hword hjoined
        have hhead := head?_of_isWord hword.1 (joined (slices.drop (index + 1)) tail)
        rw [List.nil_append] at hjoined
        rw [Lexeme.spelling] at hjoined
        rw [← hjoined] at hhead
        rw [List.append_nil, Slice.chars,
          List.getLast?_append_of_ne_nil _ hwhole.spelling_ne_nil]
        exact hwhole.getLast? hhead

/-! ### Tokens -/

/-- The token of a slice with the line on which its lexeme begins, where `front` stands in
front of the slice. -/
def Slice.token (place : Place) (front : List Slice) (slice : Slice) : Located Token where
  line := 1 + (front.flatMap Slice.chars ++ slice.gap).count '\n'
  item := .ofLexeme place slice.lexeme

theorem Maximal.lineBehind_take {slices : List Slice} {tail : List Char}
    (h : Maximal tail slices) {index : Nat} {slice : Slice} (hs : slices[index]? = some slice) :
    lineBehind 1 ((slices.map Slice.lexeme).take index) =
      1 + ((slices.take index).flatMap Slice.chars ++ slice.gap).count '\n' := by
  have hfront : ∀ slice ∈ slices.take index,
      slice.chars.count '\n' = if slice.lexeme = .lineEnd then 1 else 0 :=
    fun slice hslice => h.count_newline (List.mem_of_mem_take hslice)
  have hgap := List.count_eq_zero.mpr (h.getElem? hs).1.newline_not_mem
  rw [← List.map_take, lineBehind_map_lexeme hfront, List.count_append, hgap, Nat.add_zero]

theorem Cut.tokens {text : String} {slices : List Slice} {tail : List Char}
    (h : Cut text.toList slices tail) (places : Nat → Place) :
    tokens places text =
      slices.zipIdx.map (fun (slice, index) =>
        slice.token (places index) (slices.take index)) ++
      [⟨1 + text.toList.count '\n', .fileEnd⟩] := by
  unfold Source.tokens
  simp only [line_scan, h.lexemes]
  congr 1
  apply List.ext_getElem?
  intro index
  rw [List.getElem?_map, List.getElem?_map, List.getElem?_zipIdx, List.getElem?_zipIdx,
    getElem?_locate, List.getElem?_map]
  cases hs : slices[index]? with
  | none => rfl
  | some slice =>
    simp only [Option.map_some, h.maximal.lineBehind_take hs, Nat.zero_add, Slice.token]

theorem ofLexeme_eq_lineEnd_iff (place : Place) (lexeme : Lexeme) :
    Token.ofLexeme place lexeme = .lineEnd ↔ lexeme = .lineEnd := by
  cases lexeme with
  | word text =>
    simp only [Token.ofLexeme, Token.ofWord]
    split <;> simp
  | quoted text closed => simp [Token.ofLexeme]
  | symbol c => simp [Token.ofLexeme]
  | lineEnd => simp [Token.ofLexeme]

theorem Cut.count_newline {text tail : List Char} {slices : List Slice}
    (h : Cut text slices tail) :
    slices.countP (·.lexeme = .lineEnd) = text.count '\n' := by
  have htail : Gap [] tail := h.maximal.tail
  have hnone := List.count_eq_zero.mpr htail.newline_not_mem
  rw [count_lineEnd fun _ hs => h.maximal.count_newline hs, h.joined, Source.joined,
    List.count_append, hnone, Nat.add_zero]

theorem Cut.count_tokens {text : String} {slices : List Slice} {tail : List Char}
    (h : Cut text.toList slices tail) (places : Nat → Place) :
    (Source.tokens places text).countP (·.item = .lineEnd) = text.toList.count '\n' := by
  have hslices : (slices.zipIdx.map (fun (slice, index) =>
      slice.token (places index) (slices.take index))).countP (·.item = .lineEnd) =
      (slices.zipIdx.map Prod.fst).countP (·.lexeme = .lineEnd) := by
    rw [List.countP_map, List.countP_map]
    congr 1
    funext ⟨slice, index⟩
    simp only [Function.comp, Slice.token, ofLexeme_eq_lineEnd_iff]
  rw [h.tokens, List.countP_append, hslices, List.zipIdx_map_fst, h.count_newline]
  rfl

/-- How a text is read into tokens. It can be cut in one way only into gaps and lexemes that
take as much as they can, and the tokens are those of its slices, each on the line on which
its lexeme begins, with the end of the file behind them. Where digits are numbers and where
keys, changes nothing about the slices and the lines. -/
theorem tokens_cut (text : String) :
    ∃ slices tail, Cut text.toList slices tail ∧
      (∀ others rest, Cut text.toList others rest → others = slices ∧ rest = tail) ∧
      (∀ index slice word, slices[index]? = some slice → slice.lexeme = .word word →
        ((slices.take index).flatMap Slice.chars ++ slice.gap).getLast?.any isWordChar = false) ∧
      ∀ places : Nat → Place,
        tokens places text =
          slices.zipIdx.map (fun (slice, index) =>
            slice.token (places index) (slices.take index)) ++
          [⟨1 + text.toList.count '\n', .fileEnd⟩] ∧
        (tokens places text).countP (·.item = .lineEnd) = text.toList.count '\n' := by
  obtain ⟨slices, tail, h⟩ := exists_cut text.toList
  refine ⟨slices, tail, h, fun others rest ho => ho.unique h, ?_, ?_⟩
  · intro index slice word hs hword
    exact h.maximal.apart hs hword
  · intro places
    exact ⟨h.tokens places, h.count_tokens places⟩

/-- Lexemes without blanks between them, a comment and a quoted text without an end. -/
def adjoiningText : String := "12 3a\"#\"4# \"\n:\"\r"

def adjoiningSlices : List Slice :=
  [⟨[], .word "12"⟩, ⟨[' '], .word "3a"⟩, ⟨[], .quoted "#" true⟩, ⟨[], .word "4"⟩,
    ⟨['#', ' ', '"'], .lineEnd⟩, ⟨[], .symbol ':'⟩, ⟨[], .quoted "\r" false⟩]

theorem adjoining_tokens :
    Cut adjoiningText.toList adjoiningSlices [] ∧
      tokens (placeAfter [(3, .row)]) adjoiningText =
        [⟨1, .number (.ofDigits ['1', '2'])⟩, ⟨1, .word "3a"⟩, ⟨1, .quoted "#"⟩,
          ⟨1, .word "4"⟩, ⟨1, .lineEnd⟩, ⟨2, .symbol ':'⟩, ⟨2, .quoted "\r"⟩,
          ⟨2, .fileEnd⟩] := by
  have hcut : Cut adjoiningText.toList adjoiningSlices [] := by decide +kernel
  obtain ⟨slices, tail, _, hunique, _, htokens⟩ := tokens_cut adjoiningText
  obtain ⟨rfl, rfl⟩ := hunique adjoiningSlices [] hcut
  exact ⟨hcut, (htokens (placeAfter [(3, .row)])).1.trans (by decide +kernel)⟩

end KeyGrid.Source
