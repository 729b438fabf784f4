import Mathlib.Data.List.Infix
import KeyGrid.Source.Lexeme

/-!
# Lexemes and their lines

The lines of lexemes follow from the lexemes alone: a line end leads on to the next line
and nothing else does. The line of a lexeme is one more than the number of line ends in
front of it, so that a word stands in the text on the very line that it is given.
-/

namespace KeyGrid.Source

/-! ### Lines of a text -/

def HasLine (text : List Char) (line : Nat) : Prop := 1 ≤ line ∧ line ≤ 1 + text.count '\n'

/-- A word stands on a line of a text. -/
def Stands (text : List Char) (line : Nat) (word : List Char) : Prop :=
  ∃ front back, text = front ++ word ++ back ∧ line = 1 + front.count '\n'

/-- Cut at its line ends, a text has a word in the piece of that number. -/
def LineContains (text : List Char) (line : Nat) (word : List Char) : Prop :=
  ∃ piece, (text.splitOn '\n')[line - 1]? = some piece ∧ word <:+: piece

theorem HasLine.append {text : List Char} {line : Nat} (h : HasLine text line)
    (more : List Char) : HasLine (text ++ more) line := by
  have hcount : (text ++ more).count '\n' = text.count '\n' + more.count '\n' :=
    List.count_append
  have hlow := h.1
  have hhigh := h.2
  exact ⟨hlow, by omega⟩

theorem exists_splitOn_append {word : List Char} (hw : '\n' ∉ word) (back : List Char) :
    ∃ first others, back.splitOn '\n' = first :: others ∧
      (word ++ back).splitOn '\n' = (word ++ first) :: others := by
  induction word with
  | nil =>
    cases hsplit : back.splitOn '\n' with
    | nil => exact absurd hsplit (List.splitOn_ne_nil _ _)
    | cons first others => exact ⟨first, others, rfl, hsplit⟩
  | cons c word ih =>
    rw [List.mem_cons, not_or] at hw
    have hc : (c == '\n') = false := by simpa using Ne.symm hw.1
    obtain ⟨first, others, hback, hsplit⟩ := ih hw.2
    refine ⟨first, others, hback, ?_⟩
    rw [List.cons_append, List.splitOn_cons_eq_if_modifyHead, hc, hsplit]
    rfl

namespace Stands

variable {text word : List Char} {line : Nat} (h : Stands text line word)
include h

theorem append (more : List Char) : Stands (text ++ more) line word := by
  obtain ⟨front, back, htext, hline⟩ := h
  refine ⟨front, back ++ more, ?_, hline⟩
  rw [htext, List.append_assoc]

theorem hasLine : HasLine text line := by
  obtain ⟨front, back, htext, hline⟩ := h
  have hcount : text.count '\n' = front.count '\n' + word.count '\n' + back.count '\n' := by
    rw [htext, List.count_append, List.count_append]
  unfold HasLine
  omega

/-- A character in front that is no line end moves nothing to another line. -/
theorem cons {c : Char} (hc : c ≠ '\n') : Stands (c :: text) line word := by
  obtain ⟨front, back, htext, hline⟩ := h
  refine ⟨c :: front, back, ?_, ?_⟩
  · rw [htext]
    rfl
  · rw [List.count_cons_of_ne hc]
    exact hline

theorem lineContains (hw : '\n' ∉ word) : LineContains text line word := by
  obtain ⟨front, back, rfl, rfl⟩ := h
  unfold LineContains
  rw [Nat.add_sub_cancel_left]
  -- on the characters in front: each one is a line end or belongs to the first piece
  induction front with
  | nil =>
    obtain ⟨first, others, _, hsplit⟩ := exists_splitOn_append hw back
    refine ⟨word ++ first, ?_, List.infix_append' [] word first⟩
    rw [List.nil_append, hsplit]
    rfl
  | cons c front ih =>
    obtain ⟨piece, hpiece, hin⟩ := ih
    simp only [List.cons_append, List.splitOn_cons_eq_if_modifyHead]
    by_cases hc : c = '\n'
    · subst hc
      refine ⟨piece, ?_, hin⟩
      simpa using hpiece
    · have hbeq : (c == '\n') = false := by simpa using hc
      rw [hbeq, List.count_cons_of_ne hc]
      cases hcount : front.count '\n' with
      | zero =>
        rw [hcount] at hpiece
        refine ⟨c :: piece, ?_, hin.trans (List.suffix_cons c piece).isInfix⟩
        cases hsplit : (front ++ word ++ back).splitOn '\n' with
        | nil => exact absurd hsplit (List.splitOn_ne_nil _ _)
        | cons first others =>
          rw [hsplit] at hpiece
          cases hpiece
          rfl
      | succ n =>
        rw [hcount] at hpiece
        refine ⟨piece, ?_, hin⟩
        cases hsplit : (front ++ word ++ back).splitOn '\n' with
        | nil => exact absurd hsplit (List.splitOn_ne_nil _ _)
        | cons first others =>
          rw [hsplit] at hpiece
          exact hpiece

end Stands

/-! ### Lines of lexemes -/

/-- The line of whatever comes behind a lexeme. -/
def Lexeme.lineBehind (line : Nat) (lexeme : Lexeme) : Nat :=
  if lexeme = .lineEnd then line + 1 else line

/-- Lexemes on their lines, the first one on a given line. -/
def locate (line : Nat) : List Lexeme → List (Located Lexeme)
  | [] => []
  | lexeme :: others => ⟨line, lexeme⟩ :: locate (lexeme.lineBehind line) others

def lineBehind (line : Nat) (lexemes : List Lexeme) : Nat := lexemes.foldl Lexeme.lineBehind line

theorem lineBehind_append (line : Nat) (front back : List Lexeme) :
    lineBehind line (front ++ back) = lineBehind (lineBehind line front) back :=
  List.foldl_append

theorem locate_append (line : Nat) (front back : List Lexeme) :
    locate line (front ++ back) = locate line front ++ locate (lineBehind line front) back := by
  induction front generalizing line with
  | nil => rfl
  | cons lexeme front ih =>
    rw [List.cons_append, locate, ih]
    rfl

/-! ### What a lexeme is -/

/-- At least one letter, digit or underscore. -/
def IsWord (text : String) : Prop := text.toList ≠ [] ∧ ∀ c ∈ text.toList, isWordChar c

/-- A text that can stand between double quotes on one line. -/
def Quotable (text : String) : Prop := '"' ∉ text.toList ∧ '\n' ∉ text.toList

instance (text : String) : Decidable (IsWord text) :=
  decidable_of_iff (text.toList ≠ [] ∧ text.toList.all isWordChar) (by
    rw [List.all_eq_true]
    rfl)

instance (text : String) : Decidable (Quotable text) := inferInstanceAs (Decidable (_ ∧ _))

/-- No lexeme goes beyond its own end. -/
def Lexeme.Proper : Lexeme → Prop
  | .word text => IsWord text
  | .quoted text _ => Quotable text
  | .symbol c => c ≠ '"' ∧ c ≠ '\n'
  | .lineEnd => True

/-- A lexeme on a line of a text; if it is a word, it is what the text has there. -/
structure Located.Found (text : List Char) (lexeme : Located Lexeme) : Prop where
  proper : lexeme.item.Proper
  line : HasLine text lexeme.line
  stands : ∀ word, lexeme.item = .word word → Stands text lexeme.line word.toList

theorem Located.Found.append {text : List Char} {lexeme : Located Lexeme}
    (h : lexeme.Found text) (more : List Char) : lexeme.Found (text ++ more) :=
  ⟨h.proper, h.line.append more, fun word hword => (h.stands word hword).append more⟩

theorem newline_not_mem_of_isWord {text : String} (h : IsWord text) : '\n' ∉ text.toList := by
  intro hmem
  have hchar := h.2 '\n' hmem
  revert hchar
  decide

/-! ### Scanning -/

/-- How the text goes on with a lexeme that has been begun. -/
def Partial.Ends (text : List Char) : Partial → Prop
  | .nothing | .comment => True
  | .word letters => letters ≠ [] ∧ (∀ c ∈ letters, isWordChar c) ∧ letters.reverse <:+ text
  | .quoted chars => '"' ∉ chars ∧ '\n' ∉ chars

namespace Scanner

/-- A line end completes whatever has been begun. -/
theorem read_newline (scanner : Scanner) : scanner.read '\n' = scanner.settle.emit .lineEnd := by
  obtain ⟨line, emitted, begun⟩ := scanner
  cases begun <;> rfl

/-- Where no lexeme has been begun a character is one, is passed over or begins something,
whatever has been read before. -/
theorem opening_cases (c : Char) :
    (∃ lexeme, (lexeme = .lineEnd ∨ lexeme = .symbol c) ∧
      ∀ scanner : Scanner, scanner.opening c = scanner.emit lexeme) ∨
    (∀ scanner : Scanner, scanner.opening c = scanner) ∨
    ∃ begun, ∀ scanner : Scanner, scanner.opening c = { scanner with begun := begun } := by
  unfold opening
  by_cases hnewline : c = '\n'
  · exact Or.inl ⟨.lineEnd, Or.inl rfl, fun _ => if_pos hnewline⟩
  · simp only [if_neg hnewline]
    by_cases hblank : isGap c
    · exact Or.inr (Or.inl fun _ => if_pos hblank)
    · simp only [if_neg hblank]
      by_cases hhash : c = '#'
      · exact Or.inr (Or.inr ⟨.comment, fun _ => if_pos hhash⟩)
      · simp only [if_neg hhash]
        by_cases hquote : c = '"'
        · exact Or.inr (Or.inr ⟨.quoted [], fun _ => if_pos hquote⟩)
        · simp only [if_neg hquote]
          by_cases hword : isWordChar c
          · exact Or.inr (Or.inr ⟨.word [c], fun _ => if_pos hword⟩)
          · exact Or.inl ⟨.symbol c, Or.inr rfl, fun _ => if_neg hword⟩

/-- The scanner has read just this text. -/
structure Follows (scanner : Scanner) (text : List Char) : Prop where
  line : scanner.line = 1 + text.count '\n'
  located : ∃ lexemes, scanner.emitted.reverse = locate 1 lexemes ∧
    scanner.line = lineBehind 1 lexemes
  found : ∀ lexeme ∈ scanner.emitted, lexeme.Found text
  begun : scanner.begun.Ends text

theorem follows_start : start.Follows [] :=
  ⟨rfl, ⟨[], rfl, rfl⟩, fun _ h => absurd h List.not_mem_nil, trivial⟩

namespace Follows

variable {scanner : Scanner} {text : List Char} (h : scanner.Follows text)
include h

theorem hasLine : HasLine text scanner.line := by
  have hline := h.line
  unfold HasLine
  omega

/-- A lexeme is complete, perhaps with one character more. -/
theorem emit {lexeme : Lexeme} (more : List Char)
    (hf : (⟨scanner.line, lexeme⟩ : Located Lexeme).Found (text ++ more))
    (hl : lexeme.lineBehind scanner.line = 1 + (text ++ more).count '\n') :
    (scanner.emit lexeme).Follows (text ++ more) := by
  obtain ⟨lexemes, hemitted, hline⟩ := h.located
  refine ⟨hl, ⟨lexemes ++ [lexeme], ?_, ?_⟩, ?_, trivial⟩
  · show (⟨scanner.line, lexeme⟩ :: scanner.emitted).reverse = _
    rw [List.reverse_cons, hemitted, locate_append, ← hline]
    rfl
  · show lexeme.lineBehind scanner.line = _
    rw [lineBehind_append, ← hline]
    rfl
  · intro found hfound
    rcases List.mem_cons.mp hfound with rfl | hfound
    · exact hf
    · exact (h.found found hfound).append more

/-- A character that ends no lexeme. -/
theorem goOn {begun : Partial} {c : Char} (hc : c ≠ '\n') (hb : begun.Ends (text ++ [c])) :
    Follows { scanner with begun := begun } (text ++ [c]) := by
  refine ⟨?_, h.located, fun found hfound => (h.found found hfound).append [c], hb⟩
  show scanner.line = _
  rw [h.line, List.count_append, List.count_singleton]
  simp [hc]

theorem settle : scanner.settle.Follows text ∧ scanner.settle.begun = .nothing := by
  have hbegun := h.begun
  have hhas := h.hasLine
  unfold Scanner.settle
  cases hb : scanner.begun with
  | nothing => exact ⟨h, hb⟩
  | comment => exact ⟨⟨h.line, h.located, h.found, trivial⟩, rfl⟩
  | quoted chars =>
    rw [hb] at hbegun
    have hf : (⟨scanner.line, .quoted (String.ofList chars.reverse) false⟩ :
        Located Lexeme).Found text := by
      refine ⟨?_, hhas, fun word hword => by cases hword⟩
      show Quotable _
      unfold Quotable
      rw [String.toList_ofList, List.mem_reverse, List.mem_reverse]
      exact hbegun
    have hemit := h.emit [] (by rw [List.append_nil]; exact hf)
      (by rw [List.append_nil]; exact h.line)
    rw [List.append_nil] at hemit
    exact ⟨hemit, rfl⟩
  | word letters =>
    rw [hb] at hbegun
    obtain ⟨hne, hchars, front, hfront⟩ := hbegun
    have hproper : IsWord (String.ofList letters.reverse) := by
      unfold IsWord
      rw [String.toList_ofList]
      refine ⟨fun hnil => hne (List.reverse_eq_nil_iff.mp hnil), ?_⟩
      intro c hc
      exact hchars c (List.mem_reverse.mp hc)
    have hnewline := newline_not_mem_of_isWord hproper
    rw [String.toList_ofList] at hnewline
    have hline : scanner.line = 1 + front.count '\n' := by
      have hcount := List.count_eq_zero.mpr hnewline
      rw [h.line, ← hfront, List.count_append, hcount, Nat.add_zero]
    have hf : (⟨scanner.line, .word (String.ofList letters.reverse)⟩ :
        Located Lexeme).Found text := by
      refine ⟨hproper, hhas, ?_⟩
      intro word hword
      cases hword
      refine ⟨front, [], ?_, hline⟩
      rw [String.toList_ofList, List.append_nil, hfront]
    have hemit := h.emit [] (by rw [List.append_nil]; exact hf)
      (by rw [List.append_nil]; exact h.line)
    rw [List.append_nil] at hemit
    exact ⟨hemit, rfl⟩

/-- A lexeme of one character. -/
theorem emitChar {lexeme : Lexeme} {c : Char} (hp : lexeme.Proper)
    (hw : ∀ word, lexeme ≠ .word word) (hc : c = '\n' ↔ lexeme = .lineEnd) :
    (scanner.emit lexeme).Follows (text ++ [c]) := by
  have hf : (⟨scanner.line, lexeme⟩ : Located Lexeme).Found (text ++ [c]) :=
    ⟨hp, h.hasLine.append [c], fun word hword => absurd hword (hw word)⟩
  apply h.emit [c] hf
  rw [List.count_append, List.count_singleton]
  have hline := h.line
  unfold Lexeme.lineBehind
  by_cases hend : lexeme = .lineEnd
  · have hnewline := hc.mpr hend
    simp [hend, hnewline, hline, Nat.add_assoc]
  · have hother : c ≠ '\n' := fun hnewline => hend (hc.mp hnewline)
    simp [hend, hother, hline]

theorem opening (hb : scanner.begun = .nothing) (c : Char) :
    (scanner.opening c).Follows (text ++ [c]) := by
  unfold Scanner.opening
  split
  · rename_i hc
    subst hc
    exact h.emitChar trivial (fun _ he => by cases he) (by simp)
  · rename_i hc
    split
    · show Follows { scanner with begun := scanner.begun } (text ++ [c])
      apply h.goOn hc
      rw [hb]
      trivial
    · split
      · exact h.goOn hc trivial
      · split
        · exact h.goOn hc ⟨List.not_mem_nil, List.not_mem_nil⟩
        · rename_i hquote
          split
          · rename_i hword
            refine h.goOn hc ⟨List.cons_ne_nil c [], ?_, List.suffix_append text [c]⟩
            intro other hother
            rw [List.mem_singleton.mp hother]
            exact hword
          · exact h.emitChar ⟨hquote, hc⟩ (fun _ he => by cases he) (by simp [hc])

theorem read (c : Char) : (scanner.read c).Follows (text ++ [c]) := by
  have hbegun := h.begun
  unfold Scanner.read
  cases hb : scanner.begun with
  | nothing => exact h.opening hb c
  | word letters =>
    rw [hb] at hbegun
    obtain ⟨_, hchars, front, hfront⟩ := hbegun
    simp only
    split
    · rename_i hword
      have hc : c ≠ '\n' := by
        rintro rfl
        revert hword
        decide
      refine h.goOn hc ⟨List.cons_ne_nil c letters, ?_, front, ?_⟩
      · intro other hother
        rcases List.mem_cons.mp hother with rfl | hother
        · exact hword
        · exact hchars other hother
      · rw [List.reverse_cons, ← List.append_assoc, hfront]
    · exact h.settle.1.opening h.settle.2 c
  | quoted chars =>
    rw [hb] at hbegun
    simp only
    split
    · rename_i hc
      subst hc
      apply h.emitChar
      · show Quotable _
        unfold Quotable
        rw [String.toList_ofList, List.mem_reverse, List.mem_reverse]
        exact hbegun
      · intro word he
        cases he
      · constructor <;> intro he <;> cases he
    · rename_i hquote
      split
      · exact h.settle.1.opening h.settle.2 c
      · rename_i hc
        apply h.goOn hc
        constructor
        · rw [List.mem_cons, not_or]
          exact ⟨fun he => hquote he.symm, hbegun.1⟩
        · rw [List.mem_cons, not_or]
          exact ⟨fun he => hc he.symm, hbegun.2⟩
  | comment =>
    simp only
    split
    · exact h.settle.1.opening h.settle.2 c
    · rename_i hc
      show Follows { scanner with begun := scanner.begun } (text ++ [c])
      apply h.goOn hc
      rw [hb]
      trivial

end Follows

theorem follows_scan (text : List Char) : (scan text).Follows text := by
  induction text using List.reverseRecOn with
  | nil => exact follows_start
  | append_singleton text c ih =>
    rw [scan_append]
    exact ih.read c

end Scanner

/-- The lexemes of a text stand on the lines that they lead to, from the first line on,
and the end of the text on the last one. -/
theorem lexemes_located (text : List Char) :
    ∃ lexemes, (scan text).lexemes = locate 1 lexemes ∧
      lineBehind 1 lexemes = (scan text).line ∧ (scan text).line = 1 + text.count '\n' ∧
      ∀ lexeme ∈ (scan text).lexemes, lexeme.Found text := by
  have hfollows := Scanner.follows_scan text
  have hsettled := hfollows.settle.1
  obtain ⟨lexemes, hemitted, hline⟩ := hsettled.located
  have hlast : (scan text).line = (scan text).settle.line := by
    rw [hfollows.line, hsettled.line]
  refine ⟨lexemes, hemitted, ?_, hfollows.line, ?_⟩
  · rw [hlast, hline]
  · intro lexeme hlexeme
    exact hsettled.found lexeme (List.mem_reverse.mp hlexeme)

end KeyGrid.Source
