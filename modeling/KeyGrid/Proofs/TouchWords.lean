import KeyGrid.CommandLine.Touch
import KeyGrid.Proofs.Numeral
import Mathlib.Algebra.Group.Nat.Defs
import Mathlib.Data.List.TakeWhile

/-!
# What touches look like

The words that describe a touch, told from how they are put together: a row and a column
around the first comma, each a numeral that may have blanks around it, and behind the first
colon the name or the number of a swipe, around which nothing may stand. Exactly these words
are read, each as the touch it describes.
-/

namespace KeyGrid

namespace Text

/-- What trimming takes away is blank. -/
theorem exists_eq_append_trim (text : List Char) :
    ∃ front back, text = front ++ trim text ++ back ∧ (∀ c ∈ front, isBlank c) ∧
      ∀ c ∈ back, isBlank c := by
  refine ⟨text.takeWhile isBlank, ((text.dropWhile isBlank).reverse.takeWhile isBlank).reverse,
    ?_, fun c hc => List.mem_takeWhile_imp hc,
    fun c hc => List.mem_takeWhile_imp (List.mem_reverse.mp hc)⟩
  rw [trim, List.append_assoc, ← List.reverse_append, List.takeWhile_append_dropWhile,
    List.reverse_reverse, List.takeWhile_append_dropWhile]

theorem dropWhile_isBlank {text : List Char} (hne : text ≠ [])
    (ht : ∀ c ∈ text, isBlank c = false) (back : List Char) :
    (text ++ back).dropWhile isBlank = text ++ back := by
  cases text with
  | nil => exact absurd rfl hne
  | cons c rest =>
    rw [List.cons_append, List.dropWhile_cons_of_neg]
    simp [ht c (List.mem_cons_self ..)]

theorem trim_append {front text back : List Char} (hf : ∀ c ∈ front, isBlank c)
    (hb : ∀ c ∈ back, isBlank c) (hne : text ≠ []) (ht : ∀ c ∈ text, isBlank c = false) :
    trim (front ++ text ++ back) = text := by
  have hfront : (front ++ text ++ back).dropWhile isBlank = text ++ back := by
    rw [List.append_assoc, List.dropWhile_append_of_pos hf, dropWhile_isBlank hne ht]
  have hback : (text ++ back).reverse.dropWhile isBlank = text.reverse := by
    have hrest : text.reverse.dropWhile isBlank = text.reverse := by
      simpa using dropWhile_isBlank (List.reverse_ne_nil_iff.mpr hne) (by simpa using ht) []
    rw [List.reverse_append, List.dropWhile_append_of_pos (by simpa using hb), hrest]
  rw [trim, hfront, hback, List.reverse_reverse]

theorem isBlank_of_isDigit {c : Char} (h : c.isDigit) : isBlank c = false := by
  have hlow : 48 ≤ c.toNat := (Char.isDigit_iff_toNat.mp h).1
  have hhigh : c.toNat ≤ 57 := (Char.isDigit_iff_toNat.mp h).2
  simp only [isBlank, Bool.or_eq_false_iff, Bool.and_eq_false_iff, decide_eq_false_iff_not,
    beq_eq_false_iff_ne]
  omega

end Text

namespace Decimal

/-- A numeral with blanks before and behind it. -/
def Padded (text : List Char) (n : Nat) : Prop :=
  ∃ front digits back, text = front ++ digits ++ back ∧ (∀ c ∈ front, Text.isBlank c) ∧
    (∀ c ∈ back, Text.isBlank c) ∧ numeral? digits = some n

/-- Nothing in a numeral is blank. -/
theorem not_isBlank_of_numeral? {text : List Char} {n : Nat} (h : numeral? text = some n) :
    text ≠ [] ∧ ∀ c ∈ text, Text.isBlank c = false := by
  have hdigits : ∀ digits, isDigits digits → ∀ c ∈ digits, Text.isBlank c = false :=
    fun _ hd _ hc => Text.isBlank_of_isDigit (isDigit_of_mem hd hc)
  cases text with
  | nil => cases h
  | cons c rest =>
    refine ⟨List.cons_ne_nil c rest, ?_⟩
    by_cases hc : c = '+'
    · subst hc
      have hrest : isDigits rest := (Option.ite_none_right_eq_some.mp h).1
      exact List.forall_mem_cons.mpr ⟨by decide, hdigits rest hrest⟩
    · rw [numeral?_cons_of_ne hc] at h
      exact hdigits _ (Option.ite_none_right_eq_some.mp h).1

theorem Padded.of_numeral? {text : List Char} {n : Nat} (h : numeral? text = some n) :
    Padded text n :=
  ⟨[], text, [], by simp, by simp, by simp, h⟩

theorem numeral?_trim_iff {text : List Char} {n : Nat} :
    numeral? (Text.trim text) = some n ↔ Padded text n := by
  constructor
  · intro h
    obtain ⟨front, back, htext, hf, hb⟩ := Text.exists_eq_append_trim text
    exact ⟨front, _, back, htext, hf, hb, h⟩
  · rintro ⟨front, digits, back, rfl, hf, hb, h⟩
    obtain ⟨hne, hblank⟩ := not_isBlank_of_numeral? h
    rwa [Text.trim_append hf hb hne hblank]

end Decimal

namespace CommandLine

/-- The directions of a swipe, each with its name and its number. -/
inductive Direction : String → Nat → Swipe → Prop
  | tap : Direction "none" 0 .tap
  | leftRight : Direction "lr" 1 .leftRight
  | upDown : Direction "ud" 2 .upDown
  | altLabel : Direction "alt" 3 .altLabel

/-- A swipe is spelled by its name, or by a numeral of its number. -/
def Spells (text : List Char) (swipe : Swipe) : Prop :=
  ∃ name code, Direction name code swipe ∧
    (text = name.toList ∨ Decimal.numeral? text = some code)

/-- A row and a column with the first comma of the text between them. -/
inductive Places : List Char → Nat → Nat → Prop
  | around {before behind : List Char} {row col : Nat} (hcomma : ',' ∉ before)
      (hrow : Decimal.Padded before row) (hcol : Decimal.Padded behind col)
      (hrowLimit : row < 2 ^ 64) (hcolLimit : col < 2 ^ 64) :
      Places (before ++ ',' :: behind) row col

/-- A touch is a place, or a place and a swipe with the first colon of the text between
them. -/
inductive Describes : List Char → Touch → Prop
  | place {text : List Char} {row col : Nat} (hcolon : ':' ∉ text) (hplace : Places text row col) :
      Describes text ⟨row, col, .tap⟩
  | swipe {before behind : List Char} {row col : Nat} {swipe : Swipe} (hcolon : ':' ∉ before)
      (hplace : Places before row col) (hswipe : Spells behind swipe) :
      Describes (before ++ ':' :: behind) ⟨row, col, swipe⟩

theorem direction_iff {name : String} {code : Nat} {swipe : Swipe} :
    Direction name code swipe ↔ swipeWord swipe = name ∧ swipe.code = code := by
  constructor
  · intro h
    cases h <;> exact ⟨rfl, rfl⟩
  · rintro ⟨rfl, rfl⟩
    cases swipe <;> constructor

theorem spells_iff {text : List Char} {swipe : Swipe} :
    Spells text swipe ↔
      text = (swipeWord swipe).toList ∨ Decimal.numeral? text = some swipe.code := by
  constructor
  · rintro ⟨name, code, hdirection, h⟩
    obtain ⟨rfl, rfl⟩ := direction_iff.mp hdirection
    exact h
  · intro h
    exact ⟨_, _, direction_iff.mpr ⟨rfl, rfl⟩, h⟩

theorem swipeNamed?_eq_some_iff {word : String} {swipe : Swipe} :
    swipeNamed? word = some swipe ↔ swipeWord swipe = word := by
  constructor
  · intro h
    simpa using List.find?_some h
  · rintro rfl
    cases swipe <;> decide

/-- No name of a swipe is a numeral. -/
theorem numeral?_swipeWord (swipe : Swipe) :
    Decimal.numeral? (swipeWord swipe).toList = none := by
  cases swipe <;> decide

theorem readSwipe_eq_ok_iff {text : List Char} {swipe : Swipe} :
    readSwipe text = .ok swipe ↔ Spells text swipe := by
  rw [spells_iff, readSwipe]
  cases hnamed : swipeNamed? (String.ofList text) with
  | some other =>
    have htext : text = (swipeWord other).toList := by
      rw [swipeNamed?_eq_some_iff.mp hnamed, String.toList_ofList]
    subst htext
    rw [String.ofList_toList] at hnamed
    rw [numeral?_swipeWord]
    constructor
    · intro h
      cases h
      exact Or.inl rfl
    · rintro (h | h)
      · rw [String.toList_inj.mp h, swipeNamed?_eq_some_iff.mpr rfl, Option.some.injEq] at hnamed
        rw [hnamed]
      · cases h
  | none =>
    have hname : text ≠ (swipeWord swipe).toList := by
      rintro rfl
      rw [String.ofList_toList, swipeNamed?_eq_some_iff.mpr rfl] at hnamed
      cases hnamed
    constructor
    · intro h
      cases hread : Decimal.read codeLimit text with
      | error fault => simp only [hread, reduceCtorEq] at h
      | ok code =>
        cases hcode : Swipe.ofCode? code with
        | none => simp only [hread, hcode, reduceCtorEq] at h
        | some other =>
          simp only [hread, hcode, Except.ok.injEq] at h
          subst h
          rw [Swipe.code_of_ofCode? hcode]
          exact Or.inr ((Decimal.read_eq_ok_iff (by decide) text).mp hread).1
    · rintro (h | h)
      · exact absurd h hname
      · have hsmall : swipe.code < codeLimit := by cases swipe <;> decide
        have hread : Decimal.read codeLimit text = .ok swipe.code :=
          (Decimal.read_eq_ok_iff (by decide) text).mpr ⟨h, hsmall⟩
        simp only [hread, Swipe.ofCode?_code]

theorem read_trim_eq_ok_iff {text : List Char} {n : Nat} :
    Decimal.read positionLimit (Text.trim text) = .ok n ↔ Decimal.Padded text n ∧ n < 2 ^ 64 := by
  rw [Decimal.read_eq_ok_iff (by decide), Decimal.numeral?_trim_iff]
  rfl

theorem readPosition_eq_ok_iff {text : List Char} {swipe : Swipe} {touch : Touch} :
    readPosition text swipe = .ok touch ↔
      ∃ row col, Places text row col ∧ touch = ⟨row, col, swipe⟩ := by
  constructor
  · intro h
    rw [readPosition] at h
    split at h
    · cases h
    · rename_i before behind hcut
      obtain ⟨rfl, hcomma⟩ := (cut?_eq_some_iff ..).mp hcut
      split at h
      · cases h
      · rename_i row hrow
        split at h
        · cases h
        · rename_i col hcol
          cases h
          obtain ⟨hrow, hrowLimit⟩ := read_trim_eq_ok_iff.mp hrow
          obtain ⟨hcol, hcolLimit⟩ := read_trim_eq_ok_iff.mp hcol
          exact ⟨row, col, .around hcomma hrow hcol hrowLimit hcolLimit, rfl⟩
  · rintro ⟨row, col, @⟨before, behind, _, _, hcomma, hrow, hcol, hrowLimit, hcolLimit⟩, rfl⟩
    have hcut := (cut?_eq_some_iff ',' _ before behind).mpr ⟨rfl, hcomma⟩
    have hrow := read_trim_eq_ok_iff.mpr ⟨hrow, hrowLimit⟩
    have hcol := read_trim_eq_ok_iff.mpr ⟨hcol, hcolLimit⟩
    simp only [readPosition, hcut, hrow, hcol]

theorem cut?_eq_none_iff {separator : Char} {text : List Char} :
    cut? separator text = none ↔ separator ∉ text := by
  induction text with
  | nil => simp [cut?]
  | cons c rest ih =>
    by_cases h : c = separator
    · simp [cut?, h]
    · simp [cut?, h, ih, Ne.symm h]

theorem readTouch_eq_ok_iff {word : String} {touch : Touch} :
    readTouch word = .ok touch ↔ Describes word.toList touch := by
  constructor
  · intro h
    rw [readTouch] at h
    split at h
    · rename_i hcut
      obtain ⟨row, col, hplace, rfl⟩ := readPosition_eq_ok_iff.mp h
      exact .place (cut?_eq_none_iff.mp hcut) hplace
    · rename_i before behind hcut
      obtain ⟨htext, hcolon⟩ := (cut?_eq_some_iff ..).mp hcut
      split at h
      · cases h
      · rename_i swipe hswipe
        obtain ⟨row, col, hplace, rfl⟩ := readPosition_eq_ok_iff.mp h
        rw [htext]
        exact .swipe hcolon hplace (readSwipe_eq_ok_iff.mp hswipe)
  · intro h
    generalize htext : word.toList = text at h
    cases h with
    | @place _ row col hcolon hplace =>
      simp only [readTouch, htext, cut?_eq_none_iff.mpr hcolon]
      exact readPosition_eq_ok_iff.mpr ⟨row, col, hplace, rfl⟩
    | @swipe before behind row col swipe hcolon hplace hswipe =>
      simp only [readTouch, htext, (cut?_eq_some_iff ..).mpr ⟨rfl, hcolon⟩,
        readSwipe_eq_ok_iff.mpr hswipe]
      exact readPosition_eq_ok_iff.mpr ⟨row, col, hplace, rfl⟩

theorem describes_written {row col : Nat} {behind : List Char} {swipe : Swipe}
    (hrow : row < 2 ^ 64) (hcol : col < 2 ^ 64) (h : Spells behind swipe) :
    Describes ((toString row).toList ++ ',' :: (toString col).toList ++ ':' :: behind)
      ⟨row, col, swipe⟩ := by
  have hdigit : ∀ (n : Nat) (c : Char), c.isDigit = false → c ∉ (toString n).toList := by
    intro n c hc hmem
    rw [Decimal.isDigit_of_mem (Decimal.isDigits_toString n) hmem] at hc
    cases hc
  have hplace : Places ((toString row).toList ++ ',' :: (toString col).toList) row col :=
    .around (hdigit row ',' (by decide)) (.of_numeral? (Decimal.numeral?_toString row))
      (.of_numeral? (Decimal.numeral?_toString col)) hrow hcol
  refine .swipe ?_ hplace h
  simp only [List.mem_append, List.mem_cons, not_or]
  exact ⟨hdigit row ':' (by decide), by decide, hdigit col ':' (by decide)⟩

/-- Exactly the words that describe a touch are read, each as the touch it describes, and every
touch is read back from its position and its direction's name or number. -/
theorem touches_read_exactly :
    (∀ (word : String) (touch : Touch),
      readTouch word = .ok touch ↔ Describes word.toList touch) ∧
    ∀ (touch : Touch) (name : String) (code : Nat), Direction name code touch.swipe →
      touch.row < 2 ^ 64 → touch.col < 2 ^ 64 →
      ∀ swipe ∈ [name, toString code],
        readTouch (toString touch.row ++ "," ++ toString touch.col ++ ":" ++ swipe) =
          .ok touch := by
  refine ⟨fun word touch => readTouch_eq_ok_iff, ?_⟩
  intro touch name code hdirection hrow hcol swipe hswipe
  have hspells : Spells swipe.toList touch.swipe := by
    refine ⟨name, code, hdirection, ?_⟩
    rcases List.mem_pair.mp hswipe with rfl | rfl
    · exact Or.inl rfl
    · exact Or.inr (Decimal.numeral?_toString code)
  rw [readTouch_eq_ok_iff]
  simpa using describes_written hrow hcol hspells

/-- The largest position, swiped in the last direction. -/
theorem last_touch_read :
    readTouch "18446744073709551615,0:alt" = .ok ⟨18446744073709551615, 0, .altLabel⟩ ∧
    readTouch "18446744073709551615,0:3" = .ok ⟨18446744073709551615, 0, .altLabel⟩ := by
  have hread := touches_read_exactly.2 ⟨18446744073709551615, 0, .altLabel⟩ "alt" 3 .altLabel
    (by decide) (by decide)
  exact ⟨hread "alt" (by decide), hread "3" (by decide)⟩

example : readTouch " +07 ,2:+003" = .ok ⟨7, 2, .altLabel⟩ := by decide

end CommandLine
end KeyGrid
