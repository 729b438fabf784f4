import KeyGrid.Keyboard.Declared
import KeyGrid.Proofs.Sliced

/-!
# Spacing

Blanks and comments mean nothing. Put in wherever they cut no word and no quoted text, they
make a gap wider and leave every lexeme on its line, so that a file describes the same
keyboard or is wrong in the same way.
-/

namespace KeyGrid
namespace Source

/-! ### Wider gaps -/

namespace Gap

variable {rest front back extra : List Char}

theorem append (h : Gap rest back) (he : Gap (back ++ rest) extra) : Gap rest (extra ++ back) := by
  induction extra with
  | nil => exact h
  | cons c extra ih =>
    rcases he with ⟨hblank, he⟩ | ⟨hhash, hline, hend⟩
    · exact Or.inl ⟨hblank, ih he⟩
    · cases back with
      | nil =>
        rw [List.append_nil]
        exact Or.inr ⟨hhash, hline, hend⟩
      | cons d back =>
        -- a comment would have to be followed by a line end
        have hnewline := h.newline_not_mem
        rw [newline_of_atLineEnd hend] at hnewline
        exact absurd (List.mem_cons_self ..) hnewline

theorem insert (h : Gap rest (front ++ back)) (he : Gap (back ++ rest) extra) :
    Gap rest (front ++ extra ++ back) := by
  induction front with
  | nil => exact append h he
  | cons c front ih =>
    rcases h with ⟨hblank, h⟩ | ⟨hhash, hline, hend⟩
    · exact Or.inl ⟨hblank, ih h⟩
    · refine Or.inr ⟨hhash, ?_, hend⟩
      have hboth : '\n' ∉ front ++ back := hline
      have hextra := he.newline_not_mem
      show '\n' ∉ front ++ extra ++ back
      rw [List.mem_append, not_or] at hboth
      rw [List.mem_append, List.mem_append, not_or, not_or]
      exact ⟨⟨hboth.1, hextra⟩, hboth.2⟩

theorem of_blanks (h : ∀ c ∈ extra, isGap c) : Gap rest extra := by
  induction extra with
  | nil => trivial
  | cons c extra ih =>
    rw [List.forall_mem_cons] at h
    exact Or.inl ⟨h.1, ih h.2⟩

theorem head?_any (h : Gap back extra) (hb : back.head?.any isWordChar = false) :
    (extra ++ back).head?.any isWordChar = false := by
  cases extra with
  | nil => exact hb
  | cons c extra =>
    rcases h with ⟨hblank, _⟩ | ⟨rfl, _, _⟩
    · exact isWordChar_of_isGap hblank
    · rfl

end Gap

/-! ### Positions -/

/-- A quoted text that only the end of its line ends. -/
def Lexeme.isUnclosed : Lexeme → Bool
  | .quoted _ closed => !closed
  | _ => false

/-- The position lies inside a lexeme, or at the end of an unclosed quoted text. -/
def Within : List Slice → Nat → Prop
  | [], _ => False
  | slice :: slices, position =>
    (slice.gap.length < position ∧ position < slice.chars.length) ∨
      (position = slice.chars.length ∧ slice.lexeme.isUnclosed) ∨
      (slice.chars.length ≤ position ∧ Within slices (position - slice.chars.length))

instance decidableWithin : (slices : List Slice) → (position : Nat) →
    Decidable (Within slices position)
  | [], _ => inferInstanceAs (Decidable False)
  | slice :: slices, position =>
    have := decidableWithin slices (position - slice.chars.length)
    inferInstanceAs (Decidable (_ ∨ _ ∨ (_ ∧ Within slices _)))

namespace Lexeme.Whole

variable {lexeme : Lexeme} {rest : List Char} (h : lexeme.Whole rest)
include h

theorem congr {other : List Char} (hhead : rest.head? = other.head?) : lexeme.Whole other := by
  cases lexeme with
  | word text =>
    refine ⟨h.1, ?_⟩
    rw [← hhead]
    exact h.2
  | quoted text closed =>
    refine ⟨h.1, fun hopen => ?_⟩
    have hend := h.2 hopen
    unfold AtLineEnd at hend ⊢
    rw [← hhead]
    exact hend
  | symbol c => exact h
  | lineEnd => trivial

/-- A closed lexeme stays what it is when a gap is put in behind it. -/
theorem append {extra : List Char} (hc : lexeme.isUnclosed = false) (he : Gap rest extra) :
    lexeme.Whole (extra ++ rest) := by
  cases lexeme with
  | word text => exact ⟨h.1, he.head?_any h.2⟩
  | quoted text closed =>
    refine ⟨h.1, fun hopen => ?_⟩
    rw [hopen] at hc
    cases hc
  | symbol c => exact h
  | lineEnd => trivial

end Lexeme.Whole

theorem exists_of_append_eq {α : Type} {xs ys zs ws : List α} (h : xs ++ ys = zs ++ ws)
    (hl : xs.length ≤ zs.length) : ∃ mid, zs = xs ++ mid ∧ ys = mid ++ ws := by
  obtain ⟨mid, rfl⟩ := List.prefix_of_prefix_length_le (h ▸ List.prefix_append xs ys)
    (List.prefix_append zs ws) hl
  rw [List.append_assoc] at h
  exact ⟨mid, rfl, List.append_cancel_left h⟩

/-- Where no lexeme is cut in two a text can be widened, and its lexemes stay. -/
theorem Maximal.insert {slices : List Slice} {tail : List Char} (h : Maximal tail slices)
    {front back extra : List Char} (heq : joined slices tail = front ++ back)
    (hp : ¬Within slices front.length) (he : Gap back extra) :
    ∃ others rest, Maximal rest others ∧ joined others rest = front ++ extra ++ back ∧
      others.map Slice.lexeme = slices.map Slice.lexeme := by
  induction slices generalizing front with
  | nil =>
    rw [joined_nil] at heq
    refine ⟨[], front ++ extra ++ back, ?_, rfl, rfl⟩
    apply Gap.insert
    · rw [← heq]
      exact h
    · rw [List.append_nil]
      exact he
  | cons slice slices ih =>
    obtain ⟨hgap, hwhole, h⟩ := h
    rw [joined_cons] at heq
    by_cases hfront : front.length ≤ slice.gap.length
    · -- in the gap of the first slice
      obtain ⟨behind, hsplit, hback⟩ := exists_of_append_eq heq.symm hfront
      refine ⟨⟨front ++ extra ++ behind, slice.lexeme⟩ :: slices, tail, ⟨?_, hwhole, h⟩, ?_, rfl⟩
      · rw [hsplit] at hgap
        rw [hback] at he
        exact hgap.insert he
      · rw [joined_cons, hback]
        simp only [List.append_assoc]
    · simp only [Within, not_or, not_and] at hp
      obtain ⟨hinside, hend, hbehind⟩ := hp
      have hlength : slice.chars.length ≤ front.length := by
        have hnot := hinside (by omega)
        omega
      -- behind the first slice
      rw [← List.append_assoc, ← Slice.chars] at heq
      obtain ⟨middle, rfl, hrest⟩ := exists_of_append_eq heq hlength
      have hmiddle : ¬Within slices middle.length := by
        have hnot := hbehind hlength
        rw [List.length_append, Nat.add_sub_cancel_left] at hnot
        exact hnot
      obtain ⟨others, rest, hothers, hjoined, hsame⟩ := ih h hrest hmiddle
      refine ⟨slice :: others, rest, ⟨?_, ?_, hothers⟩, ?_, ?_⟩
      · apply hgap.congr
        cases hspelling : slice.lexeme.spelling with
        | nil => exact absurd hspelling hwhole.spelling_ne_nil
        | cons c others => rfl
      · rw [hjoined]
        rw [hrest] at hwhole
        cases middle with
        | nil =>
          have hclosed : slice.lexeme.isUnclosed = false := by
            refine Bool.eq_false_iff.mpr (hend ?_)
            rw [List.append_nil]
          exact hwhole.append hclosed he
        | cons c middle => exact hwhole.congr rfl
      · rw [joined_cons, hjoined, Slice.chars]
        simp only [List.append_assoc]
      · rw [List.map_cons, List.map_cons, hsame]

/-! ### Declarations -/

theorem declarations_congr {first second : String}
    (hlexemes : (scan first.toList).lexemes = (scan second.toList).lexemes)
    (hline : (scan first.toList).line = (scan second.toList).line) :
    declarations first = declarations second := by
  unfold declarations
  simp only [hlexemes, hline]

theorem declarations_insert {front back extra : List Char} {slices : List Slice}
    {tail : List Char} (h : Cut (front ++ back) slices tail)
    (hp : ¬Within slices front.length) (he : Gap back extra) :
    declarations (String.ofList (front ++ extra ++ back)) =
      declarations (String.ofList (front ++ back)) := by
  obtain ⟨others, rest, hothers, hjoined, hsame⟩ := h.maximal.insert h.joined.symm hp he
  have hcut : Cut (front ++ extra ++ back) others rest := ⟨hjoined.symm, hothers⟩
  apply declarations_congr
  · rw [String.toList_ofList, String.toList_ofList, hcut.lexemes, h.lexemes, hsame]
  · have hnone := List.count_eq_zero.mpr he.newline_not_mem
    rw [String.toList_ofList, String.toList_ofList, line_scan, line_scan, List.count_append,
      List.count_append, hnone, Nat.add_zero, List.count_append]

end Source

open Source

namespace Keyboard

theorem withoutMark_of_head? {text : String} (h : text.toList.head? ≠ some byteOrderMark) :
    withoutMark text = text := by
  unfold withoutMark
  split
  · rename_i c rest hlist
    rw [hlist] at h
    have hc : c ≠ byteOrderMark := fun he => h (congrArg some he)
    rw [if_neg hc]
  · rfl

theorem withoutMark_cons (text : String) :
    withoutMark (String.ofList (byteOrderMark :: text.toList)) = text := by
  unfold withoutMark
  rw [String.toList_ofList]
  simp only [if_true, String.ofList_toList]

/-- A gap more changes nothing about what a file describes. -/
theorem ofSource_insert {front back extra : List Char} {slices : List Slice} {tail : List Char}
    (hmark : (front ++ back).head? ≠ some byteOrderMark) (h : Cut (front ++ back) slices tail)
    (hp : ¬Within slices front.length) (he : Gap back extra) :
    ofSource (String.ofList (front ++ extra ++ back)) =
      ofSource (String.ofList (front ++ back)) := by
  have hwide : (front ++ extra ++ back).head? ≠ some byteOrderMark := by
    cases front with
    | cons c front => exact hmark
    | nil =>
      cases extra with
      | nil => exact hmark
      | cons c extra =>
        intro hc
        cases hc
        rcases he with ⟨hblank, _⟩ | ⟨hhash, _⟩
        · exact absurd hblank (by decide)
        · exact absurd hhash (by decide)
  unfold ofSource
  rw [withoutMark_of_head? (by rw [String.toList_ofList]; exact hwide),
    withoutMark_of_head? (by rw [String.toList_ofList]; exact hmark), declarations_insert h hp he]

end Keyboard

/-- Blanks and comments mean nothing, and neither does a mark of the encoding in front of a
text that has none. Blanks can be put in at every position that lies inside no lexeme and at
the end of no unclosed quoted text; a comment can be put in there in front of a line end. -/
theorem ofSource_spacing {text : String}
    (hmark : text.toList.head? ≠ some Keyboard.byteOrderMark) :
    (∀ front back slices tail, text.toList = front ++ back → Cut text.toList slices tail →
      ¬Within slices front.length →
      (∀ blanks : List Char, (∀ c ∈ blanks, isGap c) →
        Keyboard.ofSource (String.ofList (front ++ blanks ++ back)) = Keyboard.ofSource text) ∧
      ∀ comment : List Char, '\n' ∉ comment → AtLineEnd back →
        Keyboard.ofSource (String.ofList (front ++ '#' :: comment ++ back)) =
          Keyboard.ofSource text) ∧
    Keyboard.ofSource (String.ofList (Keyboard.byteOrderMark :: text.toList)) =
      Keyboard.ofSource text := by
  refine ⟨?_, ?_⟩
  · intro front back slices tail htext hcut hp
    have hsource : text = String.ofList (front ++ back) := by
      rw [← htext, String.ofList_toList]
    rw [htext] at hmark hcut
    rw [hsource]
    refine ⟨?_, ?_⟩
    · intro blanks hblanks
      exact Keyboard.ofSource_insert hmark hcut hp (.of_blanks hblanks)
    · intro comment hcomment hend
      exact Keyboard.ofSource_insert hmark hcut hp (Or.inr ⟨rfl, hcomment, hend⟩)
  · unfold Keyboard.ofSource
    rw [Keyboard.withoutMark_cons, Keyboard.withoutMark_of_head? hmark]

/-- A file with no more blanks than it needs. -/
def tightSource : String := "size 1 2\nlayout a\x7b\nS0\"#\"\n\x7d\nstate main\x7b\n\x7d"

def tightSlices : List Slice :=
  [⟨[], .word "size"⟩, ⟨[' '], .word "1"⟩, ⟨[' '], .word "2"⟩, ⟨[], .lineEnd⟩,
    ⟨[], .word "layout"⟩, ⟨[' '], .word "a"⟩, ⟨[], .symbol '\x7b'⟩, ⟨[], .lineEnd⟩,
    ⟨[], .word "S0"⟩, ⟨[], .quoted "#" true⟩, ⟨[], .lineEnd⟩,
    ⟨[], .symbol '\x7d'⟩, ⟨[], .lineEnd⟩,
    ⟨[], .word "state"⟩, ⟨[' '], .word "main"⟩, ⟨[], .symbol '\x7b'⟩, ⟨[], .lineEnd⟩,
    ⟨[], .symbol '\x7d'⟩]

theorem tight_spacing :
    (Keyboard.ofSource tightSource).toOption.isSome ∧
      Keyboard.ofSource (String.ofList
        ((tightSlices.take 10).flatMap Slice.chars ++ ['\t', '\r'] ++
          (tightSlices.drop 10).flatMap Slice.chars)) = Keyboard.ofSource tightSource ∧
      Keyboard.ofSource (String.ofList
        ((tightSlices.take 10).flatMap Slice.chars ++ '#' :: ['"'] ++
          (tightSlices.drop 10).flatMap Slice.chars)) = Keyboard.ofSource tightSource := by
  have hmark : tightSource.toList.head? ≠ some Keyboard.byteOrderMark := by decide +kernel
  have hcut : Cut tightSource.toList tightSlices [] := by decide +kernel
  have htext : tightSource.toList = (tightSlices.take 10).flatMap Slice.chars ++
      (tightSlices.drop 10).flatMap Slice.chars := by decide +kernel
  have hp : ¬Within tightSlices ((tightSlices.take 10).flatMap Slice.chars).length := by
    decide +kernel
  obtain ⟨hblanks, hcomment⟩ := (ofSource_spacing hmark).1 _ _ _ _ htext hcut hp
  refine ⟨by decide +kernel, hblanks ['\t', '\r'] (by simp [isGap]), ?_⟩
  exact hcomment ['"'] (by decide) (by decide)

end KeyGrid
