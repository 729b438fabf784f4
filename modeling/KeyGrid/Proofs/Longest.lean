import Mathlib.Order.Lattice.Nat
import KeyGrid.Proofs.Sliced

/-!
# Patterns

The pieces of a text can also be told by patterns. Of all patterns the one is taken that
matches the longest piece, and among equally long ones that of the highest priority; then the
text goes on behind the piece. There is always just one pattern to take, and the scanner finds
the lexemes of the pieces, with blanks and comments left out.
-/

namespace KeyGrid.Source

/-- The patterns that pieces of a text are told by. -/
inductive Pattern where
  | comment
  | blanks
  | newline
  | word
  | digitWord
  | closedQuote
  | openQuote
  | single
deriving DecidableEq

namespace Pattern

/-- Which pattern is taken if several match the same piece. -/
def priority : Pattern → Nat
  | .single => 1
  | .comment | .newline | .openQuote => 2
  | .blanks | .word | .digitWord => 3
  | .closedQuote => 4

/-- The pieces that a pattern matches. -/
inductive Matches : Pattern → List Char → Prop
  | comment {line : List Char} (h : '\n' ∉ line) : Matches .comment ('#' :: line)
  | blanks {c : Char} {rest : List Char} (hc : isGap c) (h : ∀ d ∈ rest, isGap d) :
      Matches .blanks (c :: rest)
  | newline : Matches .newline ['\n']
  | word {c : Char} {rest : List Char} (hc : c.isAlpha ∨ c = '_')
      (h : ∀ d ∈ rest, isWordChar d) : Matches .word (c :: rest)
  | digitWord {c : Char} {rest : List Char} (hc : c.isDigit)
      (h : ∀ d ∈ rest, isWordChar d) : Matches .digitWord (c :: rest)
  | closedQuote {chars : List Char} (h : '"' ∉ chars ∧ '\n' ∉ chars) :
      Matches .closedQuote ('"' :: (chars ++ ['"']))
  | openQuote {chars : List Char} (h : '"' ∉ chars ∧ '\n' ∉ chars) :
      Matches .openQuote ('"' :: chars)
  | single {c : Char} (h : c ≠ '\n') : Matches .single [c]

/-- The lexeme of a piece; blanks and comments have none. -/
def lexeme? : Pattern → List Char → Option Lexeme
  | .comment, _ | .blanks, _ => none
  | .newline, _ => some .lineEnd
  | .word, piece | .digitWord, piece => some (.word (String.ofList piece))
  | .closedQuote, piece => some (.quoted (String.ofList piece.tail.dropLast) true)
  | .openQuote, piece => some (.quoted (String.ofList piece.tail) false)
  | .single, piece => piece.head?.map .symbol

theorem priority_bounds (pattern : Pattern) : 1 ≤ pattern.priority ∧ pattern.priority ≤ 4 := by
  cases pattern <;> decide

end Pattern

/-! ### Longest matches -/

/-- The pattern that is taken in front of a text, with the piece that it matches. -/
structure Takes (text : List Char) (pattern : Pattern) (piece : List Char) : Prop where
  front : piece <+: text
  found : pattern.Matches piece
  longest : ∀ other longer, longer <+: text → Pattern.Matches other longer →
    longer.length < piece.length ∨ longer.length = piece.length ∧
      (other.priority < pattern.priority ∨ other = pattern)

/-- A text is divided piece by piece. -/
inductive Divides : List Char → List (Pattern × List Char) → Prop
  | nil : Divides [] []
  | cons {pattern : Pattern} {piece rest : List Char} {pieces : List (Pattern × List Char)}
      (htakes : Takes (piece ++ rest) pattern piece) (h : Divides rest pieces) :
      Divides (piece ++ rest) ((pattern, piece) :: pieces)

namespace Pattern

/-- The only pattern of a priority that matches pieces with this first character. -/
def ofHead (c : Char) : Nat → Pattern
  | 1 => .single
  | 2 => if c = '#' then .comment else if c = '\n' then .newline else .openQuote
  | 3 => if isGap c then .blanks else if c.isDigit then .digitWord else .word
  | _ => .closedQuote

namespace Matches

variable {pattern other : Pattern} {piece : List Char}

theorem ne_nil (h : pattern.Matches piece) : piece ≠ [] := by
  cases h <;> exact List.cons_ne_nil _ _

theorem isWordChar_of_letter {c : Char} (hc : c.isAlpha ∨ c = '_') : isWordChar c := by
  rcases hc with hc | rfl
  · simp [isWordChar, Char.isAlphanum, hc]
  · decide

theorem isWordChar_of_digit {c : Char} (hc : c.isDigit) : isWordChar c := by
  simp [isWordChar, Char.isAlphanum, hc]

/-- Digits stand in front of all letters. -/
theorem isDigit_of_letter {c : Char} (hc : c.isAlpha ∨ c = '_') : c.isDigit = false := by
  rcases hc with hc | rfl
  · have hlow : 'A'.val ≤ c.val := by
      rcases Bool.or_eq_true_iff.mp hc with hupper | hlower
      · have hrange : c.val ≥ 'A'.val ∧ c.val ≤ 'Z'.val := of_decide_eq_true hupper
        exact hrange.1
      · have hfirst : 'a'.val ≤ c.val := of_decide_eq_true (Bool.and_eq_true_iff.mp hlower).1
        exact UInt32.le_trans (by decide) hfirst
    refine Bool.eq_false_iff.mpr fun hdigit => ?_
    have hhigh : c.val ≤ '9'.val := of_decide_eq_true (Bool.and_eq_true_iff.mp hdigit).2
    exact absurd (UInt32.le_trans hlow hhigh) (by decide)
  · decide

theorem eq_ofHead {c : Char} {rest : List Char} (h : pattern.Matches (c :: rest)) :
    pattern = ofHead c pattern.priority := by
  cases h with
  | comment => rfl
  | blanks hc =>
    show _ = if isGap c then _ else _
    rw [if_pos hc]
  | newline => rfl
  | word hc =>
    obtain ⟨_, hgap, _⟩ := plain_of_isWordChar (isWordChar_of_letter hc)
    simp [ofHead, priority, hgap, isDigit_of_letter hc]
  | digitWord hc =>
    obtain ⟨_, hgap, _⟩ := plain_of_isWordChar (isWordChar_of_digit hc)
    simp [ofHead, priority, hgap, hc]
  | closedQuote => rfl
  | openQuote => rfl
  | single => rfl

/-- No two patterns of the same priority match the same piece. -/
theorem eq_of_priority (h : pattern.Matches piece) (ho : other.Matches piece)
    (hsame : pattern.priority = other.priority) : pattern = other := by
  cases piece with
  | nil => exact absurd rfl h.ne_nil
  | cons c rest => rw [h.eq_ofHead, ho.eq_ofHead, hsame]

end Matches
end Pattern

namespace Takes

variable {text piece more : List Char} {pattern other : Pattern}

/-- What is taken is settled by the text. -/
theorem unique (h : Takes text pattern piece) (ho : Takes text other more) :
    pattern = other ∧ piece = more := by
  have hfirst := h.longest other more ho.front ho.found
  have hsecond := ho.longest pattern piece h.front h.found
  have hlength : piece.length = more.length := by omega
  have hpiece : piece = more :=
    (List.prefix_of_prefix_length_le h.front ho.front hlength.le).eq_of_length hlength
  refine ⟨?_, hpiece⟩
  rcases hfirst with hlt | ⟨_, hlt | rfl⟩
  · omega
  · rcases hsecond with hlt' | ⟨_, hlt' | rfl⟩
    · omega
    · omega
    · rfl
  · rfl

/-- A text that is not over has something to be taken: there are only so many pieces in front
of it, and each character is matched by some pattern. -/
theorem exists_of_cons (c : Char) (text : List Char) :
    ∃ pattern piece, Takes (c :: text) pattern piece := by
  -- the length counts first, and among equal lengths the priority
  let rank (pattern : Pattern) (piece : List Char) : Nat := 8 * piece.length + pattern.priority
  let ranks : Set Nat := {n | ∃ pattern piece, piece <+: c :: text ∧
    Pattern.Matches pattern piece ∧ rank pattern piece = n}
  have hne : ranks.Nonempty := by
    by_cases hc : c = '\n'
    · exact ⟨_, .newline, [c], List.prefix_append [c] text, hc ▸ .newline, rfl⟩
    · exact ⟨_, .single, [c], List.prefix_append [c] text, .single hc, rfl⟩
  have hbound : BddAbove ranks := by
    refine ⟨8 * (c :: text).length + 4, ?_⟩
    rintro n ⟨pattern, piece, hfront, _, rfl⟩
    have hlength := hfront.length_le
    have hpriority := pattern.priority_bounds
    show 8 * piece.length + pattern.priority ≤ _
    omega
  obtain ⟨pattern, piece, hfront, hfound, hrank⟩ := Nat.sSup_mem hne hbound
  refine ⟨pattern, piece, hfront, hfound, ?_⟩
  intro other longer hlonger hmatches
  have hle := le_csSup hbound ⟨other, longer, hlonger, hmatches, rfl⟩
  rw [← hrank] at hle
  change 8 * longer.length + other.priority ≤ 8 * piece.length + pattern.priority at hle
  have hpriority := pattern.priority_bounds
  have hother := other.priority_bounds
  rcases Nat.lt_trichotomy longer.length piece.length with hlt | heq | hlt
  · exact Or.inl hlt
  · refine Or.inr ⟨heq, ?_⟩
    rcases Nat.lt_or_eq_of_le (show other.priority ≤ pattern.priority by omega) with hlt | hsame
    · exact Or.inl hlt
    · have hpiece : longer = piece :=
        (List.prefix_of_prefix_length_le hlonger hfront heq.le).eq_of_length heq
      subst hpiece
      exact Or.inr (hmatches.eq_of_priority hfound hsame)
  · omega

/-- The text behind the piece does not begin with a character that would make it longer. -/
theorem not_matches_concat {c : Char} {rest : List Char}
    (h : Takes (piece ++ c :: rest) pattern piece) : ¬other.Matches (piece ++ [c]) := by
  intro hmatches
  have hlonger : piece ++ [c] <+: piece ++ c :: rest := ⟨rest, by simp⟩
  have hlength := h.longest other _ hlonger hmatches
  rw [List.length_append, List.length_singleton] at hlength
  omega

/-- No pattern of a higher priority matches the piece. -/
theorem priority_le (h : Takes text pattern piece) (hmatches : other.Matches piece) :
    other.priority ≤ pattern.priority := by
  rcases h.longest other piece h.front hmatches with hlt | ⟨_, hlt | rfl⟩
  · omega
  · exact hlt.le
  · exact le_rfl

theorem isSymbol {c : Char} {rest : List Char} (h : Takes (c :: rest) .single [c])
    (hc : c ≠ '\n') : IsSymbol c := by
  refine ⟨⟨hc, ?_, ?_⟩, ?_, ?_⟩
  · rintro rfl
    exact absurd (h.priority_le (.comment List.not_mem_nil)) (by decide)
  · rintro rfl
    exact absurd (h.priority_le (.openQuote ⟨List.not_mem_nil, List.not_mem_nil⟩)) (by decide)
  · refine Bool.eq_false_iff.mpr fun hgap => ?_
    exact absurd (h.priority_le (.blanks hgap (by simp))) (by decide)
  · refine Bool.eq_false_iff.mpr fun hword => ?_
    simp only [isWordChar, Char.isAlphanum, Bool.or_eq_true, beq_iff_eq] at hword
    rcases hword with (hletter | hdigit) | hletter
    · exact absurd (h.priority_le (.word (Or.inl hletter) (by simp))) (by decide)
    · exact absurd (h.priority_le (.digitWord hdigit (by simp))) (by decide)
    · exact absurd (h.priority_le (.word (Or.inr hletter) (by simp))) (by decide)

end Takes

/-! ### Lexemes of pieces -/

theorem gap_of_forall {gap : List Char} (h : ∀ c ∈ gap, isGap c) (rest : List Char) :
    Gap rest gap := by
  induction gap with
  | nil => trivial
  | cons c gap ih =>
    rw [List.forall_mem_cons] at h
    exact Or.inl ⟨h.1, ih h.2⟩

theorem atLineEnd_of {rest : List Char} (h : ∀ c more, rest = c :: more → c = '\n') :
    AtLineEnd rest := by
  cases rest with
  | nil => rfl
  | cons c more =>
    rw [h c more rfl]
    rfl

/-- A word that is taken goes on as long as there are letters and digits. -/
theorem Takes.whole_word {c : Char} {letters rest : List Char} {pattern : Pattern}
    (h : Takes (c :: letters ++ rest) pattern (c :: letters)) (hc : isWordChar c)
    (hletters : ∀ d ∈ letters, isWordChar d)
    (hword : ∀ more : List Char, (∀ d ∈ more, isWordChar d) → pattern.Matches (c :: more)) :
    (Lexeme.word (String.ofList (c :: letters))).Whole rest := by
  refine ⟨⟨?_, ?_⟩, ?_⟩
  · rw [String.toList_ofList]
    exact List.cons_ne_nil _ _
  · rw [String.toList_ofList]
    exact List.forall_mem_cons.mpr ⟨hc, hletters⟩
  · cases rest with
    | nil => rfl
    | cons d more =>
      refine Bool.eq_false_iff.mpr fun hd => ?_
      have hlonger : ∀ other ∈ letters ++ [d], isWordChar other :=
        List.forall_mem_append.mpr ⟨hletters, List.forall_mem_singleton.mpr hd⟩
      exact h.not_matches_concat (hword _ hlonger)

/-- A piece without a lexeme is a gap, and any other one is a lexeme that goes no further. -/
theorem Takes.whole {piece rest : List Char} {pattern : Pattern}
    (h : Takes (piece ++ rest) pattern piece) :
    (pattern.lexeme? piece = none ∧ Gap rest piece) ∨
      ∃ lexeme, pattern.lexeme? piece = some lexeme ∧ lexeme.spelling = piece ∧
        lexeme.Whole rest := by
  have hfound := h.found
  cases hfound with
  | @comment line hline =>
    refine Or.inl ⟨rfl, Or.inr ⟨rfl, hline, atLineEnd_of ?_⟩⟩
    rintro c more rfl
    by_contra hc
    have hlonger : '\n' ∉ line ++ [c] := by simp [hline, Ne.symm hc]
    exact h.not_matches_concat (.comment hlonger)
  | blanks hc hrest =>
    exact Or.inl ⟨rfl, gap_of_forall (List.forall_mem_cons.mpr ⟨hc, hrest⟩) _⟩
  | newline => exact Or.inr ⟨.lineEnd, rfl, rfl, trivial⟩
  | word hc hletters =>
    have hletter := Pattern.Matches.isWordChar_of_letter hc
    have hwhole := h.whole_word hletter hletters fun _ hmore => .word hc hmore
    exact Or.inr ⟨_, rfl, String.toList_ofList, hwhole⟩
  | digitWord hc hletters =>
    have hdigit := Pattern.Matches.isWordChar_of_digit hc
    have hwhole := h.whole_word hdigit hletters fun _ hmore => .digitWord hc hmore
    exact Or.inr ⟨_, rfl, String.toList_ofList, hwhole⟩
  | @closedQuote chars hchars =>
    have hquotable : Quotable (String.ofList chars) := by rwa [Quotable, String.toList_ofList]
    refine Or.inr ⟨.quoted (String.ofList chars) true, ?_, ?_, hquotable, fun hopen => ?_⟩
    · simp [Pattern.lexeme?]
    · simp [Lexeme.spelling]
    · cases hopen
  | @openQuote chars hchars =>
    have hquotable : Quotable (String.ofList chars) := by rwa [Quotable, String.toList_ofList]
    refine Or.inr ⟨.quoted (String.ofList chars) false, rfl, ?_, hquotable, fun _ => ?_⟩
    · simp [Lexeme.spelling]
    · apply atLineEnd_of
      rintro c more rfl
      -- a quote would close the text, and any other character would belong to it
      by_cases hquote : c = '"'
      · subst hquote
        exact (h.not_matches_concat (.closedQuote hchars)).elim
      · by_contra hc
        have hlonger : '"' ∉ chars ++ [c] ∧ '\n' ∉ chars ++ [c] := by
          simp [hchars, Ne.symm hc, Ne.symm hquote]
        exact h.not_matches_concat (.openQuote hlonger)
  | single hc => exact Or.inr ⟨.symbol _, rfl, rfl, h.isSymbol hc⟩

/-! ### Whole texts -/

namespace Divides

variable {text : List Char} {pieces others : List (Pattern × List Char)}

/-- A text is divided in one way only. -/
theorem unique (h : Divides text pieces) (ho : Divides text others) : pieces = others := by
  induction h generalizing others with
  | nil =>
    generalize htext : ([] : List Char) = text at ho
    cases ho with
    | nil => rfl
    | cons htakes =>
      exact absurd (List.append_eq_nil_iff.mp htext.symm).1 htakes.found.ne_nil
  | @cons pattern piece rest pieces htakes h ih =>
    generalize htext : piece ++ rest = text at ho
    cases ho with
    | nil => exact absurd (List.append_eq_nil_iff.mp htext).1 htakes.found.ne_nil
    | cons hother hrest =>
      rw [htext] at htakes
      obtain ⟨rfl, rfl⟩ := htakes.unique hother
      obtain rfl := List.append_cancel_left htext
      rw [ih hrest]

theorem exists_divides (text : List Char) : ∃ pieces, Divides text pieces := by
  -- on the length of the text: behind a piece a shorter text is left
  induction hn : text.length using Nat.strong_induction_on generalizing text with
  | _ n ih =>
    cases text with
    | nil => exact ⟨[], .nil⟩
    | cons c text =>
      obtain ⟨pattern, piece, htakes⟩ := Takes.exists_of_cons c text
      obtain ⟨rest, hrest⟩ := htakes.front
      have hpos := List.length_pos_of_ne_nil htakes.found.ne_nil
      have hlt : rest.length < n := by
        rw [← hn, ← hrest, List.length_append]
        omega
      obtain ⟨pieces, hpieces⟩ := ih rest.length hlt rest rfl
      rw [← hrest] at htakes ⊢
      exact ⟨_, .cons htakes hpieces⟩

/-- The lexemes of the pieces, one after the other. -/
def lexemes (pieces : List (Pattern × List Char)) : List Lexeme :=
  pieces.filterMap fun entry => entry.1.lexeme? entry.2

theorem lexemes_cons_none {pattern : Pattern} {piece : List Char}
    (h : pattern.lexeme? piece = none) (pieces : List (Pattern × List Char)) :
    lexemes ((pattern, piece) :: pieces) = lexemes pieces := List.filterMap_cons_none h

theorem lexemes_cons_some {pattern : Pattern} {piece : List Char} {lexeme : Lexeme}
    (h : pattern.lexeme? piece = some lexeme) (pieces : List (Pattern × List Char)) :
    lexemes ((pattern, piece) :: pieces) = lexeme :: lexemes pieces :=
  List.filterMap_cons_some h

/-- A text that is divided is scanned piece by piece. -/
theorem settle_foldl_read (h : Divides text pieces) {scanner : Scanner}
    (hb : scanner.begun = .nothing) :
    (text.foldl Scanner.read scanner).settle = (lexemes pieces).foldl Scanner.emit scanner := by
  induction h generalizing scanner with
  | nil => exact Scanner.settle_of_begun hb
  | cons htakes h ih =>
    rcases htakes.whole with ⟨hnone, hgap⟩ | ⟨lexeme, hsome, rfl, hwhole⟩
    · rw [hgap.settle_foldl_read hb, ih hb, lexemes_cons_none hnone]
    · rw [hwhole.settle_foldl_read hb, ih rfl, lexemes_cons_some hsome, List.foldl_cons]

end Divides

/-- Every text is divided in just one way by taking the longest match again and again, and the
scanner finds the lexemes of the pieces, each on its line. -/
theorem scan_longest (text : List Char) :
    ∃ pieces, Divides text pieces ∧ (∀ others, Divides text others → others = pieces) ∧
      (scan text).lexemes = locate 1 (Divides.lexemes pieces) := by
  obtain ⟨pieces, h⟩ := Divides.exists_divides text
  refine ⟨pieces, h, fun others ho => ho.unique h, ?_⟩
  have hscan : (scan text).settle = (Divides.lexemes pieces).foldl Scanner.emit .start :=
    h.settle_foldl_read rfl
  unfold Scanner.lexemes
  rw [hscan]
  exact (foldl_emit .start _).1

end KeyGrid.Source
