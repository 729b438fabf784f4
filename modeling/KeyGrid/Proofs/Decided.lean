import KeyGrid.Proofs.Appended

/-!
# Errors that nothing behind them can change

A reader that fails at a lexeme has not looked at anything behind it, so further lines leave
its error as it is. A reader that fails at the end of the file names that end and its line;
with a further line there is a line end in its place, and the error is another one or none.
-/

namespace KeyGrid

open Source

/-- Reading the text fails at one of its lexemes, before the end of the file. -/
def Source.FailsWithin (text : String) (e : LoadError) : Prop :=
  ∃ before lexeme behind reader, (scan text.toList).lexemes = before ++ lexeme :: behind ∧
    readLexemes before = .ok reader ∧ reader.read lexeme = .error e

theorem Source.failsWithin_iff {text : String} {e : LoadError} :
    FailsWithin text e ↔ readLexemes (scan text.toList).lexemes = .error e := by
  constructor
  · intro h
    obtain ⟨before, lexeme, behind, reader, hlexemes, hbefore, hfails⟩ := h
    rw [hlexemes, readLexemes, foldlM_append_eq_error_iff]
    exact Or.inr ⟨reader, hbefore, bind_eq_error_iff.mpr (Or.inl hfails)⟩
  · intro h
    exact foldlM_eq_error h

/-! ### What the end of a line or of the file is blamed for -/

/-- The error is on the line of a token and is about this token. -/
inductive LoadError.Names (line : Nat) (token : Token) : LoadError → Prop
  | inside (block : Block) (name : String) :
    Names line token (.parse line (.unexpectedInside token block name))
  | expected (what : Expected) : Names line token (.parse line (.expected what token))
  | noNumber (dimension : Dimension) :
    Names line token (.invalidSize line (.noNumber dimension token))

theorem LoadError.Names.unique {line other : Nat} {token found : Token} {e : LoadError}
    (h : e.Names line token) (ho : e.Names other found) : line = other ∧ token = found := by
  cases h <;> cases ho <;> exact ⟨rfl, rfl⟩

namespace Source.Reader

variable {reader : Reader} {line : Nat} {token : Token} {e : LoadError}

theorem readSymbol_names {c : Char} {position : Position}
    (h : reader.readSymbol c position line token = .error e) : e.Names line token := by
  unfold readSymbol at h
  split at h
  · cases h
  · cases h
    exact .expected _

theorem readWord_names {what : Expected} {position : String → Position}
    (h : reader.readWord what position line token = .error e) : e.Names line token := by
  cases token with
  | word text => cases h
  | quoted _ | number _ | symbol _ | lineEnd | fileEnd =>
    cases h
    exact .expected _

theorem readAfterRows_names {draft : LayoutDraft}
    (h : reader.readAfterRows draft line token = .error e) : e.Names line token := by
  unfold readAfterRows at h
  split at h
  · cases h
  · split at h
    · cases h
    · cases h
      exact .expected _

section

variable (ht : token.endsLine)
include ht

theorem readTop_ends : reader.readTop line token = .ok reader := by
  cases token with
  | lineEnd | fileEnd => rfl
  | word _ | quoted _ | number _ | symbol _ => cases ht

theorem readLineEnd_ends {position : Position} :
    reader.readLineEnd position line token = .ok (reader.goTo position) :=
  if_pos ht

theorem readDimension_names {dimension : Dimension} {next : Nat → Reader}
    (h : readDimension dimension next line token = .error e) : e.Names line token := by
  cases token with
  | lineEnd | fileEnd =>
    cases h
    exact .noNumber _
  | word _ | quoted _ | number _ | symbol _ => cases ht

theorem readRow_names {draft : LayoutDraft} (h : reader.readRow draft line token = .error e) :
    e.Names line token := by
  cases token with
  | lineEnd => cases h
  | fileEnd =>
    cases h
    exact .inside _ _
  | word _ | quoted _ | number _ | symbol _ => cases ht

theorem readEntries_names {draft : StateDraft}
    (h : reader.readEntries draft line token = .error e) : e.Names line token := by
  cases token with
  | lineEnd => cases h
  | fileEnd =>
    cases h
    exact .inside _ _
  | word _ | quoted _ | number _ | symbol _ => cases ht

theorem readAfterEntry_names {draft : StateDraft}
    (h : reader.readAfterEntry draft line token = .error e) : e.Names line token := by
  unfold readAfterEntry at h
  rw [if_pos (Or.inl ht)] at h
  exact readEntries_names ht h

theorem readLayers_names {draft : StateDraft} {list : ListDraft}
    (h : reader.readLayers draft list line token = .error e) : e.Names line token := by
  cases token with
  | lineEnd | fileEnd => exact readAfterEntry_names ht h
  | word _ | quoted _ | number _ | symbol _ => cases ht

theorem readMetaKind_names {draft : StateDraft} {slot : SlotDraft}
    (h : reader.readMetaKind draft slot line token = .error e) : e.Names line token := by
  cases token with
  | lineEnd | fileEnd =>
    cases h
    exact .expected _
  | word _ | quoted _ | number _ | symbol _ => cases ht

/-- A reader that fails where a line ends says that it does end there. -/
theorem step_names (h : reader.step line token = .error e) : e.Names line token := by
  unfold step at h
  split at h
  · rw [readTop_ends ht] at h
    cases h
  · rw [readLineEnd_ends ht] at h
    cases h
  · exact readDimension_names ht h
  · exact readDimension_names ht h
  · exact readWord_names h
  · exact readSymbol_names h
  · split at h
    · exact readRow_names ht h
    · rw [readLineEnd_ends ht] at h
      cases h
  · exact readRow_names ht h
  · exact readAfterRows_names h
  · exact readWord_names h
  · exact readSymbol_names h
  · split at h
    · exact readEntries_names ht h
    · rw [readLineEnd_ends ht] at h
      cases h
  · exact readEntries_names ht h
  · exact readAfterEntry_names ht h
  · exact readLayers_names ht h
  · exact readSymbol_names h
  · exact readWord_names h
  · cases token with
    | lineEnd | fileEnd =>
      cases h
      exact .expected _
    | word _ | quoted _ | number _ | symbol _ => cases ht
  · exact readMetaKind_names ht h
  · exact readWord_names h

end

end Source.Reader

/-! ### Further lines -/

theorem Source.declarations_eq_error_iff {text : String} {e : LoadError} :
    declarations text = .error e ↔ FailsWithin text e ∨
      ∃ reader, readLexemes (scan text.toList).lexemes = .ok reader ∧
        reader.step (scan text.toList).line .fileEnd = .error e := by
  rw [failsWithin_iff]
  constructor
  · intro h
    rcases bind_eq_error_iff.mp h with h | ⟨reader, hreader, h⟩
    · exact Or.inl h
    · rcases bind_eq_error_iff.mp h with h | ⟨_, _, h⟩
      · exact Or.inr ⟨reader, hreader, h⟩
      · cases h
  · intro h
    rcases h with h | ⟨reader, hreader, h⟩
    · exact bind_eq_error_iff.mpr (Or.inl h)
    · exact bind_eq_error_iff.mpr (Or.inr ⟨reader, hreader, bind_eq_error_iff.mpr (Or.inl h)⟩)

theorem Source.FailsWithin.append {front : String} {e : LoadError} (h : FailsWithin front e)
    (back : String) : FailsWithin (front ++ "\n" ++ back) e := by
  obtain ⟨before, lexeme, behind, reader, hlexemes, hbefore, hfails⟩ := h
  obtain ⟨others, hmore⟩ := lexemes_append front.toList back.toList
  refine ⟨before, lexeme, behind ++ others, reader, ?_, hbefore, hfails⟩
  rw [toList_append_line, ← hmore, hlexemes, List.append_assoc, List.cons_append]

/-- One more line end is one more lexeme, and the file ends on the next line. -/
theorem Source.scan_line_end (text : List Char) :
    (scan (text ++ ['\n'])).lexemes =
        (scan text).lexemes ++ [⟨(scan text).line, .lineEnd⟩] ∧
      (scan (text ++ ['\n'])).line = (scan text).line + 1 := by
  have hline : (scan text).settle.line = (scan text).line := by
    unfold Scanner.settle
    split <;> rfl
  rw [scan_append, List.foldl_cons, List.foldl_nil, Scanner.read_newline]
  constructor
  · rw [← hline]
    exact List.reverse_cons
  · rw [← hline]
    rfl

/-- The error at the end of a file is gone when there is another line end. -/
theorem Source.Reader.not_error_at_both {reader : Reader} {line : Nat} {e : LoadError}
    (h : reader.step line .fileEnd = .error e) :
    reader.step line .lineEnd ≠ .error e ∧
      ∀ next : Reader, next.step (line + 1) .fileEnd ≠ .error e := by
  have hend := step_names rfl h
  constructor
  · intro ho
    cases (hend.unique (step_names rfl ho)).2
  · intro next ho
    have hline := (hend.unique (step_names rfl ho)).1
    omega

/-- An empty line behind the file shows that its end was to blame. -/
theorem Source.declarations_empty_line {front : String} {reader : Reader} {e : LoadError}
    (hreader : readLexemes (scan front.toList).lexemes = .ok reader)
    (hend : reader.step (scan front.toList).line .fileEnd = .error e) :
    declarations (front ++ "\n" ++ "") ≠ .error e := by
  intro h
  obtain ⟨hmore, hnever⟩ := Reader.not_error_at_both hend
  obtain ⟨hlexemes, hline⟩ := scan_line_end front.toList
  have htext : (front ++ "\n" ++ "").toList = front.toList ++ ['\n'] :=
    toList_append_line front ""
  rcases declarations_eq_error_iff.mp h with h | ⟨next, _, h⟩
  · rw [failsWithin_iff, htext, hlexemes, readLexemes] at h
    rw [readLexemes] at hreader
    rcases foldlM_append_eq_error_iff.mp h with h | ⟨other, hother, h⟩
    · rw [h] at hreader
      cases hreader
    · rw [hother] at hreader
      cases hreader
      rcases bind_eq_error_iff.mp h with h | ⟨_, _, h⟩
      · exact hmore h
      · cases h
  · rw [htext, hline] at h
    exact hnever next h

/-- The errors found before the end of a file are those that stay, the same in kind, line and
message, whatever is written on further lines. -/
theorem failsWithin_iff_whatever_follows (front : String) (e : LoadError) :
    FailsWithin front e ↔
      declarations front = .error e ∧
        ∀ back, declarations (front ++ "\n" ++ back) = .error e := by
  constructor
  · intro h
    refine ⟨declarations_eq_error_iff.mpr (Or.inl h), ?_⟩
    intro back
    exact declarations_eq_error_iff.mpr (Or.inl (h.append back))
  · intro h
    obtain ⟨hfront, hany⟩ := h
    rcases declarations_eq_error_iff.mp hfront with h | ⟨reader, hreader, hend⟩
    · exact h
    · exact absurd (hany "") (declarations_empty_line hreader hend)

example : FailsWithin "state main \x7b\n  S0 x toggle main"
    (.parse 2 (.unknownMetaKind "toggle")) :=
  failsWithin_iff.mpr (by decide +kernel)

end KeyGrid
