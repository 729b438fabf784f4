import KeyGrid.Proofs.Classified
import KeyGrid.Proofs.Lookahead

/-!
# The token that a reader awaits

A part of a file is read with the token in hand that a reader would come to next. Whether it
goes on or fails, the reader does the same with the token; and if the mode agrees with the
position behind it, the next token is again the one that the reader comes to.
-/

namespace KeyGrid.Source

/-! ### Outcomes -/

/-- What holds behind a part of a file, or else where reading it has failed. -/
def Outcome.Ends {look : Lookahead} {α : Type} (good : α → Lookahead → Prop)
    (bad : LoadError → Lookahead → Prop) : Outcome look α → Prop
  | .ok value after _ => good value after
  | .error e after => bad e after

section

variable {α β : Type} {look before : Lookahead} {good : α → Lookahead → Prop}
  {bad : LoadError → Lookahead → Prop}

theorem Outcome.Ends.since {outcome : Outcome look α} (h : outcome.Ends good bad)
    (hle : look.left ≤ before.left) : (outcome.since hle).Ends good bad := by
  cases outcome with
  | ok value after hafter => exact h
  | error e after => exact h

theorem Outcome.Ends.imp {better : α → Lookahead → Prop} {outcome : Outcome look α}
    (h : outcome.Ends good bad) (himp : ∀ value after, good value after → better value after) :
    outcome.Ends better bad := by
  cases outcome with
  | ok value after hafter => exact himp value after h
  | error e after => exact h

/-- One part of a file and then another. -/
theorem Parse.ends_bind {parse : Parse α} {next : α → Parse β} {last : β → Lookahead → Prop}
    (h : (parse look).Ends good bad)
    (hnext : ∀ value after, good value after → (next value after).Ends last bad) :
    ((parse >>= next) look).Ends last bad := by
  unfold bind instMonadParse
  dsimp only
  generalize parse look = outcome at h
  cases outcome with
  | ok value after hafter => exact (hnext value after h).since hafter
  | error e after => exact h

theorem Parse.ends_token {next : Token → Parse α}
    (h : (next look.current.item look).Ends good bad) :
    ((token >>= next) look).Ends good bad := h.since (Nat.le_refl _)

theorem Parse.ends_setMode {mode : Place} {next : Unit → Parse α}
    (h : (next () (look.setMode mode)).Ends good bad) :
    ((setMode mode >>= next) look).Ends good bad :=
  h.since (show (look.setMode mode).left ≤ look.left from Nat.le_refl _)

theorem Parse.ends_advance {next : Unit → Parse α} (h : (next () look.advance).Ends good bad) :
    ((advance >>= next) look).Ends good bad := h.since look.left_advance_le

theorem Parse.ends_map {f : α → β} {parse : Parse α} {good : β → Lookahead → Prop}
    (h : (parse look).Ends (fun value after => good (f value) after) bad) :
    ((f <$> parse) look).Ends good bad :=
  ends_bind h fun _ _ hvalue => hvalue

theorem Parse.ends_word {what : Expected} {good : String → Lookahead → Prop}
    (hword : ∀ text, look.current.item = .word text → good text look.advance)
    (hother : ∀ fault, wordOf what look.current.item = .error fault →
      bad (.parse look.current.line fault) look) : (word what look).Ends good bad := by
  refine ends_token ?_
  cases hfound : wordOf what look.current.item with
  | ok text => exact hword text (wordOf_ok hfound)
  | error fault => exact hother fault hfound

end

/-! ### Tokens understood as they should be -/

/-- The lexemes of the text have been taken one after the other, those of bodies as lexemes of
rows and the others not. -/
structure Lookahead.Steady (text : String) (look : Lookahead) : Prop where
  lexemes : look.taken.map (·.1) ++ look.rest = (scan text.toList).lexemes
  last : look.last = (scan text.toList).line
  inStep : ∀ front lexeme mode back, look.taken = front ++ (lexeme, mode) :: back →
    (mode = .row ↔ InBody (front.map (·.1)))

/-- All lexemes have been taken, or one that is refused. -/
def Lookahead.Through (look : Lookahead) : Prop :=
  look.rest = [] ∨ ∀ reader, readLexemes (look.taken.map (·.1)) ≠ .ok reader

variable {text : String} {look : Lookahead} {place : Place}
  {act other : Nat → Token → Except LoadError Reader} {reader next : Reader} {e : LoadError}

theorem Lookahead.Steady.lexemes_eq (h : look.Steady text) (hrest : look.rest = []) :
    (scan text.toList).lexemes = look.taken.map (·.1) := by
  rw [← h.lexemes, hrest, List.append_nil]

theorem Lookahead.Steady.advance (h : look.Steady text)
    (hmode : look.mode = .row ↔ InBody (look.taken.map (·.1))) : look.advance.Steady text := by
  obtain ⟨current, rest, last, mode, taken⟩ := look
  cases rest with
  | nil => exact ⟨h.lexemes, h.last, h.inStep⟩
  | cons lexeme rest =>
    refine ⟨?_, h.last, ?_⟩
    · rw [← h.lexemes]
      simp [Lookahead.advance]
    · intro front found other back hsplit
      change taken ++ [(lexeme, mode)] = front ++ (found, other) :: back at hsplit
      rcases List.eq_nil_or_concat back with rfl | ⟨back, final, rfl⟩
      · obtain ⟨rfl, hfound⟩ := List.append_inj' hsplit rfl
        cases hfound
        exact hmode
      · rw [List.concat_eq_append, ← List.cons_append, ← List.append_assoc] at hsplit
        obtain ⟨htaken, _⟩ := List.append_inj' hsplit rfl
        exact h.inStep front found other back htaken

theorem Lookahead.Through.advance (h : look.Through) : look.advance.Through := by
  obtain ⟨current, rest, last, mode, taken⟩ := look
  cases rest with
  | nil => exact Or.inl rfl
  | cons lexeme rest =>
    refine Or.inr ?_
    intro reader hreader
    rcases h with hnil | hrefused
    · cases hnil
    · change readLexemes ((taken ++ [(lexeme, mode)]).map (·.1)) = .ok reader at hreader
      rw [List.map_append] at hreader
      obtain ⟨middle, hmiddle, _⟩ := foldlM_append_eq_ok_iff.mp hreader
      exact hrefused middle hmiddle

/-- The token in hand is the next one of a reader, which does with it what `act` says. -/
inductive Awaits (text : String) (place : Place) (act : Nat → Token → Except LoadError Reader) :
    Lookahead → Prop
  | lexeme {reader : Reader} {taken : List (Located Lexeme × Place)} {lexeme : Located Lexeme}
      {rest : List (Located Lexeme)} {last : Nat}
      (steady : Lookahead.Steady text ⟨⟨lexeme.line, .ofLexeme place lexeme.item⟩, rest, last,
        place, taken ++ [(lexeme, place)]⟩)
      (hrun : readLexemes (taken.map (·.1)) = .ok reader)
      (hplace : reader.position.place = place)
      (hact : reader.step lexeme.line (.ofLexeme place lexeme.item) =
        act lexeme.line (.ofLexeme place lexeme.item)) :
      Awaits text place act ⟨⟨lexeme.line, .ofLexeme place lexeme.item⟩, rest, last,
        place, taken ++ [(lexeme, place)]⟩
  | fileEnd {reader : Reader} {taken : List (Located Lexeme × Place)} {last : Nat} {mode : Place}
      (steady : Lookahead.Steady text ⟨⟨last, .fileEnd⟩, [], last, mode, taken⟩)
      (hrun : readLexemes (taken.map (·.1)) = .ok reader)
      (hact : reader.step last .fileEnd = act last .fileEnd) :
      Awaits text place act ⟨⟨last, .fileEnd⟩, [], last, mode, taken⟩

/-- Reading the text fails, and has been steady up to there. -/
def Fails (text : String) (e : LoadError) (look : Lookahead) : Prop :=
  declarations text = .error e ∧ look.Steady text ∧ look.Through

namespace Awaits

theorem steady (h : Awaits text place act look) : look.Steady text := by
  cases h with
  | lexeme steady _ _ _ => exact steady
  | fileEnd steady _ _ => exact steady

theorem congr (h : Awaits text place act look)
    (heq : act look.current.line look.current.item =
      other look.current.line look.current.item) : Awaits text place other look := by
  cases h with
  | lexeme steady hrun hplace hact => exact .lexeme steady hrun hplace (hact.trans heq)
  | fileEnd steady hrun hact => exact .fileEnd steady hrun (hact.trans heq)

theorem run (h : Awaits text place act look) (hne : look.current.item ≠ .fileEnd)
    (hact : act look.current.line look.current.item = .ok next) :
    readLexemes (look.taken.map (·.1)) = .ok next := by
  cases h with
  | @lexeme reader taken lexeme rest last steady hrun hplace hsame =>
    rw [List.map_append]
    refine foldlM_concat_eq_ok_iff.mpr ⟨reader, hrun, ?_⟩
    rw [Reader.read, hplace, hsame]
    exact hact
  | fileEnd => exact absurd rfl hne

/-- A token taken in the mode of a position is awaited there. -/
theorem of_steady (h : look.Steady text)
    (hrun : readLexemes (look.taken.map (·.1)) = .ok next)
    (hmode : look.mode = next.position.place) :
    Awaits text next.position.place next.step look.advance := by
  have hbehind := h.advance (hmode ▸ Reader.place_eq_row_iff hrun)
  obtain ⟨current, rest, last, mode, taken⟩ := look
  cases hmode
  cases rest with
  | nil => exact .fileEnd hbehind hrun rfl
  | cons lexeme rest => exact .lexeme hbehind hrun rfl rfl

theorem start (text : String) :
    Awaits text .directive (Reader.readTop ⟨[], .top⟩) (Lookahead.start text) := by
  have hsteady : Lookahead.Steady text
      ⟨⟨(scan text.toList).line, .fileEnd⟩, (scan text.toList).lexemes,
        (scan text.toList).line, .directive, []⟩ := by
    refine ⟨rfl, rfl, ?_⟩
    intro front lexeme mode back hsplit
    exact absurd hsplit (List.ne_nil_of_length_pos (by simp)).symm
  have hrun : readLexemes [] = .ok .start := rfl
  exact of_steady hsteady hrun rfl

/-- The mode is that of the position behind the token in hand, and the next token is taken. -/
theorem switch (h : Awaits text place act look) (hne : look.current.item ≠ .fileEnd)
    (hact : act look.current.line look.current.item = .ok next) :
    Awaits text next.position.place next.step (look.setMode next.position.place).advance := by
  have hsteady : (look.setMode next.position.place).Steady text :=
    ⟨h.steady.lexemes, h.steady.last, h.steady.inStep⟩
  exact of_steady hsteady (h.run hne hact) rfl

theorem advance (h : Awaits text place act look) (hne : look.current.item ≠ .fileEnd)
    (hact : act look.current.line look.current.item = .ok next)
    (hplace : next.position.place = place) : Awaits text place next.step look.advance := by
  have hmode : look.setMode place = look := by
    cases h with
    | lexeme => rfl
    | fileEnd => exact absurd rfl hne
  have hswitch := h.switch hne hact
  rw [hplace, hmode] at hswitch
  exact hswitch

/-- At the end of the file the mode does not matter. -/
theorem again (h : Awaits text place act look) (hend : look.current.item = .fileEnd)
    {behind mode : Place}
    (heq : act look.current.line .fileEnd = other look.current.line .fileEnd) :
    Awaits text behind other (look.setMode mode).advance := by
  cases h with
  | lexeme => exact absurd hend (ofLexeme_ne_fileEnd _ _)
  | fileEnd steady hrun hact =>
    exact .fileEnd ⟨steady.lexemes, steady.last, steady.inStep⟩ hrun (hact.trans heq)

theorem through (h : Awaits text place act look)
    (hact : act look.current.line look.current.item = .error e) : look.Through := by
  cases h with
  | @lexeme reader taken lexeme rest last steady hrun hplace hsame =>
    refine Or.inr ?_
    intro next hnext
    rw [List.map_append] at hnext
    obtain ⟨middle, hmiddle, hread⟩ := foldlM_concat_eq_ok_iff.mp hnext
    rw [show middle = reader from Except.ok.inj (hmiddle.symm.trans hrun), Reader.read, hplace,
      hsame] at hread
    cases hread.symm.trans hact
  | fileEnd => exact Or.inl rfl

theorem fails (h : Awaits text place act look)
    (hact : act look.current.line look.current.item = .error e) : Fails text e look := by
  refine ⟨declarations_eq_error_iff.mpr ?_, h.steady, h.through hact⟩
  cases h with
  | @lexeme reader taken lexeme rest last steady hrun hplace hsame =>
    refine Or.inl ⟨taken.map (·.1), lexeme, rest, reader, ?_, hrun, ?_⟩
    · rw [← steady.lexemes]
      simp
    · rw [Reader.read, hplace, hsame]
      exact hact
  | @fileEnd reader taken last mode steady hrun hsame =>
    rw [steady.lexemes_eq rfl, ← steady.last]
    exact Or.inr ⟨reader, hrun, hsame.trans hact⟩

/-- A word is not refused before the token behind it has been taken. -/
theorem fails_behind (h : Awaits text .directive act look) {word : String}
    (hword : look.current.item = .word word)
    (hact : act look.current.line look.current.item = .error e) : Fails text e look.advance := by
  refine ⟨(h.fails hact).1, h.steady.advance ?_, (h.through hact).advance⟩
  cases h with
  | @lexeme reader taken lexeme rest last steady hrun hplace hsame =>
    have hitem := ofLexeme_eq_word hword
    have hout : ¬InBody (taken.map (·.1)) := by
      rw [← Reader.place_eq_row_iff hrun, hplace]
      simp
    refine iff_of_false (by simp) ?_
    intro hbody
    rw [List.map_append] at hbody
    rcases InBody.of_concat hbody with ⟨hbefore, _⟩ | hend
    · exact hout hbefore
    · rw [hitem] at hend
      cases hend
  | fileEnd => cases hword

/-- Behind the last declaration. -/
theorem accepts (h : Awaits text place act look) (hend : look.current.item = .fileEnd)
    (hact : act look.current.line look.current.item = .ok next) :
    declarations text = .ok next.items.reverse ∧ look.Steady text ∧ look.Through := by
  cases h with
  | lexeme => exact absurd hend (ofLexeme_ne_fileEnd _ _)
  | @fileEnd reader taken last mode steady hrun hsame =>
    refine ⟨?_, steady, Or.inl rfl⟩
    rw [declarations, steady.lexemes_eq rfl, ← steady.last]
    exact bind_eq_ok_iff.mpr ⟨reader, hrun, bind_eq_ok_iff.mpr ⟨next, hsame.trans hact, rfl⟩⟩

end Awaits

/-! ### Single tokens -/

namespace Awaits

theorem symbol {c : Char} {position : Position}
    (h : Awaits text place (Reader.readSymbol reader c position) look)
    (hplace : position.place = place) :
    (Parse.symbol c look).Ends
      (fun _ after => Awaits text place (reader.goTo position).step after) (Fails text) := by
  refine Parse.ends_token ?_
  by_cases hc : look.current.item = .symbol c
  · rw [if_pos hc]
    exact h.advance (by simp [hc]) (if_pos hc) hplace
  · rw [if_neg hc]
    exact h.fails (if_neg hc)

theorem word {what : Expected} {position : String → Position}
    (h : Awaits text place (Reader.readWord reader what position) look)
    (hplace : ∀ name, (position name).place = place) :
    (Parse.word what look).Ends
      (fun name after => Awaits text place (reader.goTo (position name)).step after)
      (Fails text) := by
  refine Parse.ends_word ?_ ?_
  · intro name hname
    refine h.advance (by simp [hname]) ?_ (hplace name)
    rw [hname]
    rfl
  · intro fault hfault
    refine h.fails ?_
    rw [Reader.readWord, hfault]

theorem lineEnd {position : Position}
    (h : Awaits text place (Reader.readLineEnd reader position) look) :
    (Parse.lineEnd look).Ends
      (fun _ after => after = look ∧ look.current.item.endsLine) (Fails text) := by
  refine Parse.ends_token ?_
  by_cases hends : look.current.item.endsLine
  · rw [if_pos hends]
    exact ⟨rfl, hends⟩
  · rw [if_neg hends]
    exact h.fails (if_neg hends)

theorem dimension {dimension : Dimension} {behind : Nat → Reader}
    (h : Awaits text place (Reader.readDimension dimension behind) look)
    (hplace : ∀ value, (behind value).position.place = place) :
    (Parse.dimension dimension look).Ends
      (fun value after => Awaits text place (behind value).step after) (Fails text) := by
  refine Parse.ends_token ?_
  cases hfound : dimensionOf dimension look.current.item with
  | ok value =>
    have hne : look.current.item ≠ .fileEnd := by
      intro hend
      rw [hend] at hfound
      cases hfound
    refine h.advance hne ?_ (hplace value)
    rw [Reader.readDimension, hfound]
  | error fault =>
    refine h.fails ?_
    rw [Reader.readDimension, hfound]

end Awaits

end KeyGrid.Source
