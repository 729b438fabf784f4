import KeyGrid.Proofs.Overlay

/-!
# Redraws

A host learns of every change that can be seen. An operation that asks for no redraw
leaves the engine as it was, so every label and every look at every position stays; and
a host that repaints the grid when it is asked to, and only then, always shows it.
-/

namespace KeyGrid

/-- The events of one operation. -/
inductive Announced : List Event → Prop
  | nothing : Announced []
  | text (text : String) : Announced [.text text]
  | textRedraw (text : String) : Announced [.text text, .redraw]
  | device (action : Device) : Announced [.device action]
  | external : Announced [.external]
  | externalRedraw : Announced [.external, .redraw]
  | redraw : Announced [.redraw]

namespace Announced

variable {events : List Event} (h : Announced events)
include h

theorem count_redraw_le : events.count .redraw ≤ 1 := by
  cases h <;> simp

theorem getLast?_of_redraw (hr : .redraw ∈ events) : events.getLast? = some .redraw := by
  cases h with
  | nothing => cases hr
  | text text => simp at hr
  | device action => simp at hr
  | external => simp at hr
  | textRedraw text => rfl
  | externalRedraw => rfl
  | redraw => rfl

theorem others_le : (events.filter (· ≠ .redraw)).length ≤ 1 := by
  cases h <;> simp

end Announced

namespace Engine

/-! ### Keys -/

theorem signals_cases (change : MetaKey) :
    (change.isExternal ∧ change.signals = [.external]) ∨
      (change.isExternal = false ∧ change.signals = []) := by
  unfold MetaKey.signals
  cases change.isExternal with
  | true => exact Or.inl ⟨rfl, rfl⟩
  | false => exact Or.inr ⟨rfl, rfl⟩

theorem begin_external (engine : Engine) (mode : Mode) {change : MetaKey}
    (he : change.isExternal) : engine.begin mode change = mode := by
  cases change with
  | dead label layers => cases he
  | switch label target latched =>
    cases target with
    | state index => cases he
    | external => rfl

theorem activate_announced (engine : Engine) (key : Key) :
    Announced (engine.activate key).2 := by
  cases key with
  | text key =>
    cases hp : engine.mode.isPending with
    | true =>
      have hevents : (engine.activate (.text key)).2 = [.text key.text, .redraw] := by
        simp only [activate, hp, if_true]
      rw [hevents]
      exact .textRedraw key.text
    | false =>
      have hevents : (engine.activate (.text key)).2 = [.text key.text] := by
        simp only [activate, hp, Bool.false_eq_true, if_false]
      rw [hevents]
      exact .text key.text
  | device action => exact .device action
  | direct change =>
    rcases signals_cases change with ⟨he, hs⟩ | ⟨he, hs⟩
    · have hevents : (engine.activate (.direct change)).2 = [.external] := by
        simp only [activate, he, if_true, hs]
      rw [hevents]
      exact .external
    · have hevents : (engine.activate (.direct change)).2 = [.redraw] := by
        simp only [activate, he, Bool.false_eq_true, if_false]
      rw [hevents]
      exact .redraw
  | placeholder slot =>
    cases hc : engine.metaKey? slot with
    | none =>
      have hevents : (engine.activate (.placeholder slot)).2 = [] := by
        simp only [activate, hc]
      rw [hevents]
      exact .nothing
    | some change =>
      have hevents : (engine.activate (.placeholder slot)).2 = change.signals ++ [.redraw] := by
        simp only [activate, hc]
      rw [hevents]
      rcases signals_cases change with ⟨_, hs⟩ | ⟨_, hs⟩
      · rw [hs]
        exact .externalRedraw
      · rw [hs]
        exact .redraw

/-- A key that asks for no redraw leaves the mode alone: nothing was pending, or it only
speaks to the host. -/
theorem activate_of_not_redraw {engine : Engine} {key : Key}
    (h : .redraw ∉ (engine.activate key).2) : (engine.activate key).1 = engine.mode := by
  cases key with
  | text key =>
    cases hp : engine.mode.isPending with
    | true => simp [activate, hp] at h
    | false =>
      have hsettled := (Mode.isPending_eq_false_iff engine.mode).mp hp
      exact hsettled.symm
  | device action => rfl
  | direct change =>
    cases he : change.isExternal with
    | true => exact begin_external engine engine.mode he
    | false => simp [activate, he] at h
  | placeholder slot =>
    cases hc : engine.metaKey? slot with
    | none => simp only [activate, hc]
    | some change => simp [activate, hc] at h

/-! ### Operations -/

theorem perform_announced (engine : Engine) (operation : Operation) :
    Announced (engine.perform operation).2 := by
  rcases engine.perform_cases operation with
    hp | ⟨_, _, _, key, _, _, _, hp⟩ | ⟨index, _, hp⟩ | ⟨keyboard, _, hp⟩
  · rw [hp]
    exact .nothing
  · rw [hp]
    exact activate_announced engine key
  · rw [hp]
    exact .redraw
  · rw [hp]
    exact .redraw

theorem perform_of_not_redraw {engine : Engine} {operation : Operation}
    (h : .redraw ∉ (engine.perform operation).2) : (engine.perform operation).1 = engine := by
  rcases engine.perform_cases operation with
    hp | ⟨_, _, _, key, _, _, _, hp⟩ | ⟨index, _, hp⟩ | ⟨keyboard, _, hp⟩
  · rw [hp]
  · rw [hp] at h ⊢
    have hmode := activate_of_not_redraw h
    show { engine with mode := (engine.activate key).1 } = engine
    rw [hmode]
  · rw [hp] at h
    exact absurd (List.mem_singleton_self _) h
  · rw [hp] at h
    exact absurd (List.mem_singleton_self _) h

end Engine

/-- An operation that changes what is seen anywhere asks for a redraw, and it tells the
host one thing more at most, in front of it. -/
theorem perform_redraws {engine next : Engine} {operation : Operation} {events : List Event}
    (h : engine.perform operation = (next, events)) :
    (∀ row col swipe, (next.label row col swipe ≠ engine.label row col swipe ∨
        next.look row col swipe ≠ engine.look row col swipe) → .redraw ∈ events) ∧
      Announced events ∧ events.count .redraw ≤ 1 ∧
      (.redraw ∈ events → events.getLast? = some .redraw) ∧
      (events.filter (· ≠ .redraw)).length ≤ 1 := by
  have hnext : (engine.perform operation).1 = next := congrArg Prod.fst h
  have hevents : (engine.perform operation).2 = events := congrArg Prod.snd h
  have hannounced := engine.perform_announced operation
  rw [hevents] at hannounced
  refine ⟨?_, hannounced, hannounced.count_redraw_le, hannounced.getLast?_of_redraw,
    hannounced.others_le⟩
  intro row col swipe hchanged
  apply Decidable.byContradiction
  intro hsilent
  rw [← hevents] at hsilent
  have hsame := Engine.perform_of_not_redraw hsilent
  rw [hnext] at hsame
  subst hsame
  rcases hchanged with hlabel | hlook
  · exact hlabel rfl
  · exact hlook rfl

theorem deadKey_redraws :
    ∃ next events, (Engine.start deadKeyKeyboard).perform (.press 0 1 .tap) = (next, events) ∧
      next.look 0 1 .tap ≠ (Engine.start deadKeyKeyboard).look 0 1 .tap ∧ .redraw ∈ events ∧
      Announced events := by
  have h : (Engine.start deadKeyKeyboard).perform (.press 0 1 .tap) =
      (((Engine.start deadKeyKeyboard).perform (.press 0 1 .tap)).1,
        ((Engine.start deadKeyKeyboard).perform (.press 0 1 .tap)).2) := rfl
  have hlook : ((Engine.start deadKeyKeyboard).perform (.press 0 1 .tap)).1.look 0 1 .tap ≠
      (Engine.start deadKeyKeyboard).look 0 1 .tap := by decide +kernel
  have hredraws := perform_redraws h
  exact ⟨_, _, h, hlook, hredraws.1 0 1 .tap (Or.inr hlook), hredraws.2.1⟩

/-! ### What a host shows -/

/-- The label and the look at every position under every swipe. -/
def Engine.picture (engine : Engine) (row col : Nat) (swipe : Swipe) : String × Look :=
  (engine.label row col swipe, engine.look row col swipe)

/-- What is on the screen of a host that paints the picture anew whenever it is asked to,
and only then. -/
def Engine.screen (engine : Engine) (shown : Nat → Nat → Swipe → String × Look) :
    List Operation → Nat → Nat → Swipe → String × Look
  | [] => shown
  | operation :: others =>
    let (next, events) := engine.perform operation
    next.screen (if .redraw ∈ events then next.picture else shown) others

theorem Engine.screen_cons (engine : Engine) (shown : Nat → Nat → Swipe → String × Look)
    (operation : Operation) (others : List Operation) :
    engine.screen shown (operation :: others) =
      (engine.perform operation).1.screen
        (if .redraw ∈ (engine.perform operation).2 then (engine.perform operation).1.picture
          else shown) others := rfl

/-- Such a host never shows anything stale. -/
theorem screen_eq_picture (engine : Engine) (operations : List Operation) :
    engine.screen engine.picture operations = (engine.run operations).1.picture := by
  induction operations generalizing engine with
  | nil => rfl
  | cons operation others ih =>
    have hshown : (if .redraw ∈ (engine.perform operation).2
        then (engine.perform operation).1.picture else engine.picture) =
          (engine.perform operation).1.picture := by
      split
      · rfl
      · rename_i hsilent
        rw [Engine.perform_of_not_redraw hsilent]
    rw [Engine.run_cons, Engine.screen_cons, hshown]
    exact ih (engine.perform operation).1

end KeyGrid
