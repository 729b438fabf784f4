import KeyGrid.Engine.Operation
import KeyGrid.Proofs.Assembled

/-!
# Reachable engines

The engines that a host can come to have: one that has just been started, and
whatever operations make of it. Which keyboards may be started and loaded is left
open, so that a statement can be about all accepted ones or about those of a file.
-/

namespace KeyGrid

namespace Engine

/-! ### What is found -/

theorem metaKey?_eq_some {engine : Engine} {slot : Nat} {change : MetaKey}
    (h : engine.metaKey? slot = some change) :
    ∃ state ∈ engine.keyboard.states, state.metaKey? slot = some change := by
  obtain ⟨state, hs, hc⟩ := Option.bind_eq_some_iff.mp h
  exact ⟨state, List.mem_of_getElem? hs, hc⟩

theorem slot_lt_of_metaKey? {engine : Engine} {slot : Nat} {change : MetaKey}
    (h : engine.metaKey? slot = some change) : slot < slotCount := by
  obtain ⟨_, _, hc⟩ := metaKey?_eq_some h
  exact State.slot_lt_of_metaKey? hc

theorem key?_eq_some {engine : Engine} {row col : Nat} {swipe : Swipe} {key : Key}
    (h : engine.key? row col swipe = some key) :
    (row < engine.keyboard.rows ∧ col < engine.keyboard.cols) ∧
      engine.keyboard.resolve (engine.source swipe).1 row col = some key := by
  unfold key? at h
  split at h
  · rename_i hin
    exact ⟨hin, h⟩
  · cases h

theorem admitsKey_key? {engine : Engine} (closed : engine.keyboard.Closed) {row col : Nat}
    {swipe : Swipe} {key : Key} (h : engine.key? row col swipe = some key) :
    engine.keyboard.extent.admitsKey key :=
  closed.admitsKey_resolve (key?_eq_some h).2

theorem admitsMetaKey_metaKey? {engine : Engine} (closed : engine.keyboard.Closed)
    {slot : Nat} {change : MetaKey} (h : engine.metaKey? slot = some change) :
    engine.keyboard.extent.admitsMetaKey change := by
  obtain ⟨state, hs, hc⟩ := metaKey?_eq_some h
  exact closed.admitsMetaKey hs hc

/-! ### What one operation does -/

/-- A touch finds no key to activate, or it activates the one it finds. -/
theorem press_cases (engine : Engine) (row col : Nat) (swipe : Swipe) :
    ((swipe = .altLabel ∨ engine.key? row col swipe = none) ∧
      engine.press row col swipe = (engine, [])) ∨
    ∃ key, swipe ≠ .altLabel ∧ engine.key? row col swipe = some key ∧
      engine.press row col swipe =
        ({ engine with mode := (engine.activate key).1 }, (engine.activate key).2) := by
  by_cases hs : swipe = .altLabel
  · subst hs
    exact Or.inl ⟨Or.inl rfl, rfl⟩
  · cases hk : engine.key? row col swipe with
    | none =>
      refine Or.inl ⟨Or.inr rfl, ?_⟩
      cases swipe <;> first | exact absurd rfl hs | simp only [press, hk]
    | some key =>
      refine Or.inr ⟨key, hs, rfl, ?_⟩
      cases swipe <;> first | exact absurd rfl hs | simp only [press, hk]

theorem press_of_key? {engine : Engine} {row col : Nat} {swipe : Swipe} {key : Key}
    (hs : swipe ≠ .altLabel) (hk : engine.key? row col swipe = some key) :
    engine.press row col swipe =
      ({ engine with mode := (engine.activate key).1 }, (engine.activate key).2) := by
  rcases engine.press_cases row col swipe with ⟨h, _⟩ | ⟨found, _, hf, hp⟩
  · rcases h with h | h
    · exact absurd h hs
    · rw [h] at hk
      cases hk
  · rw [hk] at hf
    cases hf
    exact hp

/-- An operation leaves the engine alone, activates a key, enters a state with nothing
pending, or puts in another keyboard. -/
theorem perform_cases (engine : Engine) (operation : Operation) :
    engine.perform operation = (engine, []) ∨
    (∃ row col swipe key, operation = .press row col swipe ∧ swipe ≠ .altLabel ∧
      engine.key? row col swipe = some key ∧ engine.perform operation =
        ({ engine with mode := (engine.activate key).1 }, (engine.activate key).2)) ∨
    (∃ index, (index = engine.keyboard.main ∨
        ∃ name, engine.keyboard.stateIndex? name = some index) ∧
      engine.perform operation = engine.enter index) ∨
    ∃ keyboard, operation = .load keyboard ∧
      engine.perform operation = (.start keyboard, [.redraw]) := by
  cases operation with
  | press row col swipe =>
    rcases engine.press_cases row col swipe with ⟨_, hp⟩ | ⟨key, hs, hk, hp⟩
    · exact Or.inl hp
    · exact Or.inr (Or.inl ⟨row, col, swipe, key, rfl, hs, hk, hp⟩)
  | setState name =>
    cases hi : engine.keyboard.stateIndex? name with
    | none =>
      refine Or.inl ?_
      simp only [perform, setState?, hi, Option.map_none, Option.getD_none]
    | some index =>
      refine Or.inr (Or.inr (Or.inl ⟨index, Or.inr ⟨name, hi⟩, ?_⟩))
      simp only [perform, setState?, hi, Option.map_some, Option.getD_some]
  | reset => exact Or.inr (Or.inr (Or.inl ⟨engine.keyboard.main, Or.inl rfl, rfl⟩))
  | load keyboard => exact Or.inr (Or.inr (Or.inr ⟨keyboard, rfl, rfl⟩))

end Engine

/-! ### Runs -/

/-- Whether an operation puts in no keyboard but one of a given kind. -/
def Operation.Brings (kind : Keyboard → Prop) : Operation → Prop
  | .load keyboard => kind keyboard
  | .press _ _ _ | .setState _ | .reset => True

/-- What operations make of a started engine, with keyboards of a given kind only. -/
inductive Reachable (kind : Keyboard → Prop) : Engine → Prop
  | start {keyboard : Keyboard} (hk : kind keyboard) : Reachable kind (.start keyboard)
  | perform {engine : Engine} (hr : Reachable kind engine) (operation : Operation)
      (ho : operation.Brings kind) : Reachable kind (engine.perform operation).1

namespace Reachable

variable {kind : Keyboard → Prop} {engine : Engine}

theorem run (h : Reachable kind engine) (operations : List Operation)
    (ho : ∀ operation ∈ operations, operation.Brings kind) :
    Reachable kind (engine.run operations).1 := by
  induction operations generalizing engine with
  | nil => exact h
  | cons operation others ih =>
    have hnext := h.perform operation (ho operation (List.mem_cons_self ..))
    have hrest : ∀ other ∈ others, other.Brings kind :=
      fun other hm => ho other (List.mem_cons_of_mem _ hm)
    rw [Engine.run_cons]
    exact ih hnext hrest

theorem mono {wider : Keyboard → Prop} (h : Reachable kind engine)
    (hw : ∀ keyboard, kind keyboard → wider keyboard) : Reachable wider engine := by
  induction h with
  | start hk => exact .start (hw _ hk)
  | perform _ operation ho ih =>
    refine ih.perform operation ?_
    cases operation with
    | load keyboard => exact hw keyboard ho
    | press row col swipe => trivial
    | setState name => trivial
    | reset => trivial

/-- The keyboard of a reachable engine was started or loaded, so it is of the kind. -/
theorem keyboard (h : Reachable kind engine) : kind engine.keyboard := by
  induction h with
  | start hk => exact hk
  | @perform engine _ operation ho ih =>
    rcases engine.perform_cases operation with
      hp | ⟨_, _, _, _, _, _, _, hp⟩ | ⟨_, _, hp⟩ | ⟨loaded, rfl, hp⟩
    · rw [hp]
      exact ih
    · rw [hp]
      exact ih
    · rw [hp]
      exact ih
    · rw [hp]
      exact ho

end Reachable

/-- Reachable engines are the last ones of runs from a start. -/
theorem reachable_iff_run (kind : Keyboard → Prop) (engine : Engine) :
    Reachable kind engine ↔
      ∃ keyboard operations, kind keyboard ∧
        (∀ operation ∈ operations, operation.Brings kind) ∧
        engine = ((Engine.start keyboard).run operations).1 := by
  constructor
  · intro h
    induction h with
    | @start keyboard hk => exact ⟨keyboard, [], hk, by simp, rfl⟩
    | perform _ operation hop ih =>
      obtain ⟨keyboard, operations, hk, ho, rfl⟩ := ih
      refine ⟨keyboard, operations ++ [operation], hk, ?_, ?_⟩
      · intro other hm
        rcases List.mem_append.mp hm with hm | hm
        · exact ho other hm
        · rw [List.mem_singleton.mp hm]
          exact hop
      · rw [Engine.run_append]
        rfl
  · rintro ⟨keyboard, operations, hk, ho, rfl⟩
    exact (Reachable.start hk).run operations ho

end KeyGrid
