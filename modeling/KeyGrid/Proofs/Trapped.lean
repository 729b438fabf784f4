import KeyGrid.Proofs.SecondPress

/-!
# Overlays that lock the keyboard

An overlay hides everything below it. If none of its keys types, changes the mode or stands
for a slot in use, then no touch does anything to the engine any more: whatever is pressed,
the engine is the same afterwards, and the next touch meets the same keys. With a single key
of that kind within reach the host hears of its press.
-/

namespace KeyGrid

/-- Whether the operation is a touch, and not a request of the host. -/
def Operation.IsTouch : Operation → Prop
  | .press _ _ _ => True
  | .setState _ | .reset | .load _ => False

namespace Engine

/-- The keys that type or change the mode: text keys, mode changes inside the keyboard and
placeholders of slots that the active state uses. -/
inductive Moves (engine : Engine) : Key → Prop
  | text (key : TextKey) : Moves engine (.text key)
  | bound {slot : Nat} (h : engine.metaKey? slot ≠ none) : Moves engine (.placeholder slot)
  | dead (label : String) (layers : List Layer) : Moves engine (.direct (.dead label layers))
  | internal (label : String) (index : Nat) (latched : Bool) :
      Moves engine (.direct (.switch label (.state index) latched))

/-- Nowhere inside the grid do the layers supply a key that types or changes the mode. -/
def Sealed (engine : Engine) (layers : List Layer) : Prop :=
  ∀ row col key, row < engine.keyboard.rows → col < engine.keyboard.cols →
    engine.keyboard.resolve layers row col = some key → ¬engine.Moves key

/-- No touches change the engine, and the host hears of device actions and of the way out of
the keyboard only. -/
def Locked (engine : Engine) : Prop :=
  ∀ touches : List Operation, (∀ touch ∈ touches, touch.IsTouch) →
    (engine.run touches).1 = engine ∧
    ∀ events ∈ (engine.run touches).2, ∀ event ∈ events,
      event = .external ∨ ∃ action, event = .device action

variable {engine : Engine} {layers : List Layer}

theorem sealed_nil (engine : Engine) : engine.Sealed [] := by
  intro row col key _ _ hkey
  cases hkey

/-! ### Every touch of a sealed overlay is inert -/

theorem inert_of_not_moves {row col : Nat} {swipe : Swipe} {key : Key}
    (hk : engine.key? row col swipe = some key) (hm : ¬engine.Moves key) :
    engine.Inert row col swipe := by
  cases key with
  | text text => exact absurd (.text text) hm
  | device action => exact .device hk
  | placeholder slot =>
    cases hc : engine.metaKey? slot with
    | none => exact .unbound hk hc
    | some change => exact absurd (.bound (by simp [hc])) hm
  | direct change =>
    cases change with
    | dead label layers => exact absurd (.dead label layers) hm
    | switch label target latched =>
      cases target with
      | state index => exact absurd (.internal label index latched) hm
      | external => exact .external hk

theorem Sealed.inert (h : engine.Sealed layers) (ho : engine.mode.overlay = some layers)
    (row col : Nat) (swipe : Swipe) : engine.Inert row col swipe := by
  cases hk : engine.key? row col swipe with
  | none => exact .absent hk
  | some key =>
    obtain ⟨⟨hrow, hcol⟩, hkey⟩ := key?_eq_some hk
    have hlayers : (engine.source swipe).1 = layers := by simp [source, ho]
    rw [hlayers] at hkey
    exact inert_of_not_moves hk (h row col key hrow hcol hkey)

/-- An inert touch leaves the engine as it is, so the touches behind it are inert as well. -/
theorem Sealed.inertRun (h : engine.Sealed layers) (ho : engine.mode.overlay = some layers)
    {touches : List Operation} (ht : ∀ touch ∈ touches, touch.IsTouch) :
    engine.InertRun touches := by
  induction touches with
  | nil => exact .nil engine
  | cons touch others ih =>
    have hfirst := ht touch (List.mem_cons_self ..)
    have hothers := ih fun other hm => ht other (List.mem_cons_of_mem _ hm)
    cases touch with
    | press row col swipe => exact .behind (h.inert ho row col swipe) hothers
    | setState name => exact hfirst.elim
    | reset => exact hfirst.elim
    | load keyboard => exact hfirst.elim

theorem outward_of_quiet {event : Event} (h : event ≠ .redraw ∧ ∀ text, event ≠ .text text) :
    event = .external ∨ ∃ action, event = .device action := by
  cases event with
  | text text => exact absurd rfl (h.2 text)
  | device action => exact Or.inr ⟨action, rfl⟩
  | redraw => exact absurd rfl h.1
  | external => exact Or.inl rfl

theorem Sealed.locked (h : engine.Sealed layers) (ho : engine.mode.overlay = some layers) :
    engine.Locked := by
  intro touches ht
  obtain ⟨hsame, hquiet⟩ := (h.inertRun ho ht).run
  refine ⟨hsame, ?_⟩
  intro events he event hevent
  exact outward_of_quiet (hquiet events he event hevent)

/-! ### Every other overlay is heard of -/

theorem Moves.heard {key : Key} (h : engine.Moves key) :
    ∃ event ∈ (engine.activate key).2, event = .redraw ∨ ∃ text, event = .text text := by
  cases h with
  | text key => exact ⟨.text key.text, by simp [activate], Or.inr ⟨key.text, rfl⟩⟩
  | @bound slot h =>
    cases hc : engine.metaKey? slot with
    | none => exact absurd hc h
    | some change =>
      rw [activate_of_metaKey? hc]
      exact ⟨.redraw, by simp, Or.inl rfl⟩
  | dead label layers => exact ⟨.redraw, by simp [activate, MetaKey.isExternal], Or.inl rfl⟩
  | internal label index latched =>
    exact ⟨.redraw, by simp [activate, MetaKey.isExternal], Or.inl rfl⟩

theorem Locked.sealed (h : engine.Locked) (ho : engine.mode.overlay = some layers) :
    engine.Sealed layers := by
  intro row col key hrow hcol hkey hmoves
  have hk : engine.key? row col .tap = some key := by simp [key?, source, ho, hrow, hcol, hkey]
  have hpress := press_of_key? (show Swipe.tap ≠ .altLabel by decide) hk
  obtain ⟨event, hevent, hheard⟩ := hmoves.heard
  have hrun := (h [.press row col .tap] (by simp [Operation.IsTouch])).2
    (engine.activate key).2 (by simp [run_cons, perform, hpress]) event hevent
  rcases hheard with hredraw | ⟨text, htext⟩
  · simp [hredraw] at hrun
  · simp [htext] at hrun

/-- A slot that previews nothing locks the keyboard with its first press: a dead key without
layers, or a latched switch to a state that has none. -/
theorem locked_of_previews_nil {row col : Nat} {swipe : Swipe} {slot : Nat} {change : MetaKey}
    (hmeets : engine.Meets row col swipe slot) (ha : engine.mode.armed ≠ some slot)
    (hc : engine.metaKey? slot = some change) (hp : engine.keyboard.Previews change []) :
    (engine.press row col swipe).1.Locked := by
  obtain ⟨hpress, _⟩ := hmeets.press hc
  rw [toggle_of_previews ha hp] at hpress
  rw [hpress]
  exact (sealed_nil _).locked rfl

end Engine

/-- An overlay locks the keyboard exactly if it supplies no text key, no mode change inside the
keyboard and no placeholder of a slot that the active state uses. Whatever is touched then, and
however often, the active state, the overlay and the armed slot stay as they are, and the host
hears of device actions and of the way out of the keyboard only; so the mode is left by going
to a state, by a reset or with another keyboard. -/
theorem locked_exactly_if_sealed {engine : Engine} {layers : List Layer}
    (ho : engine.mode.overlay = some layers) :
    (engine.Sealed layers ↔
      ∀ touches : List Operation, (∀ touch ∈ touches, touch.IsTouch) →
        (engine.run touches).1 = engine ∧
        ∀ events ∈ (engine.run touches).2, ∀ event ∈ events,
          event = .external ∨ ∃ action, event = .device action) ∧
    (engine.Sealed layers →
      ∀ operations, (engine.run operations).1.mode ≠ engine.mode →
        ∃ operation ∈ operations, operation = .reset ∨
          (∃ name, operation = .setState name) ∨ ∃ keyboard, operation = .load keyboard) := by
  refine ⟨⟨fun h => h.locked ho, fun h => Engine.Locked.sealed h ho⟩, ?_⟩
  intro hsealed operations hmode
  by_cases htouches : ∀ operation ∈ operations, operation.IsTouch
  · have hsame := (hsealed.locked ho operations htouches).1
    exact absurd (congrArg Engine.mode hsame) hmode
  · simp only [not_forall] at htouches
    obtain ⟨operation, hmem, hrequest⟩ := htouches
    refine ⟨operation, hmem, ?_⟩
    cases operation with
    | press row col swipe => exact absurd trivial hrequest
    | setState name => exact Or.inr (Or.inl ⟨name, rfl⟩)
    | reset => exact Or.inl rfl
    | load keyboard => exact Or.inr (Or.inr ⟨keyboard, rfl⟩)

/-- A dead key without layers, a latched switch to a state without any, and a dead key that
shows nothing but a device key, the way out and a slot that is not in use. -/
def lockingSource : String :=
  "size 1 3\nlayout base \x7b\nS0 S1 S2\n\x7d\nlayout tools \x7b\nBKSP CHANGE S3\n\x7d\n" ++
    "state main \x7b\n  layout base\n  S0 ^ dead\n  S1 n deadlatch bare\n" ++
    "  S2 t dead ctrl:tools\n\x7d\nstate bare \x7b\n\x7d\n"

def lockingKeyboard : Keyboard where
  grid := ⟨1, 3⟩
  layouts :=
    [⟨"base", 1, 3, #[some (.placeholder 0), some (.placeholder 1), some (.placeholder 2)],
        by decide⟩,
      ⟨"tools", 1, 3, #[some (.device .backspace), some (.direct Source.externalKey),
        some (.placeholder 3)], by decide⟩]
  states :=
    [{ State.blank "main" with
        primary := [⟨0, .plain⟩]
        slots := #v[some (.dead "^" []), some (.switch "n" (.state 1) true),
          some (.dead "t" [⟨1, .ctrl⟩]), none] },
      State.blank "bare"]
  main := 0

/-- The engine in which one of the slots has been pressed. -/
def lockingEngine (col : Nat) : Engine := ((Engine.start lockingKeyboard).press 0 col .tap).1

theorem lockingEngine_sealed : (lockingEngine 2).Sealed [⟨1, .ctrl⟩] := by
  intro row col key hrow hcol hkey hmoves
  have hgrid : row < 1 ∧ col < 3 := ⟨hrow, hcol⟩
  obtain ⟨rfl, hcases⟩ : row = 0 ∧ (col = 0 ∨ col = 1 ∨ col = 2) := by omega
  rcases hcases with rfl | rfl | rfl
  · cases hkey
    cases hmoves
  · cases hkey
    cases hmoves
  · cases hkey
    cases hmoves with
    | bound h => exact h (by decide +kernel)

theorem locking_locks :
    Keyboard.ofSource lockingSource = .ok lockingKeyboard ∧
      (lockingEngine 0).mode = ⟨0, some [], some 0⟩ ∧ (lockingEngine 0).Locked ∧
      (lockingEngine 1).mode = ⟨0, some [], some 1⟩ ∧ (lockingEngine 1).Locked ∧
      (lockingEngine 2).mode = ⟨0, some [⟨1, .ctrl⟩], some 2⟩ ∧ (lockingEngine 2).Locked ∧
      ((lockingEngine 2).run [.press 0 0 .upDown, .press 0 1 .tap, .press 0 2 .tap]).2 =
        [[.device .backspace], [.external], []] := by
  have hdead : (lockingEngine 0).mode = ⟨0, some [], some 0⟩ := by decide +kernel
  have hlatched : (lockingEngine 1).mode = ⟨0, some [], some 1⟩ := by decide +kernel
  have htools : (lockingEngine 2).mode = ⟨0, some [⟨1, .ctrl⟩], some 2⟩ := by decide +kernel
  refine ⟨eq_ok_of_toOption (by decide +kernel), hdead, ?_, hlatched, ?_, htools, ?_,
    by decide +kernel⟩
  · exact (locked_exactly_if_sealed (congrArg Mode.overlay hdead)).1.mp (Engine.sealed_nil _)
  · exact (locked_exactly_if_sealed (congrArg Mode.overlay hlatched)).1.mp (Engine.sealed_nil _)
  · exact (locked_exactly_if_sealed (congrArg Mode.overlay htools)).1.mp lockingEngine_sealed

end KeyGrid
