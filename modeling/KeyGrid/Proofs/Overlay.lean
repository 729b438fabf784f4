import KeyGrid.Proofs.Compiled
import KeyGrid.Proofs.Reachable

/-!
# Overlays and armed slots

A slot stays armed only together with the overlay that its first press laid, so its
second press always finds a dead key or a latched switch and takes the overlay away.
This holds of the keyboards of layout files: their cells hold no mode change of their
own but the one that leaves the keyboard.
-/

namespace KeyGrid

open Source

/-! ### Mode changes in cells -/

namespace Source

theorem codeMeaning?_direct {code : String} {change : MetaKey}
    (h : codeMeaning? code = some (.direct change)) : change = externalKey := by
  unfold codeMeaning? at h
  split at h
  · cases h
  · split at h
    · cases h
      rfl
    · obtain ⟨slot, _, hslot⟩ := Option.map_eq_some_iff.mp h
      cases hslot

theorem LayoutDecl.meaning?_direct {decl : LayoutDecl} {row col : Nat} {change : MetaKey}
    (h : decl.meaning? row col = some (.direct change)) : change = externalKey := by
  obtain ⟨_, _, ⟨cell, _⟩, _, hcell⟩ := exists_cell h
  cases cell with
  | absent => cases hcell
  | text typed => cases hcell
  | code name => exact codeMeaning?_direct hcell

end Source

theorem Keyboard.BuiltFrom.direct_eq {keyboard : Keyboard} {items : List Item}
    (h : keyboard.BuiltFrom items) {layers : List Layer} {row col : Nat} {change : MetaKey}
    (hk : keyboard.resolve layers row col = some (.direct change)) : change = externalKey := by
  obtain ⟨_, _, _, _, original, _, _, hmeaning, hu⟩ := h.written hk
  have horiginal : original = .direct change := by
    cases original with
    | text key =>
      obtain ⟨shifted, _, hs⟩ := Option.map_eq_some_iff.mp hu
      cases hs
    | device action => cases hu
    | direct other =>
      cases hu
      rfl
    | placeholder slot => cases hu
  rw [horiginal] at hmeaning
  exact LayoutDecl.meaning?_direct hmeaning

/-- Made from the text of a layout file. -/
def Keyboard.Compiled (keyboard : Keyboard) : Prop :=
  ∃ text, Keyboard.ofSource text = .ok keyboard

namespace Keyboard.Compiled

variable {keyboard : Keyboard} (h : keyboard.Compiled)
include h

theorem builtFrom : ∃ items, keyboard.BuiltFrom items := by
  obtain ⟨text, htext⟩ := h
  obtain ⟨items, _, hitems⟩ := bind_eq_ok_iff.mp htext
  exact ⟨items, ofItems_ok hitems⟩

theorem closed : keyboard.Closed := by
  obtain ⟨items, hbuilt⟩ := h.builtFrom
  exact hbuilt.assembled.closed

theorem direct_eq {layers : List Layer} {row col : Nat} {change : MetaKey}
    (hk : keyboard.resolve layers row col = some (.direct change)) : change = externalKey := by
  obtain ⟨items, hbuilt⟩ := h.builtFrom
  exact hbuilt.direct_eq hk

end Keyboard.Compiled

/-! ### What a slot shows -/

/-- The layers that the key shows while its slot stays armed: a dead key its own, a
latched switch those of a tap in the state it leads to. -/
inductive Keyboard.Previews (keyboard : Keyboard) : MetaKey → List Layer → Prop
  | dead (label : String) (layers : List Layer) : Previews keyboard (.dead label layers) layers
  | latched (label : String) {index : Nat} {target : State}
      (h : keyboard.states[index]? = some target) :
      Previews keyboard (.switch label (.state index) true) target.primary

namespace Engine

/-- An armed slot shows its layers. -/
def ArmedShown (engine : Engine) : Prop :=
  ∀ slot, engine.mode.armed = some slot → ∃ change layers,
    engine.metaKey? slot = some change ∧ engine.mode.overlay = some layers ∧
      engine.keyboard.Previews change layers

theorem armedShown_of_armed_eq_none {engine : Engine} (h : engine.mode.armed = none) :
    engine.ArmedShown := by
  intro slot hslot
  rw [h] at hslot
  cases hslot

theorem ArmedShown.previews {engine : Engine} (shown : engine.ArmedShown) {slot : Nat}
    {change : MetaKey} (ha : engine.mode.armed = some slot)
    (hc : engine.metaKey? slot = some change) :
    ∃ layers, engine.mode.overlay = some layers ∧ engine.keyboard.Previews change layers := by
  obtain ⟨found, layers, hf, hshown⟩ := shown slot ha
  rw [hc] at hf
  cases hf
  exact ⟨layers, hshown⟩

/-- A touch of a slot whose key leaves the keyboard. -/
def HandsOver (engine : Engine) (operation : Operation) : Prop :=
  ∃ row col swipe slot change, operation = .press row col swipe ∧ swipe ≠ .altLabel ∧
    engine.key? row col swipe = some (.placeholder slot) ∧
    engine.metaKey? slot = some change ∧ change.isExternal

/-! ### Presses of a slot -/

theorem activate_of_metaKey? {engine : Engine} {slot : Nat} {change : MetaKey}
    (hc : engine.metaKey? slot = some change) :
    engine.activate (.placeholder slot) =
      (engine.toggle slot change, change.signals ++ [.redraw]) := by
  simp only [activate, hc]

theorem activate_of_metaKey?_none {engine : Engine} {slot : Nat}
    (hc : engine.metaKey? slot = none) :
    engine.activate (.placeholder slot) = (engine.mode, []) := by
  simp only [activate, hc]

/-- The second press takes the overlay away, by itself or by going to another state. -/
theorem toggle_again {engine : Engine} {slot : Nat} {change : MetaKey} {layers : List Layer}
    (ha : engine.mode.armed = some slot) (hp : engine.keyboard.Previews change layers) :
    engine.toggle slot change = complete (engine.mode.withArmed none) change ∧
      ∃ index, engine.toggle slot change = .entering index := by
  cases hp with
  | dead label layers =>
    have ht : engine.toggle slot (.dead label layers) =
        complete (engine.mode.withArmed none) (.dead label layers) := by
      simp only [toggle, if_pos ha]
      rfl
    exact ⟨ht, engine.mode.current, ht⟩
  | @latched label index target hs =>
    have ht : engine.toggle slot (.switch label (.state index) true) =
        complete (engine.mode.withArmed none) (.switch label (.state index) true) := by
      simp only [toggle, if_pos ha]
      rfl
    exact ⟨ht, index, ht⟩

/-- What leaves the keyboard disarms whatever was armed and keeps the overlay. -/
theorem toggle_external (engine : Engine) (slot : Nat) {change : MetaKey}
    (he : change.isExternal) : engine.toggle slot change = engine.mode.withArmed none := by
  cases change with
  | dead label layers => cases he
  | switch label target latched =>
    cases target with
    | state index => cases he
    | external =>
      by_cases ha : engine.mode.armed = some slot
      · simp only [toggle, if_pos ha]
        rfl
      · simp only [toggle, if_neg ha]
        rfl

/-- The first press of a slot that shows layers arms the slot and lays them. -/
theorem toggle_of_previews {engine : Engine} {slot : Nat} {change : MetaKey}
    {layers : List Layer} (ha : engine.mode.armed ≠ some slot)
    (hp : engine.keyboard.Previews change layers) :
    engine.toggle slot change = ⟨engine.mode.current, some layers, some slot⟩ := by
  cases hp with
  | dead label layers =>
    simp only [toggle, if_neg ha]
    rfl
  | latched label hs =>
    simp only [toggle, if_neg ha, begin, primaryLayers, hs]
    rfl

/-- The first press of a slot that stays in the keyboard goes to a state, or it arms the
slot and lays its layers. -/
theorem toggle_first {engine : Engine} {slot : Nat} {change : MetaKey}
    (ha : engine.mode.armed ≠ some slot) (he : change.isExternal = false)
    (hc : engine.keyboard.extent.admitsMetaKey change) :
    (∃ index, engine.toggle slot change = .entering index) ∨
      ∃ layers, engine.keyboard.Previews change layers ∧
        engine.toggle slot change = ⟨engine.mode.current, some layers, some slot⟩ := by
  cases change with
  | dead label layers =>
    have hp : engine.keyboard.Previews (.dead label layers) layers := .dead label layers
    exact Or.inr ⟨layers, hp, toggle_of_previews ha hp⟩
  | switch label target latched =>
    cases target with
    | external => cases he
    | state index =>
      cases latched with
      | false =>
        refine Or.inl ⟨index, ?_⟩
        simp only [toggle, if_neg ha]
        rfl
      | true =>
        have hlt : index < engine.keyboard.states.length := (Extent.admitsMetaKey_state ..).mp hc
        have hp : engine.keyboard.Previews (.switch label (.state index) true) _ :=
          .latched label (List.getElem?_eq_getElem hlt)
        exact Or.inr ⟨_, hp, toggle_of_previews ha hp⟩

/-! ### What an operation makes of an engine -/

/-- The engines an operation can lead to. -/
inductive Changes (engine : Engine) (operation : Operation) : Engine → Prop
  | same : Changes engine operation engine
  | settles (keyboard : Keyboard) (index : Nat) :
      Changes engine operation ⟨keyboard, .entering index⟩
  | lays {slot : Nat} {change : MetaKey} {layers : List Layer}
      (hc : engine.metaKey? slot = some change) (hp : engine.keyboard.Previews change layers) :
      Changes engine operation ⟨engine.keyboard, engine.mode.current, some layers, some slot⟩
  | handsOver (h : engine.HandsOver operation) :
      Changes engine operation ⟨engine.keyboard, engine.mode.withArmed none⟩

theorem HandsOver.perform {engine : Engine} {operation : Operation}
    (h : engine.HandsOver operation) :
    (engine.perform operation).1 = ⟨engine.keyboard, engine.mode.withArmed none⟩ := by
  obtain ⟨row, col, swipe, slot, change, rfl, hs, hk, hc, he⟩ := h
  have hpress := press_of_key? hs hk
  rw [activate_of_metaKey? hc, toggle_external engine slot he] at hpress
  exact congrArg Prod.fst hpress

theorem perform_changes {engine : Engine} (compiled : engine.keyboard.Compiled)
    (shown : engine.ArmedShown) (operation : Operation) :
    engine.Changes operation (engine.perform operation).1 := by
  rcases engine.perform_cases operation with
    hp | ⟨row, col, swipe, key, hop, hs, hk, hp⟩ | ⟨index, _, hp⟩ | ⟨keyboard, _, hp⟩
  · rw [hp]
    exact .same
  · rw [hp]
    cases key with
    | text key => exact .settles engine.keyboard engine.mode.current
    | device action => exact .same
    | direct change =>
      -- the only such key of a file leaves the keyboard
      have hexternal := compiled.direct_eq (key?_eq_some hk).2
      subst hexternal
      exact .same
    | placeholder slot =>
      cases hc : engine.metaKey? slot with
      | none =>
        rw [activate_of_metaKey?_none hc]
        exact .same
      | some change =>
        rw [activate_of_metaKey? hc]
        cases he : change.isExternal with
        | true =>
          rw [toggle_external engine slot he]
          exact .handsOver ⟨row, col, swipe, slot, change, hop, hs, hk, hc, he⟩
        | false =>
          by_cases ha : engine.mode.armed = some slot
          · obtain ⟨layers, _, hpreviews⟩ := shown.previews ha hc
            obtain ⟨_, index, ht⟩ := toggle_again ha hpreviews
            rw [ht]
            exact .settles engine.keyboard index
          · have hadmits := admitsMetaKey_metaKey? compiled.closed hc
            rcases toggle_first ha he hadmits with ⟨index, ht⟩ | ⟨layers, hpreviews, ht⟩
            · rw [ht]
              exact .settles engine.keyboard index
            · rw [ht]
              exact .lays hc hpreviews
  · rw [hp]
    exact .settles engine.keyboard index
  · rw [hp]
    exact .settles keyboard keyboard.main

/-- Whatever was armed before, an armed slot shows its layers afterwards. -/
theorem perform_armedShown {engine : Engine} (compiled : engine.keyboard.Compiled)
    (shown : engine.ArmedShown) (operation : Operation) :
    (engine.perform operation).1.ArmedShown := by
  have hchanges := perform_changes compiled shown operation
  generalize (engine.perform operation).1 = next at hchanges
  cases hchanges with
  | same => exact shown
  | settles keyboard index => exact armedShown_of_armed_eq_none rfl
  | @lays slot change layers hc hp =>
    intro other hother
    cases hother
    exact ⟨change, layers, hc, rfl, hp⟩
  | handsOver h => exact armedShown_of_armed_eq_none rfl

/-! ### Keys drawn as armed -/

/-- An overlay answers every swipe alike. -/
theorem key?_of_overlay {engine : Engine} {layers : List Layer}
    (ho : engine.mode.overlay = some layers) (row col : Nat) (swipe other : Swipe) :
    engine.key? row col swipe = engine.key? row col other := by
  simp only [key?, source, ho]

theorem armed_of_look {engine : Engine} {row col : Nat} {swipe : Swipe}
    (h : engine.look row col swipe = .armed) :
    ∃ slot, engine.key? row col swipe = some (.placeholder slot) ∧
      engine.mode.armed = some slot := by
  unfold look at h
  split at h
  · cases h
  · rename_i key hk
    split at h
    · rename_i harmed
      cases key with
      | placeholder slot => exact ⟨slot, hk, by simpa [isArmed] using harmed⟩
      | text key => cases harmed
      | device action => cases harmed
      | direct change => cases harmed
    · cases horigin : (engine.source swipe).2 <;> rw [horigin] at h <;> cases h

/-- Touching the armed slot is its second press. -/
theorem press_armed {engine : Engine} (shown : engine.ArmedShown) {slot : Nat}
    {change : MetaKey} (ha : engine.mode.armed = some slot)
    (hc : engine.metaKey? slot = some change) {row col : Nat} {swipe : Swipe}
    (hs : swipe ≠ .altLabel) (hk : engine.key? row col swipe = some (.placeholder slot)) :
    (engine.press row col swipe).1.mode = complete (engine.mode.withArmed none) change ∧
      ∃ index, (engine.press row col swipe).1.mode = .entering index := by
  obtain ⟨layers, _, hp⟩ := shown.previews ha hc
  obtain ⟨hcomplete, index, hindex⟩ := toggle_again ha hp
  have hmode : (engine.press row col swipe).1.mode = engine.toggle slot change := by
    rw [press_of_key? hs hk, activate_of_metaKey? hc]
  exact ⟨hmode.trans hcomplete, index, hmode.trans hindex⟩

end Engine

theorem Reachable.armedShown {engine : Engine} (h : Reachable Keyboard.Compiled engine) :
    engine.ArmedShown := by
  induction h with
  | start hk => exact Engine.armedShown_of_armed_eq_none rfl
  | perform hr operation ho ih => exact Engine.perform_armedShown hr.keyboard ih operation

/-- What an armed slot means. It is a slot of the active state, its key is a dead key or a
latched switch to a state, and the overlay is what this key shows; no other key is ever
pressed a second time, and touching the armed slot leaves nothing pending. -/
theorem reachable_armed_shown {engine : Engine} (h : Reachable Keyboard.Compiled engine) :
    (∀ slot, engine.mode.armed = some slot → slot < slotCount ∧ ∃ change layers,
      engine.metaKey? slot = some change ∧ engine.mode.overlay = some layers ∧
        engine.keyboard.Previews change layers) ∧
    (∀ slot change, engine.mode.armed = some slot → engine.metaKey? slot = some change →
      change.isExternal = false ∧ ∀ label target, change ≠ .switch label target false) ∧
    ∀ row col swipe, engine.look row col swipe = .armed →
      engine.mode.overlay.isSome ∧ ∀ other, other ≠ .altLabel →
        (engine.press row col other).1.mode.overlay = none ∧
          (engine.press row col other).1.mode.armed = none := by
  have shown := h.armedShown
  refine ⟨?_, ?_, ?_⟩
  · intro slot ha
    obtain ⟨change, layers, hc, hshown⟩ := shown slot ha
    exact ⟨Engine.slot_lt_of_metaKey? hc, change, layers, hc, hshown⟩
  · intro slot change ha hc
    obtain ⟨layers, _, hp⟩ := shown.previews ha hc
    cases hp with
    | dead label layers =>
      refine ⟨rfl, ?_⟩
      intro _ _ he
      cases he
    | latched label hs =>
      refine ⟨rfl, ?_⟩
      intro _ _ he
      cases he
  · intro row col swipe hl
    obtain ⟨slot, hk, ha⟩ := Engine.armed_of_look hl
    obtain ⟨change, layers, hc, ho, _⟩ := shown slot ha
    refine ⟨Option.isSome_of_eq_some ho, ?_⟩
    intro other hother
    rw [Engine.key?_of_overlay ho row col swipe other] at hk
    obtain ⟨_, index, hmode⟩ := Engine.press_armed shown ha hc hother hk
    rw [hmode]
    exact ⟨rfl, rfl⟩

/-- A dead key whose overlay shows its own slot and one that leaves the keyboard. -/
def deadKeySource : String :=
  "size 1 3\nlayout base \x7b\na S0 S1\n\x7d\nstate main \x7b\n  layout base\n" ++
    "  S0 ^ dead base\n  S1 kb state CHANGE\n\x7d\n"

def deadKeyKeyboard : Keyboard where
  grid := ⟨1, 3⟩
  layouts :=
    [⟨"base", 1, 3, #[some (.ofText "a"), some (.placeholder 0), some (.placeholder 1)], by decide⟩]
  states :=
    [{ State.blank "main" with
        primary := [⟨0, .plain⟩]
        slots := #v[some (.dead "^" [⟨0, .plain⟩]), some (.switch "kb" .external false),
          none, none] }]
  main := 0

theorem ofSource_deadKeySource : Keyboard.ofSource deadKeySource = .ok deadKeyKeyboard :=
  eq_ok_of_toOption (by decide +kernel)

theorem deadKeyKeyboard_compiled : deadKeyKeyboard.Compiled :=
  ⟨deadKeySource, ofSource_deadKeySource⟩

theorem deadKey_armed_shown :
    ∃ engine : Engine, Reachable Keyboard.Compiled engine ∧ engine.look 0 1 .tap = .armed ∧
      engine.mode.overlay.isSome ∧ (engine.press 0 1 .upDown).1.mode.overlay = none := by
  have hr := (Reachable.start deadKeyKeyboard_compiled).perform (.press 0 1 .tap) trivial
  have hl := (reachable_armed_shown hr).2.2 0 1 .tap (by decide +kernel)
  exact ⟨_, hr, by decide +kernel, hl.1, (hl.2 .upDown (by decide)).1⟩

end KeyGrid
