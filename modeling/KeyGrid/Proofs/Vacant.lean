import KeyGrid.Proofs.Accepted
import KeyGrid.Proofs.Typed

/-!
# Places where nothing is offered

A position is vacant if no layer has a key there, or if the key stands for a slot that the
active state leaves empty. Touching it does nothing, and it shows no label. On the keyboards
of layout files the converse holds too: whatever is not vacant answers a touch with some
event, and it shows a label unless its slot was declared with the empty one. How a vacant
position is drawn still follows the layers that were asked for a key.
-/

namespace KeyGrid

open Source

/-! ### Labels that are never empty -/

theorem Device.glyph_ne_empty (action : Device) : action.glyph ≠ "" := by
  cases action <;> decide

/-- No modifier leaves a key without a label. -/
theorem TextKey.label_under_ne_empty {written : String} (hw : written ≠ "") {key : TextKey}
    {modifier : Modifier} (h : (ofText written).under modifier = some key) : key.label ≠ "" := by
  cases modifier with
  | plain =>
    cases h
    exact hw
  | shift =>
    cases h
    intro hempty
    exact hw ((Text.uppercase_eq_empty_iff written).mp hempty)
  | ctrl =>
    obtain ⟨letter, _, rfl⟩ := Option.map_eq_some_iff.mp h
    intro hempty
    have hlist := congrArg String.toList hempty
    rw [String.toList_ofList] at hlist
    cases hlist

/-- A cell that can be written in a file is not the empty text. -/
theorem Source.LayoutDecl.Fits.text_ne_empty {grid : Grid} {decl : LayoutDecl}
    (h : decl.Fits grid) {row col : Nat} {key : TextKey}
    (hk : decl.meaning? row col = some (.text key)) : key.text ≠ "" := by
  obtain ⟨cells, hcells, ⟨cell, line⟩, hwritten, hcell⟩ := exists_cell hk
  have hproper := h.cells cells hcells _ hwritten
  cases cell with
  | absent => cases hcell
  | text typed =>
    cases hcell
    exact hproper.1
  | code name => exact absurd hcell (codeMeaning?_ne_text name key)

theorem Keyboard.Compiled.label_ne_empty {keyboard : Keyboard} (h : keyboard.Compiled)
    {layers : List Layer} {row col : Nat} {key : TextKey}
    (hk : keyboard.resolve layers row col = some (.text key)) : key.label ≠ "" := by
  obtain ⟨text, htext⟩ := h
  obtain ⟨items, hitems, hof⟩ := bind_eq_ok_iff.mp htext
  obtain ⟨_, _, decl, hdecl, original, modifier, _, hmeaning, hu⟩ := (ofItems_ok hof).written hk
  obtain ⟨grid, hfound⟩ := (declarations_found hitems).layout (mem_layouts.mp hdecl)
  cases original with
  | text shown =>
    obtain ⟨shifted, hshifted, hkey⟩ := Option.map_eq_some_iff.mp hu
    cases hkey
    have hne := hfound.fits.text_ne_empty hmeaning
    rw [LayoutDecl.meaning?_text hmeaning] at hshifted
    exact TextKey.label_under_ne_empty hne hshifted
  | device action => cases hu
  | direct change => cases hu
  | placeholder slot => cases hu

namespace Engine

/-- Nothing is offered: there is no key, or its slot is empty. -/
def Vacant (engine : Engine) (row col : Nat) (swipe : Swipe) : Prop :=
  engine.key? row col swipe = none ∨
    ∃ slot, engine.key? row col swipe = some (.placeholder slot) ∧ engine.metaKey? slot = none

/-- The key stands for a slot whose mode change has the empty label. -/
def Unlabelled (engine : Engine) (row col : Nat) (swipe : Swipe) : Prop :=
  ∃ slot change, engine.key? row col swipe = some (.placeholder slot) ∧
    engine.metaKey? slot = some change ∧ change.label = ""

/-! ### Touches without events -/

theorem signals_or_redraw_ne_nil (change : MetaKey) :
    (if change.isExternal then change.signals else [.redraw]) ≠ [] := by
  unfold MetaKey.signals
  cases change.isExternal <;> simp

theorem activate_eq_nil_iff (engine : Engine) (key : Key) :
    (engine.activate key).2 = [] ↔ ∃ slot, key = .placeholder slot ∧ engine.metaKey? slot = none := by
  cases key with
  | text key => simp [activate]
  | device action => simp [activate]
  | direct change => simpa [activate] using signals_or_redraw_ne_nil change
  | placeholder slot =>
    cases hc : engine.metaKey? slot with
    | none => simp [activate_of_metaKey?_none hc, hc]
    | some change => simp [activate_of_metaKey? hc, hc]

theorem Vacant.press {engine : Engine} {row col : Nat} {swipe : Swipe}
    (h : engine.Vacant row col swipe) : engine.press row col swipe = (engine, []) := by
  rcases engine.press_cases row col swipe with ⟨_, hp⟩ | ⟨key, _, hk, hp⟩
  · exact hp
  · rcases h with hnone | ⟨slot, hslot, hempty⟩
    · rw [hk] at hnone
      cases hnone
    · rw [hk] at hslot
      cases hslot
      rw [hp, activate_of_metaKey?_none hempty]

/-- Whatever is not vacant answers a touch. -/
theorem press_eq_nil_iff {engine : Engine} {row col : Nat} {swipe : Swipe}
    (hs : swipe ≠ .altLabel) :
    (engine.press row col swipe).2 = [] ↔ engine.Vacant row col swipe := by
  constructor
  · intro h
    cases hk : engine.key? row col swipe with
    | none => exact Or.inl hk
    | some key =>
      rw [press_of_key? hs hk] at h
      obtain ⟨slot, rfl, hempty⟩ := (engine.activate_eq_nil_iff key).mp h
      exact Or.inr ⟨slot, hk, hempty⟩
  · intro h
    rw [h.press]

/-! ### Empty labels -/

theorem label_of_none {engine : Engine} {row col : Nat} {swipe : Swipe}
    (hk : engine.key? row col swipe = none) : engine.label row col swipe = "" := by
  simp only [label, hk, Option.map_none, Option.getD_none]

theorem label_of_placeholder {engine : Engine} {row col : Nat} {swipe : Swipe} {slot : Nat}
    (hk : engine.key? row col swipe = some (.placeholder slot)) :
    engine.label row col swipe = ((engine.metaKey? slot).map (·.label)).getD "" := by
  simp only [label, hk, Option.map_some, Option.getD_some, labelOf]

theorem Vacant.label {engine : Engine} {row col : Nat} {swipe : Swipe}
    (h : engine.Vacant row col swipe) : engine.label row col swipe = "" := by
  rcases h with hnone | ⟨slot, hslot, hempty⟩
  · exact label_of_none hnone
  · rw [label_of_placeholder hslot, hempty]
    rfl

theorem label_eq_empty_iff {engine : Engine} (compiled : engine.keyboard.Compiled)
    {row col : Nat} {swipe : Swipe} :
    engine.label row col swipe = "" ↔
      engine.Vacant row col swipe ∨ engine.Unlabelled row col swipe := by
  constructor
  · intro h
    cases hk : engine.key? row col swipe with
    | none => exact Or.inl (Or.inl hk)
    | some key =>
      have hshown := (key?_eq_some hk).2
      cases key with
      | text key =>
        rw [label_of_text hk] at h
        exact absurd h (compiled.label_ne_empty hshown)
      | device action =>
        simp only [label, hk, Option.map_some, Option.getD_some, labelOf, Key.label?] at h
        exact absurd h action.glyph_ne_empty
      | direct change =>
        -- the only such key of a file leaves the keyboard
        have hexternal := compiled.direct_eq hshown
        subst hexternal
        simp only [label, hk, Option.map_some, Option.getD_some, labelOf, Key.label?] at h
        exact absurd h (by decide)
      | placeholder slot =>
        rw [label_of_placeholder hk] at h
        cases hc : engine.metaKey? slot with
        | none => exact Or.inl (Or.inr ⟨slot, hk, hc⟩)
        | some change =>
          rw [hc] at h
          exact Or.inr ⟨slot, change, hk, hc, h⟩
  · rintro (h | ⟨slot, change, hk, hc, hempty⟩)
    · exact h.label
    · rw [label_of_placeholder hk, hc]
      exact hempty

end Engine

/-! ### Declared labels -/

theorem Source.MetaDecl.Denotes.label {keyboard : Keyboard} {written : String × MetaDecl}
    {change : MetaKey} (h : MetaDecl.Denotes keyboard written change) :
    change.label = written.1 := by
  cases h <;> rfl

/-- The label of a slot is the one of its last entry in the declaration of the active
state. -/
theorem Engine.declared_label {engine : Engine} {items : List Item}
    (h : Keyboard.ofItems items = .ok engine.keyboard) {slot : Nat} {change : MetaKey}
    (hc : engine.metaKey? slot = some change) :
    ∃ decl written, (states items)[engine.mode.current]? = some decl ∧
      decl.change? slot = some (change.label, written) := by
  obtain ⟨state, hstate, hslot⟩ := Option.bind_eq_some_iff.mp hc
  obtain ⟨decl, hdecl, hbuilt⟩ := getElem?_of_forall₂ (Keyboard.ofItems_ok h).states hstate
  have hrel := hbuilt.lists_and_slots.2 slot
  rw [hslot] at hrel
  cases hchange : decl.change? slot with
  | none =>
    rw [hchange] at hrel
    cases hrel
  | some written =>
    rw [hchange] at hrel
    cases hrel with
    | some hdenotes =>
      refine ⟨decl, written.2, hdecl, ?_⟩
      rw [hchange, hdenotes.label]

/-- What is visible can be pressed. On the keyboard of a layout file a touch that is not a
preview stays without an event exactly where nothing is offered, and then it changes nothing;
a position shows no label exactly there, and where the slot of a placeholder has been given
the empty one in the file. -/
theorem silent_iff_vacant {engine : Engine} (h : Reachable Keyboard.Compiled engine)
    (row col : Nat) {swipe : Swipe} (hs : swipe ≠ .altLabel) :
    ((engine.press row col swipe).2 = [] ↔ engine.Vacant row col swipe) ∧
    (engine.Vacant row col swipe → (engine.press row col swipe).1 = engine) ∧
    (engine.label row col swipe = "" ↔
      engine.Vacant row col swipe ∨ engine.Unlabelled row col swipe) ∧
    ∀ text items, Keyboard.ofSource text = .ok engine.keyboard →
      declarations (Keyboard.withoutMark text) = .ok items →
      ∀ slot change, engine.metaKey? slot = some change →
        ∃ decl written, (states items)[engine.mode.current]? = some decl ∧
          decl.change? slot = some (change.label, written) := by
  refine ⟨Engine.press_eq_nil_iff hs, ?_, Engine.label_eq_empty_iff h.keyboard, ?_⟩
  · intro hvacant
    rw [hvacant.press]
  · intro text items htext hitems slot change hc
    obtain ⟨found, hfound, hof⟩ := bind_eq_ok_iff.mp htext
    rw [hitems] at hfound
    cases hfound
    exact Engine.declared_label hof hc

/-- An empty slot, a dead key and a switch with the empty label, under taps and a swipe. -/
def gappedSource : String :=
  "size 1 4\nlayout base \x7b\nx S2 S0 S1\n\x7d\nstate main \x7b\n  layout base\n" ++
    "  swipe_lr base\n  S0 ^ dead base\n  S1 \"\" state main\n\x7d\n"

def gappedKeyboard : Keyboard where
  grid := ⟨1, 4⟩
  layouts :=
    [⟨"base", 1, 4, #[some (.ofText "x"), some (.placeholder 2), some (.placeholder 0),
      some (.placeholder 1)], by decide⟩]
  states :=
    [{ State.blank "main" with
        primary := [⟨0, .plain⟩]
        leftRight := [⟨0, .plain⟩]
        slots := #v[some (.dead "^" [⟨0, .plain⟩]), some (.switch "" (.state 0) false),
          none, none] }]
  main := 0

theorem gappedKeyboard_compiled : gappedKeyboard.Compiled :=
  ⟨gappedSource, eq_ok_of_toOption (by decide +kernel)⟩

theorem gappedKeyboard_assembled : gappedKeyboard.Assembled :=
  ⟨gappedKeyboard.grid, gappedKeyboard.layouts, gappedKeyboard.states, rfl⟩

theorem gapped_silent_iff_vacant :
    ∃ engine : Engine, Reachable Keyboard.Compiled engine ∧ Swipe.upDown ≠ .altLabel ∧
      engine.mode.overlay.isSome ∧ (engine.press 0 1 .upDown).2 = [] ∧
      engine.Vacant 0 1 .upDown ∧ (engine.press 0 1 .upDown).1 = engine ∧
      engine.Unlabelled 0 3 .upDown ∧ engine.label 0 3 .upDown = "" ∧
      (engine.press 0 3 .upDown).2 ≠ [] := by
  have hr := (Reachable.start gappedKeyboard_compiled).perform (.press 0 2 .tap) trivial
  have hs : Swipe.upDown ≠ .altLabel := by decide
  have hgap := silent_iff_vacant hr 0 1 hs
  have hslot := silent_iff_vacant hr 0 3 hs
  have hsilent : (Engine.press ((Engine.start gappedKeyboard).perform (.press 0 2 .tap)).1
      0 1 .upDown).2 = [] := by decide +kernel
  have hvacant := hgap.1.mp hsilent
  have hunlabelled : Engine.Unlabelled ((Engine.start gappedKeyboard).perform
      (.press 0 2 .tap)).1 0 3 .upDown :=
    ⟨1, .switch "" (.state 0) false, by decide +kernel, by decide +kernel, rfl⟩
  exact ⟨_, hr, hs, by decide +kernel, hsilent, hvacant, hgap.2.1 hvacant, hunlabelled,
    hslot.2.2.1.mpr (Or.inr hunlabelled), by decide +kernel⟩

/-! ### How a vacant position is drawn -/

namespace Engine

/-- The slot that is armed is one of the active state. -/
def ArmedBound (engine : Engine) : Prop :=
  ∀ slot, engine.mode.armed = some slot → ∃ change, engine.metaKey? slot = some change

theorem armed_of_begin {engine : Engine} {mode : Mode} {change : MetaKey} {slot : Nat}
    (h : (engine.begin mode change).armed = some slot) :
    (engine.begin mode change).current = mode.current ∧ mode.armed = some slot := by
  cases change with
  | dead label layers => exact ⟨rfl, h⟩
  | switch label target latched =>
    cases target with
    | external => exact ⟨rfl, h⟩
    | state index =>
      cases latched with
      | true => exact ⟨rfl, h⟩
      | false => cases h

theorem armed_of_complete {mode : Mode} {change : MetaKey} {slot : Nat}
    (h : (complete mode change).armed = some slot) : mode.armed = some slot := by
  cases change with
  | dead label layers => exact h
  | switch label target latched =>
    cases target with
    | external => exact h
    | state index => cases h

theorem armed_of_toggle {engine : Engine} {pressed slot : Nat} {change : MetaKey}
    (h : (engine.toggle pressed change).armed = some slot) :
    (engine.toggle pressed change).current = engine.mode.current ∧ slot = pressed := by
  cases he : change.isExternal with
  | true =>
    rw [toggle_external engine pressed he] at h
    cases h
  | false =>
    by_cases ha : engine.mode.armed = some pressed
    · simp only [toggle, if_pos ha, he, Bool.false_eq_true, if_false] at h
      cases armed_of_complete h
    · simp only [toggle, if_neg ha, he, Bool.false_eq_true, if_false] at h ⊢
      obtain ⟨hcurrent, harmed⟩ := armed_of_begin h
      cases harmed
      exact ⟨hcurrent, rfl⟩

/-- A slot that is armed behind a key was armed before, or it is the slot of the key; in both
cases the state is the same. -/
theorem armed_of_activate {engine : Engine} (bound : engine.ArmedBound) {key : Key} {slot : Nat}
    (h : (engine.activate key).1.armed = some slot) :
    (engine.activate key).1.current = engine.mode.current ∧
      ∃ change, engine.metaKey? slot = some change := by
  cases key with
  | text key => cases h
  | device action => exact ⟨rfl, bound slot h⟩
  | direct change =>
    obtain ⟨hcurrent, harmed⟩ := armed_of_begin h
    exact ⟨hcurrent, bound slot harmed⟩
  | placeholder pressed =>
    cases hc : engine.metaKey? pressed with
    | none =>
      rw [activate_of_metaKey?_none hc] at h ⊢
      exact ⟨rfl, bound slot h⟩
    | some change =>
      rw [activate_of_metaKey? hc] at h ⊢
      obtain ⟨hcurrent, rfl⟩ := armed_of_toggle h
      exact ⟨hcurrent, change, hc⟩

theorem metaKey?_of_current (engine : Engine) {mode : Mode}
    (h : mode.current = engine.mode.current) (slot : Nat) :
    { engine with mode := mode }.metaKey? slot = engine.metaKey? slot := by
  simp only [metaKey?, state?, h]

theorem perform_armedBound {engine : Engine} (bound : engine.ArmedBound)
    (operation : Operation) : (engine.perform operation).1.ArmedBound := by
  intro slot harmed
  rcases engine.perform_cases operation with
    hp | ⟨_, _, _, key, _, _, _, hp⟩ | ⟨index, _, hp⟩ | ⟨keyboard, _, hp⟩
  · rw [hp] at harmed ⊢
    exact bound slot harmed
  · rw [hp] at harmed ⊢
    obtain ⟨hcurrent, change, hc⟩ := armed_of_activate bound harmed
    refine ⟨change, ?_⟩
    rw [metaKey?_of_current engine hcurrent slot]
    exact hc
  · rw [hp] at harmed
    cases harmed
  · rw [hp] at harmed
    cases harmed

end Engine

theorem Reachable.armedBound {kind : Keyboard → Prop} {engine : Engine}
    (h : Reachable kind engine) : engine.ArmedBound := by
  induction h with
  | start hk =>
    intro slot harmed
    cases harmed
  | perform _ operation _ ih => exact Engine.perform_armedBound ih operation

/-- An empty slot is never armed, so its key is drawn like any other of its layers. -/
theorem Engine.look_of_unbound {engine : Engine} (bound : engine.ArmedBound) {row col : Nat}
    {swipe : Swipe} {slot : Nat} (hk : engine.key? row col swipe = some (.placeholder slot))
    (hempty : engine.metaKey? slot = none) :
    engine.look row col swipe = (engine.source swipe).2.look := by
  have harmed : engine.isArmed (.placeholder slot) = false := by
    rw [isArmed, beq_eq_false_iff_ne]
    intro harmed
    obtain ⟨change, hc⟩ := bound slot harmed
    rw [hempty] at hc
    cases hc
  simp only [look, hk, harmed, Bool.false_eq_true, if_false]

/-- A placeholder of an empty slot shows no label, and touching it brings about no event and
no change. It is drawn as a key of the overlay under an overlay, and as swiped under a swipe
that is not a preview; otherwise it looks normal. -/
theorem unbound_inert {engine : Engine} (h : Reachable Keyboard.Assembled engine) {row col : Nat}
    {swipe : Swipe} {slot : Nat} (hk : engine.key? row col swipe = some (.placeholder slot))
    (hempty : engine.metaKey? slot = none) :
    engine.label row col swipe = "" ∧ engine.press row col swipe = (engine, []) ∧
    (engine.mode.overlay.isSome → engine.look row col swipe = .overlay) ∧
    (engine.mode.overlay = none → swipe.isActivating → engine.look row col swipe = .swiped) ∧
    (engine.mode.overlay = none → swipe.isActivating = false →
      engine.look row col swipe = .normal) := by
  have hvacant : engine.Vacant row col swipe := Or.inr ⟨slot, hk, hempty⟩
  rw [Engine.look_of_unbound h.armedBound hk hempty]
  refine ⟨hvacant.label, hvacant.press, ?_, ?_, ?_⟩
  · intro ho
    obtain ⟨layers, hlayers⟩ := Option.isSome_iff_exists.mp ho
    simp only [Engine.source, hlayers]
    rfl
  · intro ho hswipe
    simp only [Engine.source, ho]
    cases swipe <;> first | rfl | cases hswipe
  · intro ho hswipe
    simp only [Engine.source, ho]
    cases swipe <;> first | rfl | cases hswipe

theorem gapped_inert :
    ∃ engine : Engine, Reachable Keyboard.Assembled engine ∧
      engine.key? 0 1 .tap = some (.placeholder 2) ∧ engine.metaKey? 2 = none ∧
      engine.mode.overlay.isSome ∧ engine.look 0 1 .tap = .overlay ∧
      engine.label 0 1 .tap = "" ∧ engine.press 0 1 .tap = (engine, []) := by
  have hr := (Reachable.start gappedKeyboard_assembled).perform (.press 0 2 .tap) trivial
  have hinert := unbound_inert hr
    (show Engine.key? _ 0 1 .tap = some (.placeholder 2) by decide +kernel) (by decide +kernel)
  have ho : Option.isSome (Engine.mode ((Engine.start gappedKeyboard).perform
      (.press 0 2 .tap)).1).overlay := by decide +kernel
  exact ⟨_, hr, by decide +kernel, by decide +kernel, ho, hinert.2.2.1 ho, hinert.1, hinert.2.1⟩

/-- An empty slot does not look normal everywhere: not under a swipe, and not under an
overlay. -/
theorem gapped_not_normal :
    ∃ engine overlaid : Engine, Reachable Keyboard.Assembled engine ∧
      engine.key? 0 1 .leftRight = some (.placeholder 2) ∧ engine.metaKey? 2 = none ∧
      engine.look 0 1 .leftRight ≠ .normal ∧
      overlaid = (engine.press 0 2 .tap).1 ∧
      overlaid.key? 0 1 .tap = some (.placeholder 2) ∧ overlaid.metaKey? 2 = none ∧
      overlaid.look 0 1 .tap ≠ .normal :=
  ⟨_, _, .start gappedKeyboard_assembled, by decide +kernel, by decide +kernel,
    by decide +kernel, rfl, by decide +kernel, by decide +kernel, by decide +kernel⟩

end KeyGrid
