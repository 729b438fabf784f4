import KeyGrid.Proofs.Vacant

/-!
# Shadows

What is seen at a position follows one list of layers. While an overlay lies there it is the
overlay's for every swipe, and the layers of the active state do not matter. Without one it is
the list that the active state has for the swipe, and its three other lists do not matter. Two
keyboards that differ in lists which do not matter show the same.
-/

namespace KeyGrid

/-! ### Keyboards that differ in layers of one state -/

/-- Two states that differ in no more than the layers of swipes which need not agree. -/
structure State.AgreesOn (kept : Swipe → Prop) (state other : State) : Prop where
  name : other.name = state.name
  slots : other.slots = state.slots
  layers : ∀ swipe, kept swipe → other.layers swipe = state.layers swipe

/-- Two keyboards that differ in no more than such layers of the state at a position. -/
structure Keyboard.AgreesOn (kept : Swipe → Prop) (index : Nat) (keyboard other : Keyboard) :
    Prop where
  grid : other.grid = keyboard.grid
  layouts : other.layouts = keyboard.layouts
  main : other.main = keyboard.main
  others : ∀ position, position ≠ index → other.states[position]? = keyboard.states[position]?
  state : Option.Rel (State.AgreesOn kept) keyboard.states[index]? other.states[index]?

/-- The keyboard with the layers replaced that one swipe selects in one state. -/
def Keyboard.setLayers (keyboard : Keyboard) (index : Nat) (swipe : Swipe)
    (layers : List Layer) : Keyboard :=
  { keyboard with states := keyboard.states.modify index (·.setLayers swipe layers) }

theorem State.agreesOn_setLayers (state : State) {kept : Swipe → Prop} {swipe : Swipe}
    (h : ¬kept swipe) (layers : List Layer) :
    state.AgreesOn kept (state.setLayers swipe layers) where
  name := by cases swipe <;> rfl
  slots := by cases swipe <;> rfl
  layers other ho := by
    have hne : other ≠ swipe := by
      rintro rfl
      exact h ho
    exact state.layers_setLayers_ne layers hne

theorem Keyboard.agreesOn_setLayers (keyboard : Keyboard) (index : Nat) {kept : Swipe → Prop}
    {swipe : Swipe} (h : ¬kept swipe) (layers : List Layer) :
    keyboard.AgreesOn kept index (keyboard.setLayers index swipe layers) where
  grid := rfl
  layouts := rfl
  main := rfl
  others position hne := by
    exact List.getElem?_modify_ne _ _ (Ne.symm hne)
  state := by
    simp only [setLayers, List.getElem?_modify, if_true]
    cases keyboard.states[index]? with
    | none => exact .none
    | some state => exact .some (state.agreesOn_setLayers h layers)

namespace Engine

/-- The engine in the same mode with another keyboard. -/
def onto (engine : Engine) (keyboard : Keyboard) : Engine := ⟨keyboard, engine.mode⟩

/-- What is seen at a position: the key, its label and how it is drawn. -/
def sight (engine : Engine) (row col : Nat) (swipe : Swipe) : Option Key × String × Look :=
  (engine.key? row col swipe, engine.label row col swipe, engine.look row col swipe)

/-! ### The layers that are asked -/

theorem source_of_overlay {engine : Engine} (h : engine.mode.overlay.isSome)
    (swipe other : Swipe) : engine.source swipe = engine.source other := by
  obtain ⟨layers, hl⟩ := Option.isSome_iff_exists.mp h
  simp only [source, hl]

theorem source_of_no_overlay {engine : Engine} (h : engine.mode.overlay = none)
    (swipe : Swipe) : engine.source swipe = (engine.stateLayers swipe, swipe.origin) := by
  simp only [source, h]

theorem source_onto_of_overlay {engine : Engine} (h : engine.mode.overlay.isSome)
    (keyboard : Keyboard) (swipe : Swipe) :
    (engine.onto keyboard).source swipe = engine.source swipe := by
  obtain ⟨layers, hl⟩ := Option.isSome_iff_exists.mp h
  simp only [source, onto, hl]

theorem key?_of_source {engine : Engine} {swipe other : Swipe}
    (h : engine.source swipe = engine.source other) (row col : Nat) :
    engine.key? row col swipe = engine.key? row col other := by
  simp only [key?, h]

theorem sight_of_source {engine : Engine} {swipe other : Swipe}
    (h : engine.source swipe = engine.source other) (row col : Nat) :
    engine.sight row col swipe = engine.sight row col other := by
  simp only [sight, label, look, key?_of_source h, h]

theorem press_of_source {engine : Engine} {swipe other : Swipe} (hs : swipe ≠ .altLabel)
    (ho : other ≠ .altLabel) (h : engine.source swipe = engine.source other) (row col : Nat) :
    engine.press row col swipe = engine.press row col other := by
  have hkeys := key?_of_source h row col
  cases hk : engine.key? row col other with
  | none =>
    have hswiped : engine.Vacant row col swipe := Or.inl (hkeys.trans hk)
    have hvacant : engine.Vacant row col other := Or.inl hk
    rw [hswiped.press, hvacant.press]
  | some key => rw [press_of_key? hs (hkeys.trans hk), press_of_key? ho hk]

theorem sight_of_none {engine : Engine} {row col : Nat} {swipe : Swipe}
    (h : engine.key? row col swipe = none) :
    engine.sight row col swipe = (none, "", .normal) := by
  simp only [sight, label_of_none h, look, h]

/-! ### Another keyboard -/

section

variable {engine : Engine} {kept : Swipe → Prop} {keyboard : Keyboard}
  (agrees : engine.keyboard.AgreesOn kept engine.mode.current keyboard)
include agrees

theorem bind_state?_onto {α : Type} {read : State → Option α}
    (hr : ∀ state other, state.AgreesOn kept other → read other = read state) :
    (engine.onto keyboard).state?.bind read = engine.state?.bind read := by
  have hstate := agrees.state
  simp only [state?, onto]
  generalize engine.keyboard.states[engine.mode.current]? = state at hstate ⊢
  generalize keyboard.states[engine.mode.current]? = other at hstate ⊢
  cases hstate with
  | none => rfl
  | some hs => exact hr _ _ hs

theorem metaKey?_onto (slot : Nat) :
    (engine.onto keyboard).metaKey? slot = engine.metaKey? slot := by
  refine bind_state?_onto agrees ?_
  intro state other hs
  rw [State.metaKey?, hs.slots, State.metaKey?]

theorem stateLayers_onto {swipe : Swipe} (hk : kept swipe) :
    (engine.onto keyboard).stateLayers swipe = engine.stateLayers swipe := by
  have hlayers : (engine.onto keyboard).state?.bind (fun state => some (state.layers swipe)) =
      engine.state?.bind fun state => some (state.layers swipe) := by
    refine bind_state?_onto agrees ?_
    intro state other hs
    rw [hs.layers swipe hk]
  simp only [stateLayers, Option.map_eq_bind]
  exact congrArg (·.getD []) hlayers

theorem source_onto_of_kept {swipe : Swipe} (hk : kept swipe) :
    (engine.onto keyboard).source swipe = engine.source swipe := by
  have hlayers := stateLayers_onto agrees hk
  simp only [source, onto] at hlayers ⊢
  rw [hlayers]

theorem key?_onto {swipe : Swipe}
    (hs : (engine.onto keyboard).source swipe = engine.source swipe) (row col : Nat) :
    (engine.onto keyboard).key? row col swipe = engine.key? row col swipe := by
  have hrows : keyboard.rows = engine.keyboard.rows := congrArg Grid.rows agrees.grid
  have hcols : keyboard.cols = engine.keyboard.cols := congrArg Grid.cols agrees.grid
  have hresolve (layers : List Layer) :
      keyboard.resolve layers row col = engine.keyboard.resolve layers row col := by
    simp only [Keyboard.resolve, Keyboard.layerKey?, agrees.layouts]
  simp only [key?, hs]
  simp only [onto, hrows, hcols, hresolve]

theorem labelOf_onto (key : Key) : (engine.onto keyboard).labelOf key = engine.labelOf key := by
  cases key with
  | placeholder slot => simp only [labelOf, metaKey?_onto agrees]
  | text key => rfl
  | device action => rfl
  | direct change => rfl

theorem sight_onto {swipe : Swipe}
    (hs : (engine.onto keyboard).source swipe = engine.source swipe) (row col : Nat) :
    (engine.onto keyboard).sight row col swipe = engine.sight row col swipe := by
  have hkey := key?_onto agrees hs row col
  have hlabel : (engine.onto keyboard).labelOf = engine.labelOf :=
    funext (labelOf_onto agrees)
  have hlook : (engine.onto keyboard).look row col swipe = engine.look row col swipe := by
    simp only [look, hkey, hs]
    rfl
  simp only [sight, label, hkey, hlabel, hlook]

end

end Engine

/-- An overlay shadows its state. While it lies there every swipe shows the same and every
swipe that can be a touch does the same, whatever layers the active state has. Without an
overlay a swipe shows nothing but what the state's layers for it hold, whatever its other
layers are; where they have no key, there is none to be seen or touched. -/
theorem shadowed_or_swiped (engine : Engine) :
    (engine.mode.overlay.isSome →
      (∀ row col swipe, engine.sight row col swipe = engine.sight row col .tap) ∧
      (∀ row col swipe, swipe ≠ .altLabel →
        engine.press row col swipe = engine.press row col .tap) ∧
      ∀ keyboard, engine.keyboard.AgreesOn (fun _ => False) engine.mode.current keyboard →
        ∀ row col swipe,
          (engine.onto keyboard).sight row col swipe = engine.sight row col swipe) ∧
    (engine.mode.overlay = none → ∀ swipe,
      (∀ keyboard, engine.keyboard.AgreesOn (· = swipe) engine.mode.current keyboard →
        ∀ row col, (engine.onto keyboard).sight row col swipe = engine.sight row col swipe) ∧
      ∀ row col, engine.keyboard.resolve (engine.stateLayers swipe) row col = none →
        engine.sight row col swipe = (none, "", .normal) ∧
          engine.press row col swipe = (engine, [])) := by
  constructor
  · intro ho
    refine ⟨?_, ?_, ?_⟩
    · intro row col swipe
      exact Engine.sight_of_source (Engine.source_of_overlay ho swipe .tap) row col
    · intro row col swipe hs
      have hsource := Engine.source_of_overlay ho swipe .tap
      exact Engine.press_of_source hs (by decide) hsource row col
    · intro keyboard agrees row col swipe
      exact Engine.sight_onto agrees (Engine.source_onto_of_overlay ho keyboard swipe) row col
  · intro ho swipe
    refine ⟨?_, ?_⟩
    · intro keyboard agrees row col
      exact Engine.sight_onto agrees (Engine.source_onto_of_kept agrees rfl) row col
    · intro row col hmiss
      have hnone : engine.key? row col swipe = none := by
        rw [Engine.key?, Engine.source_of_no_overlay ho, hmiss, ite_self]
      have hvacant : engine.Vacant row col swipe := Or.inl hnone
      exact ⟨Engine.sight_of_none hnone, hvacant.press⟩

/-- The dead key shadows a state that has a key for a tap and none for a swipe. -/
theorem deadKey_shadows :
    ∃ plain overlaid : Engine, Reachable Keyboard.Compiled plain ∧
      overlaid = (plain.perform (.press 0 1 .tap)).1 ∧
      overlaid.mode.overlay.isSome ∧
      overlaid.sight 0 0 .leftRight = overlaid.sight 0 0 .tap ∧
      overlaid.press 0 0 .upDown = overlaid.press 0 0 .tap ∧
      (overlaid.onto (overlaid.keyboard.setLayers 0 .tap [])).sight 0 0 .upDown =
        overlaid.sight 0 0 .upDown ∧
      plain.mode.overlay = none ∧
      (plain.onto (plain.keyboard.setLayers 0 .tap [])).sight 0 0 .upDown =
        plain.sight 0 0 .upDown ∧
      plain.key? 0 0 .tap = some (.ofText "a") ∧
      plain.sight 0 0 .upDown = (none, "", .normal) ∧
      plain.press 0 0 .upDown = (plain, []) := by
  have hr := Reachable.start deadKeyKeyboard_compiled
  have hlaid : ((Engine.start deadKeyKeyboard).perform
      (.press 0 1 .tap)).1.mode.overlay.isSome := by decide +kernel
  obtain ⟨halike, hpress, hkept⟩ := (shadowed_or_swiped _).1 hlaid
  obtain ⟨hswiped, hmiss⟩ := (shadowed_or_swiped (.start deadKeyKeyboard)).2 rfl .upDown
  obtain ⟨hsight, hinert⟩ := hmiss 0 0 (by decide +kernel)
  exact ⟨_, _, hr, rfl, hlaid, halike 0 0 .leftRight, hpress 0 0 .upDown (by decide),
    hkept _ (Keyboard.agreesOn_setLayers _ 0 id []) 0 0 .upDown, rfl,
    hswiped _ (Keyboard.agreesOn_setLayers _ 0 (by decide) []) 0 0, by decide +kernel,
    hsight, hinert⟩

end KeyGrid
