import KeyGrid.Engine.Strict
import KeyGrid.Proofs.Consistent
import KeyGrid.Proofs.Reachable

/-!
# Look-ups that can fail

A machine stops where it looks for something that does not exist, and it counts the cells of
a layout in numbers of 64 bits. As long as there is a number for every position, no such stop
is ever reached from accepted keyboards, and every answer is the one of the total definitions.
With more positions the cells no longer suffice.
-/

namespace KeyGrid

/-! ### Keys -/

/-- The capital of an ASCII letter is one of the bytes from A to Z. -/
theorem toUpper_range {c : Char} (h : c.isAlpha) :
    'A'.toNat ≤ c.toUpper.toNat ∧ c.toUpper.toNat ≤ 'Z'.toNat := by
  have hlt : c.toNat < 123 := by
    rcases Bool.or_eq_true_iff.mp h with h | h
    · have hupper : c.val ≥ 'A'.val ∧ c.val ≤ 'Z'.val := of_decide_eq_true h
      exact Nat.lt_of_le_of_lt (UInt32.le_iff_toNat_le.mp hupper.2) (by decide)
    · have hlower : c.val ≤ 'z'.val := of_decide_eq_true (Bool.and_eq_true_iff.mp h).2
      exact Nat.lt_of_le_of_lt (UInt32.le_iff_toNat_le.mp hlower) (by decide)
  have hall : ∀ n < 123, (Char.ofNat n).isAlpha →
      'A'.toNat ≤ (Char.ofNat n).toUpper.toNat ∧ (Char.ofNat n).toUpper.toNat ≤ 'Z'.toNat := by
    decide
  have hc := hall c.toNat hlt
  rw [Char.ofNat_toNat] at hc
  exact hc h

theorem utf8EncodeChar_of_le {c : Char} (h : c.toNat ≤ 'Z'.toNat) :
    String.utf8EncodeChar c = [c.toNat.toUInt8] := by
  have hs : c.utf8Size = 1 := by
    rw [Char.utf8Size_eq_one_iff, UInt32.le_iff_toNat_le]
    exact Nat.le_trans h (by decide)
  rw [String.utf8EncodeChar_eq_singleton hs]
  rfl

theorem TextKey.letter?_eq_some {key : TextKey} {letter : Char}
    (h : key.letter? = some letter) : key.label.toList = [letter] ∧ letter.isAlpha := by
  unfold letter? at h
  split at h
  · rename_i c hc
    split at h
    · rename_i ha
      cases h
      exact ⟨hc, ha⟩
    · cases h
  · cases h

theorem TextKey.strictControl_eq {key : TextKey} {letter : Char}
    (h : key.letter? = some letter) : strictControl key.label = .ok (control letter) := by
  obtain ⟨hl, ha⟩ := letter?_eq_some h
  obtain ⟨hlow, hhigh⟩ := toUpper_range ha
  have hlt : letter.toUpper.toNat < 256 := Nat.lt_of_le_of_lt hhigh (by decide)
  have hbyte : letter.toUpper.toNat.toUInt8.toNat = letter.toUpper.toNat := Nat.mod_eq_of_lt hlt
  simp only [strictControl, hl, List.map_cons, List.map_nil, List.flatMap_cons, List.flatMap_nil,
    utf8EncodeChar_of_le hhigh, List.append_nil, List.getElem?_cons_zero, hbyte,
    if_neg (Nat.not_lt.mpr hlow), control]

theorem TextKey.strictUnder_eq (key : TextKey) (modifier : Modifier) :
    key.strictUnder modifier = .ok (key.under modifier) := by
  cases modifier with
  | plain => rfl
  | shift => rfl
  | ctrl =>
    cases hl : key.letter? with
    | none => simp only [strictUnder, under, hl, Option.map_none]
    | some letter =>
      simp only [strictUnder, under, hl, strictControl_eq hl, Option.map_some]
      rfl

theorem Key.strictUnder_eq (key : Key) (modifier : Modifier) :
    key.strictUnder modifier = .ok (key.under modifier) := by
  cases key with
  | text key => simp only [strictUnder, under, TextKey.strictUnder_eq]; rfl
  | device action => rfl
  | direct change => rfl
  | placeholder slot => rfl

/-! ### Layers -/

/-- Every layout has a cell for each position, and a number for each of them. -/
def Keyboard.Addressed (keyboard : Keyboard) : Prop :=
  ∀ layout ∈ keyboard.layouts, layout.rows * layout.cols < UInt64.size ∧ layout.Full

/-- Put together from layouts that a machine has made. -/
structure Keyboard.Made (keyboard : Keyboard) : Prop where
  assembled : keyboard.Assembled
  layouts : ∀ layout ∈ keyboard.layouts, layout.Made

namespace Keyboard

/-- Layouts have the shape of the grid, so that their positions have numbers if the grid's
have. -/
theorem Made.addressed {keyboard : Keyboard} (h : keyboard.Made) (hfits : keyboard.grid.Fits) :
    keyboard.Addressed := by
  intro layout hl
  obtain ⟨hrows, hcols⟩ := h.assembled.consistent.shape layout hl
  have hm : layout.rows * layout.cols < UInt64.size := by
    rw [hrows, hcols]
    exact hfits
  exact ⟨hm, (h.layouts layout hl).full hm⟩

theorem strictState_eq {keyboard : Keyboard} {index : Nat}
    (h : index < keyboard.states.length) :
    keyboard.strictState index = .ok keyboard.states[index] := by
  simp only [strictState, List.getElem?_eq_getElem h]

section

variable {keyboard : Keyboard} (addressed : keyboard.Addressed)
include addressed

theorem strictLayerKey_eq {layer : Layer} (h : layer.layout < keyboard.layouts.length)
    (row col : Nat) :
    keyboard.strictLayerKey layer row col = .ok (keyboard.layerKey? layer row col) := by
  obtain ⟨hm, hfull⟩ := addressed keyboard.layouts[layer.layout] (List.getElem_mem h)
  simp only [strictLayerKey, strictLayout, layerKey?, List.getElem?_eq_getElem h, bind,
    Except.bind, Option.bind_some, Layout.strictGet_eq hm hfull]
  cases (keyboard.layouts[layer.layout]).get? row col with
  | none => rfl
  | some key => exact key.strictUnder_eq layer.modifier

theorem strictResolve_eq (row col : Nat) {layers : List Layer}
    (h : ∀ layer ∈ layers, layer.layout < keyboard.layouts.length) :
    keyboard.strictResolve row col layers = .ok (keyboard.resolve layers row col) := by
  induction layers with
  | nil => rfl
  | cons layer others ih =>
    have hfirst := strictLayerKey_eq addressed (h layer (List.mem_cons_self ..)) row col
    have hrest := ih (fun other hm => h other (List.mem_cons_of_mem _ hm))
    simp only [strictResolve, resolve, hfirst, bind, Except.bind, List.findSome?_cons]
    cases keyboard.layerKey? layer row col with
    | some key => rfl
    | none => exact hrest

end

end Keyboard

/-! ### What a mode may refer to -/

/-- The mode refers to nothing that the keyboard does not have. -/
structure Mode.InRange (keyboard : Keyboard) (mode : Mode) : Prop where
  current : mode.current < keyboard.states.length
  overlay : ∀ layers, mode.overlay = some layers →
    ∀ layer ∈ layers, layer.layout < keyboard.layouts.length

namespace Mode.InRange

variable {keyboard : Keyboard} {mode : Mode}

theorem entering {index : Nat} (h : index < keyboard.states.length) :
    (Mode.entering index).InRange keyboard :=
  ⟨h, fun _ ho => by cases ho⟩

theorem withArmed (h : mode.InRange keyboard) (armed : Option Nat) :
    (mode.withArmed armed).InRange keyboard :=
  ⟨h.current, h.overlay⟩

theorem withOverlay (h : mode.InRange keyboard) {overlay : Option (List Layer)}
    (ho : ∀ layers, overlay = some layers →
      ∀ layer ∈ layers, layer.layout < keyboard.layouts.length) :
    (mode.withOverlay overlay).InRange keyboard :=
  ⟨h.current, ho⟩

end Mode.InRange

namespace Engine

section

variable {engine : Engine} (closed : engine.keyboard.Closed)
include closed

theorem primaryLayers_lt (index : Nat) {layer : Layer}
    (h : layer ∈ engine.primaryLayers index) :
    layer.layout < engine.keyboard.layouts.length := by
  unfold primaryLayers at h
  cases hs : engine.keyboard.states[index]? with
  | none =>
    rw [hs] at h
    cases h
  | some state =>
    rw [hs] at h
    exact closed.layer_lt (List.mem_of_getElem? hs) .tap h

/-- The layers of an overlay come from a dead key or from the state that a latched key
previews; the keyboard has been checked for both. -/
theorem begin_inRange {mode : Mode} (hm : mode.InRange engine.keyboard) {change : MetaKey}
    (hc : engine.keyboard.extent.admitsMetaKey change) :
    (engine.begin mode change).InRange engine.keyboard := by
  cases change with
  | dead label layers =>
    refine hm.withOverlay ?_
    intro shown hs layer hl
    cases hs
    exact (Extent.admitsMetaKey_dead ..).mp hc layer hl
  | switch label target latched =>
    cases target with
    | external => exact hm
    | state index =>
      cases latched with
      | false => exact .entering ((Extent.admitsMetaKey_state ..).mp hc)
      | true =>
        refine hm.withOverlay ?_
        intro shown hs layer hl
        cases hs
        exact primaryLayers_lt closed index hl

omit closed in
theorem complete_inRange {mode : Mode} (hm : mode.InRange engine.keyboard) {change : MetaKey}
    (hc : engine.keyboard.extent.admitsMetaKey change) :
    (complete mode change).InRange engine.keyboard := by
  cases change with
  | dead label layers => exact hm.withOverlay (fun _ h => by cases h)
  | switch label target latched =>
    cases target with
    | external => exact hm
    | state index => exact .entering ((Extent.admitsMetaKey_state ..).mp hc)

theorem toggle_inRange (hm : engine.mode.InRange engine.keyboard) (slot : Nat)
    {change : MetaKey} (hc : engine.keyboard.extent.admitsMetaKey change) :
    (engine.toggle slot change).InRange engine.keyboard := by
  have hcomplete := complete_inRange (hm.withArmed none) hc
  have hbegin := begin_inRange closed (hm.withArmed (some slot)) hc
  simp only [toggle]
  split <;> split
  · exact hcomplete.withArmed none
  · exact hbegin.withArmed none
  · exact hcomplete
  · exact hbegin

theorem activate_inRange (hm : engine.mode.InRange engine.keyboard) {key : Key}
    (hk : engine.keyboard.extent.admitsKey key) :
    (engine.activate key).1.InRange engine.keyboard := by
  cases key with
  | text key => exact .entering hm.current
  | device action => exact hm
  | direct change => exact begin_inRange closed hm hk
  | placeholder slot =>
    simp only [activate]
    cases hc : engine.metaKey? slot with
    | none => exact hm
    | some change => exact toggle_inRange closed hm slot (admitsMetaKey_metaKey? closed hc)

end

theorem perform_inRange {engine : Engine} (closed : engine.keyboard.Closed)
    (hm : engine.mode.InRange engine.keyboard) {operation : Operation}
    (ho : operation.Brings Keyboard.Closed) :
    (engine.perform operation).1.mode.InRange (engine.perform operation).1.keyboard := by
  rcases engine.perform_cases operation with
    hp | ⟨_, _, _, key, _, _, hk, hp⟩ | ⟨index, hi, hp⟩ | ⟨keyboard, rfl, hp⟩
  · rw [hp]
    exact hm
  · rw [hp]
    exact activate_inRange closed hm (admitsKey_key? closed hk)
  · rw [hp]
    rcases hi with rfl | ⟨name, hi⟩
    · exact .entering closed.main
    · exact .entering (List.findIdx?_eq_some_iff_getElem.mp hi).1
  · rw [hp]
    exact .entering (show keyboard.Closed from ho).main

end Engine

theorem Reachable.inRange {engine : Engine} (h : Reachable Keyboard.Closed engine) :
    engine.mode.InRange engine.keyboard := by
  induction h with
  | start hk => exact .entering hk.main
  | perform hr operation ho ih => exact Engine.perform_inRange hr.keyboard ih ho

/-! ### No look-up fails -/

namespace Engine

variable {engine : Engine} (closed : engine.keyboard.Closed)
  (addressed : engine.keyboard.Addressed) (hm : engine.mode.InRange engine.keyboard)

include hm

theorem strictState_current :
    ∃ state ∈ engine.keyboard.states, engine.state? = some state ∧
      engine.keyboard.strictState engine.mode.current = .ok state := by
  have hlt := hm.current
  have hs : engine.keyboard.states[engine.mode.current]? =
      some engine.keyboard.states[engine.mode.current] := List.getElem?_eq_getElem hlt
  exact ⟨_, List.getElem_mem hlt, hs, Keyboard.strictState_eq hlt⟩

theorem strictSwitch_eq {index : Nat} (hi : index < engine.keyboard.states.length) :
    engine.strictSwitch index = .ok (.entering index) := by
  simp only [strictSwitch, Keyboard.strictState_eq hm.current, Keyboard.strictState_eq hi]
  rfl

theorem strictBegin_eq (mode : Mode) {change : MetaKey}
    (hc : engine.keyboard.extent.admitsMetaKey change) :
    engine.strictBegin mode change = .ok (engine.begin mode change) := by
  cases change with
  | dead label layers => rfl
  | switch label target latched =>
    cases target with
    | external => rfl
    | state index =>
      have hi : index < engine.keyboard.states.length := (Extent.admitsMetaKey_state ..).mp hc
      cases latched with
      | false => exact strictSwitch_eq hm hi
      | true =>
        simp only [strictBegin, Keyboard.strictState_eq hi, begin, primaryLayers,
          List.getElem?_eq_getElem hi]
        rfl

theorem strictComplete_eq (mode : Mode) {change : MetaKey}
    (hc : engine.keyboard.extent.admitsMetaKey change) :
    engine.strictComplete mode change = .ok (complete mode change) := by
  cases change with
  | dead label layers => rfl
  | switch label target latched =>
    cases target with
    | external => rfl
    | state index => exact strictSwitch_eq hm ((Extent.admitsMetaKey_state ..).mp hc)

theorem strictToggle_eq (slot : Nat) {change : MetaKey}
    (hc : engine.keyboard.extent.admitsMetaKey change) :
    engine.strictToggle slot change = .ok (engine.toggle slot change) := by
  simp only [strictToggle, toggle]
  by_cases ha : engine.mode.armed = some slot
  · simp only [if_pos ha, strictComplete_eq hm _ hc]
    rfl
  · simp only [if_neg ha, strictBegin_eq hm _ hc]
    rfl

include closed addressed

theorem strictKey_eq (row col : Nat) (swipe : Swipe) :
    engine.strictKey row col swipe = .ok (engine.key? row col swipe) := by
  by_cases hin : row < engine.keyboard.rows ∧ col < engine.keyboard.cols
  · have hout : ¬(engine.keyboard.rows ≤ row ∨ engine.keyboard.cols ≤ col) := by omega
    simp only [strictKey, key?, source, if_neg hout, if_pos hin]
    cases ho : engine.mode.overlay with
    | some layers => exact Keyboard.strictResolve_eq addressed row col (hm.overlay layers ho)
    | none =>
      obtain ⟨state, hmem, hs, hstrict⟩ := strictState_current hm
      have hlayers : ∀ layer ∈ state.layers swipe,
          layer.layout < engine.keyboard.layouts.length :=
        fun layer hl => closed.layer_lt hmem swipe hl
      simp only [hstrict, stateLayers, hs]
      exact Keyboard.strictResolve_eq addressed row col hlayers
  · have hout : engine.keyboard.rows ≤ row ∨ engine.keyboard.cols ≤ col := by omega
    simp only [strictKey, key?, if_pos hout, if_neg hin]

theorem strictLabel_eq (row col : Nat) (swipe : Swipe) :
    engine.strictLabel row col swipe = .ok (engine.label row col swipe) := by
  obtain ⟨state, _, hs, hstrict⟩ := strictState_current hm
  simp only [strictLabel, label, strictKey_eq closed addressed hm, bind, Except.bind]
  cases engine.key? row col swipe with
  | none => rfl
  | some key =>
    cases key with
    | text key => rfl
    | device action => rfl
    | direct change => rfl
    | placeholder slot =>
      have hlabel : engine.labelOf (.placeholder slot) =
          ((state.metaKey? slot).map (·.label)).getD "" := by
        simp only [labelOf, metaKey?, hs, Option.bind_some]
      simp only [hstrict, Option.map_some, Option.getD_some, hlabel]
      rfl

theorem strictLook_eq (row col : Nat) (swipe : Swipe) :
    engine.strictLook row col swipe = .ok (engine.look row col swipe) := by
  simp only [strictLook, look, strictKey_eq closed addressed hm]
  cases engine.key? row col swipe with
  | none => rfl
  | some key => rfl

omit addressed in
theorem strictActivate_eq {key : Key} (hk : engine.keyboard.extent.admitsKey key) :
    engine.strictActivate key = .ok (engine.activate key) := by
  cases key with
  | text key => rfl
  | device action => rfl
  | direct change =>
    simp only [strictActivate, strictBegin_eq hm _ hk]
    rfl
  | placeholder slot =>
    obtain ⟨state, _, hs, hstrict⟩ := strictState_current hm
    have hslot : engine.metaKey? slot = state.metaKey? slot := by
      simp only [metaKey?, hs, Option.bind_some]
    simp only [strictActivate, activate, hstrict, hslot, bind, Except.bind]
    cases hc : state.metaKey? slot with
    | none => rfl
    | some change =>
      have hadmits := admitsMetaKey_metaKey? closed (hslot.trans hc)
      simp only [strictToggle_eq hm slot hadmits]
      rfl

theorem strictPress_eq (row col : Nat) (swipe : Swipe) :
    engine.strictPress row col swipe = .ok (engine.press row col swipe) := by
  have hkey := strictKey_eq closed addressed hm row col swipe
  cases swipe with
  | altLabel => rfl
  | _ =>
    simp only [strictPress, press, hkey, bind, Except.bind]
    cases hk : engine.key? row col _ with
    | none => rfl
    | some key =>
      simp only [strictActivate_eq closed hm (admitsKey_key? closed hk)]
      rfl

theorem strictPerform_eq (operation : Operation) :
    engine.strictPerform operation = .ok (engine.perform operation) := by
  have henter : ∀ index < engine.keyboard.states.length,
      engine.strictEnter index = .ok (engine.enter index) := by
    intro index hi
    simp only [strictEnter, strictSwitch_eq hm hi]
    rfl
  cases operation with
  | press row col swipe => exact strictPress_eq closed addressed hm row col swipe
  | setState name =>
    simp only [strictPerform, perform, setState?]
    cases hi : engine.keyboard.stateIndex? name with
    | none => rfl
    | some index => exact henter index (List.findIdx?_eq_some_iff_getElem.mp hi).1
  | reset => exact henter engine.keyboard.main closed.main
  | load keyboard => rfl

end Engine

/-- A keyboard that was put together by hand: a dead key lies in a cell of its own. -/
def handBuilt : Keyboard where
  grid := ⟨1, 2⟩
  layouts :=
    [⟨"base", 1, 2, #[some (.direct (.dead "^" [⟨0, .ctrl⟩])), some (.ofText "x")], by decide⟩]
  states := [{ State.blank "main" with primary := [⟨0, .plain⟩] }]
  main := 0

theorem handBuilt_made : handBuilt.Made where
  assembled := ⟨handBuilt.grid, handBuilt.layouts, handBuilt.states, rfl⟩
  layouts := by
    intro layout hl
    obtain rfl := List.mem_singleton.mp hl
    have hfirst : (Layout.allocate "base" 1 2).strictSet 0 0
        (some (.direct (.dead "^" [⟨0, .ctrl⟩]))) = .ok (some ⟨"base", 1, 2,
          #[some (.direct (.dead "^" [⟨0, .ctrl⟩])), none], by decide⟩) := rfl
    have hsecond := (Layout.Made.allocated "base" 1 2).written hfirst
    exact hsecond.written (show Layout.strictSet _ 0 1 (some (.ofText "x")) = _ from rfl)

/-- A keyboard with two positions more than there are numbers: its layout has two cells. -/
def oversized : Keyboard where
  grid := ⟨9223372036854775809, 2⟩
  layouts := [⟨"base", 9223372036854775809, 2, #[some (.ofText "a"), none], by decide⟩]
  states := [{ State.blank "main" with primary := [⟨0, .plain⟩] }]
  main := 0

theorem oversized_made : oversized.Made where
  assembled := ⟨oversized.grid, oversized.layouts, oversized.states, rfl⟩
  layouts := by
    intro layout hl
    obtain rfl := List.mem_singleton.mp hl
    have hset : (Layout.allocate "base" 9223372036854775809 2).strictSet 0 0
        (some (.ofText "a")) = .ok (some ⟨"base", 9223372036854775809, 2,
          #[some (.ofText "a"), none], by decide⟩) := rfl
    exact (Layout.Made.allocated "base" 9223372036854775809 2).written hset

end KeyGrid
