import KeyGrid.Keyboard.Assembly

/-!
# Accepted keyboards

What is known of a keyboard once its parts have been accepted: they are kept as they
were given, and every position by which one part refers to another exists. Whatever a
keyboard shows at a position is a key of one of its layouts, so the same holds of it.
-/

namespace KeyGrid

/-! ### Names and positions -/

section

variable {α : Type} {f : α → String} {xs : List α} {name : String}

theorem findIdx?_name_eq_none_iff :
    xs.findIdx? (f · == name) = none ↔ name ∉ xs.map f := by
  rw [List.findIdx?_eq_none_iff]
  simp only [beq_eq_false_iff_ne, List.mem_map, not_exists, not_and]

theorem getElem?_of_findIdx?_name {index : Nat} (h : xs.findIdx? (f · == name) = some index) :
    ∃ x, xs[index]? = some x ∧ f x = name := by
  obtain ⟨hlt, hname, _⟩ := List.findIdx?_eq_some_iff_getElem.mp h
  exact ⟨_, List.getElem?_eq_getElem hlt, beq_iff_eq.mp hname⟩

end

/-! ### Assembly -/

namespace Keyboard

/-- Put together from parts that fit. -/
def Assembled (keyboard : Keyboard) : Prop :=
  ∃ grid layouts states, assemble grid layouts states = .ok keyboard

/-- How many layouts and states the keyboard has to refer to. -/
def extent (keyboard : Keyboard) : Extent := ⟨keyboard.layouts.length, keyboard.states.length⟩

/-- Every reference inside the keyboard leads somewhere. -/
structure Closed (keyboard : Keyboard) : Prop where
  main : keyboard.main < keyboard.states.length
  layouts : ∀ layout ∈ keyboard.layouts, keyboard.extent.admitsLayout layout
  states : ∀ state ∈ keyboard.states, keyboard.extent.admitsState state

theorem assemble_ok {grid : Grid} {layouts : List Layout} {states : List State}
    {keyboard : Keyboard} (h : assemble grid layouts states = .ok keyboard) :
    layoutFault? grid [] layouts = none ∧ stateFault? [] states = none ∧
      states.findIdx? (·.name == mainName) = some keyboard.main ∧
      referenceFault? layouts states = none ∧
      keyboard = ⟨grid, layouts, states, keyboard.main⟩ := by
  unfold assemble at h
  split at h
  · cases h
  · rename_i hl
    split at h
    · cases h
    · rename_i hs
      split at h
      · cases h
      · rename_i main hm
        split at h
        · cases h
        · rename_i hr
          cases h
          exact ⟨hl, hs, hm, hr, rfl⟩

theorem referenceFault?_eq_none_iff {layouts : List Layout} {states : List State} :
    referenceFault? layouts states = none ↔
      (∀ layout ∈ layouts, Extent.admitsLayout ⟨layouts.length, states.length⟩ layout) ∧
        ∀ state ∈ states, Extent.admitsState ⟨layouts.length, states.length⟩ state := by
  simp only [referenceFault?]
  constructor
  · intro h
    split at h
    · cases h
    · rename_i hl
      split at h
      · cases h
      · rename_i hs
        simp only [List.find?_eq_none, Bool.not_eq_eq_eq_not, Bool.not_true,
          Bool.not_eq_false] at hl hs
        exact ⟨hl, hs⟩
  · rintro ⟨hl, hs⟩
    have hlayouts : layouts.find?
        (!Extent.admitsLayout ⟨layouts.length, states.length⟩ ·) = none := by
      rw [List.find?_eq_none]
      intro layout hlayout
      rw [hl layout hlayout]
      decide
    have hstates : states.find?
        (!Extent.admitsState ⟨layouts.length, states.length⟩ ·) = none := by
      rw [List.find?_eq_none]
      intro state hstate
      rw [hs state hstate]
      decide
    simp only [hlayouts, hstates]

theorem Assembled.closed {keyboard : Keyboard} (h : keyboard.Assembled) : keyboard.Closed := by
  obtain ⟨grid, layouts, states, ha⟩ := h
  obtain ⟨_, _, hm, hr, hk⟩ := assemble_ok ha
  obtain ⟨hl, hs⟩ := referenceFault?_eq_none_iff.mp hr
  have hmain : keyboard.main < states.length := by
    obtain ⟨hlt, _⟩ := List.findIdx?_eq_some_iff_getElem.mp hm
    exact hlt
  rw [hk]
  exact ⟨hmain, hl, hs⟩

end Keyboard

/-! ### References by layers, mode changes and keys -/

theorem Layout.mem_keys_of_get? {layout : Layout} {row col : Nat} {key : Key}
    (h : layout.get? row col = some key) : key ∈ layout.keys := by
  unfold get? at h
  split at h
  · rename_i index _
    have hcell : layout.cells[index]? = some (some key) := Option.join_eq_some_iff.mp h
    have hmem : some key ∈ layout.cells.toList :=
      Array.mem_toList_iff.mpr (Array.mem_of_getElem? hcell)
    exact List.mem_filterMap.mpr ⟨some key, hmem, rfl⟩
  · cases h

theorem Layout.exists_get?_of_mem_keys {layout : Layout} {key : Key} (h : key ∈ layout.keys) :
    ∃ row col, layout.get? row col = some key := by
  obtain ⟨cell, hcell, rfl⟩ : ∃ cell, cell ∈ layout.cells.toList ∧ cell = some key :=
    List.mem_filterMap.mp h
  obtain ⟨index, hlt, hindex⟩ := List.mem_iff_getElem.mp hcell
  rw [Array.length_toList] at hlt
  rw [Array.getElem_toList] at hindex
  have hsize : index < layout.rows * layout.cols := Nat.lt_of_lt_of_le hlt layout.size_le
  have hcols : 0 < layout.cols := Nat.pos_of_lt_mul_left hsize
  have hrow : index / layout.cols < layout.rows := (Nat.div_lt_iff_lt_mul hcols).mpr hsize
  have hcol : index % layout.cols < layout.cols := Nat.mod_lt index hcols
  refine ⟨index / layout.cols, index % layout.cols, ?_⟩
  simp only [get?, index?, if_pos (And.intro hrow hcol), Nat.div_add_mod',
    Array.getElem?_eq_getElem hlt, hindex, Option.join_some]

theorem State.mem_metaKeys_of_metaKey? {state : State} {slot : Nat} {change : MetaKey}
    (h : state.metaKey? slot = some change) : change ∈ state.metaKeys := by
  have hslot : state.slots[slot]? = some (some change) := Option.join_eq_some_iff.mp h
  have hmem : some change ∈ state.slots.toList :=
    Vector.mem_toList_iff.mpr (Vector.mem_of_getElem? hslot)
  exact List.mem_filterMap.mpr ⟨some change, hmem, rfl⟩

/-- Only the slots of the protocol are ever in use. -/
theorem State.slot_lt_of_metaKey? {state : State} {slot : Nat} {change : MetaKey}
    (h : state.metaKey? slot = some change) : slot < slotCount := by
  have hslot : state.slots[slot]? = some (some change) := Option.join_eq_some_iff.mp h
  exact (Vector.getElem?_eq_some_iff.mp hslot).1

theorem Swipe.mem_all (swipe : Swipe) : swipe ∈ all := by
  cases swipe <;> decide

namespace Extent

theorem admitsLayout_iff (extent : Extent) (layout : Layout) :
    extent.admitsLayout layout ↔
      ∀ row col key, layout.get? row col = some key → extent.admitsKey key := by
  rw [admitsLayout, List.all_eq_true]
  constructor
  · intro h row col key hkey
    exact h key (Layout.mem_keys_of_get? hkey)
  · intro h key hkey
    obtain ⟨row, col, hget⟩ := Layout.exists_get?_of_mem_keys hkey
    exact h row col key hget

theorem admitsState_iff (extent : Extent) (state : State) :
    extent.admitsState state ↔
      (∀ swipe, ∀ layer ∈ state.layers swipe, layer.layout < extent.layouts) ∧
        ∀ change ∈ state.metaKeys, extent.admitsMetaKey change := by
  simp only [admitsState, Bool.and_eq_true, List.all_eq_true, admitsLayer, decide_eq_true_eq]
  constructor
  · intro h
    exact ⟨fun swipe => h.1 swipe swipe.mem_all, h.2⟩
  · intro h
    exact ⟨fun swipe _ => h.1 swipe, h.2⟩

theorem admitsMetaKey_dead (extent : Extent) (label : String) (layers : List Layer) :
    extent.admitsMetaKey (.dead label layers) ↔
      ∀ layer ∈ layers, layer.layout < extent.layouts := by
  simp only [admitsMetaKey, List.all_eq_true, admitsLayer, decide_eq_true_eq]

theorem admitsMetaKey_state (extent : Extent) (label : String) (index : Nat) (latched : Bool) :
    extent.admitsMetaKey (.switch label (.state index) latched) ↔ index < extent.states := by
  simp only [admitsMetaKey, decide_eq_true_eq]

/-- A modifier changes nothing about what a key refers to. -/
theorem admitsKey_under {extent : Extent} {key shifted : Key} {modifier : Modifier}
    (hk : extent.admitsKey key) (h : key.under modifier = some shifted) :
    extent.admitsKey shifted := by
  cases key with
  | text key =>
    obtain ⟨text, _, rfl⟩ := Option.map_eq_some_iff.mp h
    rfl
  | device action => cases h; rfl
  | direct change => cases h; exact hk
  | placeholder slot => cases h; exact hk

end Extent

namespace Keyboard

/-! ### Keys that a closed keyboard shows -/

theorem layerKey?_eq_some {keyboard : Keyboard} {layer : Layer} {row col : Nat} {key : Key}
    (h : keyboard.layerKey? layer row col = some key) :
    ∃ layout ∈ keyboard.layouts, ∃ original, layout.get? row col = some original ∧
      original.under layer.modifier = some key := by
  simp only [layerKey?, bind, Option.bind_eq_some_iff] at h
  obtain ⟨layout, hl, original, hg, hu⟩ := h
  exact ⟨layout, List.mem_of_getElem? hl, original, hg, hu⟩

theorem resolve_eq_some {keyboard : Keyboard} {layers : List Layer} {row col : Nat} {key : Key}
    (h : keyboard.resolve layers row col = some key) :
    ∃ layer ∈ layers, keyboard.layerKey? layer row col = some key :=
  List.exists_of_findSome?_eq_some h

namespace Closed

variable {keyboard : Keyboard} (closed : keyboard.Closed)
include closed

theorem admitsKey_resolve {layers : List Layer} {row col : Nat} {key : Key}
    (h : keyboard.resolve layers row col = some key) : keyboard.extent.admitsKey key := by
  obtain ⟨layer, _, hkey⟩ := resolve_eq_some h
  obtain ⟨layout, hl, original, hg, hu⟩ := layerKey?_eq_some hkey
  have hlayout := (Extent.admitsLayout_iff _ _).mp (closed.layouts layout hl)
  exact Extent.admitsKey_under (hlayout row col original hg) hu

theorem layer_lt {state : State} (hs : state ∈ keyboard.states) (swipe : Swipe) {layer : Layer}
    (hl : layer ∈ state.layers swipe) : layer.layout < keyboard.layouts.length :=
  ((Extent.admitsState_iff _ state).mp (closed.states state hs)).1 swipe layer hl

theorem admitsMetaKey {state : State} (hs : state ∈ keyboard.states) {slot : Nat}
    {change : MetaKey} (hc : state.metaKey? slot = some change) :
    keyboard.extent.admitsMetaKey change :=
  ((Extent.admitsState_iff _ state).mp (closed.states state hs)).2 change
    (State.mem_metaKeys_of_metaKey? hc)

end Closed
end Keyboard
end KeyGrid
