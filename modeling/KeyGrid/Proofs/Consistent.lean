import Mathlib.Data.List.Nodup
import KeyGrid.Proofs.Assembled

/-!
# Parts that fit together

Assembly makes three tests and looks for the state to start in. Parts pass the tests
exactly if every layout has the shape of the grid, no name is used twice and no
reference leads to something missing; then a keyboard has just these parts.
-/

namespace KeyGrid

/-- Among parts of different names, a search finds the only one of a name. -/
theorem findIdx?_name_eq_some_iff {α : Type} {f : α → String} {xs : List α}
    (hn : (xs.map f).Nodup) {name : String} {index : Nat} :
    xs.findIdx? (f · == name) = some index ↔ ∃ x, xs[index]? = some x ∧ f x = name := by
  constructor
  · exact getElem?_of_findIdx?_name
  · rintro ⟨x, hx, rfl⟩
    cases hfound : xs.findIdx? (f · == f x) with
    | none =>
      have hmem := List.mem_map_of_mem (f := f) (List.mem_of_getElem? hx)
      exact absurd hmem (findIdx?_name_eq_none_iff.mp hfound)
    | some other =>
      obtain ⟨y, hy, hname⟩ := getElem?_of_findIdx?_name hfound
      have hlt : index < (xs.map f).length := by
        rw [List.length_map]
        exact (List.getElem?_eq_some_iff.mp hx).1
      have hsame : (xs.map f)[index]? = (xs.map f)[other]? := by
        rw [List.getElem?_map, List.getElem?_map, hx, hy, Option.map_some, Option.map_some, hname]
      rw [(List.getElem?_inj hlt hn).mp hsame]

def Layout.HasShape (layout : Layout) (grid : Grid) : Prop :=
  layout.rows = grid.rows ∧ layout.cols = grid.cols

instance (layout : Layout) (grid : Grid) : Decidable (layout.HasShape grid) :=
  inferInstanceAs (Decidable (_ ∧ _))

namespace Keyboard

theorem layoutFault?_eq_none_iff {grid : Grid} {earlier : List String} {layouts : List Layout} :
    layoutFault? grid earlier layouts = none ↔
      (∀ layout ∈ layouts, layout.HasShape grid) ∧ (layouts.map (·.name)).Nodup ∧
        ∀ layout ∈ layouts, layout.name ∉ earlier := by
  induction layouts generalizing earlier with
  | nil => simp [layoutFault?]
  | cons layout others ih =>
    have hshape : (layout.rows ≠ grid.rows ∨ layout.cols ≠ grid.cols) ↔
        ¬layout.HasShape grid := by
      unfold Layout.HasShape
      rw [Decidable.not_and_iff_or_not]
    rw [layoutFault?, List.forall_mem_cons, List.forall_mem_cons, List.map_cons, List.nodup_cons]
    split
    · rename_i hwrong
      constructor
      · intro h
        cases h
      · intro h
        exact absurd h.1.1 (hshape.mp hwrong)
    · rename_i hright
      have hfits : layout.HasShape grid :=
        Decidable.not_not.mp fun hnot => hright (hshape.mpr hnot)
      split
      · rename_i hused
        constructor
        · intro h
          cases h
        · intro h
          exact absurd hused h.2.2.1
      · rename_i hfresh
        rw [ih]
        simp only [List.mem_cons, not_or, List.mem_map, not_exists, not_and]
        constructor
        · rintro ⟨hothers, hnodup, hnew⟩
          exact ⟨⟨hfits, hothers⟩, ⟨fun other hm => (hnew other hm).1, hnodup⟩, hfresh,
            fun other hm => (hnew other hm).2⟩
        · rintro ⟨⟨_, hothers⟩, ⟨hother, hnodup⟩, _, hearlier⟩
          exact ⟨hothers, hnodup, fun other hm => ⟨hother other hm, hearlier other hm⟩⟩

theorem stateFault?_eq_none_iff {earlier : List String} {states : List State} :
    stateFault? earlier states = none ↔
      (states.map (·.name)).Nodup ∧ ∀ state ∈ states, state.name ∉ earlier := by
  induction states generalizing earlier with
  | nil => simp [stateFault?]
  | cons state others ih =>
    rw [stateFault?, List.forall_mem_cons, List.map_cons, List.nodup_cons]
    split
    · rename_i hused
      constructor
      · intro h
        cases h
      · intro h
        exact absurd hused h.2.1
    · rename_i hfresh
      rw [ih]
      simp only [List.mem_cons, not_or, List.mem_map, not_exists, not_and]
      constructor
      · rintro ⟨hnodup, hnew⟩
        exact ⟨⟨fun other hm => (hnew other hm).1, hnodup⟩, hfresh,
          fun other hm => (hnew other hm).2⟩
      · rintro ⟨⟨hother, hnodup⟩, _, hearlier⟩
        exact ⟨hnodup, fun other hm => ⟨hother other hm, hearlier other hm⟩⟩

/-- The parts pass every test; there may still be no state to start in. -/
structure Consistent (grid : Grid) (layouts : List Layout) (states : List State) : Prop where
  shape : ∀ layout ∈ layouts, layout.HasShape grid
  layoutNames : (layouts.map (·.name)).Nodup
  stateNames : (states.map (·.name)).Nodup
  admitsLayouts : ∀ layout ∈ layouts,
    Extent.admitsLayout ⟨layouts.length, states.length⟩ layout
  admitsStates : ∀ state ∈ states, Extent.admitsState ⟨layouts.length, states.length⟩ state

theorem consistent_iff {grid : Grid} {layouts : List Layout} {states : List State} :
    Consistent grid layouts states ↔
      layoutFault? grid [] layouts = none ∧ stateFault? [] states = none ∧
        referenceFault? layouts states = none := by
  rw [layoutFault?_eq_none_iff, stateFault?_eq_none_iff, referenceFault?_eq_none_iff]
  constructor
  · intro h
    exact ⟨⟨h.shape, h.layoutNames, fun _ _ => List.not_mem_nil⟩,
      ⟨h.stateNames, fun _ _ => List.not_mem_nil⟩, h.admitsLayouts, h.admitsStates⟩
  · rintro ⟨⟨hshape, hlayoutNames, _⟩, ⟨hstateNames, _⟩, hlayouts, hstates⟩
    exact ⟨hshape, hlayoutNames, hstateNames, hlayouts, hstates⟩

theorem Assembled.consistent {keyboard : Keyboard} (h : keyboard.Assembled) :
    Consistent keyboard.grid keyboard.layouts keyboard.states := by
  obtain ⟨grid, layouts, states, ha⟩ := h
  obtain ⟨hlayouts, hstates, _, hreferences, hk⟩ := assemble_ok ha
  rw [hk]
  exact consistent_iff.mpr ⟨hlayouts, hstates, hreferences⟩

/-- Consistent parts are refused for one reason only. -/
theorem Consistent.assemble {grid : Grid} {layouts : List Layout} {states : List State}
    (h : Consistent grid layouts states) :
    assemble grid layouts states =
      match states.findIdx? (·.name == mainName) with
      | none => .error .missingMain
      | some main => .ok ⟨grid, layouts, states, main⟩ := by
  obtain ⟨hlayouts, hstates, hreferences⟩ := consistent_iff.mp h
  cases hmain : states.findIdx? (·.name == mainName) with
  | none => simp only [Keyboard.assemble, hlayouts, hstates, hmain]
  | some main => simp only [Keyboard.assemble, hlayouts, hstates, hmain, hreferences]

theorem Consistent.assemble_eq_error_iff {grid : Grid} {layouts : List Layout}
    {states : List State} (h : Consistent grid layouts states) {fault : AssemblyFault} :
    Keyboard.assemble grid layouts states = .error fault ↔
      fault = .missingMain ∧ mainName ∉ states.map (·.name) := by
  rw [h.assemble, ← findIdx?_name_eq_none_iff]
  cases states.findIdx? (·.name == mainName) with
  | none =>
    rw [Except.error.injEq, eq_comm]
    exact (and_iff_left rfl).symm
  | some main =>
    constructor
    · intro hf
      cases hf
    · intro hf
      cases hf.2

/-- A keyboard can be put together exactly of consistent parts with a state to start in. -/
theorem exists_assemble_iff {grid : Grid} {layouts : List Layout} {states : List State} :
    (∃ keyboard, Keyboard.assemble grid layouts states = .ok keyboard) ↔
      Consistent grid layouts states ∧ mainName ∈ states.map (·.name) := by
  constructor
  · rintro ⟨keyboard, h⟩
    obtain ⟨hlayouts, hstates, hmain, hreferences, _⟩ := assemble_ok h
    refine ⟨consistent_iff.mpr ⟨hlayouts, hstates, hreferences⟩, ?_⟩
    apply Decidable.byContradiction
    intro hnone
    rw [findIdx?_name_eq_none_iff.mpr hnone] at hmain
    cases hmain
  · rintro ⟨h, hmain⟩
    rw [h.assemble]
    cases hfound : states.findIdx? (·.name == mainName) with
    | none => exact absurd hmain (findIdx?_name_eq_none_iff.mp hfound)
    | some main => exact ⟨_, rfl⟩

end Keyboard
end KeyGrid
