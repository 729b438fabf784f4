import KeyGrid.Proofs.Parts

/-!
# Keyboards of declarations

A keyboard made from declarations says with positions what these say with names. Every
layout and state stands where it was declared, every list of layers has the keys that
its names stand for, and every slot does what its last entry asks.
-/

namespace KeyGrid

open Source

/-! ### Related elements -/

section

variable {α β γ : Type} {R S : α → β → Prop}

theorem rel_imp (hrs : ∀ a b, R a b → S a b) {x : Option α} {y : Option β}
    (h : Option.Rel R x y) : Option.Rel S x y := by
  cases h with
  | none => exact .none
  | some hr => exact .some (hrs _ _ hr)

theorem rel_of_common {x : Option α} {y : Option β} {z : Option γ} {S : α → γ → Prop}
    {T : β → γ → Prop} (hrst : ∀ a b c, R a b → S a c → T b c) (hr : Option.Rel R x y)
    (hs : Option.Rel S x z) : Option.Rel T y z := by
  cases hr with
  | none =>
    cases hs
    exact .none
  | some hr =>
    cases hs with
    | some hs => exact .some (hrst _ _ _ hr hs)

theorem getElem?_of_forall₂ {xs : List α} {ys : List β} (h : List.Forall₂ R xs ys)
    {index : Nat} {x : α} (hx : xs[index]? = some x) : ∃ y, ys[index]? = some y ∧ R x y := by
  induction h generalizing index with
  | nil => cases hx
  | @cons _ y _ _ hfirst _ ih =>
    cases index with
    | zero =>
      cases hx
      exact ⟨y, rfl, hfirst⟩
    | succ index => exact ih hx

theorem exists_of_forall₂ {xs : List α} {ys : List β} (h : List.Forall₂ R xs ys)
    {x : α} (hx : x ∈ xs) : ∃ y ∈ ys, R x y := by
  obtain ⟨index, hindex⟩ := List.mem_iff_getElem?.mp hx
  obtain ⟨y, hy, hr⟩ := getElem?_of_forall₂ h hindex
  exact ⟨y, List.mem_of_getElem? hy, hr⟩

theorem map_eq_of_forall₂ {f : α → γ} {g : β → γ} {xs : List α} {ys : List β}
    (h : List.Forall₂ R xs ys) (hfg : ∀ x y, R x y → f x = g y) : xs.map f = ys.map g := by
  induction h with
  | nil => rfl
  | cons hfirst _ ih => rw [List.map_cons, List.map_cons, hfg _ _ hfirst, ih]

end

theorem Parts.Describes.layoutNames {names : List String} {items : List Item} {parts : Parts}
    (h : Parts.Describes names items parts) :
    parts.layouts.map (·.name) = (Source.layouts items).map (·.name) :=
  map_eq_of_forall₂ h.layouts fun _ _ hl => hl.name

/-! ### Keyboards and their declarations -/

namespace Keyboard

/-- Every part of the keyboard is the one that its declaration describes. -/
structure BuiltFrom (keyboard : Keyboard) (items : List Item) : Prop where
  assembled : keyboard.Assembled
  grid : (items.filterMap Item.grid?).getLast? = some keyboard.grid
  layouts : List.Forall₂ Layout.BuiltFrom keyboard.layouts (Source.layouts items)
  states : List.Forall₂ (State.BuiltFrom keyboard.stateNames keyboard.layouts)
    keyboard.states (Source.states items)
  distinctLayouts : keyboard.layoutNames.Nodup
  distinctStates : keyboard.stateNames.Nodup

/-- The parts of a keyboard are those that it has been put together from. -/
theorem assemble_of_parts {parts : Parts} {keyboard : Keyboard}
    (h : parts.keyboard = .ok keyboard) :
    ∃ grid, parts.grid = some grid ∧
      assemble grid parts.layouts parts.states = .ok keyboard ∧
      keyboard = ⟨grid, parts.layouts, parts.states, keyboard.main⟩ := by
  unfold Parts.keyboard at h
  split at h
  · cases h
  · rename_i grid hgrid
    split at h
    · rename_i found hfound
      cases h
      obtain ⟨_, _, _, _, hkeyboard⟩ := assemble_ok hfound
      exact ⟨grid, hgrid, hfound, hkeyboard⟩
    · cases h

/-- The parts that an accepted keyboard has been put together from. -/
theorem parts_of_ofItems {items : List Item} {keyboard : Keyboard}
    (h : ofItems items = .ok keyboard) :
    ∃ names parts grid, stateNamesOf (Source.states items) = .ok names ∧
      items.foldlM (Parts.add names) .empty = .ok parts ∧ parts.grid = some grid ∧
      assemble grid parts.layouts parts.states = .ok keyboard ∧
      keyboard = ⟨grid, parts.layouts, parts.states, keyboard.main⟩ := by
  obtain ⟨names, hnames, h⟩ := bind_eq_ok_iff.mp h
  obtain ⟨parts, hparts, h⟩ := bind_eq_ok_iff.mp h
  obtain ⟨grid, hgrid, hfound, hkeyboard⟩ := assemble_of_parts h
  exact ⟨names, parts, grid, hnames, hparts, hgrid, hfound, hkeyboard⟩

theorem ofItems_ok {items : List Item} {keyboard : Keyboard}
    (h : ofItems items = .ok keyboard) : keyboard.BuiltFrom items := by
  obtain ⟨names, parts, grid, hnames, hparts, hgrid, hfound, hkeyboard⟩ := parts_of_ofItems h
  obtain ⟨hdeclared, hdistinct, _⟩ := stateNamesOf_eq_ok_iff.mp hnames
  have hdescribes := Parts.describes_of_foldlM hparts
  have hlayouts : keyboard.layouts = parts.layouts := congrArg Keyboard.layouts hkeyboard
  have hstates : keyboard.states = parts.states := congrArg Keyboard.states hkeyboard
  have hstateNames : keyboard.stateNames = names := by
    rw [stateNames, hstates, hdeclared]
    exact map_eq_of_forall₂ hdescribes.states fun _ _ hs => hs.name
  refine ⟨⟨grid, _, _, hfound⟩, ?_, ?_, ?_, ?_, ?_⟩
  · rw [← hdescribes.grid, hgrid, hkeyboard]
  · rw [hlayouts]
    exact hdescribes.layouts
  · rw [hstateNames, hlayouts, hstates]
    exact hdescribes.states
  · rw [layoutNames, hlayouts]
    exact hdescribes.distinct
  · rw [hstateNames]
    exact hdistinct

namespace BuiltFrom

variable {keyboard : Keyboard} {items : List Item} (h : keyboard.BuiltFrom items)
include h

theorem layoutNames : keyboard.layoutNames = (Source.layouts items).map (·.name) :=
  map_eq_of_forall₂ h.layouts fun _ _ hl => hl.name

theorem stateNames : keyboard.stateNames = (Source.states items).map (·.name) :=
  map_eq_of_forall₂ h.states fun _ _ hs => hs.name

/-- A declaration is the one of its name, since no name is used twice. -/
theorem layoutNamed?_of_mem {decl : LayoutDecl} (hdecl : decl ∈ Source.layouts items) :
    Source.layoutNamed? items decl.name = some decl := by
  have hdistinct := h.distinctLayouts
  rw [h.layoutNames] at hdistinct
  cases hfound : Source.layoutNamed? items decl.name with
  | none =>
    have hnot := List.find?_eq_none.mp hfound decl hdecl
    exact absurd (beq_self_eq_true decl.name) hnot
  | some found =>
    have hname : found.name = decl.name := by simpa using List.find?_some hfound
    have hmem := List.mem_of_find?_eq_some hfound
    rw [List.inj_on_of_nodup_map hdistinct hmem hdecl hname]

theorem layoutNamed? {layout : Layout} (hl : layout ∈ keyboard.layouts) :
    ∃ decl, Source.layoutNamed? items layout.name = some decl ∧ layout.BuiltFrom decl := by
  obtain ⟨decl, hdecl, hbuilt⟩ := exists_of_forall₂ h.layouts hl
  rw [hbuilt.name]
  exact ⟨decl, h.layoutNamed?_of_mem hdecl, hbuilt⟩

theorem layerKey? {ref : LayerRef} {layer : Layer} (hd : ref.Denotes keyboard layer)
    (row col : Nat) : keyboard.layerKey? layer row col = ref.meaning? items row col := by
  obtain ⟨layout, hlayout, hname⟩ := hd.layout
  obtain ⟨decl, hdecl, hbuilt⟩ := h.layoutNamed? (List.mem_of_getElem? hlayout)
  rw [hname] at hdecl
  simp only [Keyboard.layerKey?, LayerRef.meaning?, hlayout, hdecl, hbuilt.get? row col,
    hd.modifier, bind, Option.bind_some]

/-- Layers found by name have the keys that the names stand for. -/
theorem resolve {refs : List LayerRef} {layers : List Layer}
    (hd : List.Forall₂ (LayerRef.Denotes keyboard) refs layers) (row col : Nat) :
    keyboard.resolve layers row col = listMeaning? items refs row col := by
  induction hd with
  | nil => rfl
  | cons hfirst _ ih =>
    have hkey := h.layerKey? hfirst row col
    simp only [Keyboard.resolve, listMeaning?, List.findSome?_cons] at ih ⊢
    rw [hkey, ih]

/-- A key that layers show is one that a declaration has there, under a modifier. -/
theorem written {layers : List Layer} {row col : Nat} {key : Key}
    (hk : keyboard.resolve layers row col = some key) :
    ∃ layout ∈ keyboard.layouts, ∃ decl ∈ Source.layouts items,
      ∃ (original : Key) (modifier : Modifier), layout.get? row col = some original ∧
        decl.meaning? row col = some original ∧ original.under modifier = some key := by
  obtain ⟨layer, _, hlayer⟩ := resolve_eq_some hk
  obtain ⟨layout, hl, original, hg, hu⟩ := layerKey?_eq_some hlayer
  obtain ⟨decl, hdecl, hbuilt⟩ := exists_of_forall₂ h.layouts hl
  have hmeaning : decl.meaning? row col = some original := by rw [← hbuilt.get? row col, hg]
  exact ⟨layout, hl, decl, hdecl, original, layer.modifier, hg, hmeaning, hu⟩

end BuiltFrom
end Keyboard

/-- A state has the lists and the mode changes that its declaration ends up with. -/
theorem State.BuiltFrom.lists_and_slots {keyboard : Keyboard} {state : State}
    {decl : StateDecl} (h : state.BuiltFrom keyboard.stateNames keyboard.layouts decl) :
    (∀ swipe, List.Forall₂ (LayerRef.Denotes keyboard) (decl.list swipe) (state.layers swipe)) ∧
      ∀ slot, Option.Rel (MetaDecl.Denotes keyboard) (decl.change? slot)
        (state.metaKey? slot) := by
  obtain ⟨seen, hseen, hstate⟩ := h
  have hdescribes := Scope.describes_of_foldlM hstate
  constructor
  · intro swipe
    exact Scope.layers_denote hseen (hdescribes.lists swipe)
  · intro slot
    refine rel_imp ?_ (hdescribes.slots slot)
    rintro ⟨label, change⟩ key ⟨line, hkey⟩
    exact Scope.metaKey_denotes hseen rfl hkey

/-- Declarations that are accepted mean the same afterwards. Layouts and states stand in
the order of their declarations, under names used once each; every layout has the keys
written in it, every list of a state those that its last line names stand for, and every
slot the mode change of its last entry. -/
theorem ofItems_keeps_meaning {items : List Item} {keyboard : Keyboard}
    (h : Keyboard.ofItems items = .ok keyboard) :
    (items.filterMap Item.grid?).getLast? = some keyboard.grid ∧
    (keyboard.layoutNames = (layouts items).map (·.name) ∧ keyboard.layoutNames.Nodup) ∧
    (keyboard.stateNames = (states items).map (·.name) ∧ keyboard.stateNames.Nodup) ∧
    List.Forall₂ (fun layout decl => ∀ row col, layout.get? row col = decl.meaning? row col)
      keyboard.layouts (layouts items) ∧
    List.Forall₂ (fun state decl =>
        (∀ swipe row col, keyboard.resolve (state.layers swipe) row col =
          listMeaning? items (decl.list swipe) row col) ∧
        ∀ slot, Option.Rel (MetaDecl.Denotes keyboard) (decl.change? slot)
          (state.metaKey? slot))
      keyboard.states (states items) := by
  have hbuilt := Keyboard.ofItems_ok h
  refine ⟨hbuilt.grid, ⟨hbuilt.layoutNames, hbuilt.distinctLayouts⟩,
    ⟨hbuilt.stateNames, hbuilt.distinctStates⟩, ?_, ?_⟩
  · exact hbuilt.layouts.imp fun _ _ hl => hl.get?
  · refine hbuilt.states.imp ?_
    intro state decl hstate
    obtain ⟨hlists, hslots⟩ := hstate.lists_and_slots
    exact ⟨fun swipe => hbuilt.resolve (hlists swipe), hslots⟩

end KeyGrid
