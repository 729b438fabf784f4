import Mathlib.Data.List.Induction
import Mathlib.Data.List.Nodup
import KeyGrid.Proofs.Assembled
import KeyGrid.Proofs.Filled

/-!
# What reading declarations one by one leaves behind

After any number of declarations the layouts and states kept are those declared, each in
the place of its declaration, and each state was read when the layouts known were a
first part of those known at the end. Positions found then are positions at the end.
-/

namespace KeyGrid

open Source

/-! ### One more at the end -/

theorem filterMap_concat {α β : Type} (f : α → Option β) (xs : List α) (x : α) :
    (xs ++ [x]).filterMap f = xs.filterMap f ++ (f x).toList := by
  cases hx : f x <;> simp [List.filterMap_append, hx]

/-- The last of the results over a list with one more element is that of this element,
if it has one. -/
theorem getLast?_filterMap_concat {α β : Type} (f : α → Option β) (xs : List α) (x : α) :
    ((xs ++ [x]).filterMap f).getLast? = (f x).or (xs.filterMap f).getLast? := by
  rw [filterMap_concat]
  cases f x <;> simp

theorem Source.layouts_concat (items : List Item) (item : Item) :
    layouts (items ++ [item]) = layouts items ++ item.layout?.toList :=
  filterMap_concat Item.layout? items item

theorem Source.states_concat (items : List Item) (item : Item) :
    states (items ++ [item]) = states items ++ item.state?.toList :=
  filterMap_concat Item.state? items item

/-! ### States -/

namespace Scope

theorem layer_ok {scope : Scope} {ref : LayerRef} {layer : Layer}
    (h : scope.layer ref = .ok layer) :
    layer.modifier = ref.modifier ∧
      ∃ layout, scope.layouts[layer.layout]? = some layout ∧ layout.name = ref.name := by
  rw [Scope.layer_eq] at h
  split at h
  · rename_i index hi
    cases h
    exact ⟨rfl, getElem?_of_findIdx?_name hi⟩
  · cases h

theorem target_ok {scope : Scope} {name : String} {line : Nat} {target : Target}
    (h : scope.target name line = .ok target) :
    (name = externalName ∧ target = .external) ∨
      ∃ index, name ≠ externalName ∧ target = .state index ∧
        scope.states[index]? = some name := by
  rw [Scope.target_eq] at h
  split at h
  · rename_i he
    cases h
    exact Or.inl ⟨he, rfl⟩
  · rename_i he
    split at h
    · rename_i index hi
      cases h
      obtain ⟨found, hfound, hname⟩ := getElem?_of_findIdx?_name (f := id) hi
      exact Or.inr ⟨index, he, rfl, hname ▸ hfound⟩
    · cases h

/-- The state has the lists and the mode changes that entries end up with. -/
structure Describes (scope : Scope) (name : String) (entries : List Entry) (state : State) :
    Prop where
  name : state.name = name
  lists : ∀ swipe, scope.layers ((entries.filterMap (·.list? swipe)).getLast?.getD []) =
    .ok (state.layers swipe)
  slots : ∀ slot, Option.Rel (fun entry key => ∃ line, scope.metaKey entry.1 entry.2 line = .ok key)
    (entries.filterMap (·.change? slot)).getLast? (state.metaKey? slot)

theorem describes_blank (scope : Scope) (name : String) :
    scope.Describes name [] (.blank name) := by
  refine ⟨rfl, ?_, ?_⟩
  · intro swipe
    cases swipe <;> rfl
  · intro slot
    have hnone : (State.blank name).metaKey? slot = none := by
      simp only [State.metaKey?, State.blank, Vector.getElem?_replicate]
      split <;> rfl
    rw [hnone]
    exact .none

namespace Describes

variable {scope : Scope} {name : String} {entries : List Entry} {state : State}
  (h : scope.Describes name entries state)

include h

theorem setLayers {swipe : Swipe} {refs : List LayerRef} {layers : List Layer} {line : Nat}
    (hl : scope.layers refs = .ok layers) :
    scope.Describes name (entries ++ [.layers swipe refs line]) (state.setLayers swipe layers) := by
  refine ⟨?_, ?_, ?_⟩
  · rw [← h.name]
    cases swipe <;> rfl
  · intro other
    rw [getLast?_filterMap_concat]
    by_cases hs : swipe = other
    · subst hs
      simpa only [Entry.list?, if_true, Option.some_or, Option.getD_some,
        State.layers_setLayers_self] using hl
    · have hne : other ≠ swipe := fun he => hs he.symm
      simpa only [Entry.list?, if_neg hs, Option.none_or,
        State.layers_setLayers_ne _ _ hne] using h.lists other
  · intro slot
    rw [getLast?_filterMap_concat, State.metaKey?_setLayers]
    exact h.slots slot

theorem setMetaKey {digits label : String} {change : MetaDecl} {line slot : Nat} {key : MetaKey}
    (hslot : slotOf digits line = .ok slot) (hkey : scope.metaKey label change line = .ok key) :
    scope.Describes name (entries ++ [.slot digits label change line])
      (state.setMetaKey slot key) := by
  obtain ⟨hdigits, hlt⟩ := slotOf_eq_ok_iff.mp hslot
  refine ⟨h.name, ?_, ?_⟩
  · intro swipe
    rw [getLast?_filterMap_concat, State.layers_setMetaKey]
    exact h.lists swipe
  · intro other
    rw [getLast?_filterMap_concat, State.metaKey?_setMetaKey]
    by_cases hs : slot = other
    · subst hs
      simp only [Entry.change?, hdigits, if_true, Option.some_or, hlt, and_self]
      exact .some ⟨line, hkey⟩
    · have hne : ¬some slot = some other := fun he => hs (Option.some.inj he)
      simp only [Entry.change?, hdigits, if_neg hne, Option.none_or, hs, false_and, if_false]
      exact h.slots other

theorem addEntry {entry : Entry} {next : State} (ha : scope.addEntry state entry = .ok next) :
    scope.Describes name (entries ++ [entry]) next := by
  cases entry with
  | layers swipe refs line =>
    obtain ⟨layers, hlayers, rfl⟩ := map_eq_ok_iff.mp ha
    exact h.setLayers hlayers
  | slot digits label change line =>
    obtain ⟨slot, hslot, ha⟩ := bind_eq_ok_iff.mp ha
    obtain ⟨key, hkey, ha⟩ := bind_eq_ok_iff.mp ha
    cases ha
    exact h.setMetaKey hslot hkey

end Describes

theorem describes_of_foldlM {scope : Scope} {name : String} {entries : List Entry}
    {state : State} (h : entries.foldlM scope.addEntry (.blank name) = .ok state) :
    scope.Describes name entries state := by
  -- on the last entry, which hides every earlier one of its kind
  induction entries using List.reverseRecOn generalizing state with
  | nil =>
    cases h
    exact scope.describes_blank name
  | append_singleton entries entry ih =>
    obtain ⟨before, hbefore, hadd⟩ := foldlM_concat_eq_ok_iff.mp h
    exact (ih hbefore).addEntry hadd

/-! ### Positions found early -/

section

variable {scope : Scope} {keyboard : Keyboard} (hl : scope.layouts <+: keyboard.layouts)

include hl in
theorem layers_denote {refs : List LayerRef} {layers : List Layer}
    (h : scope.layers refs = .ok layers) :
    List.Forall₂ (LayerRef.Denotes keyboard) refs layers := by
  refine List.Forall₂.imp ?_ (mapM_eq_ok_iff.mp h)
  intro ref layer hlayer
  obtain ⟨hmodifier, layout, hlayout, hname⟩ := layer_ok hlayer
  obtain ⟨rest, hrest⟩ := hl
  have hlt := (List.getElem?_eq_some_iff.mp hlayout).1
  have hfound : keyboard.layouts[layer.layout]? = some layout := by
    rw [← hrest, List.getElem?_append_left hlt, hlayout]
  exact ⟨hmodifier, layout, hfound, hname⟩

variable (hs : scope.states = keyboard.stateNames)

include hs in
theorem target_denotes {name : String} {line : Nat} {target : Target}
    (h : scope.target name line = .ok target) : TargetDenotes keyboard name target := by
  rcases target_ok h with ⟨rfl, rfl⟩ | ⟨index, hne, rfl, hindex⟩
  · exact .external
  · rw [hs, Keyboard.stateNames, List.getElem?_map] at hindex
    obtain ⟨state, hstate, rfl⟩ := Option.map_eq_some_iff.mp hindex
    exact .state hstate hne

include hl hs in
theorem metaKey_denotes {label : String} {change : MetaDecl} {line : Nat} {key : MetaKey}
    (h : scope.metaKey label change line = .ok key) :
    MetaDecl.Denotes keyboard (label, change) key := by
  cases change with
  | dead refs =>
    obtain ⟨layers, hlayers, rfl⟩ := map_eq_ok_iff.mp h
    exact .dead (layers_denote hl hlayers)
  | state name =>
    obtain ⟨target, htarget, rfl⟩ := map_eq_ok_iff.mp h
    exact .state (target_denotes hs htarget)
  | deadLatch name =>
    rw [metaKey_deadLatch] at h
    split at h
    · cases h
    · rename_i hname
      obtain ⟨target, htarget, rfl⟩ := map_eq_ok_iff.mp h
      have hdenotes := target_denotes hs htarget
      cases hdenotes with
      | external => exact absurd rfl hname
      | state hstate hne => exact .deadLatch (.state hstate hne)

end

end Scope

/-- The state is the one that a declaration describes, read when the layouts known were
the first ones of a list. -/
def State.BuiltFrom (names : List String) (layouts : List Layout) (state : State)
    (decl : StateDecl) : Prop :=
  ∃ seen, seen <+: layouts ∧ Scope.state ⟨names, seen⟩ decl = .ok state

namespace State.BuiltFrom

variable {names : List String} {layouts : List Layout} {state : State} {decl : StateDecl}

theorem name (h : state.BuiltFrom names layouts decl) : state.name = decl.name := by
  obtain ⟨seen, _, hstate⟩ := h
  exact (Scope.describes_of_foldlM hstate).name

/-- A state read early stays as it is when more layouts become known. -/
theorem mono (h : state.BuiltFrom names layouts decl) (more : List Layout) :
    state.BuiltFrom names (layouts ++ more) decl := by
  obtain ⟨seen, hseen, hstate⟩ := h
  exact ⟨seen, hseen.trans (List.prefix_append ..), hstate⟩

end State.BuiltFrom

/-! ### Names of states -/

theorem stateNamesOf_eq_ok_iff {decls : List StateDecl} {names : List String} :
    stateNamesOf decls = .ok names ↔
      names = decls.map (·.name) ∧ names.Nodup ∧ externalName ∉ names := by
  unfold stateNamesOf
  induction decls using List.reverseRecOn generalizing names with
  | nil =>
    constructor
    · intro h
      cases h
      exact ⟨rfl, List.nodup_nil, List.not_mem_nil⟩
    · rintro ⟨rfl, _⟩
      rfl
  | append_singleton decls decl ih =>
    rw [foldlM_concat_eq_ok_iff, List.map_append, List.map_singleton]
    constructor
    · rintro ⟨before, hbefore, hadd⟩
      obtain ⟨hnames, hnodup, hfree⟩ := ih.mp hbefore
      unfold addStateName at hadd
      split at hadd
      · cases hadd
      · rename_i hreserved
        split at hadd
        · cases hadd
        · rename_i hfresh
          cases hadd
          refine ⟨by rw [hnames], ?_, ?_⟩
          · rw [← List.concat_eq_append]
            exact hnodup.concat hfresh
          · rw [List.mem_append, List.mem_singleton, not_or]
            exact ⟨hfree, Ne.symm hreserved⟩
    · rintro ⟨rfl, hnodup, hfree⟩
      rw [List.mem_append, List.mem_singleton, not_or] at hfree
      obtain ⟨hbefore, _, hfresh⟩ := List.nodup_append.mp hnodup
      refine ⟨_, ih.mpr ⟨rfl, hbefore, hfree.1⟩, ?_⟩
      have hnew : decl.name ∉ decls.map (·.name) :=
        fun hmem => hfresh _ hmem _ (List.mem_singleton_self _) rfl
      simp only [addStateName, if_neg (Ne.symm hfree.2), if_neg hnew]

/-! ### Declarations one after the other -/

namespace Parts

/-- The parts are those that declarations describe, each in its place. -/
structure Describes (names : List String) (items : List Item) (parts : Parts) : Prop where
  grid : parts.grid = (items.filterMap Item.grid?).getLast?
  layouts : List.Forall₂ Layout.BuiltFrom parts.layouts (Source.layouts items)
  distinct : (parts.layouts.map (·.name)).Nodup
  states : List.Forall₂ (State.BuiltFrom names parts.layouts) parts.states (Source.states items)

theorem layout_ok {parts : Parts} {decl : LayoutDecl} {layout : Layout}
    (h : parts.layout decl = .ok layout) :
    decl.name ∉ parts.layouts.map (·.name) ∧ layout.BuiltFrom decl := by
  unfold Parts.layout at h
  split at h
  · cases h
  · rename_i hany
    split at h
    · cases h
    · rename_i grid _
      refine ⟨?_, grid, h⟩
      intro hm
      obtain ⟨other, ho, hname⟩ := List.mem_map.mp hm
      exact hany (List.any_eq_true.mpr ⟨other, ho, by simp [hname]⟩)

theorem describes_empty (names : List String) : Describes names [] .empty :=
  ⟨rfl, .nil, List.nodup_nil, .nil⟩

theorem Describes.add {names : List String} {items : List Item} {item : Item}
    {parts next : Parts} (h : Describes names items parts)
    (ha : parts.add names item = .ok next) : Describes names (items ++ [item]) next := by
  cases item with
  | size decl =>
    cases ha
    refine ⟨?_, ?_, h.distinct, ?_⟩
    · rw [getLast?_filterMap_concat]
      rfl
    · rw [layouts_concat]
      simpa [Item.layout?] using h.layouts
    · rw [states_concat]
      simpa [Item.state?] using h.states
  | layout decl =>
    obtain ⟨layout, hlayout, hnext⟩ := bind_eq_ok_iff.mp ha
    cases hnext
    obtain ⟨hfresh, hbuilt⟩ := layout_ok hlayout
    refine ⟨?_, ?_, ?_, ?_⟩
    · rw [getLast?_filterMap_concat]
      exact h.grid
    · rw [layouts_concat]
      exact List.rel_append h.layouts (.cons hbuilt .nil)
    · rw [← hbuilt.name] at hfresh
      rw [List.map_append, List.map_singleton, ← List.concat_eq_append]
      exact h.distinct.concat hfresh
    · rw [states_concat]
      simpa [Item.state?] using h.states.imp fun _ _ hs => hs.mono [layout]
  | state decl =>
    obtain ⟨state, hstate, hnext⟩ := bind_eq_ok_iff.mp ha
    cases hnext
    refine ⟨?_, ?_, h.distinct, ?_⟩
    · rw [getLast?_filterMap_concat]
      exact h.grid
    · rw [layouts_concat]
      simpa [Item.layout?] using h.layouts
    · rw [states_concat]
      exact List.rel_append h.states (.cons ⟨parts.layouts, List.prefix_rfl, hstate⟩ .nil)

theorem describes_of_foldlM {names : List String} {items : List Item} {parts : Parts}
    (h : items.foldlM (add names) .empty = .ok parts) : Describes names items parts := by
  induction items using List.reverseRecOn generalizing parts with
  | nil =>
    cases h
    exact describes_empty names
  | append_singleton items item ih =>
    obtain ⟨before, hbefore, hadd⟩ := foldlM_concat_eq_ok_iff.mp h
    exact (ih hbefore).add hadd

end Parts
end KeyGrid
