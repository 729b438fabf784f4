import KeyGrid.Proofs.Resolvable

/-!
# Declarations with one of them exchanged

Whether declarations are accepted depends, of any one of them, on its name and on whether it
can be resolved where it stands. So a cell or an entry that can be resolved takes the place
of another one without harm, and one that is refused is what the whole is refused for.
-/

namespace KeyGrid

open Source

section

variable {α : Type} {front back : List α} {x y : α}

theorem InTurn.exchange {P : List α → α → Prop} (h : InTurn P (front ++ x :: back))
    (hy : P front y)
    (hb : ∀ between z, P (front ++ x :: between) z → P (front ++ y :: between) z) :
    InTurn P (front ++ y :: back) := by
  induction back using List.reverseRecOn with
  | nil => exact (InTurn.concat_iff.mp h).1.concat hy
  | append_singleton back last ih =>
    rw [← List.cons_append, ← List.append_assoc] at h ⊢
    obtain ⟨hfront, hlast⟩ := InTurn.concat_iff.mp h
    exact (ih hfront).concat (hb back last hlast)

theorem foldlM_exchange_error {ε β : Type} {f : β → α → Except ε β} {b c : β} {e : ε}
    (h : (front ++ x :: back).foldlM f b = .ok c)
    (he : ∀ m n, f m x = .ok n → f m y = .error e) :
    (front ++ y :: back).foldlM f b = .error e := by
  obtain ⟨m, hm, h⟩ := foldlM_append_eq_ok_iff.mp h
  obtain ⟨n, hn, _⟩ := bind_eq_ok_iff.mp h
  refine foldlM_append_eq_error_iff.mpr (Or.inr ⟨m, hm, ?_⟩)
  exact bind_eq_error_iff.mpr (Or.inl (he m n hn))

end

/-! ### Declarations -/

/-- The declarations give the same size or name, on the same line where this matters. -/
structure Source.Item.Alike (item other : Item) : Prop where
  grid : item.grid? = other.grid?
  layout : item.layout?.map (·.name) = other.layout?.map (·.name)
  state : item.state?.map (fun decl => (decl.name, decl.line)) =
    other.state?.map (fun decl => (decl.name, decl.line))

namespace Source.Item.Alike

variable {item other : Item} (h : item.Alike other) (front back : List Item)
include h

theorem gridBehind? :
    gridBehind? (front ++ item :: back) = gridBehind? (front ++ other :: back) := by
  simp only [Source.gridBehind?, List.filterMap_append, List.filterMap_cons, h.grid]

theorem layoutNames :
    (layouts (front ++ item :: back)).map (·.name) =
      (layouts (front ++ other :: back)).map (·.name) := by
  have hnames : ∀ items : List Item,
      (layouts items).map (·.name) = items.filterMap (fun item => item.layout?.map (·.name)) :=
    fun _ => List.map_filterMap
  simp only [hnames, List.filterMap_append, List.filterMap_cons, h.layout]

theorem stateNamesOf :
    KeyGrid.stateNamesOf (states (front ++ item :: back)) =
      KeyGrid.stateNamesOf (states (front ++ other :: back)) := by
  have hstate := h.state
  simp only [KeyGrid.stateNamesOf, states, List.filterMap_append, List.filterMap_cons]
  cases hitem : item.state? with
  | none =>
    rw [hitem, Option.map_none, eq_comm, Option.map_eq_none_iff] at hstate
    rw [hstate]
  | some decl =>
    rw [hitem, Option.map_some, eq_comm, Option.map_eq_some_iff] at hstate
    obtain ⟨found, hfound, hsame⟩ := hstate
    obtain ⟨hname, hline⟩ := Prod.mk.inj hsame
    rw [hfound]
    simp only [List.foldlM_append, List.foldlM_cons, addStateName, hname, hline]

theorem resolves {names : List String} {behind : Item}
    (hr : behind.Resolves names (front ++ item :: back)) :
    behind.Resolves names (front ++ other :: back) := by
  cases behind with
  | size decl => trivial
  | layout decl =>
    unfold Item.Resolves at hr ⊢
    rw [← h.gridBehind? front back]
    exact hr
  | state decl =>
    unfold Item.Resolves at hr ⊢
    rw [← h.layoutNames front back]
    exact hr

theorem layoutsIn {grid : Grid} (hl : LayoutsIn grid (front ++ item :: back)) :
    LayoutsIn grid (front ++ other :: back) := by
  refine InTurn.exchange hl ?_ ?_
  · have hsome := congrArg Option.isSome h.layout
    rw [Option.isSome_map, Option.isSome_map] at hsome
    rw [← hsome]
    exact hl front item back rfl
  · intro between behind hbehind
    rw [← h.gridBehind? front between]
    exact hbehind

end Source.Item.Alike

namespace Keyboard

variable {front back : List Item} {item other : Item} (ha : item.Alike other)
  {keyboard : Keyboard} (h : ofItems (front ++ item :: back) = .ok keyboard)
include ha h

theorem exists_ofItems_exchange
    (hr : ∀ names, item.Resolves names front → other.Resolves names front) :
    ∃ changed, ofItems (front ++ other :: back) = .ok changed := by
  obtain ⟨names, parts, grid, hnames, hparts, hgrid, hfound, _⟩ := parts_of_ofItems h
  obtain ⟨hdeclared, _, hreserved⟩ := stateNamesOf_eq_ok_iff.mp hnames
  obtain ⟨hlayouts, hturn⟩ := (Parts.exists_run_iff hreserved).mp ⟨parts, hparts⟩
  obtain ⟨hconsistent, hmain⟩ := exists_assemble_iff.mp ⟨keyboard, hfound⟩
  have hsize := (Parts.consistent_iff hnames hparts grid).mp hconsistent
  have hdescribes := Parts.describes_of_foldlM hparts
  -- the other declarations are read in the same way
  have hothers := InTurn.exchange hturn (hr names (hturn front item back rfl))
    (fun between _ => ha.resolves front between)
  rw [ha.stateNamesOf] at hnames
  rw [ha.layoutNames] at hlayouts
  obtain ⟨changed, hchanged⟩ := (Parts.exists_run_iff hreserved).mpr ⟨hlayouts, hothers⟩
  have hbehind := Parts.describes_of_foldlM hchanged
  -- and what has been read is put together in the same way
  have hinForce : changed.grid = some grid := by
    rw [← hgrid, hbehind.grid, hdescribes.grid]
    exact (ha.gridBehind? front back).symm
  have hstates : changed.states.map (·.name) = parts.states.map (·.name) := by
    rw [hbehind.stateNames, hdescribes.stateNames, ← hdeclared]
    exact (stateNamesOf_eq_ok_iff.mp hnames).1.symm
  rw [← hstates] at hmain
  have hagain := (Parts.consistent_iff hnames hchanged grid).mpr (ha.layoutsIn front back hsize)
  obtain ⟨whole, hwhole⟩ := exists_assemble_iff.mpr ⟨hagain, hmain⟩
  have hkeyboard : changed.keyboard = .ok whole := by
    simp only [Parts.keyboard, hinForce, hwhole]
  refine exists_bind_iff.mpr ⟨names, hnames, ?_⟩
  exact exists_bind_iff.mpr ⟨changed, hchanged, whole, hkeyboard⟩

theorem ofItems_exchange_error {e : LoadError}
    (he : ∀ names parts next, Parts.add names parts item = .ok next →
      Parts.add names parts other = .error e) :
    ofItems (front ++ other :: back) = .error e := by
  obtain ⟨names, hnames, h⟩ := bind_eq_ok_iff.mp h
  obtain ⟨parts, hparts, _⟩ := bind_eq_ok_iff.mp h
  rw [ha.stateNamesOf] at hnames
  have hfails := foldlM_exchange_error hparts (he names)
  exact bind_eq_error_iff.mpr (Or.inr ⟨names, hnames, bind_eq_error_iff.mpr (Or.inl hfails)⟩)

end Keyboard

/-! ### Cells -/

namespace Layout

variable {layout written : Layout} {cell other : CellDecl} {e : LoadError}

theorem fillRow_exchange_error {row col : Nat} {before after : List CellDecl}
    (h : layout.fillRow row col (before ++ cell :: after) = .ok written)
    (he : other.key? = .error e) :
    layout.fillRow row col (before ++ other :: after) = .error e := by
  induction before generalizing layout col with
  | nil => exact bind_eq_error_iff.mpr (Or.inl he)
  | cons first before ih =>
    obtain ⟨key, hkey, h⟩ := bind_eq_ok_iff.mp h
    refine bind_eq_error_iff.mpr (Or.inr ⟨key, hkey, ?_⟩)
    cases hset : layout.set? row col key with
    | none =>
      simp only [hset] at h
      cases h
    | some next =>
      simp only [hset] at h
      exact ih h

theorem fill_exchange_error {row : Nat} {above below : List (List CellDecl)}
    {before after : List CellDecl}
    (h : layout.fill row (above ++ (before ++ cell :: after) :: below) = .ok written)
    (he : other.key? = .error e) :
    layout.fill row (above ++ (before ++ other :: after) :: below) = .error e := by
  induction above generalizing layout row with
  | nil =>
    obtain ⟨next, hnext, _⟩ := bind_eq_ok_iff.mp h
    exact bind_eq_error_iff.mpr (Or.inl (fillRow_exchange_error hnext he))
  | cons cells above ih =>
    obtain ⟨next, hnext, h⟩ := bind_eq_ok_iff.mp h
    exact bind_eq_error_iff.mpr (Or.inr ⟨next, hnext, ih h⟩)

end Layout

/-- Where a cell stands among declarations; `items` puts one there. -/
structure CellPlace where
  front : List Item
  name : String
  line : Nat
  above : List (List CellDecl)
  before : List CellDecl
  after : List CellDecl
  below : List (List CellDecl)
  back : List Item

namespace CellPlace

variable (place : CellPlace)

def decl (cell : CellDecl) : LayoutDecl :=
  ⟨place.name, place.line, place.above ++ (place.before ++ cell :: place.after) :: place.below⟩

def items (cell : CellDecl) : List Item := place.front ++ .layout (place.decl cell) :: place.back

def layout? (keyboard : Keyboard) : Option Layout :=
  keyboard.layouts[(layouts place.front).length]?

def key? (keyboard : Keyboard) : Option Key :=
  (place.layout? keyboard).bind (·.get? place.above.length place.before.length)

theorem alike (cell other : CellDecl) :
    (Item.layout (place.decl cell)).Alike (.layout (place.decl other)) :=
  ⟨rfl, rfl, rfl⟩

theorem cellAt?_self (cell : CellDecl) :
    Layout.cellAt? (place.decl cell).rows place.above.length place.before.length = some cell := by
  simp [Layout.cellAt?, decl]

theorem cellAt?_of_ne (cell other : CellDecl) {row col : Nat}
    (h : ¬(row = place.above.length ∧ col = place.before.length)) :
    Layout.cellAt? (place.decl other).rows row col =
      Layout.cellAt? (place.decl cell).rows row col := by
  simp only [Layout.cellAt?, decl, List.getElem?_append, List.getElem?_cons]
  grind

variable {place} {cell other : CellDecl} {keyboard : Keyboard}

theorem resolves {grid : Grid} (h : (place.decl cell).Resolves grid) (ho : other.cell.Known) :
    (place.decl other).Resolves grid := by
  intro row col written hwritten
  by_cases hplace : row = place.above.length ∧ col = place.before.length
  · obtain ⟨rfl, rfl⟩ := hplace
    rw [cellAt?_self] at hwritten
    cases hwritten
    exact ⟨(h _ _ cell (place.cellAt?_self cell)).1, ho⟩
  · rw [place.cellAt?_of_ne cell other hplace] at hwritten
    exact h row col written hwritten

theorem exists_ofItems (h : Keyboard.ofItems (place.items cell) = .ok keyboard)
    (ho : other.cell.Known) : ∃ changed, Keyboard.ofItems (place.items other) = .ok changed := by
  refine Keyboard.exists_ofItems_exchange (place.alike cell other) h ?_
  intro names hr
  obtain ⟨grid, hgrid, hr⟩ := hr
  exact ⟨grid, hgrid, resolves hr ho⟩

theorem ofItems_error (h : Keyboard.ofItems (place.items cell) = .ok keyboard) {e : LoadError}
    (he : other.key? = .error e) : Keyboard.ofItems (place.items other) = .error e := by
  refine Keyboard.ofItems_exchange_error (place.alike cell other) h ?_
  intro names parts next hnext
  obtain ⟨layout, hlayout, _⟩ := bind_eq_ok_iff.mp hnext
  refine bind_eq_error_iff.mpr (Or.inl ?_)
  unfold Parts.layout at hlayout ⊢
  split at hlayout
  · cases hlayout
  · rename_i hfresh
    have hfree : ¬parts.layouts.any (·.name == (place.decl other).name) := hfresh
    rw [if_neg hfree]
    split at hlayout
    · cases hlayout
    · exact Layout.fill_exchange_error hlayout he

theorem key?_of_ofItems (h : Keyboard.ofItems (place.items cell) = .ok keyboard) :
    place.key? keyboard = cell.cell.meaning? := by
  have hlayouts : (layouts (place.items cell))[(layouts place.front).length]? =
      some (place.decl cell) := by
    simp [items, layouts, Item.layout?]
  obtain ⟨layout, hlayout, hbuilt⟩ :=
    getElem?_of_forall₂ (Keyboard.ofItems_ok h).layouts.flip hlayouts
  rw [key?, layout?, hlayout, Option.bind_some, Layout.BuiltFrom.get? hbuilt]
  simp [LayoutDecl.meaning?, decl]

end CellPlace

/-! ### Entries -/

structure EntryPlace where
  front : List Item
  name : String
  line : Nat
  before : List Entry
  after : List Entry
  back : List Item

namespace EntryPlace

variable (place : EntryPlace)

def decl (entry : Entry) : StateDecl :=
  ⟨place.name, place.line, place.before ++ entry :: place.after⟩

def items (entry : Entry) : List Item := place.front ++ .state (place.decl entry) :: place.back

def state? (keyboard : Keyboard) : Option State :=
  keyboard.states[(states place.front).length]?

theorem alike (entry other : Entry) :
    (Item.state (place.decl entry)).Alike (.state (place.decl other)) :=
  ⟨rfl, rfl, rfl⟩

variable {place} {entry other : Entry} {keyboard : Keyboard}

theorem exists_ofItems (h : Keyboard.ofItems (place.items entry) = .ok keyboard)
    (ho : ∀ stateNames layoutNames, entry.Resolves stateNames layoutNames →
      other.Resolves stateNames layoutNames) :
    ∃ changed, Keyboard.ofItems (place.items other) = .ok changed := by
  refine Keyboard.exists_ofItems_exchange (place.alike entry other) h ?_
  intro names hr
  have hentry := hr entry (List.mem_append_right _ (List.mem_cons_self ..))
  intro found hfound
  rcases List.mem_append.mp hfound with hm | hm
  · exact hr found (List.mem_append_left _ hm)
  · rcases List.mem_cons.mp hm with rfl | hm
    · exact ho _ _ hentry
    · exact hr found (List.mem_append_right _ (List.mem_cons_of_mem _ hm))

theorem ofItems_error (h : Keyboard.ofItems (place.items entry) = .ok keyboard) {e : LoadError}
    (he : ∀ (scope : Scope) state, scope.addEntry state other = .error e) :
    Keyboard.ofItems (place.items other) = .error e := by
  refine Keyboard.ofItems_exchange_error (place.alike entry other) h ?_
  intro names parts next hnext
  obtain ⟨state, hstate, _⟩ := bind_eq_ok_iff.mp hnext
  exact bind_eq_error_iff.mpr (Or.inl (foldlM_exchange_error hstate fun _ _ _ => he _ _))

theorem state?_of_ofItems (h : Keyboard.ofItems (place.items entry) = .ok keyboard) :
    ∃ state, place.state? keyboard = some state ∧
      state.BuiltFrom keyboard.stateNames keyboard.layouts (place.decl entry) := by
  have hstates : (states (place.items entry))[(states place.front).length]? =
      some (place.decl entry) := by
    simp [items, states, Item.state?]
  exact getElem?_of_forall₂ (Keyboard.ofItems_ok h).states.flip hstates

end EntryPlace

end KeyGrid
