import KeyGrid.Proofs.Accepted
import KeyGrid.Proofs.Consistent
import KeyGrid.Proofs.Overlay

/-!
# Declarations that make up a keyboard

Declarations are accepted exactly if everything in them can be resolved: codes stand for
keys, cells lie in the grid, references lead to a layout above or to a state anywhere, and
all layouts have the last size. Once every declaration has been resolved for itself, nothing
is left for the tests of the assembly to find but a layout of another size.
-/

namespace KeyGrid

open Source

/-! ### Cells -/

namespace Source

/-- A code that stands for a key: a device action, the way out of the keyboard or a slot. -/
inductive KnownCode : String → Prop
  | device (action : Device) : KnownCode action.name
  | external : KnownCode externalName
  | slot {digits : String} (hd : Decimal.isDigits digits.toList)
      (hv : Decimal.value digits.toList < slotCount) : KnownCode ("S" ++ digits)

def Cell.Known : Cell → Prop
  | .absent | .text _ => True
  | .code name => KnownCode name

/-- The text of a slot is a number below the number of slots. -/
def IsSlot (digits : String) : Prop :=
  ∃ slot, Decimal.numeral? digits.toList = some slot ∧ slot < slotCount

theorem exists_slotOf_iff (digits : String) (line : Nat) :
    (∃ slot, slotOf digits line = .ok slot) ↔ IsSlot digits := by
  simp only [slotOf_eq_ok_iff, IsSlot]

theorem knownCode_of_keyOfCode {code : String} {line : Nat} {key : Key}
    (h : keyOfCode code line = .ok key) : KnownCode code := by
  unfold keyOfCode at h
  split at h
  · rename_i action hdevice
    rw [← Device.name_of_ofName? hdevice]
    exact .device action
  · split at h
    · rename_i hexternal
      rw [hexternal]
      exact .external
    · split at h
      · rename_i digits hdigits
        obtain ⟨slot, hslot, _⟩ := map_eq_ok_iff.mp h
        obtain ⟨hrun, hlist⟩ := slotDigits?_eq_some hdigits
        obtain ⟨hvalue, hlt⟩ := slotOf_eq_ok_iff.mp hslot
        rw [Decimal.numeral?_of_isDigits hrun] at hvalue
        cases hvalue
        have hcode : code = "S" ++ digits := by
          apply String.toList_injective
          rw [hlist, String.toList_append]
          rfl
        rw [hcode]
        exact .slot hrun hlt
      · cases h

theorem KnownCode.exists_keyOfCode {code : String} (h : KnownCode code) (line : Nat) :
    ∃ key, keyOfCode code line = .ok key := by
  cases h with
  | device action => exact ⟨.device action, by simp only [keyOfCode, Device.ofName?_name]⟩
  | external => exact ⟨.direct externalKey, rfl⟩
  | @slot digits hd hv =>
    have hslot : slotOf digits line = .ok (Decimal.value digits.toList) :=
      slotOf_eq_ok_iff.mpr ⟨Decimal.numeral?_of_isDigits hd, hv⟩
    unfold keyOfCode
    split
    · exact ⟨_, rfl⟩
    · split
      · exact ⟨_, rfl⟩
      · rw [slotDigits?_slot hd]
        exact exists_map_iff.mpr ⟨_, hslot⟩

theorem CellDecl.exists_key?_iff {decl : CellDecl} :
    (∃ key, decl.key? = .ok key) ↔ decl.cell.Known := by
  unfold CellDecl.key?
  cases decl.cell with
  | absent => exact ⟨fun _ => trivial, fun _ => ⟨none, rfl⟩⟩
  | text typed => exact ⟨fun _ => trivial, fun _ => ⟨some (.ofText typed), rfl⟩⟩
  | code code =>
    rw [exists_map_iff]
    exact ⟨fun ⟨_, h⟩ => knownCode_of_keyOfCode h, fun h => h.exists_keyOfCode decl.line⟩

/-- A key of a file refers to nothing but one of the slots. -/
theorem admitsKey_of_keyOfCode {code : String} {line : Nat} {key : Key}
    (h : keyOfCode code line = .ok key) (extent : Extent) : extent.admitsKey key := by
  unfold keyOfCode at h
  split at h
  · cases h
    rfl
  · split at h
    · cases h
      rfl
    · split at h
      · obtain ⟨slot, hslot, rfl⟩ := map_eq_ok_iff.mp h
        exact decide_eq_true (slotOf_eq_ok_iff.mp hslot).2
      · cases h

theorem CellDecl.admitsKey_of_key? {decl : CellDecl} {key : Key}
    (h : decl.key? = .ok (some key)) (extent : Extent) : extent.admitsKey key := by
  unfold CellDecl.key? at h
  split at h
  · cases h
  · cases h
    rfl
  · obtain ⟨found, hfound, hkey⟩ := map_eq_ok_iff.mp h
    cases hkey
    exact admitsKey_of_keyOfCode hfound extent

end Source

/-! ### Layouts -/

namespace Layout

/-- A row can be written from a column on if each of its cells is inside the grid and stands
for a key or for none. -/
theorem exists_fillRow_iff {cells : List CellDecl} {layout : Layout} {row col : Nat} :
    (∃ written, layout.fillRow row col cells = .ok written) ↔
      ∀ c decl, cells[c]? = some decl →
        (row < layout.rows ∧ col + c < layout.cols) ∧ decl.cell.Known := by
  induction cells generalizing layout col with
  | nil => exact ⟨fun _ _ _ h => absurd h (by simp), fun _ => ⟨layout, rfl⟩⟩
  | cons first others ih =>
    rw [fillRow, exists_bind_iff]
    constructor
    · intro h
      obtain ⟨key, hkey, written, h⟩ := h
      cases hset : layout.set? row col key with
      | none =>
        simp only [hset] at h
        cases h
      | some next =>
        simp only [hset] at h
        obtain ⟨_, hrows, hcols⟩ := shape_of_set? hset
        have hin := (isSome_set? layout row col key).mp (Option.isSome_of_eq_some hset)
        have hothers := ih.mp ⟨written, h⟩
        rw [hrows, hcols] at hothers
        intro c decl hdecl
        cases c with
        | zero =>
          cases hdecl
          exact ⟨hin, CellDecl.exists_key?_iff.mp ⟨key, hkey⟩⟩
        | succ c =>
          obtain ⟨⟨hrow, hcol⟩, hknown⟩ := hothers c decl hdecl
          exact ⟨⟨hrow, by omega⟩, hknown⟩
    · intro h
      obtain ⟨hin, hknown⟩ := h 0 first rfl
      obtain ⟨key, hkey⟩ := CellDecl.exists_key?_iff.mpr hknown
      obtain ⟨next, hset⟩ :=
        Option.isSome_iff_exists.mp ((isSome_set? layout row col key).mpr hin)
      obtain ⟨_, hrows, hcols⟩ := shape_of_set? hset
      refine ⟨key, hkey, ?_⟩
      simp only [hset]
      apply ih.mpr
      rw [hrows, hcols]
      intro c decl hdecl
      obtain ⟨⟨hrow, hcol⟩, hother⟩ := h (c + 1) decl hdecl
      exact ⟨⟨hrow, by omega⟩, hother⟩

theorem exists_fill_iff {rows : List (List CellDecl)} {layout : Layout} {row : Nat} :
    (∃ written, layout.fill row rows = .ok written) ↔
      ∀ r c decl, cellAt? rows r c = some decl →
        (row + r < layout.rows ∧ c < layout.cols) ∧ decl.cell.Known := by
  induction rows generalizing layout row with
  | nil => exact ⟨fun _ _ _ _ h => absurd h (by simp [cellAt?]), fun _ => ⟨layout, rfl⟩⟩
  | cons cells others ih =>
    rw [fill, exists_bind_iff]
    constructor
    · intro h
      obtain ⟨next, hnext, h⟩ := h
      obtain ⟨⟨_, hrows, hcols⟩, _⟩ := fillRow_ok hnext
      have hcells := exists_fillRow_iff.mp ⟨next, hnext⟩
      have hothers := ih.mp h
      rw [hrows, hcols] at hothers
      intro r c decl hdecl
      cases r with
      | zero =>
        obtain ⟨⟨hrow, hcol⟩, hknown⟩ := hcells c decl hdecl
        exact ⟨⟨hrow, by omega⟩, hknown⟩
      | succ r =>
        obtain ⟨⟨hrow, hcol⟩, hknown⟩ := hothers r c decl hdecl
        exact ⟨⟨by omega, hcol⟩, hknown⟩
    · intro h
      have hcells : ∃ next, layout.fillRow row 0 cells = .ok next := by
        apply exists_fillRow_iff.mpr
        intro c decl hdecl
        obtain ⟨⟨hrow, hcol⟩, hknown⟩ := h 0 c decl hdecl
        exact ⟨⟨hrow, by omega⟩, hknown⟩
      obtain ⟨next, hnext⟩ := hcells
      obtain ⟨⟨_, hrows, hcols⟩, _⟩ := fillRow_ok hnext
      refine ⟨next, hnext, ih.mpr ?_⟩
      rw [hrows, hcols]
      intro r c decl hdecl
      obtain ⟨⟨hrow, hcol⟩, hknown⟩ := h (r + 1) c decl hdecl
      exact ⟨⟨by omega, hcol⟩, hknown⟩

theorem BuiltFrom.admitsLayout {layout : Layout} {decl : LayoutDecl} (h : layout.BuiltFrom decl)
    (extent : Extent) : extent.admitsLayout layout := by
  obtain ⟨grid, hf⟩ := h
  apply (extent.admitsLayout_iff layout).mpr
  intro row col key hget
  rw [((fill_ok hf).2 (full_blank ..)).2 row col, get?_blank] at hget
  simp only [Nat.zero_le, if_true, Nat.sub_zero] at hget
  cases hcell : cellAt? decl.rows row col with
  | none =>
    rw [hcell] at hget
    cases hget
  | some written =>
    simp only [hcell] at hget
    have hknown := (exists_fill_iff.mp ⟨layout, hf⟩ row col written hcell).2
    obtain ⟨found, hfound⟩ := CellDecl.exists_key?_iff.mpr hknown
    rw [CellDecl.key?_ok hfound, hget] at hfound
    exact CellDecl.admitsKey_of_key? hfound extent

end Layout

namespace Source

/-- Every cell that is written lies inside the grid, and every code in one is known. -/
def LayoutDecl.Resolves (grid : Grid) (decl : LayoutDecl) : Prop :=
  ∀ row col written, Layout.cellAt? decl.rows row col = some written →
    (row < grid.rows ∧ col < grid.cols) ∧ written.cell.Known

/-! ### States -/

/-- Every layout is among the given ones and every target is a state; only a switch that is
not latched can lead out of the keyboard. -/
def MetaDecl.Resolves (stateNames layoutNames : List String) : MetaDecl → Prop
  | .dead refs => ∀ ref ∈ refs, ref.name ∈ layoutNames
  | .state target => target ∈ stateNames ∨ target = externalName
  | .deadLatch target => target ∈ stateNames

def Entry.Resolves (stateNames layoutNames : List String) : Entry → Prop
  | .layers _ refs _ => ∀ ref ∈ refs, ref.name ∈ layoutNames
  | .slot digits _ change _ => IsSlot digits ∧ change.Resolves stateNames layoutNames

/-- What a declaration needs of those above it, given the names of all states. -/
def Item.Resolves (stateNames : List String) (front : List Item) : Item → Prop
  | .size _ => True
  | .layout decl => ∃ grid, gridBehind? front = some grid ∧ decl.Resolves grid
  | .state decl => ∀ entry ∈ decl.entries,
      entry.Resolves stateNames ((layouts front).map (·.name))

/-- Every layout has this size in force above it. -/
def LayoutsIn (grid : Grid) (items : List Item) : Prop :=
  InTurn (fun front item => item.layout?.isSome → gridBehind? front = some grid) items

/-- Everything in the declarations can be looked up where it has to be. -/
structure Resolvable (items : List Item) : Prop where
  stateNames : ((states items).map (·.name)).Nodup
  reserved : externalName ∉ (states items).map (·.name)
  layoutNames : ((layouts items).map (·.name)).Nodup
  inTurn : InTurn (Item.Resolves ((states items).map (·.name))) items
  size : ∃ grid, gridBehind? items = some grid ∧ LayoutsIn grid items
  main : Keyboard.mainName ∈ (states items).map (·.name)

end Source

namespace Scope

theorem exists_layer_iff {scope : Scope} {ref : LayerRef} :
    (∃ layer, scope.layer ref = .ok layer) ↔ ref.name ∈ scope.layouts.map (·.name) := by
  rw [Scope.layer_eq]
  cases hfound : scope.layouts.findIdx? (·.name == ref.name) with
  | none =>
    have hnone := findIdx?_name_eq_none_iff.mp hfound
    constructor
    · intro h
      obtain ⟨layer, h⟩ := h
      cases h
    · intro h
      exact absurd h hnone
  | some index =>
    obtain ⟨layout, hlayout, hname⟩ := getElem?_of_findIdx?_name hfound
    have hmem := List.mem_of_getElem? hlayout
    exact ⟨fun _ => List.mem_map.mpr ⟨layout, hmem, hname⟩, fun _ => ⟨_, rfl⟩⟩

theorem exists_layers_iff {scope : Scope} {refs : List LayerRef} :
    (∃ layers, scope.layers refs = .ok layers) ↔
      ∀ ref ∈ refs, ref.name ∈ scope.layouts.map (·.name) := by
  rw [Scope.layers_eq]
  rw [exists_mapM_iff]
  simp only [exists_layer_iff]

theorem exists_target_iff {scope : Scope} {name : String} {line : Nat} :
    (∃ target, scope.target name line = .ok target) ↔
      name ∈ scope.states ∨ name = externalName := by
  rw [Scope.target_eq]
  by_cases hexternal : name = externalName
  · rw [if_pos hexternal]
    exact ⟨fun _ => Or.inr hexternal, fun _ => ⟨_, rfl⟩⟩
  · rw [if_neg hexternal, or_iff_left hexternal]
    cases hfound : scope.states.findIdx? (· == name) with
    | none =>
      have hnone := (findIdx?_name_eq_none_iff (f := id)).mp hfound
      rw [List.map_id] at hnone
      constructor
      · intro h
        obtain ⟨target, h⟩ := h
        cases h
      · intro h
        exact absurd h hnone
    | some index =>
      obtain ⟨found, hstate, hname⟩ := getElem?_of_findIdx?_name (f := id) hfound
      have hmem := List.mem_of_getElem? hstate
      exact ⟨fun _ => hname ▸ hmem, fun _ => ⟨_, rfl⟩⟩

variable {scope : Scope} (hreserved : externalName ∉ scope.states)

include hreserved in
theorem exists_metaKey_iff (label : String) (change : MetaDecl) (line : Nat) :
    (∃ key, scope.metaKey label change line = .ok key) ↔
      change.Resolves scope.states (scope.layouts.map (·.name)) := by
  cases change with
  | dead refs =>
    rw [metaKey_dead, exists_map_iff, exists_layers_iff]
    rfl
  | state name =>
    rw [metaKey_state, exists_map_iff, exists_target_iff]
    rfl
  | deadLatch name =>
    simp only [metaKey_deadLatch, MetaDecl.Resolves]
    by_cases hexternal : name = externalName
    · rw [if_pos hexternal, hexternal]
      constructor
      · intro h
        obtain ⟨_, hkey⟩ := h
        cases hkey
      · intro h
        exact absurd h hreserved
    · rw [if_neg hexternal, exists_map_iff, exists_target_iff, or_iff_left hexternal]

include hreserved in
theorem exists_addEntry_iff (state : State) (entry : Entry) :
    (∃ next, scope.addEntry state entry = .ok next) ↔
      entry.Resolves scope.states (scope.layouts.map (·.name)) := by
  cases entry with
  | layers swipe refs line =>
    rw [addEntry_layers, exists_map_iff, exists_layers_iff]
    rfl
  | slot digits label change line =>
    simp only [addEntry_slot, Entry.Resolves]
    rw [exists_bind_iff, ← exists_slotOf_iff digits line,
      ← exists_metaKey_iff hreserved label change line]
    constructor
    · intro h
      obtain ⟨slot, hslot, h⟩ := h
      obtain ⟨key, hkey, _⟩ := exists_bind_iff.mp h
      exact ⟨⟨slot, hslot⟩, key, hkey⟩
    · intro h
      obtain ⟨⟨slot, hslot⟩, key, hkey⟩ := h
      exact ⟨slot, hslot, exists_bind_iff.mpr ⟨key, hkey, _, rfl⟩⟩

include hreserved in
theorem exists_state_iff {decl : StateDecl} :
    (∃ state, scope.state decl = .ok state) ↔
      ∀ entry ∈ decl.entries, entry.Resolves scope.states (scope.layouts.map (·.name)) :=
  exists_foldlM_iff (exists_addEntry_iff hreserved)

end Scope

/-! ### References -/

theorem State.exists_metaKey?_of_mem_metaKeys {state : State} {change : MetaKey}
    (h : change ∈ state.metaKeys) : ∃ slot, state.metaKey? slot = some change := by
  obtain ⟨entry, hentry, rfl⟩ : ∃ entry, entry ∈ state.slots.toList ∧ entry = some change :=
    List.mem_filterMap.mp h
  obtain ⟨slot, hslot⟩ := List.mem_iff_getElem?.mp hentry
  refine ⟨slot, ?_⟩
  rw [Vector.getElem?_toList] at hslot
  rw [State.metaKey?, hslot, Option.join_some]

theorem layer_lt_of_denotes {keyboard : Keyboard} {refs : List LayerRef} {layers : List Layer}
    (h : List.Forall₂ (LayerRef.Denotes keyboard) refs layers) {layer : Layer}
    (hl : layer ∈ layers) : layer.layout < keyboard.layouts.length := by
  obtain ⟨ref, _, hdenotes⟩ := exists_of_forall₂ h.flip hl
  obtain ⟨layout, hlayout, _⟩ := hdenotes.layout
  exact (List.getElem?_eq_some_iff.mp hlayout).1

theorem Source.MetaDecl.Denotes.admits {keyboard : Keyboard} {decl : String × MetaDecl}
    {key : MetaKey} (h : MetaDecl.Denotes keyboard decl key) :
    keyboard.extent.admitsMetaKey key := by
  cases h with
  | dead hlayers =>
    exact (Extent.admitsMetaKey_dead ..).mpr fun _ hl => layer_lt_of_denotes hlayers hl
  | state htarget =>
    cases htarget with
    | external => rfl
    | state hstate _ =>
      exact (Extent.admitsMetaKey_state ..).mpr (List.getElem?_eq_some_iff.mp hstate).1
  | deadLatch htarget =>
    cases htarget with
    | state hstate _ =>
      exact (Extent.admitsMetaKey_state ..).mpr (List.getElem?_eq_some_iff.mp hstate).1

theorem State.BuiltFrom.admitsState {keyboard : Keyboard} {state : State} {decl : StateDecl}
    (h : state.BuiltFrom keyboard.stateNames keyboard.layouts decl) :
    keyboard.extent.admitsState state := by
  obtain ⟨hlists, hslots⟩ := h.lists_and_slots
  refine (Extent.admitsState_iff ..).mpr ⟨fun swipe _ hl => layer_lt_of_denotes (hlists swipe) hl,
    ?_⟩
  intro change hchange
  obtain ⟨slot, hslot⟩ := State.exists_metaKey?_of_mem_metaKeys hchange
  have hrel := hslots slot
  rw [hslot] at hrel
  generalize decl.change? slot = entry at hrel
  cases hrel with
  | some hdenotes => exact hdenotes.admits

/-! ### Declarations one after the other -/

namespace Parts

theorem Describes.stateNames {names : List String} {items : List Item} {parts : Parts}
    (h : Describes names items parts) :
    parts.states.map (·.name) = (Source.states items).map (·.name) :=
  map_eq_of_forall₂ h.states fun _ _ hs => hs.name

theorem exists_layout_iff {parts : Parts} {decl : LayoutDecl} :
    (∃ layout, parts.layout decl = .ok layout) ↔
      decl.name ∉ parts.layouts.map (·.name) ∧
        ∃ grid, parts.grid = some grid ∧ decl.Resolves grid := by
  have hused : parts.layouts.any (·.name == decl.name) ↔
      decl.name ∈ parts.layouts.map (·.name) := by
    simp only [List.any_eq_true, beq_iff_eq, List.mem_map]
  have hfill : ∀ grid : Grid,
      (∃ layout, (Layout.blank decl.name grid.rows grid.cols).fill 0 decl.rows = .ok layout) ↔
        decl.Resolves grid := by
    intro grid
    rw [Layout.exists_fill_iff]
    simp only [Nat.zero_add]
    rfl
  unfold Parts.layout
  by_cases hname : decl.name ∈ parts.layouts.map (·.name)
  · rw [if_pos (hused.mpr hname)]
    exact ⟨fun ⟨_, h⟩ => (by cases h), fun h => absurd hname h.1⟩
  · rw [if_neg (mt hused.mp hname)]
    cases hgrid : parts.grid with
    | none => simp
    | some grid => simp [hname, hfill]

/-- A layout gets the size in force. -/
theorem hasShape_iff {parts : Parts} {decl : LayoutDecl} {layout : Layout}
    (h : parts.layout decl = .ok layout) (grid : Grid) :
    layout.HasShape grid ↔ parts.grid = some grid := by
  unfold Parts.layout at h
  split at h
  · cases h
  · split at h
    · cases h
    · rename_i found hfound
      obtain ⟨⟨_, hrows, hcols⟩, _⟩ := Layout.fill_ok h
      rw [hfound, Layout.HasShape, hrows, hcols]
      constructor
      · intro hshape
        obtain ⟨hrow, hcol⟩ : found.rows = grid.rows ∧ found.cols = grid.cols := hshape
        obtain ⟨rows, cols⟩ := found
        cases hrow
        cases hcol
        rfl
      · intro hsame
        cases hsame
        exact ⟨rfl, rfl⟩

variable {names : List String} (hreserved : externalName ∉ names)

include hreserved in
theorem exists_add_iff {front : List Item} {parts : Parts} (h : Describes names front parts)
    (item : Item) :
    (∃ next, parts.add names item = .ok next) ↔
      (∀ decl, item = .layout decl → decl.name ∉ (Source.layouts front).map (·.name)) ∧
        item.Resolves names front := by
  cases item with
  | size decl => exact ⟨fun _ => ⟨fun _ he => (by cases he), trivial⟩, fun _ => ⟨_, rfl⟩⟩
  | layout decl =>
    simp only [Parts.add, Item.Resolves, Item.layout.injEq, forall_eq']
    rw [exists_bind_iff, ← h.layoutNames, gridBehind?, ← h.grid, ← exists_layout_iff]
    constructor
    · intro h
      obtain ⟨layout, hlayout, _⟩ := h
      exact ⟨layout, hlayout⟩
    · intro h
      obtain ⟨layout, hlayout⟩ := h
      exact ⟨layout, hlayout, _, rfl⟩
  | state decl =>
    simp only [Parts.add, Item.Resolves]
    rw [exists_bind_iff, ← h.layoutNames]
    have hstate := @Scope.exists_state_iff ⟨names, parts.layouts⟩ hreserved decl
    rw [← hstate]
    constructor
    · intro h
      obtain ⟨state, hs, _⟩ := h
      exact ⟨fun _ he => (by cases he), state, hs⟩
    · intro h
      obtain ⟨_, state, hs⟩ := h
      exact ⟨state, hs, _, rfl⟩

include hreserved in
theorem exists_run_iff {items : List Item} :
    (∃ parts, items.foldlM (add names) .empty = .ok parts) ↔
      ((Source.layouts items).map (·.name)).Nodup ∧ InTurn (Item.Resolves names) items := by
  induction items using List.reverseRecOn with
  | nil => exact ⟨fun _ => ⟨List.nodup_nil, .nil⟩, fun _ => ⟨_, rfl⟩⟩
  | append_singleton front item ih =>
    constructor
    · intro h
      obtain ⟨next, hnext⟩ := h
      obtain ⟨parts, hparts, hadd⟩ := foldlM_concat_eq_ok_iff.mp hnext
      have hitem := (exists_add_iff hreserved (describes_of_foldlM hparts) item).mp ⟨next, hadd⟩
      have hfront := ih.mp ⟨parts, hparts⟩
      have hdescribes := describes_of_foldlM hnext
      refine ⟨?_, hfront.2.concat hitem.2⟩
      rw [← hdescribes.layoutNames]
      exact hdescribes.distinct
    · intro h
      obtain ⟨hnodup, hturn⟩ := h
      obtain ⟨hfront, hitem⟩ := InTurn.concat_iff.mp hturn
      rw [layouts_concat, List.map_append] at hnodup
      obtain ⟨hbefore, _, hfresh⟩ := List.nodup_append.mp hnodup
      obtain ⟨parts, hparts⟩ := ih.mpr ⟨hbefore, hfront⟩
      have hnew : ∀ decl, item = .layout decl →
          decl.name ∉ (Source.layouts front).map (·.name) := by
        intro decl hdecl hmem
        rw [hdecl] at hfresh
        exact hfresh _ hmem _ (List.mem_singleton_self _) rfl
      obtain ⟨next, hadd⟩ :=
        (exists_add_iff hreserved (describes_of_foldlM hparts) item).mpr ⟨hnew, hitem⟩
      exact ⟨next, foldlM_concat_eq_ok_iff.mpr ⟨parts, hparts, hadd⟩⟩

theorem shape_iff {items : List Item} {parts : Parts}
    (h : items.foldlM (add names) .empty = .ok parts) (grid : Grid) :
    (∀ layout ∈ parts.layouts, layout.HasShape grid) ↔ LayoutsIn grid items := by
  induction items using List.reverseRecOn generalizing parts with
  | nil =>
    cases h
    exact ⟨fun _ => .nil, fun _ _ hl => absurd hl List.not_mem_nil⟩
  | append_singleton front item ih =>
    obtain ⟨before, hbefore, hadd⟩ := foldlM_concat_eq_ok_iff.mp h
    have hfront := ih hbefore
    have hgrid := (describes_of_foldlM hbefore).grid
    unfold LayoutsIn at hfront ⊢
    rw [InTurn.concat_iff, ← hfront]
    cases item with
    | size decl =>
      cases hadd
      simp [Item.layout?]
    | layout decl =>
      obtain ⟨layout, hlayout, hnext⟩ := bind_eq_ok_iff.mp hadd
      cases hnext
      rw [List.forall_mem_append, List.forall_mem_singleton, hasShape_iff hlayout, hgrid]
      simp [Item.layout?, gridBehind?]
    | state decl =>
      obtain ⟨state, _, hnext⟩ := bind_eq_ok_iff.mp hadd
      cases hnext
      simp [Item.layout?]

/-- What is left to the tests of the assembly. -/
theorem consistent_iff {items : List Item} {parts : Parts}
    (hnames : stateNamesOf (Source.states items) = .ok names)
    (h : items.foldlM (add names) .empty = .ok parts) (grid : Grid) :
    Keyboard.Consistent grid parts.layouts parts.states ↔ LayoutsIn grid items := by
  obtain ⟨hdeclared, hdistinct, _⟩ := stateNamesOf_eq_ok_iff.mp hnames
  have hdescribes := describes_of_foldlM h
  have hstateNames : parts.states.map (·.name) = names := hdescribes.stateNames.trans hdeclared.symm
  rw [← shape_iff h grid]
  refine ⟨fun hc => hc.shape, fun hshape => ⟨hshape, hdescribes.distinct, ?_, ?_, ?_⟩⟩
  · rw [hstateNames]
    exact hdistinct
  · intro layout hl
    obtain ⟨decl, _, hbuilt⟩ := exists_of_forall₂ hdescribes.layouts hl
    exact hbuilt.admitsLayout _
  · intro state hs
    obtain ⟨decl, _, hbuilt⟩ := exists_of_forall₂ hdescribes.states hs
    rw [← hstateNames] at hbuilt
    have hadmits := @State.BuiltFrom.admitsState ⟨grid, parts.layouts, parts.states, 0⟩ _ _ hbuilt
    exact hadmits

end Parts

namespace Keyboard

/-- Declarations make up a keyboard exactly if everything in them can be resolved. -/
theorem exists_ofItems_iff_resolvable (items : List Item) :
    (∃ keyboard, ofItems items = .ok keyboard) ↔ Resolvable items := by
  constructor
  · intro h
    obtain ⟨keyboard, h⟩ := h
    obtain ⟨names, parts, grid, hnames, hparts, hgrid, hfound, _⟩ := parts_of_ofItems h
    obtain ⟨hdeclared, hdistinct, hreserved⟩ := stateNamesOf_eq_ok_iff.mp hnames
    obtain ⟨hlayoutNames, hturn⟩ := (Parts.exists_run_iff hreserved).mp ⟨parts, hparts⟩
    have hdescribes := Parts.describes_of_foldlM hparts
    obtain ⟨hconsistent, hmain⟩ := exists_assemble_iff.mp ⟨keyboard, hfound⟩
    rw [hdescribes.stateNames] at hmain
    rw [hdescribes.grid] at hgrid
    subst hdeclared
    exact ⟨hdistinct, hreserved, hlayoutNames, hturn,
      ⟨grid, hgrid, (Parts.consistent_iff hnames hparts grid).mp hconsistent⟩, hmain⟩
  · intro h
    obtain ⟨grid, hgrid, hsize⟩ := h.size
    have hnames := stateNamesOf_eq_ok_iff.mpr ⟨rfl, h.stateNames, h.reserved⟩
    obtain ⟨parts, hparts⟩ := (Parts.exists_run_iff h.reserved).mpr ⟨h.layoutNames, h.inTurn⟩
    have hdescribes := Parts.describes_of_foldlM hparts
    have hconsistent := (Parts.consistent_iff hnames hparts grid).mpr hsize
    have hmain := h.main
    rw [← hdescribes.stateNames] at hmain
    obtain ⟨keyboard, hkeyboard⟩ := exists_assemble_iff.mpr ⟨hconsistent, hmain⟩
    have hfound : parts.keyboard = .ok keyboard := by
      have hinForce : parts.grid = some grid := hdescribes.grid.trans hgrid
      simp only [Parts.keyboard, hinForce, hkeyboard]
    exact exists_bind_iff.mpr ⟨_, hnames, exists_bind_iff.mpr ⟨parts, hparts, keyboard, hfound⟩⟩

end Keyboard

end KeyGrid
