import KeyGrid.Proofs.Blamed
import KeyGrid.Proofs.Resolvable

/-!
# Keyboards of layout files

The tests of the assembly are for parts that are put together by hand. The parts of a layout
file have passed all of them before: its one size stands above its layouts, names are used
once and references were looked up. Only a state to start in may still be missing.
-/

namespace KeyGrid

open Source

/-! ### Errors before the assembly -/

/-- Whatever is wrong with a declaration is wrong on some line. -/
def LoadError.HasLine (e : LoadError) : Prop := e.line?.isSome

theorem slotOf_error_hasLine {digits : String} {line : Nat} {e : LoadError}
    (h : slotOf digits line = .error e) : e.HasLine := by
  unfold slotOf at h
  split at h
  · cases h
  · cases h
    rfl

theorem key?_error_hasLine {written : CellDecl} {e : LoadError} (h : written.key? = .error e) :
    e.HasLine := by
  unfold CellDecl.key? at h
  split at h
  · cases h
  · cases h
  · rcases keyOfCode_error (map_eq_error_iff.mp h) with ⟨rfl, _⟩ | ⟨digits, _, hslot⟩
    · rfl
    · exact slotOf_error_hasLine hslot

theorem Parts.layout_error_hasLine {parts : Parts} {decl : LayoutDecl} {e : LoadError}
    (h : parts.layout decl = .error e) : e.HasLine := by
  unfold Parts.layout at h
  split at h
  · cases h
    rfl
  · split at h
    · cases h
      rfl
    · obtain ⟨_, _, written, _, hfails⟩ := Layout.fill_error h
      rcases hfails with hkey | ⟨fault, rfl⟩
      · exact key?_error_hasLine hkey
      · rfl

namespace Scope

variable {scope : Scope} {e : LoadError}

theorem layers_error_hasLine {refs : List LayerRef} (h : scope.layers refs = .error e) :
    e.HasLine := by
  obtain ⟨ref, _, hfails⟩ := mapM_eq_error h
  obtain ⟨rfl, _⟩ := layer_error hfails
  rfl

theorem target_error_hasLine {name : String} {line : Nat}
    (h : scope.target name line = .error e) : e.HasLine := by
  obtain ⟨rfl, _⟩ := target_error h
  rfl

theorem metaKey_error_hasLine {label : String} {change : MetaDecl} {line : Nat}
    (h : scope.metaKey label change line = .error e) : e.HasLine := by
  cases change with
  | dead refs => exact layers_error_hasLine (map_eq_error_iff.mp h)
  | state name => exact target_error_hasLine (map_eq_error_iff.mp h)
  | deadLatch name =>
    rw [metaKey_deadLatch] at h
    split at h
    · cases h
      rfl
    · exact target_error_hasLine (map_eq_error_iff.mp h)

theorem addEntry_error_hasLine {state : State} {entry : Entry}
    (h : scope.addEntry state entry = .error e) : e.HasLine := by
  cases entry with
  | layers swipe refs line => exact layers_error_hasLine (map_eq_error_iff.mp h)
  | slot digits label change line =>
    rcases bind_eq_error_iff.mp h with h | ⟨slot, _, h⟩
    · exact slotOf_error_hasLine h
    · rcases bind_eq_error_iff.mp h with h | ⟨key, _, h⟩
      · exact metaKey_error_hasLine h
      · cases h

end Scope

theorem Parts.add_error_hasLine {names : List String} {parts : Parts} {item : Item}
    {e : LoadError} (h : parts.add names item = .error e) : e.HasLine := by
  cases item with
  | size decl => cases h
  | layout decl =>
    rcases bind_eq_error_iff.mp h with h | ⟨layout, _, h⟩
    · exact Parts.layout_error_hasLine h
    · cases h
  | state decl =>
    rcases bind_eq_error_iff.mp h with h | ⟨state, _, h⟩
    · obtain ⟨_, entry, _, _, _, _, hentry⟩ := foldlM_eq_error h
      exact Scope.addEntry_error_hasLine hentry
    · cases h

theorem stateNamesOf_error_hasLine {decls : List StateDecl} {e : LoadError}
    (h : stateNamesOf decls = .error e) : e.HasLine := by
  obtain ⟨_, decl, _, _, _, _, hdecl⟩ := foldlM_eq_error h
  unfold addStateName at hdecl
  split at hdecl
  · cases hdecl
    rfl
  · split at hdecl
    · cases hdecl
      rfl
    · cases hdecl

/-- A fault of the assembly is one of parts that have been made up. -/
theorem Keyboard.assembly_of_ofItems {items : List Item} {fault : AssemblyFault}
    (h : ofItems items = .error (.assembly fault)) :
    ∃ names parts grid, stateNamesOf (Source.states items) = .ok names ∧
      items.foldlM (Parts.add names) .empty = .ok parts ∧ parts.grid = some grid ∧
      assemble grid parts.layouts parts.states = .error fault := by
  rcases bind_eq_error_iff.mp h with h | ⟨names, hnames, h⟩
  · cases stateNamesOf_error_hasLine h
  · rcases bind_eq_error_iff.mp h with h | ⟨parts, hparts, h⟩
    · obtain ⟨_, item, _, _, _, _, hitem⟩ := foldlM_eq_error h
      cases Parts.add_error_hasLine hitem
    · unfold Parts.keyboard at h
      split at h
      · cases h
      · rename_i grid hgrid
        split at h
        · cases h
        · rename_i found hfound
          cases h
          exact ⟨names, parts, grid, hnames, hparts, hgrid, hfound⟩

/-! ### Layout files -/

/-- No size stands behind a layout, so that all layouts have the last one. -/
theorem layoutsIn_of_arranged {items : List Item} (h : Arranged items) {grid : Grid}
    (hg : gridBehind? items = some grid) : LayoutsIn grid items := by
  intro front item back heq hlayout
  cases item with
  | size decl => cases hlayout
  | layout decl =>
    rw [← (h.gridBehind? heq).2]
    exact hg
  | state decl => cases hlayout

theorem consistent_of_arranged {items : List Item} (h : Arranged items) {names : List String}
    {parts : Parts} {grid : Grid} (hnames : stateNamesOf (states items) = .ok names)
    (hparts : items.foldlM (Parts.add names) .empty = .ok parts) (hgrid : parts.grid = some grid) :
    Keyboard.Consistent grid parts.layouts parts.states := by
  rw [Parts.consistent_iff hnames hparts]
  apply layoutsIn_of_arranged h
  exact (Parts.describes_of_foldlM hparts).grid.symm.trans hgrid

namespace Keyboard

/-- What holds of the keyboard of any layout file. -/
structure Regular (keyboard : Keyboard) : Prop where
  rows : 1 ≤ keyboard.rows ∧ keyboard.rows ≤ maxDimension
  cols : 1 ≤ keyboard.cols ∧ keyboard.cols ≤ maxDimension
  shape : ∀ layout ∈ keyboard.layouts, layout.HasShape keyboard.grid
  layoutNames : keyboard.layoutNames.Nodup
  stateNames : keyboard.stateNames.Nodup
  reserved : externalName ∉ keyboard.stateNames
  direct : ∀ layout ∈ keyboard.layouts, ∀ row col change,
    layout.get? row col = some (.direct change) → change = externalKey

theorem regular_of_ofItems {items : List Item} (harranged : Arranged items)
    {keyboard : Keyboard} (h : ofItems items = .ok keyboard) : keyboard.Regular := by
  have hbuilt := ofItems_ok h
  have hresolvable := (exists_ofItems_iff_resolvable items).mp ⟨keyboard, h⟩
  have hconsistent := hbuilt.assembled.consistent
  obtain ⟨size, hsize, hgrid⟩ := List.mem_filterMap.mp (List.mem_of_getLast? hbuilt.grid)
  obtain ⟨front, back, heq⟩ := List.append_of_mem hsize
  have hallowed := harranged front size back heq
  cases size with
  | layout decl => cases hgrid
  | state decl => cases hgrid
  | size decl =>
    have hdecl : decl.grid = keyboard.grid := Option.some.inj hgrid
    obtain ⟨⟨hrows, hcols⟩, _⟩ := hallowed
    rw [hdecl] at hrows hcols
    refine ⟨hrows, hcols, hconsistent.shape, hbuilt.distinctLayouts, hbuilt.distinctStates, ?_, ?_⟩
    · rw [hbuilt.stateNames]
      exact hresolvable.reserved
    · intro layout hl row col change hkey
      obtain ⟨decl, _, hlayout⟩ := exists_of_forall₂ hbuilt.layouts hl
      rw [hlayout.get? row col] at hkey
      exact LayoutDecl.meaning?_direct hkey

end Keyboard

/-- Once a layout file has been read and its names are looked up, its parts fit together; all
they can lack is the state to start in. What they make up is regular. -/
theorem ofSource_regular (text : String) :
    (∀ items names parts grid,
      declarations (Keyboard.withoutMark text) = .ok items →
      stateNamesOf (states items) = .ok names →
      items.foldlM (Parts.add names) .empty = .ok parts → parts.grid = some grid →
      ∀ fault, Keyboard.assemble grid parts.layouts parts.states = .error fault ↔
        fault = .missingMain ∧ Keyboard.mainName ∉ names) ∧
    (∀ fault, Keyboard.ofSource text = .error (.assembly fault) → fault = .missingMain) ∧
    ∀ keyboard, Keyboard.ofSource text = .ok keyboard → keyboard.Regular := by
  have hassembly : ∀ items names parts grid,
      declarations (Keyboard.withoutMark text) = .ok items →
      stateNamesOf (states items) = .ok names →
      items.foldlM (Parts.add names) .empty = .ok parts → parts.grid = some grid →
      ∀ fault, Keyboard.assemble grid parts.layouts parts.states = .error fault ↔
        fault = .missingMain ∧ Keyboard.mainName ∉ names := by
    intro items names parts grid hread hnames hparts hgrid fault
    have harranged := (declarations_found hread).arranged
    have hconsistent := consistent_of_arranged harranged hnames hparts hgrid
    have hdeclared := (stateNamesOf_eq_ok_iff.mp hnames).1
    rw [hconsistent.assemble_eq_error_iff, (Parts.describes_of_foldlM hparts).stateNames,
      hdeclared]
  refine ⟨hassembly, ?_, ?_⟩
  · intro fault h
    rcases bind_eq_error_iff.mp h with h | ⟨items, hread, h⟩
    · obtain ⟨line, _, hsyntactic⟩ := declarations_error h
      cases hsyntactic
    · obtain ⟨names, parts, grid, hnames, hparts, hgrid, hfails⟩ := Keyboard.assembly_of_ofItems h
      exact ((hassembly items names parts grid hread hnames hparts hgrid fault).mp hfails).1
  · intro keyboard h
    obtain ⟨items, hread, hitems⟩ := bind_eq_ok_iff.mp h
    exact Keyboard.regular_of_ofItems (declarations_found hread).arranged hitems

/-- Everything is declared but the state to start in. -/
def mainlessSource : String :=
  "size 2 2\nlayout base \x7b\nCHANGE S3\n\x7d\nstate other \x7b\n  layout base\n" ++
    "  S3 kb state CHANGE\n\x7d\n"

theorem mainless_missing :
    Keyboard.ofSource mainlessSource = .error (.assembly .missingMain) ∧
      (∃ items names, declarations (Keyboard.withoutMark mainlessSource) = .ok items ∧
        stateNamesOf (states items) = .ok names ∧ Keyboard.mainName ∉ names) ∧
      deadKeyKeyboard.Regular := by
  have h : Keyboard.ofSource mainlessSource = .error (.assembly .missingMain) := by
    decide +kernel
  refine ⟨h, ?_, ?_⟩
  · rcases bind_eq_error_iff.mp h with h | ⟨items, hread, h⟩
    · obtain ⟨_, _, hsyntactic⟩ := declarations_error h
      cases hsyntactic
    · obtain ⟨names, parts, grid, hnames, hparts, hgrid, hfails⟩ := Keyboard.assembly_of_ofItems h
      have hassembly := (ofSource_regular mainlessSource).1 items names parts grid hread hnames
        hparts hgrid .missingMain
      exact ⟨items, names, hread, hnames, (hassembly.mp hfails).2⟩
  · exact (ofSource_regular deadKeySource).2.2 deadKeyKeyboard ofSource_deadKeySource

end KeyGrid
