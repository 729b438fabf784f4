import KeyGrid.Engine.Basic
import KeyGrid.Proofs.Resolvable

/-!
# Parts that fit and tables of their names

What it takes for parts to fit is said here of the layers, mode changes and placeholders that
they hold: just such parts make up a keyboard. A keyboard looks a name up by searching for it.
Tables that the names are entered in, one after the other with their positions, give the same
answers, and whoever builds them refuses the same parts on the same grounds.
-/

namespace KeyGrid

/-! ### What parts hold -/

namespace Keyboard

/-- A mode change in a slot of a state or put directly into a cell. -/
inductive Holds (layouts : List Layout) (states : List State) : MetaKey → Prop
  | slot {state : State} (hs : state ∈ states) {slot : Nat} {change : MetaKey}
      (h : state.metaKey? slot = some change) : Holds layouts states change
  | cell {layout : Layout} (hl : layout ∈ layouts) {row col : Nat} {change : MetaKey}
      (h : layout.get? row col = some (.direct change)) : Holds layouts states change

/-- A layer in one of the lists of a state or in a dead key. -/
inductive Uses (layouts : List Layout) (states : List State) : Layer → Prop
  | list {state : State} (hs : state ∈ states) (swipe : Swipe) {layer : Layer}
      (h : layer ∈ state.layers swipe) : Uses layouts states layer
  | dead {label : String} {layers : List Layer} (hc : Holds layouts states (.dead label layers))
      {layer : Layer} (h : layer ∈ layers) : Uses layouts states layer

/-- What the parts of a keyboard have to be like. -/
structure Fitting (grid : Grid) (layouts : List Layout) (states : List State) : Prop where
  shape : ∀ layout ∈ layouts, layout.rows = grid.rows ∧ layout.cols = grid.cols
  layoutNames : (layouts.map (·.name)).Nodup
  stateNames : (states.map (·.name)).Nodup
  main : ∃ state ∈ states, state.name = "main"
  layers : ∀ layer, Uses layouts states layer → layer.layout < layouts.length
  placeholders : ∀ layout ∈ layouts, ∀ row col slot,
    layout.get? row col = some (.placeholder slot) → slot < 4
  targets : ∀ label index latched,
    Holds layouts states (.switch label (.state index) latched) → index < states.length
  external : ∀ label latched,
    Holds layouts states (.switch label .external latched) → latched = false

end Keyboard

namespace Extent

variable {extent : Extent}

theorem admitsMetaKey_iff {change : MetaKey} :
    extent.admitsMetaKey change ↔
      (∀ label layers, change = .dead label layers →
        ∀ layer ∈ layers, layer.layout < extent.layouts) ∧
      (∀ label index latched, change = .switch label (.state index) latched →
        index < extent.states) ∧
      ∀ label latched, change = .switch label .external latched → latched = false := by
  cases change with
  | dead label layers => simp [admitsMetaKey_dead]
  | switch label target latched =>
    cases target with
    | state index => simp [admitsMetaKey_state]
    | external => simp [admitsMetaKey]

end Extent

namespace Keyboard

variable {grid : Grid} {layouts : List Layout} {states : List State}

theorem Consistent.admits_of_holds (h : Consistent grid layouts states) {change : MetaKey}
    (hc : Holds layouts states change) :
    Extent.admitsMetaKey ⟨layouts.length, states.length⟩ change := by
  cases hc with
  | slot hs hslot =>
    have hstate := (Extent.admitsState_iff _ _).mp (h.admitsStates _ hs)
    exact hstate.2 change (State.mem_metaKeys_of_metaKey? hslot)
  | cell hl hcell => exact (Extent.admitsLayout_iff _ _).mp (h.admitsLayouts _ hl) _ _ _ hcell

theorem Fitting.admits_of_holds (h : Fitting grid layouts states) {change : MetaKey}
    (hc : Holds layouts states change) :
    Extent.admitsMetaKey ⟨layouts.length, states.length⟩ change := by
  refine Extent.admitsMetaKey_iff.mpr ⟨?_, ?_, ?_⟩
  · rintro label layers rfl layer hlayer
    exact h.layers layer (.dead hc hlayer)
  · rintro label index latched rfl
    exact h.targets label index latched hc
  · rintro label latched rfl
    exact h.external label latched hc

theorem Fitting.consistent (h : Fitting grid layouts states) :
    Consistent grid layouts states := by
  refine ⟨h.shape, h.layoutNames, h.stateNames, ?_, ?_⟩
  · intro layout hl
    refine (Extent.admitsLayout_iff _ _).mpr ?_
    intro row col key hkey
    cases key with
    | text key => rfl
    | device action => rfl
    | direct change => exact h.admits_of_holds (.cell hl hkey)
    | placeholder slot => exact decide_eq_true (h.placeholders layout hl row col slot hkey)
  · intro state hs
    refine (Extent.admitsState_iff _ _).mpr ⟨?_, ?_⟩
    · intro swipe layer hlayer
      exact h.layers layer (.list hs swipe hlayer)
    · intro change hchange
      obtain ⟨slot, hslot⟩ := State.exists_metaKey?_of_mem_metaKeys hchange
      exact h.admits_of_holds (.slot hs hslot)

theorem Consistent.fitting (h : Consistent grid layouts states)
    (hmain : mainName ∈ states.map (·.name)) : Fitting grid layouts states where
  shape := h.shape
  layoutNames := h.layoutNames
  stateNames := h.stateNames
  main := List.mem_map.mp hmain
  layers layer hu := by
    cases hu with
    | list hs swipe hlayer =>
      exact ((Extent.admitsState_iff _ _).mp (h.admitsStates _ hs)).1 swipe layer hlayer
    | dead hc hlayer =>
      exact (Extent.admitsMetaKey_iff.mp (h.admits_of_holds hc)).1 _ _ rfl layer hlayer
  placeholders layout hl row col slot hcell :=
    of_decide_eq_true ((Extent.admitsLayout_iff _ _).mp (h.admitsLayouts layout hl) row col _ hcell)
  targets label index latched hc :=
    (Extent.admitsMetaKey_iff.mp (h.admits_of_holds hc)).2.1 label index latched rfl
  external label latched hc :=
    (Extent.admitsMetaKey_iff.mp (h.admits_of_holds hc)).2.2 label latched rfl

theorem exists_assemble_iff_fitting :
    (∃ keyboard, assemble grid layouts states = .ok keyboard) ↔ Fitting grid layouts states := by
  rw [exists_assemble_iff]
  constructor
  · rintro ⟨h, hmain⟩
    exact h.fitting hmain
  · intro h
    exact ⟨h.consistent, List.mem_map.mpr h.main⟩

end Keyboard

/-! ### Tables of names -/

abbrev Table := Std.HashMap String Nat

section

variable {α : Type} (fault? : α → Option AssemblyFault) (name : α → String)
  (duplicate : String → AssemblyFault)

/-- Enters the names of parts in a table, each with its position. A part is refused for a
fault of its own, or because its name stands there already. -/
def enter (position : Nat) (table : Table) : List α → Except AssemblyFault Table
  | [] => .ok table
  | part :: others =>
    match fault? part with
    | some fault => .error fault
    | none =>
      if name part ∈ table then .error (duplicate (name part))
      else enter (position + 1) (table.insert (name part) position) others

/-- The table has what a search finds among the parts entered. -/
def Tabulates (entered : List α) (table : Table) : Prop :=
  ∀ wanted, table[wanted]? = entered.findIdx? (name · == wanted)

variable {fault? name duplicate} {front back : List α} {table : Table}

theorem tabulates_nil : Tabulates name [] ∅ := by
  intro wanted
  rw [Std.HashMap.getElem?_empty]
  rfl

theorem Tabulates.mem_iff (h : Tabulates name front table) (wanted : String) :
    wanted ∈ table ↔ wanted ∈ front.map name := by
  rw [Std.HashMap.mem_iff_isSome_getElem?, h wanted, Option.isSome_iff_ne_none, ne_eq,
    findIdx?_name_eq_none_iff, Decidable.not_not]

theorem Tabulates.insert (h : Tabulates name front table) {part : α}
    (hfresh : name part ∉ table) :
    Tabulates name (front ++ [part]) (table.insert (name part) front.length) := by
  intro wanted
  rw [Std.HashMap.getElem?_insert, List.findIdx?_append, List.findIdx?_singleton]
  by_cases hname : name part = wanted
  · have hnone : front.findIdx? (name · == wanted) = none := by
      rw [findIdx?_name_eq_none_iff, ← h.mem_iff, ← hname]
      exact hfresh
    rw [hnone]
    simp [hname]
  · simp [hname, h wanted]

/-- Building a table refuses what a search for faults finds, and otherwise tabulates all. The
names in front are those that the search has gone past. -/
theorem enter_cases {faults : List String → List α → Option AssemblyFault}
    (hnil : ∀ earlier, faults earlier [] = none)
    (hcons : ∀ earlier part others, faults earlier (part :: others) =
      match fault? part with
      | some fault => some fault
      | none =>
        if name part ∈ earlier then some (duplicate (name part))
        else faults (name part :: earlier) others)
    {earlier : List String} (ht : Tabulates name front table)
    (he : ∀ wanted, wanted ∈ earlier ↔ wanted ∈ front.map name) :
    (∃ fault, faults earlier back = some fault ∧
      enter fault? name duplicate front.length table back = .error fault) ∨
    ∃ final, faults earlier back = none ∧
      enter fault? name duplicate front.length table back = .ok final ∧
        Tabulates name (front ++ back) final := by
  induction back generalizing front table earlier with
  | nil =>
    rw [List.append_nil]
    exact Or.inr ⟨table, hnil earlier, rfl, ht⟩
  | cons part others ih =>
    rw [hcons, enter]
    cases hf : fault? part with
    | some fault => exact Or.inl ⟨fault, rfl, rfl⟩
    | none =>
      have hsame : name part ∈ table ↔ name part ∈ earlier := by rw [ht.mem_iff, he]
      by_cases hused : name part ∈ table
      · simp only [if_pos hused, if_pos (hsame.mp hused)]
        exact Or.inl ⟨_, rfl, rfl⟩
      · have hnames : ∀ wanted, wanted ∈ name part :: earlier ↔
            wanted ∈ (front ++ [part]).map name := by
          intro wanted
          rw [List.mem_cons, he, List.map_append, List.mem_append, List.map_singleton,
            List.mem_singleton, or_comm]
        have hrest := ih (ht.insert hused) hnames
        rw [List.length_append, List.append_assoc] at hrest
        simp only [if_neg hused, if_neg (fun h => hused (hsame.mpr h))]
        exact hrest

end

/-! ### Keyboards with tables -/

/-- A keyboard together with the tables of its layouts and its states. -/
structure Indexed where
  keyboard : Keyboard
  layouts : Table
  states : Table

namespace Indexed

def shapeFault? (grid : Grid) (layout : Layout) : Option AssemblyFault :=
  if layout.rows ≠ grid.rows ∨ layout.cols ≠ grid.cols then
    some (.shape layout.name ⟨layout.rows, layout.cols⟩ grid)
  else none

/-- Puts a keyboard together by building the tables first. -/
def assemble (grid : Grid) (layouts : List Layout) (states : List State) :
    Except AssemblyFault Indexed := do
  let layoutTable ← enter (shapeFault? grid) (·.name) .duplicateLayout 0 ∅ layouts
  let stateTable ← enter (fun _ => none) (·.name) .duplicateState 0 ∅ states
  match stateTable[Keyboard.mainName]? with
  | none => .error .missingMain
  | some main =>
    match Keyboard.referenceFault? layouts states with
    | some fault => .error fault
    | none => .ok ⟨⟨grid, layouts, states, main⟩, layoutTable, stateTable⟩

variable {grid : Grid} {layouts : List Layout} {states : List State}

theorem enter_layouts_cases (grid : Grid) (layouts : List Layout) :
    (∃ fault, Keyboard.layoutFault? grid [] layouts = some fault ∧
      enter (shapeFault? grid) (·.name) .duplicateLayout 0 ∅ layouts = .error fault) ∨
    ∃ table, Keyboard.layoutFault? grid [] layouts = none ∧
      enter (shapeFault? grid) (·.name) .duplicateLayout 0 ∅ layouts = .ok table ∧
        Tabulates (·.name) layouts table := by
  refine enter_cases (fun _ => rfl) ?_ tabulates_nil (fun _ => Iff.rfl)
  intro earlier layout others
  rw [Keyboard.layoutFault?, shapeFault?]
  split <;> rfl

theorem enter_states_cases (states : List State) :
    (∃ fault, Keyboard.stateFault? [] states = some fault ∧
      enter (fun _ => none) (·.name) .duplicateState 0 ∅ states = .error fault) ∨
    ∃ table, Keyboard.stateFault? [] states = none ∧
      enter (fun _ => none) (·.name) .duplicateState 0 ∅ states = .ok table ∧
        Tabulates (·.name) states table :=
  enter_cases (fun _ => rfl) (fun _ _ _ => rfl) tabulates_nil (fun _ => Iff.rfl)

/-- Building tables and searching come to the same keyboard or to the same fault. -/
theorem assemble_cases (grid : Grid) (layouts : List Layout) (states : List State) :
    (∃ fault, Keyboard.assemble grid layouts states = .error fault ∧
      assemble grid layouts states = .error fault) ∨
    ∃ indexed, Keyboard.assemble grid layouts states = .ok indexed.keyboard ∧
      assemble grid layouts states = .ok indexed ∧
        Tabulates (·.name) layouts indexed.layouts ∧
          Tabulates (·.name) states indexed.states := by
  unfold Keyboard.assemble assemble
  rcases enter_layouts_cases grid layouts with ⟨fault, hf, he⟩ | ⟨layoutTable, hf, he, hlayouts⟩
  · rw [hf, he]
    exact Or.inl ⟨fault, rfl, rfl⟩
  · rw [hf, he]
    rcases enter_states_cases states with ⟨fault, hf, he⟩ | ⟨stateTable, hf, he, hstates⟩
    · rw [hf, he]
      exact Or.inl ⟨fault, rfl, rfl⟩
    · rw [hf, he]
      simp only [bind, Except.bind, hstates Keyboard.mainName]
      cases states.findIdx? (·.name == Keyboard.mainName) with
      | none => exact Or.inl ⟨_, rfl, rfl⟩
      | some main =>
        cases Keyboard.referenceFault? layouts states with
        | some fault => exact Or.inl ⟨fault, rfl, rfl⟩
        | none => exact Or.inr ⟨_, rfl, rfl, hlayouts, hstates⟩

end Indexed

/-- Exactly the parts that fit make up a keyboard. It keeps them as they are and in order, it
finds every layout and every state by its name and nothing by any other, and it starts in the
state `main`. Tables of the names that are built on the way have what the keyboard finds. -/
theorem assembles_exactly_fitting (grid : Grid) (layouts : List Layout) (states : List State) :
    ((∃ keyboard, Keyboard.assemble grid layouts states = .ok keyboard) ↔
      Keyboard.Fitting grid layouts states) ∧
    ∀ keyboard, Keyboard.assemble grid layouts states = .ok keyboard →
      (keyboard.grid = grid ∧ keyboard.layouts = layouts ∧ keyboard.states = states) ∧
      (∀ name index, keyboard.layoutIndex? name = some index ↔
        ∃ layout, layouts[index]? = some layout ∧ layout.name = name) ∧
      (∀ name index, keyboard.stateIndex? name = some index ↔
        ∃ state, states[index]? = some state ∧ state.name = name) ∧
      (Engine.start keyboard).stateName = "main" ∧
      ∃ indexed, Indexed.assemble grid layouts states = .ok indexed ∧
        indexed.keyboard = keyboard ∧
        (∀ name, indexed.layouts[name]? = keyboard.layoutIndex? name) ∧
        ∀ name, indexed.states[name]? = keyboard.stateIndex? name := by
  refine ⟨Keyboard.exists_assemble_iff_fitting, ?_⟩
  intro keyboard hk
  have hfits := Keyboard.exists_assemble_iff_fitting.mp ⟨keyboard, hk⟩
  obtain ⟨_, _, hmain, _, hkeyboard⟩ := Keyboard.assemble_ok hk
  have hlayouts : keyboard.layouts = layouts := by rw [hkeyboard]
  have hstates : keyboard.states = states := by rw [hkeyboard]
  refine ⟨⟨by rw [hkeyboard], hlayouts, hstates⟩, ?_, ?_, ?_, ?_⟩
  · intro name index
    rw [Keyboard.layoutIndex?, hlayouts]
    exact findIdx?_name_eq_some_iff hfits.layoutNames
  · intro name index
    rw [Keyboard.stateIndex?, hstates]
    exact findIdx?_name_eq_some_iff hfits.stateNames
  · obtain ⟨state, hstate, hname⟩ := getElem?_of_findIdx?_name hmain
    have hstart : (Engine.start keyboard).state? = some state := by
      show keyboard.states[keyboard.main]? = some state
      rw [hstates, hstate]
    rw [Engine.stateName, hstart]
    exact hname
  · rcases Indexed.assemble_cases grid layouts states with
      ⟨fault, hfault, _⟩ | ⟨indexed, hsame, hindexed, hlayoutTable, hstateTable⟩
    · rw [hk] at hfault
      cases hfault
    · rw [hk] at hsame
      refine ⟨indexed, hindexed, (Except.ok.inj hsame).symm, ?_, ?_⟩
      · intro name
        rw [Keyboard.layoutIndex?, hlayouts]
        exact hlayoutTable name
      · intro name
        rw [Keyboard.stateIndex?, hstates]
        exact hstateTable name

theorem deadKey_assembles :
    Keyboard.assemble deadKeyKeyboard.grid deadKeyKeyboard.layouts deadKeyKeyboard.states =
        .ok deadKeyKeyboard ∧
      Keyboard.Fitting deadKeyKeyboard.grid deadKeyKeyboard.layouts deadKeyKeyboard.states ∧
      deadKeyKeyboard.layoutIndex? "base" = some 0 ∧
      (Engine.start deadKeyKeyboard).stateName = "main" ∧
      ∃ indexed, Indexed.assemble deadKeyKeyboard.grid deadKeyKeyboard.layouts
          deadKeyKeyboard.states = .ok indexed ∧
        indexed.layouts["base"]? = some 0 ∧ indexed.states["base"]? = none := by
  have hk : Keyboard.assemble deadKeyKeyboard.grid deadKeyKeyboard.layouts
      deadKeyKeyboard.states = .ok deadKeyKeyboard := rfl
  obtain ⟨hfits, hkeyboard⟩ := assembles_exactly_fitting deadKeyKeyboard.grid
    deadKeyKeyboard.layouts deadKeyKeyboard.states
  obtain ⟨_, hlayouts, _, hmain, indexed, hindexed, _, htable, hstates⟩ := hkeyboard _ hk
  have hbase : deadKeyKeyboard.layoutIndex? "base" = some 0 :=
    (hlayouts "base" 0).mpr ⟨_, rfl, rfl⟩
  exact ⟨hk, hfits.mp ⟨_, hk⟩, hbase, hmain, indexed, hindexed, (htable "base").trans hbase,
    (hstates "base").trans (by decide)⟩

end KeyGrid
