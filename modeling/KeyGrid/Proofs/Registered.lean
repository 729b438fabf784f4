import KeyGrid.Keyboard.Registered
import KeyGrid.Proofs.Accepted
import KeyGrid.Proofs.Compiled
import KeyGrid.Proofs.StrictAccess

/-!
# Names in registers

A register holds the position of every name that has been entered, so looking a name up there
comes to the same as searching the parts for it, at every declaration. As long as there is a
number for every position, what a machine makes of declarations is therefore the keyboard of
the total definitions, and it stops at nothing; with more positions it makes another one.
-/

namespace KeyGrid

open Source

/-! ### Runs side by side -/

/-- Both runs succeed, with results that go together, or both fail, with the same error. -/
inductive Alike {α β : Type} (goes : α → β → Prop) : Except Stop α → Except LoadError β → Prop
  | ok {a : α} {b : β} (h : goes a b) : Alike goes (.ok a) (.ok b)
  | refused (e : LoadError) : Alike goes (.error (.refused e)) (.error e)

namespace Alike

variable {α β γ δ : Type} {goes : α → β → Prop} {next : γ → δ → Prop}

theorem mapError (x : Except LoadError α) : Alike Eq (x.mapError .refused) x := by
  cases x with
  | error e => exact .refused e
  | ok a => exact .ok rfl

theorem eq_mapError {x : Except Stop α} {y : Except LoadError α} (h : Alike Eq x y) :
    x = y.mapError .refused := by
  cases h with
  | ok h => exact congrArg Except.ok h
  | refused e => rfl

theorem of_ok {a : α} {y : Except LoadError β} (h : Alike goes (.ok a) y) :
    ∃ b, y = .ok b ∧ goes a b := by
  cases h with
  | ok h => exact ⟨_, rfl, h⟩

theorem bind {x : Except Stop α} {y : Except LoadError β} {f : α → Except Stop γ}
    {g : β → Except LoadError δ} (h : Alike goes x y)
    (hf : ∀ a b, goes a b → Alike next (f a) (g b)) : Alike next (x >>= f) (y >>= g) := by
  cases h with
  | ok h => exact hf _ _ h
  | refused e => exact .refused e

theorem imp {x : Except Stop α} {y : Except LoadError β} {wider : α → β → Prop}
    (h : Alike goes x y) (hw : ∀ a b, goes a b → wider a b) : Alike wider x y := by
  cases h with
  | ok h => exact .ok (hw _ _ h)
  | refused e => exact .refused e

theorem and {P : α → Prop} {x : Except Stop α} {y : Except LoadError β} (h : Alike goes x y)
    (hp : ∀ a, x = .ok a → P a) : Alike (fun a b => goes a b ∧ P a) x y := by
  cases h with
  | ok h => exact .ok ⟨h, hp _ rfl⟩
  | refused e => exact .refused e

theorem foldlM {f : α → γ → Except Stop α} {g : β → γ → Except LoadError β} {xs : List γ}
    (hstep : ∀ x ∈ xs, ∀ a b, goes a b → Alike goes (f a x) (g b x)) {a : α} {b : β}
    (h : goes a b) : Alike goes (xs.foldlM f a) (xs.foldlM g b) := by
  induction xs generalizing a b with
  | nil => exact .ok h
  | cons x xs ih =>
    rw [List.foldlM_cons, List.foldlM_cons]
    refine (hstep x (List.mem_cons_self ..) a b h).bind fun a' b' h' => ?_
    exact ih (fun y hy => hstep y (List.mem_cons_of_mem _ hy)) h'

end Alike

/-! ### Registers -/

/-- The register holds the position of every name, and nothing else. -/
structure Register.Holds (register : Register) (names : List String) : Prop where
  size : register.size = names.length
  number? : ∀ name, register.number? name = names.findIdx? (· == name)

namespace Register.Holds

theorem empty : Register.empty.Holds [] := ⟨rfl, fun _ => rfl⟩

variable {register : Register} {names : List String} (h : register.Holds names)
include h

theorem isSome_number?_iff (name : String) :
    (register.number? name).isSome ↔ name ∈ names := by
  rw [h.number?, List.findIdx?_isSome]
  simp

/-- A new name gets the number of those before it. -/
theorem enter {name : String} (hnew : name ∉ names) {number : Nat}
    (hnumber : number = names.length) :
    (register.enter name number).Holds (names ++ [name]) := by
  subst hnumber
  refine ⟨?_, ?_⟩
  · rw [List.length_append, ← h.size]
    rfl
  · intro other
    rw [List.findIdx?_append]
    show List.lookup other ((name, names.length) :: register.entries) = _
    by_cases hsame : other = name
    · subst hsame
      have hnone : names.findIdx? (· == other) = none := by
        rw [← h.number?, ← Option.not_isSome_iff_eq_none, h.isSome_number?_iff]
        exact hnew
      simp [hnone]
    · have hother : (other == name) = false := beq_eq_false_iff_ne.mpr hsame
      have hlast : [name].findIdx? (· == other) = none := by
        simp [List.findIdx?_cons, Ne.symm hsame]
      rw [List.lookup_cons, hother, hlast, Option.map_none, Option.or_none, ← h.number?]
      rfl

end Register.Holds

/-! ### Layouts -/

namespace Layout

theorem shape_of_strictSet {layout next : Layout} {row col : Nat} {key : Option Key}
    (h : layout.strictSet row col key = .ok (some next)) :
    next.name = layout.name ∧ next.rows = layout.rows ∧ next.cols = layout.cols := by
  unfold strictSet at h
  split at h
  · cases h
  · split at h
    · cases h
      exact ⟨rfl, rfl, rfl⟩
    · cases h

/-- What writing leaves of a layout that a machine has made. -/
structure Continues (layout written : Layout) : Prop where
  made : layout.Made → written.Made
  name : written.name = layout.name
  rows : written.rows = layout.rows
  cols : written.cols = layout.cols

namespace Continues

theorem refl (layout : Layout) : layout.Continues layout := ⟨id, rfl, rfl, rfl⟩

theorem trans {layout middle written : Layout} (h : layout.Continues middle)
    (hnext : middle.Continues written) : layout.Continues written :=
  ⟨fun hmade => hnext.made (h.made hmade), hnext.name.trans h.name, hnext.rows.trans h.rows,
    hnext.cols.trans h.cols⟩

theorem of_strictSet {layout written : Layout} {row col : Nat} {key : Option Key}
    (h : layout.strictSet row col key = .ok (some written)) : layout.Continues written := by
  obtain ⟨hname, hrows, hcols⟩ := shape_of_strictSet h
  exact ⟨fun hmade => hmade.written h, hname, hrows, hcols⟩

theorem of_strictFillRow {cells : List CellDecl} {layout written : Layout} {row col : Nat}
    (h : layout.strictFillRow row col cells = .ok written) : layout.Continues written := by
  induction cells generalizing layout col with
  | nil =>
    cases h
    exact refl _
  | cons decl others ih =>
    obtain ⟨key, _, h⟩ := bind_eq_ok_iff.mp h
    obtain ⟨next, hnext, h⟩ := bind_eq_ok_iff.mp h
    cases next with
    | none => cases h
    | some next =>
      cases hset : layout.strictSet row col key with
      | error trap =>
        rw [hset] at hnext
        cases hnext
      | ok found =>
        rw [hset] at hnext
        cases hnext
        exact (of_strictSet hset).trans (ih h)

theorem of_strictFill {rows : List (List CellDecl)} {layout written : Layout} {row : Nat}
    (h : layout.strictFill row rows = .ok written) : layout.Continues written := by
  induction rows generalizing layout row with
  | nil =>
    cases h
    exact refl _
  | cons cells others ih =>
    obtain ⟨next, hnext, h⟩ := bind_eq_ok_iff.mp h
    exact (of_strictFillRow hnext).trans (ih h)

end Continues

theorem strictFillRow_alike {cells : List CellDecl} {layout : Layout} {row col : Nat}
    (hm : layout.rows * layout.cols < UInt64.size) (hmade : layout.Made) :
    Alike Eq (layout.strictFillRow row col cells) (layout.fillRow row col cells) := by
  induction cells generalizing layout col with
  | nil => exact .ok rfl
  | cons decl others ih =>
    refine (Alike.mapError decl.key?).bind ?_
    rintro key _ rfl
    have hset := strictSet_eq hm (hmade.full hm) row col key
    rw [hset]
    cases hnext : layout.set? row col key with
    | none => exact .refused _
    | some next =>
      rw [hnext] at hset
      obtain ⟨_, hrows, hcols⟩ := shape_of_set? hnext
      exact ih (by rwa [hrows, hcols]) (hmade.written hset)

theorem strictFill_alike {rows : List (List CellDecl)} {layout : Layout} {row : Nat}
    (hm : layout.rows * layout.cols < UInt64.size) (hmade : layout.Made) :
    Alike Eq (layout.strictFill row rows) (layout.fill row rows) := by
  induction rows generalizing layout row with
  | nil => exact .ok rfl
  | cons cells others ih =>
    have hfirst : Alike Eq (layout.strictFillRow row 0 cells) (layout.fillRow row 0 cells) :=
      strictFillRow_alike hm hmade
    refine (hfirst.and fun next => Continues.of_strictFillRow).bind ?_
    rintro next _ ⟨rfl, hnext⟩
    exact ih (by rwa [hnext.rows, hnext.cols]) (hnext.made hmade)

end Layout

/-! ### Declarations one after the other -/

namespace Registered

/-- The registers hold the names of the states and those of the layouts so far. -/
structure Kept (names : List String) (registered : Registered) : Prop where
  layoutNumbers : registered.layoutNumbers.Holds (registered.layouts.map (·.name))
  stateNumbers : registered.stateNumbers.Holds names
  made : ∀ layout ∈ registered.layouts, layout.Made

theorem kept_empty : Kept [] .empty := ⟨.empty, .empty, fun _ h => nomatch h⟩

theorem enterState_alike {registered : Registered} {names : List String} (decl : StateDecl)
    (h : registered.Kept names) :
    Alike (fun next more => next.toParts = registered.toParts ∧ next.Kept more)
      (registered.enterState decl) (addStateName names decl) := by
  have hused := h.stateNumbers.isSome_number?_iff decl.name
  unfold enterState addStateName
  by_cases hexternal : decl.name = externalName
  · rw [if_pos hexternal, if_pos hexternal]
    exact .refused _
  · rw [if_neg hexternal, if_neg hexternal]
    by_cases hmem : decl.name ∈ names
    · rw [if_pos (hused.mpr hmem), if_pos hmem]
      exact .refused _
    · rw [if_neg (fun hsome => hmem (hused.mp hsome)), if_neg hmem]
      have hnumbers := h.stateNumbers.enter hmem h.stateNumbers.size
      exact .ok ⟨rfl, h.layoutNumbers, hnumbers, h.made⟩

/-- The states are entered before anything else comes up. -/
theorem enterStates_alike (decls : List StateDecl) :
    Alike (fun registered names => registered.toParts = .empty ∧ registered.Kept names)
      (decls.foldlM enterState .empty) (stateNamesOf decls) := by
  refine Alike.foldlM ?_ ⟨rfl, kept_empty⟩
  rintro decl _ registered names ⟨hparts, hkept⟩
  rw [← hparts]
  exact enterState_alike decl hkept

/-- What one more declaration adds. -/
theorem add_cases {registered next : Registered} {item : Item}
    (h : registered.add item = .ok next) :
    (∃ decl, item = .size decl ∧ next = { registered with grid := some decl.grid }) ∨
    (∃ decl layout, item = .layout decl ∧ registered.layout decl = .ok layout ∧
      next = { registered with
        layouts := registered.layouts ++ [layout]
        layoutNumbers := registered.layoutNumbers.enter layout.name
          registered.layouts.length }) ∨
    ∃ (decl : StateDecl) (state : State), item = .state decl ∧
      (registered.names.state decl).mapError Stop.refused = .ok state ∧
      next = { registered with states := registered.states ++ [state] } := by
  cases item with
  | size decl =>
    cases h
    exact Or.inl ⟨decl, rfl, rfl⟩
  | layout decl =>
    obtain ⟨layout, hlayout, h⟩ := bind_eq_ok_iff.mp h
    cases h
    exact Or.inr (Or.inl ⟨decl, layout, rfl, hlayout, rfl⟩)
  | state decl =>
    obtain ⟨state, hstate, h⟩ := bind_eq_ok_iff.mp h
    cases h
    exact Or.inr (Or.inr ⟨decl, state, rfl, hstate, rfl⟩)

section

variable {registered : Registered} {names : List String} (h : registered.Kept names)
include h

/-- Names are looked up in the registers as they are searched for among the parts. -/
theorem names_eq : registered.names = Scope.names ⟨names, registered.layouts⟩ := by
  have hlayouts : registered.layoutNumbers.number? =
      fun name => registered.layouts.findIdx? (·.name == name) := by
    funext name
    rw [h.layoutNumbers.number?, List.findIdx?_map]
    rfl
  have hstates : registered.stateNumbers.number? =
      fun name => names.findIdx? (· == name) := funext h.stateNumbers.number?
  rw [Registered.names, hlayouts, hstates]
  rfl

theorem isSome_layoutNumber?_iff (name : String) :
    (registered.layoutNumbers.number? name).isSome ↔
      registered.layouts.any (·.name == name) := by
  rw [h.layoutNumbers.isSome_number?_iff]
  simp [List.mem_map]

omit h in
/-- What a layout is that has been written, whether or not its positions have numbers. -/
theorem layout_ok {decl : LayoutDecl} {layout : Layout}
    (hlayout : registered.layout decl = .ok layout) :
    ¬(registered.layoutNumbers.number? decl.name).isSome ∧ ∃ grid,
      registered.grid = some grid ∧
        (Layout.allocate decl.name grid.rows grid.cols).Continues layout := by
  unfold Registered.layout at hlayout
  split at hlayout
  · cases hlayout
  · rename_i hfresh
    split at hlayout
    · cases hlayout
    · rename_i grid hgrid
      exact ⟨hfresh, grid, hgrid, .of_strictFill hlayout⟩

theorem layout_alike (decl : LayoutDecl)
    (hfits : ∀ grid, registered.grid = some grid → grid.Fits) :
    Alike Eq (registered.layout decl) (registered.toParts.layout decl) := by
  have hused := isSome_layoutNumber?_iff h decl.name
  unfold Registered.layout Parts.layout
  by_cases hmem : registered.layouts.any (·.name == decl.name)
  · rw [if_pos (hused.mpr hmem), if_pos hmem]
    exact .refused _
  · rw [if_neg (fun hsome => hmem (hused.mp hsome)), if_neg hmem]
    cases hgrid : registered.grid with
    | none => exact .refused _
    | some grid =>
      have hm : grid.rows * grid.cols < UInt64.size := hfits grid hgrid
      show Alike Eq ((Layout.allocate decl.name grid.rows grid.cols).strictFill 0 decl.rows)
        ((Layout.blank decl.name grid.rows grid.cols).fill 0 decl.rows)
      rw [← Layout.allocate_eq_blank decl.name hm]
      exact Layout.strictFill_alike hm (.allocated decl.name grid.rows grid.cols)

/-- One more declaration leaves the names in the registers, however large the grid is. -/
theorem Kept.add {item : Item} {next : Registered} (hnext : registered.add item = .ok next) :
    next.Kept names := by
  rcases add_cases hnext with ⟨decl, rfl, rfl⟩ | ⟨decl, layout, rfl, hlayout, rfl⟩ |
    ⟨decl, state, rfl, _, rfl⟩
  · exact ⟨h.layoutNumbers, h.stateNumbers, h.made⟩
  · obtain ⟨hfresh, grid, _, hwritten⟩ := layout_ok hlayout
    refine ⟨?_, h.stateNumbers, ?_⟩
    · rw [List.map_append, List.map_singleton]
      rw [h.layoutNumbers.isSome_number?_iff] at hfresh
      refine h.layoutNumbers.enter ?_ (List.length_map ..).symm
      rwa [hwritten.name]
    · intro other hother
      rcases List.mem_append.mp hother with hother | hother
      · exact h.made other hother
      · rw [List.mem_singleton.mp hother]
        exact hwritten.made (.allocated ..)
  · exact ⟨h.layoutNumbers, h.stateNumbers, h.made⟩

/-- One more declaration comes to the same in a machine, if the size in force leaves a number
to every position of a layout. -/
theorem add_alike (item : Item) (hfits : ∀ decl, item = .layout decl →
      ∀ grid, registered.grid = some grid → grid.Fits) :
    Alike (fun next parts => next.toParts = parts) (registered.add item)
      (registered.toParts.add names item) := by
  cases item with
  | size decl => exact .ok rfl
  | layout decl =>
    refine (layout_alike h decl (hfits decl rfl)).bind ?_
    rintro layout _ rfl
    exact .ok rfl
  | state decl =>
    have hstate : Alike Eq ((registered.names.state decl).mapError .refused)
        (Scope.state ⟨names, registered.layouts⟩ decl) := by
      rw [names_eq h]
      exact .mapError _
    refine hstate.bind ?_
    rintro state _ rfl
    exact .ok rfl

end

/-- Another size comes into force only by a declaration. -/
theorem grid_of_add {registered next : Registered} {item : Item}
    (h : registered.add item = .ok next) :
    next.grid = registered.grid ∨ ∃ decl, item = .size decl ∧ next.grid = some decl.grid := by
  rcases add_cases h with ⟨decl, rfl, rfl⟩ | ⟨_, _, _, _, rfl⟩ | ⟨_, _, _, _, rfl⟩
  · exact Or.inr ⟨decl, rfl, rfl⟩
  · exact Or.inl rfl
  · exact Or.inl rfl

/-- All declarations come to the same, if every size leaves a number to every position. -/
theorem run_alike {items : List Item} (hfits : ∀ decl, .size decl ∈ items → decl.grid.Fits)
    {registered : Registered} {names : List String} (h : registered.Kept names)
    (hgrid : registered.grid = none) :
    Alike (fun last parts => last.toParts = parts ∧ last.Kept names)
      (items.foldlM Registered.add registered)
      (items.foldlM (Parts.add names) registered.toParts) := by
  have hrun : Alike (fun last parts => last.toParts = parts ∧ last.Kept names ∧
      ∀ grid, last.grid = some grid → grid.Fits) (items.foldlM Registered.add registered)
      (items.foldlM (Parts.add names) registered.toParts) := by
    refine Alike.foldlM ?_ ⟨rfl, h, fun grid hsome => by cases hgrid.symm.trans hsome⟩
    rintro item hitem current _ ⟨rfl, hkept, hcurrent⟩
    refine (add_alike hkept item (fun _ _ => hcurrent)).and fun next hnext => ?_
    refine ⟨hkept.add hnext, fun grid hsome => ?_⟩
    rcases grid_of_add hnext with hsame | ⟨decl, rfl, hsize⟩
    · exact hcurrent grid (hsame ▸ hsome)
    · cases hsize.symm.trans hsome
      exact hfits decl hitem
  exact hrun.imp fun _ _ hlast => ⟨hlast.1, hlast.2.1⟩

/-- Layouts are only ever added. -/
theorem layouts_prefix_add {registered next : Registered} {item : Item}
    (h : registered.add item = .ok next) : registered.layouts <+: next.layouts := by
  rcases add_cases h with ⟨_, _, rfl⟩ | ⟨_, _, _, _, rfl⟩ | ⟨_, _, _, _, rfl⟩
  · exact List.prefix_rfl
  · exact List.prefix_append ..
  · exact List.prefix_rfl

theorem layouts_prefix_of_run {items : List Item} {registered last : Registered}
    (h : items.foldlM add registered = .ok last) : registered.layouts <+: last.layouts :=
  foldlM_preserves (R := fun before after : Registered => before.layouts <+: after.layouts)
    (fun _ => List.prefix_rfl) (fun _ _ _ hfirst hnext => List.IsPrefix.trans hfirst hnext)
    (fun _ _ _ => layouts_prefix_add) h

/-- Declarations that a machine gets through come to the same, if the positions of the layouts
that they leave behind have numbers. -/
theorem run_ok {items : List Item} {registered last : Registered} {names : List String}
    (h : registered.Kept names) (hrun : items.foldlM add registered = .ok last)
    (hfits : ∀ layout ∈ last.layouts, layout.rows * layout.cols < UInt64.size) :
    items.foldlM (Parts.add names) registered.toParts = .ok last.toParts ∧ last.Kept names := by
  induction items generalizing registered with
  | nil =>
    cases hrun
    exact ⟨rfl, h⟩
  | cons item others ih =>
    obtain ⟨next, hnext, hrest⟩ := bind_eq_ok_iff.mp hrun
    have hinForce : ∀ decl, item = .layout decl →
        ∀ grid, registered.grid = some grid → grid.Fits := by
      rintro decl rfl grid hgrid
      obtain ⟨layout, hlayout, hadd⟩ := bind_eq_ok_iff.mp hnext
      cases hadd
      obtain ⟨_, found, hfound, hwritten⟩ := layout_ok hlayout
      cases hfound.symm.trans hgrid
      have hlast : layout ∈ last.layouts :=
        (layouts_prefix_of_run hrest).mem (List.mem_append_right _ (List.mem_singleton_self _))
      have hm := hfits layout hlast
      rwa [hwritten.rows, hwritten.cols] at hm
    have halike := add_alike h item hinForce
    rw [hnext] at halike
    obtain ⟨_, hadd, rfl⟩ := halike.of_ok
    obtain ⟨hparts, hkept⟩ := ih (h.add hnext) hrest
    exact ⟨bind_eq_ok_iff.mpr ⟨_, hadd, hparts⟩, hkept⟩

theorem Kept.run {items : List Item} {registered last : Registered} {names : List String}
    (h : registered.Kept names) (hrun : items.foldlM Registered.add registered = .ok last) :
    last.Kept names :=
  foldlM_preserves (R := fun before after : Registered => before.Kept names → after.Kept names)
    (fun _ => id) (fun _ _ _ hfirst hnext hkept => hnext (hfirst hkept))
    (fun _ _ _ hadd hkept => hkept.add hadd) hrun h

end Registered

/-! ### Keyboards -/

namespace Keyboard

/-- What a machine has gone through to make a keyboard. -/
theorem run_of_strictOfItems {items : List Item} {keyboard : Keyboard}
    (h : strictOfItems items = .ok keyboard) :
    ∃ names entered last grid, stateNamesOf (Source.states items) = .ok names ∧
      (entered.toParts = .empty ∧ entered.Kept names) ∧
      items.foldlM Registered.add entered = .ok last ∧
      (last.toParts.keyboard = .ok keyboard ∧ keyboard.layouts = last.layouts) ∧
      assemble grid last.layouts last.states = .ok keyboard := by
  obtain ⟨entered, hentered, h⟩ := bind_eq_ok_iff.mp h
  obtain ⟨last, hlast, h⟩ := bind_eq_ok_iff.mp h
  have halike := Registered.enterStates_alike (Source.states items)
  rw [hentered] at halike
  obtain ⟨names, hnames, hkept⟩ := halike.of_ok
  have hkeyboard : last.toParts.keyboard = .ok keyboard := by
    have hmap := Alike.mapError last.toParts.keyboard
    rw [h] at hmap
    obtain ⟨_, hfound, rfl⟩ := hmap.of_ok
    exact hfound
  obtain ⟨grid, _, hassemble, hparts⟩ := assemble_of_parts hkeyboard
  exact ⟨names, entered, last, grid, hnames, hkept, hlast,
    ⟨hkeyboard, congrArg Keyboard.layouts hparts⟩, hassemble⟩

/-- However large the grid is, a machine has made the layouts of the keyboard. -/
theorem made_of_strictOfItems {items : List Item} {keyboard : Keyboard}
    (h : strictOfItems items = .ok keyboard) : keyboard.Made := by
  obtain ⟨_, _, _, grid, _, ⟨_, hkept⟩, hrun, ⟨_, hlayouts⟩, hassemble⟩ :=
    run_of_strictOfItems h
  refine ⟨⟨grid, _, _, hassemble⟩, ?_⟩
  rw [hlayouts]
  exact (hkept.run hrun).made

/-- A keyboard whose positions have numbers is the one of the total definitions. -/
theorem ofItems_of_strictOfItems {items : List Item} {keyboard : Keyboard}
    (h : strictOfItems items = .ok keyboard) (hfits : keyboard.grid.Fits) :
    ofItems items = .ok keyboard := by
  have haddressed := (made_of_strictOfItems h).addressed hfits
  obtain ⟨names, entered, last, _, hnames, ⟨hempty, hkept⟩, hrun, ⟨hkeyboard, hlayouts⟩, _⟩ :=
    run_of_strictOfItems h
  have hlast : ∀ layout ∈ last.layouts, layout.rows * layout.cols < UInt64.size := by
    intro layout hl
    rw [← hlayouts] at hl
    exact (haddressed layout hl).1
  obtain ⟨hparts, _⟩ := Registered.run_ok hkept hrun hlast
  rw [hempty] at hparts
  exact bind_eq_ok_iff.mpr ⟨names, hnames, bind_eq_ok_iff.mpr ⟨_, hparts, hkeyboard⟩⟩

/-- If every size leaves a number to every position, a machine makes the same keyboard, or
refuses the same declaration, and never stops. -/
theorem strictOfItems_eq {items : List Item}
    (hfits : ∀ decl, .size decl ∈ items → decl.grid.Fits) :
    strictOfItems items = (ofItems items).mapError .refused := by
  refine Alike.eq_mapError ?_
  refine (Registered.enterStates_alike (Source.states items)).bind ?_
  rintro entered names ⟨hempty, hkept⟩
  have hgrid : entered.grid = none := congrArg Parts.grid hempty
  have hrun := Registered.run_alike hfits hkept hgrid
  rw [hempty] at hrun
  refine hrun.bind ?_
  rintro last _ ⟨rfl, _⟩
  exact .mapError _

/-- So it does with the declarations of a text. -/
theorem strictOfItems_of_declarations {text : String} {items : List Item}
    (h : declarations text = .ok items) :
    strictOfItems items = (ofItems items).mapError .refused := by
  refine strictOfItems_eq fun decl hdecl => ?_
  obtain ⟨front, back, hitems⟩ := List.append_of_mem hdecl
  obtain ⟨⟨⟨_, hrows⟩, ⟨_, hcols⟩⟩, _⟩ := (declarations_found h).arranged front _ back hitems
  exact Nat.lt_of_le_of_lt (Nat.mul_le_mul hrows hcols) (by decide)

end Keyboard

/-- Declarations that no text is read as: a line stands for another, a row ends early,
a state is named above its declaration and a slot is written with a plus. -/
def overriding : List Item :=
  [.size ⟨⟨4, 4⟩, 1⟩,
    .size ⟨⟨2, 2⟩, 2⟩,
    .layout ⟨"base", 3, [[⟨.text "a", 4⟩, ⟨.code "S0", 4⟩]]⟩,
    .layout ⟨"extra", 5, [[⟨.absent, 6⟩, ⟨.text "b", 6⟩], [⟨.code "CHANGE", 7⟩]]⟩,
    .state ⟨"main", 8,
      [.layers .tap [⟨.plain, "base", 9⟩] 9,
        .layers .tap [⟨.ctrl, "extra", 10⟩, ⟨.shift, "base", 10⟩] 10,
        .slot "0" "x" (.dead [⟨.plain, "base", 11⟩]) 11,
        .slot "+00" "y" (.deadLatch "other") 12]⟩,
    .state ⟨"other", 13, []⟩]

/-- Declarations with two positions more than there are numbers. -/
def oversizedItems : List Item :=
  [.size ⟨⟨9223372036854775809, 2⟩, 1⟩,
    .layout ⟨"base", 2, [[⟨.text "a", 3⟩]]⟩,
    .state ⟨"main", 5, [.layers .tap [⟨.plain, "base", 6⟩] 6]⟩]

end KeyGrid
