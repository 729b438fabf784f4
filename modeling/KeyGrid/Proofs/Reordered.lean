import KeyGrid.Engine.Host
import KeyGrid.Proofs.Arranged
import KeyGrid.Proofs.Mirrored

/-!
# Declarations in another order

Layouts and states can be declared in any order in which every name is known where it is
needed. The order decides about positions only, and nobody ever sees a position.
-/

namespace KeyGrid

open Source

theorem Engine.goTo_eq_error_iff {engine : Engine} {name : String} {e : EngineError} :
    engine.goTo name = .error e ↔
      e = .unknownState name ∧ name ∉ engine.keyboard.stateNames := by
  rw [← Keyboard.stateIndex?_eq_none_iff]
  unfold goTo setState?
  cases engine.keyboard.stateIndex? name with
  | none =>
    rw [Option.map_none, Except.error.injEq, eq_comm]
    exact (and_iff_left rfl).symm
  | some index =>
    constructor
    · intro h
      cases h
    · intro h
      cases h.2

theorem gridBehind?_of_one_size {size : SizeDecl} {items : List Item}
    (hsize : ∀ decl, Item.size decl ∉ items) :
    gridBehind? (.size size :: items) = some size.grid := by
  have hnone : items.filterMap Item.grid? = [] := by
    rw [List.filterMap_eq_nil_iff]
    intro item hitem
    cases item with
    | size decl => exact absurd hitem (hsize decl)
    | layout decl => rfl
    | state decl => rfl
  unfold gridBehind?
  rw [List.filterMap_cons, hnone]
  rfl

namespace Keyboard

section

variable {size : SizeDecl} {front back : List Item} {first second : Keyboard}
  (hsize : ∀ decl, Item.size decl ∉ front) (hperm : front.Perm back)
  (hf : first.BuiltFrom (.size size :: front)) (hs : second.BuiltFrom (.size size :: back))
include hsize hperm hf hs

theorem mirrors_of_perm : first.Mirrors second := by
  have hitems := hperm.cons (Item.size size)
  have hothers : ∀ decl, Item.size decl ∉ back := by
    intro decl hdecl
    exact hsize decl (hperm.mem_iff.mpr hdecl)
  apply hf.mirrors hs
  · intro decl
    exact (hitems.filterMap Item.layout?).mem_iff.mp
  · intro decl
    exact (hitems.filterMap Item.state?).mem_iff.mp
  · intro _
    have hfirst := hf.grid.symm.trans (gridBehind?_of_one_size hsize)
    have hsecond := hs.grid.symm.trans (gridBehind?_of_one_size hothers)
    rw [Option.some.inj hfirst, Option.some.inj hsecond]

omit hsize in
theorem mem_stateNames_of_perm (name : String) :
    name ∈ first.stateNames ↔ name ∈ second.stateNames := by
  rw [hf.stateNames, hs.stateNames]
  exact (((hperm.cons (Item.size size)).filterMap Item.state?).map (·.name)).mem_iff

end

end Keyboard

/-- The order of layouts and states behind their size can be seen nowhere. However often the
two engines are touched, reset or sent to a state, they tell their hosts the same, they look
the same, and they refuse to go to the same states. -/
theorem ofItems_perm {size : SizeDecl} {front back : List Item}
    (hsize : ∀ decl, Item.size decl ∉ front) (hperm : front.Perm back)
    {first second : Keyboard} (hf : Keyboard.ofItems (.size size :: front) = .ok first)
    (hs : Keyboard.ofItems (.size size :: back) = .ok second) {operations : List Operation}
    (ho : ∀ operation ∈ operations, operation.Brings fun _ => False) :
    ((Engine.start first).run operations).2 = ((Engine.start second).run operations).2 ∧
      ((Engine.start first).run operations).1.LooksLike
        ((Engine.start second).run operations).1 ∧
      ∀ name e, ((Engine.start first).run operations).1.goTo name = .error e ↔
        ((Engine.start second).run operations).1.goTo name = .error e := by
  have hbuilt := Keyboard.ofItems_ok hf
  have hother := Keyboard.ofItems_ok hs
  have hmirrors := Keyboard.mirrors_of_perm hsize hperm hbuilt hother
  have hnames := Keyboard.mem_stateNames_of_perm hperm hbuilt hother
  obtain ⟨mode, image, events, hrun, hruns, hlooks⟩ :=
    hmirrors.run_start ho fun name _ => (hnames name).mpr
  rw [hrun, hruns]
  refine ⟨rfl, hlooks, ?_⟩
  intro name e
  rw [Engine.goTo_eq_error_iff, Engine.goTo_eq_error_iff, hnames name]

/-- A dead key, a latched switch and a switch, each with a layout or a state behind it. -/
def shuffledItems : List Item :=
  [.layout ⟨"base", 2, [[⟨.text "a", 3⟩, ⟨.code "S0", 3⟩, ⟨.code "S1", 3⟩]]⟩,
    .layout ⟨"late", 5, [[⟨.text "b", 6⟩, ⟨.code "S1", 6⟩]]⟩,
    .state ⟨"main", 8,
      [.layers .tap [⟨.plain, "base", 9⟩] 9,
        .slot "0" "^" (.dead [⟨.shift, "late", 10⟩, ⟨.plain, "base", 10⟩]) 10,
        .slot "1" "x" (.deadLatch "other") 11]⟩,
    .state ⟨"other", 13,
      [.layers .tap [⟨.plain, "late", 14⟩] 14, .slot "1" "y" (.state "main") 15]⟩]

theorem shuffled_alike :
    ∃ first second, Keyboard.ofItems (.size ⟨⟨1, 3⟩, 1⟩ :: shuffledItems) = .ok first ∧
      Keyboard.ofItems (.size ⟨⟨1, 3⟩, 1⟩ ::
        [1, 0, 3, 2].filterMap (shuffledItems[·]?)) = .ok second ∧
      first.stateNames = ["main", "other"] ∧ second.stateNames = ["other", "main"] ∧
      ((Engine.start first).run [.press 0 2 .tap, .press 0 1 .tap, .setState "none"]).1.LooksLike
        ((Engine.start second).run [.press 0 2 .tap, .press 0 1 .tap, .setState "none"]).1 := by
  obtain ⟨first, hf⟩ : ∃ first,
      Keyboard.ofItems (.size ⟨⟨1, 3⟩, 1⟩ :: shuffledItems) = .ok first := ⟨_, rfl⟩
  obtain ⟨second, hs⟩ : ∃ second, Keyboard.ofItems (.size ⟨⟨1, 3⟩, 1⟩ ::
      [1, 0, 3, 2].filterMap (shuffledItems[·]?)) = .ok second := ⟨_, rfl⟩
  have hsize : ∀ decl, Item.size decl ∉ shuffledItems := by
    intro decl
    simp [shuffledItems]
  have hperm : shuffledItems.Perm ([1, 0, 3, 2].filterMap (shuffledItems[·]?)) := by
    decide +kernel
  refine ⟨first, second, hf, hs, (Keyboard.ofItems_ok hf).stateNames,
    (Keyboard.ofItems_ok hs).stateNames, ?_⟩
  exact (ofItems_perm hsize hperm hf hs (by simp [Operation.Brings])).2.1

end KeyGrid
