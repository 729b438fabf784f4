import KeyGrid.Proofs.Overlay

/-!
# Overlays without an armed slot

A touch of a slot that leaves the keyboard disarms every slot but takes no overlay away.
An overlay has lost its armed slot exactly if such a touch came while it lay there and
nothing has changed the mode since; the key that laid it then lays it anew.
-/

namespace KeyGrid
namespace Engine

/-- An overlay lies there and no slot is armed to take it away. -/
def Stranded (engine : Engine) : Prop :=
  engine.mode.overlay.isSome ∧ engine.mode.armed = none

/-- The slot that is armed takes the overlay away: touching it is its second press. -/
def Cancellable (engine : Engine) : Prop :=
  ∃ slot < slotCount, engine.mode.armed = some slot ∧ ∃ change layers,
    engine.metaKey? slot = some change ∧ engine.mode.overlay = some layers ∧
      engine.keyboard.Previews change layers ∧
      ∀ row col swipe, swipe ≠ .altLabel →
        engine.key? row col swipe = some (.placeholder slot) →
          (engine.press row col swipe).1.mode = complete (engine.mode.withArmed none) change ∧
          (engine.press row col swipe).1.mode.overlay = none

/-- Among the operations is one that hands over under an overlay, and none behind it
changes the mode. -/
def HandedOver (engine : Engine) (operations : List Operation) : Prop :=
  ∃ front operation back, operations = front ++ operation :: back ∧
    (engine.run front).1.mode.overlay.isSome ∧ (engine.run front).1.HandsOver operation ∧
    ∀ more, more <+: back →
      (engine.run (front ++ operation :: more)).1.mode =
        (engine.run (front ++ [operation])).1.mode

theorem run_concat (engine : Engine) (operations : List Operation) (operation : Operation) :
    (engine.run (operations ++ [operation])).1 =
      ((engine.run operations).1.perform operation).1 := by
  rw [run_append]
  rfl

/-! ### One operation -/

theorem perform_stranded_iff {engine : Engine} (compiled : engine.keyboard.Compiled)
    (shown : engine.ArmedShown) (operation : Operation) :
    (engine.perform operation).1.Stranded ↔
      (engine.mode.overlay.isSome ∧ engine.HandsOver operation) ∨
        (engine.Stranded ∧ (engine.perform operation).1.mode = engine.mode) := by
  constructor
  · intro h
    have hchanges := perform_changes compiled shown operation
    generalize (engine.perform operation).1 = next at h hchanges ⊢
    cases hchanges with
    | same => exact Or.inr ⟨h, rfl⟩
    | settles keyboard index => cases h.1
    | lays hc hp => cases h.2
    | handsOver hh => exact Or.inl ⟨h.1, hh⟩
  · rintro (⟨ho, hh⟩ | ⟨hs, hm⟩)
    · rw [hh.perform]
      exact ⟨ho, rfl⟩
    · unfold Stranded
      rw [hm]
      exact hs

/-! ### Runs -/

/-- Either the last operation hands over, or it leaves the mode alone after one before it
that does. -/
theorem handedOver_concat_iff (engine : Engine) (operations : List Operation)
    (last : Operation) :
    engine.HandedOver (operations ++ [last]) ↔
      ((engine.run operations).1.mode.overlay.isSome ∧
        (engine.run operations).1.HandsOver last) ∨
      (engine.HandedOver operations ∧
        (engine.run (operations ++ [last])).1.mode = (engine.run operations).1.mode) := by
  constructor
  · rintro ⟨front, operation, back, heq, hover, hh, hkept⟩
    cases back using List.reverseRecOn with
    | nil =>
      obtain ⟨rfl, hlast⟩ := List.append_inj' heq rfl
      cases hlast
      exact Or.inl ⟨hover, hh⟩
    | append_singleton back other =>
      have hall := hkept (back ++ [other]) List.prefix_rfl
      have hfront := hkept back (List.prefix_append ..)
      rw [← heq] at hall
      rw [← List.cons_append, ← List.append_assoc] at heq
      obtain ⟨rfl, _⟩ := List.append_inj' heq rfl
      refine Or.inr ⟨⟨front, operation, back, rfl, hover, hh, ?_⟩, hall.trans hfront.symm⟩
      intro more hmore
      exact hkept more (hmore.trans (List.prefix_append ..))
  · rintro (⟨hover, hh⟩ | ⟨⟨front, operation, back, rfl, hover, hh, hkept⟩, hm⟩)
    · refine ⟨operations, last, [], rfl, hover, hh, ?_⟩
      intro more hmore
      rw [List.prefix_nil.mp hmore]
    · refine ⟨front, operation, back ++ [last], by simp, hover, hh, ?_⟩
      intro more hmore
      rcases List.prefix_concat_iff.mp hmore with rfl | hmore
      · rw [List.append_assoc, List.cons_append] at hm
        rw [hm]
        exact hkept back List.prefix_rfl
      · exact hkept more hmore

theorem run_stranded_iff {keyboard : Keyboard} (hk : keyboard.Compiled)
    {operations : List Operation}
    (ho : ∀ operation ∈ operations, operation.Brings Keyboard.Compiled) :
    ((start keyboard).run operations).1.Stranded ↔ (start keyboard).HandedOver operations := by
  induction operations using List.reverseRecOn with
  | nil =>
    constructor
    · intro h
      cases h.1
    · rintro ⟨front, operation, back, hnil, _⟩
      cases front <;> cases hnil
  | append_singleton operations last ih =>
    have hbefore : ∀ operation ∈ operations, operation.Brings Keyboard.Compiled :=
      fun operation hm => ho operation (List.mem_append_left _ hm)
    have hr := (Reachable.start hk).run operations hbefore
    have hstep := perform_stranded_iff hr.keyboard hr.armedShown last
    rw [handedOver_concat_iff, run_concat, hstep, ih hbefore]

end Engine

/-- While an overlay lies there, the slot that takes it away is armed unless a touch of a
slot that leaves the keyboard came in between; then no slot is armed. -/
theorem cancellable_iff_not_handedOver {keyboard : Keyboard} (hk : keyboard.Compiled)
    {operations : List Operation}
    (ho : ∀ operation ∈ operations, operation.Brings Keyboard.Compiled)
    (hs : ((Engine.start keyboard).run operations).1.mode.overlay.isSome) :
    (((Engine.start keyboard).run operations).1.Cancellable ↔
      ¬(Engine.start keyboard).HandedOver operations) ∧
    ((Engine.start keyboard).HandedOver operations →
      ((Engine.start keyboard).run operations).1.mode.armed = none) := by
  have hr := (Reachable.start hk).run operations ho
  have hstranded := Engine.run_stranded_iff hk ho
  generalize ((Engine.start keyboard).run operations).1 = engine at hs hr hstranded ⊢
  have shown := hr.armedShown
  rw [← hstranded]
  refine ⟨⟨?_, ?_⟩, fun h => h.2⟩
  · rintro ⟨slot, _, ha, _⟩ h
    rw [h.2] at ha
    cases ha
  · intro h
    cases ha : engine.mode.armed with
    | none => exact absurd ⟨hs, ha⟩ h
    | some slot =>
      obtain ⟨change, layers, hc, hlayers, hp⟩ := shown slot ha
      refine ⟨slot, Engine.slot_lt_of_metaKey? hc, ha, change, layers, hc, hlayers, hp, ?_⟩
      intro row col swipe hswipe hkey
      obtain ⟨hmode, index, hindex⟩ := Engine.press_armed shown ha hc hswipe hkey
      refine ⟨hmode, ?_⟩
      rw [hindex]
      rfl

theorem deadKey_cancellable_until_handedOver :
    ((Engine.start deadKeyKeyboard).run [.press 0 1 .tap]).1.Cancellable ∧
      (Engine.start deadKeyKeyboard).HandedOver [.press 0 1 .tap, .press 0 2 .tap] ∧
      ¬((Engine.start deadKeyKeyboard).run [.press 0 1 .tap, .press 0 2 .tap]).1.Cancellable := by
  have hfirst := @cancellable_iff_not_handedOver deadKeyKeyboard deadKeyKeyboard_compiled
    [.press 0 1 .tap] (by simp [Operation.Brings]) (by decide +kernel)
  have hboth := @cancellable_iff_not_handedOver deadKeyKeyboard deadKeyKeyboard_compiled
    [.press 0 1 .tap, .press 0 2 .tap] (by simp [Operation.Brings]) (by decide +kernel)
  have hnot : ¬(Engine.start deadKeyKeyboard).HandedOver [.press 0 1 .tap] := by
    intro h
    exact absurd (hfirst.2 h) (by decide +kernel)
  have hover : (Engine.start deadKeyKeyboard).HandedOver
      [.press 0 1 .tap, .press 0 2 .tap] := by
    refine ⟨[.press 0 1 .tap], .press 0 2 .tap, [], rfl, by decide +kernel, ?_, ?_⟩
    · exact ⟨0, 2, .tap, 1, .switch "kb" .external false, rfl, by decide, by decide +kernel,
        by decide +kernel, rfl⟩
    · intro more hmore
      rw [List.prefix_nil.mp hmore]
  exact ⟨hfirst.1.mpr hnot, hover, fun h => hboth.1.mp h hover⟩

/-- Once the host has been asked to take over, the key of the overlay is no longer armed
and lays its overlay once more. -/
theorem deadKey_stranded :
    deadKeyKeyboard.Compiled ∧
      ∃ engine, engine =
          ((Engine.start deadKeyKeyboard).run [.press 0 1 .tap, .press 0 2 .tap]).1 ∧
        engine.mode.overlay.isSome ∧ engine.mode.armed = none ∧
        engine.key? 0 1 .tap = some (.placeholder 0) ∧
        (engine.press 0 1 .tap).1.mode = engine.mode.withArmed (some 0) :=
  ⟨deadKeyKeyboard_compiled, _, rfl, by decide +kernel, by decide +kernel, by decide +kernel,
    by decide +kernel⟩

end KeyGrid
