import KeyGrid.Proofs.Redraw
import KeyGrid.Proofs.Typed

/-!
# Overlays are used up

A text ends whatever is pending, so an overlay types at most once. It may also be replaced,
taken away or left behind without a text. Counted over a run, the texts typed with keys of an
overlay never outnumber the touches that laid one, and the overlay that lies there in the end
is one more that has been laid and not been used.
-/

namespace KeyGrid

/-- Whether the first press of the key lays an overlay. -/
def MetaKey.isOverlaying : MetaKey → Bool
  | .dead _ _ => true
  | .switch _ (.state _) latched => latched
  | .switch _ .external _ => false

def Event.text? : Event → Option String
  | .text typed => some typed
  | .device _ | .redraw | .external => none

theorem Announced.texts_le {events : List Event} (h : Announced events) :
    (events.filterMap Event.text?).length ≤ 1 := by
  cases h <;> simp [List.filterMap_cons, Event.text?]

namespace Engine

/-- Whether a key lays an overlay when it is activated. -/
def lays (engine : Engine) : Key → Bool
  | .text _ | .device _ => false
  | .direct change => change.isOverlaying
  | .placeholder slot =>
    match engine.metaKey? slot with
    | none => false
    | some change => engine.mode.armed != some slot && change.isOverlaying

/-- Whether an operation is a touch that lays an overlay, be it over another one. -/
def laysBy (engine : Engine) : Operation → Bool
  | .press row col swipe => swipe != .altLabel && (engine.key? row col swipe).any engine.lays
  | .setState _ | .reset | .load _ => false

/-- The texts that an operation types with a key that the overlay has supplied. -/
def overlayTexts (engine : Engine) : Operation → List String
  | .press row col swipe =>
    if (engine.source swipe).2 = .overlay then
      (engine.press row col swipe).2.filterMap Event.text?
    else []
  | .setState _ | .reset | .load _ => []

def overlays (engine : Engine) : Nat := if engine.mode.overlay.isSome then 1 else 0

theorem overlays_le_one (engine : Engine) : engine.overlays ≤ 1 := by
  unfold overlays
  split <;> omega

theorem source_eq_overlay_iff (engine : Engine) (swipe : Swipe) :
    (engine.source swipe).2 = .overlay ↔ engine.mode.overlay.isSome := by
  unfold source
  cases engine.mode.overlay with
  | some layers => simp
  | none => cases swipe <;> simp [Swipe.origin]

/-! ### Keys that lay an overlay -/

theorem begin_of_overlaying (engine : Engine) (mode : Mode) {change : MetaKey}
    (h : change.isOverlaying) : (engine.begin mode change).overlay.isSome := by
  cases change with
  | dead label layers => rfl
  | switch label target latched =>
    cases target with
    | external => cases h
    | state index =>
      cases latched with
      | true => rfl
      | false => cases h

theorem begin_of_not_overlaying (engine : Engine) (mode : Mode) {change : MetaKey}
    (h : change.isOverlaying = false) :
    (engine.begin mode change).overlay = mode.overlay ∨
      (engine.begin mode change).overlay = none := by
  cases change with
  | dead label layers => cases h
  | switch label target latched =>
    cases target with
    | external => exact Or.inl rfl
    | state index =>
      cases latched with
      | true => cases h
      | false => exact Or.inr rfl

theorem overlay_complete (mode : Mode) (change : MetaKey) :
    (complete mode change).overlay = mode.overlay ∨ (complete mode change).overlay = none := by
  cases change with
  | dead label layers => exact Or.inr rfl
  | switch label target latched =>
    cases target with
    | external => exact Or.inl rfl
    | state index => exact Or.inr rfl

/-- Disarming the slots that leave the keyboard does not matter to the overlay. -/
theorem overlay_toggle (engine : Engine) (slot : Nat) (change : MetaKey) :
    (engine.toggle slot change).overlay =
      if engine.mode.armed = some slot then
        (complete (engine.mode.withArmed none) change).overlay
      else (engine.begin (engine.mode.withArmed (some slot)) change).overlay := by
  simp only [toggle]
  by_cases ha : engine.mode.armed = some slot
  · simp only [if_pos ha]
    split <;> rfl
  · simp only [if_neg ha]
    split <;> rfl

theorem activate_of_lays {engine : Engine} {key : Key} (h : engine.lays key) :
    (engine.activate key).1.overlay.isSome := by
  cases key with
  | text key => cases h
  | device action => cases h
  | direct change => exact begin_of_overlaying engine engine.mode h
  | placeholder slot =>
    cases hc : engine.metaKey? slot with
    | none => simp [lays, hc] at h
    | some change =>
      simp only [lays, hc, Bool.and_eq_true, bne_iff_ne, ne_eq] at h
      rw [activate_of_metaKey? hc, overlay_toggle, if_neg h.1]
      exact begin_of_overlaying engine _ h.2

theorem activate_of_not_lays {engine : Engine} {key : Key} (h : engine.lays key = false) :
    (engine.activate key).1.overlay = engine.mode.overlay ∨
      (engine.activate key).1.overlay = none := by
  cases key with
  | text key => exact Or.inr rfl
  | device action => exact Or.inl rfl
  | direct change => exact begin_of_not_overlaying engine engine.mode h
  | placeholder slot =>
    cases hc : engine.metaKey? slot with
    | none =>
      rw [activate_of_metaKey?_none hc]
      exact Or.inl rfl
    | some change =>
      rw [activate_of_metaKey? hc, overlay_toggle]
      by_cases ha : engine.mode.armed = some slot
      · rw [if_pos ha]
        exact overlay_complete _ change
      · rw [if_neg ha]
        have hnot : change.isOverlaying = false := by simpa [lays, hc, ha] using h
        exact begin_of_not_overlaying engine _ hnot

/-! ### One operation -/

theorem perform_of_laysBy {engine : Engine} {operation : Operation}
    (h : engine.laysBy operation) : (engine.perform operation).1.mode.overlay.isSome := by
  cases operation with
  | press row col swipe =>
    simp only [laysBy, Bool.and_eq_true, bne_iff_ne, ne_eq, Option.any_eq_true] at h
    obtain ⟨hs, key, hk, hl⟩ := h
    have hpress := press_of_key? hs hk
    show (engine.press row col swipe).1.mode.overlay.isSome
    rw [hpress]
    exact activate_of_lays hl
  | setState name => cases h
  | reset => cases h
  | load keyboard => cases h

theorem perform_of_not_laysBy {engine : Engine} {operation : Operation}
    (h : engine.laysBy operation = false) :
    (engine.perform operation).1.mode.overlay = engine.mode.overlay ∨
      (engine.perform operation).1.mode.overlay = none := by
  rcases engine.perform_cases operation with
    hp | ⟨row, col, swipe, key, rfl, hs, hk, hp⟩ | ⟨index, _, hp⟩ | ⟨keyboard, _, hp⟩
  · rw [hp]
    exact Or.inl rfl
  · rw [hp]
    have hl : engine.lays key = false := by simpa [laysBy, hs, hk] using h
    exact activate_of_not_lays hl
  · rw [hp]
    exact Or.inr rfl
  · rw [hp]
    exact Or.inr rfl

/-- A touch that types lays nothing, and it leaves nothing pending. -/
theorem perform_of_text {engine : Engine} {operation : Operation} {text : String}
    (h : .text text ∈ (engine.perform operation).2) :
    engine.laysBy operation = false ∧
      (engine.perform operation).1.mode = engine.mode.settled := by
  obtain ⟨row, col, swipe, rfl, hpress⟩ := press_of_perform h
  obtain ⟨key, hk, _⟩ := key?_of_press_text hpress
  rcases engine.press_cases row col swipe with ⟨_, hp⟩ | ⟨found, _, hf, hp⟩
  · rw [hp] at hpress
    cases hpress
  · rw [hk] at hf
    cases hf
    refine ⟨by simp [laysBy, hk, lays], ?_⟩
    show (engine.press row col swipe).1.mode = engine.mode.settled
    rw [hp]
    rfl

theorem overlayTexts_of_ne_nil {engine : Engine} {operation : Operation}
    (h : engine.overlayTexts operation ≠ []) :
    engine.overlays = 1 ∧ (engine.overlayTexts operation).length ≤ 1 ∧
      engine.laysBy operation = false ∧ (engine.perform operation).1.overlays = 0 := by
  cases operation with
  | press row col swipe =>
    simp only [overlayTexts, source_eq_overlay_iff] at h ⊢
    split at h
    · rename_i hoverlay
      obtain ⟨text, htext⟩ := List.exists_mem_of_ne_nil _ h
      obtain ⟨event, hevent, he⟩ := List.mem_filterMap.mp htext
      have hmem : .text text ∈ (engine.perform (.press row col swipe)).2 := by
        cases event with
        | text typed =>
          cases he
          exact hevent
        | device action => cases he
        | redraw => cases he
        | external => cases he
      obtain ⟨hlays, hmode⟩ := perform_of_text hmem
      have hlength := (engine.perform_announced (.press row col swipe)).texts_le
      refine ⟨if_pos hoverlay, ?_, hlays, ?_⟩
      · rw [if_pos hoverlay]
        exact hlength
      · unfold overlays
        rw [hmode]
        rfl
    · exact absurd rfl h
  | setState name => exact absurd rfl h
  | reset => exact absurd rfl h
  | load keyboard => exact absurd rfl h

/-- Every overlay that has been laid can be used once: what an operation types with the keys
of an overlay, and what it leaves, was there before or is laid by it. -/
theorem perform_balance (engine : Engine) (operation : Operation) :
    (engine.overlayTexts operation).length + (engine.perform operation).1.overlays ≤
      engine.overlays + if engine.laysBy operation then 1 else 0 := by
  -- a text uses up the overlay that was there; without one only a new overlay adds to the count
  by_cases ht : engine.overlayTexts operation = []
  · rw [ht, List.length_nil, Nat.zero_add]
    cases hl : engine.laysBy operation with
    | true =>
      have hone := overlays_le_one (engine.perform operation).1
      rw [if_pos rfl]
      omega
    | false =>
      have hkept : (engine.perform operation).1.overlays ≤ engine.overlays := by
        unfold overlays
        rcases perform_of_not_laysBy hl with hsame | hnone
        · exact Nat.le_of_eq (by rw [hsame])
        · rw [hnone]
          exact Nat.zero_le _
      exact Nat.le_add_right_of_le hkept
  · obtain ⟨hover, hlength, _, hnone⟩ := overlayTexts_of_ne_nil ht
    omega

/-! ### Runs -/

/-- The operations of a run, each with the engine that it meets. -/
def course (engine : Engine) : List Operation → List (Engine × Operation)
  | [] => []
  | operation :: others => (engine, operation) :: (engine.perform operation).1.course others

/-- How many touches of a run lay an overlay. -/
def laid (engine : Engine) (operations : List Operation) : Nat :=
  (engine.course operations).countP fun (met, operation) => met.laysBy operation

/-- The texts of a run whose keys were supplied by an overlay. -/
def overlaid (engine : Engine) (operations : List Operation) : List String :=
  (engine.course operations).flatMap fun (met, operation) => met.overlayTexts operation

theorem run_balance (engine : Engine) (operations : List Operation) :
    (engine.overlaid operations).length + (engine.run operations).1.overlays ≤
      engine.overlays + engine.laid operations := by
  induction operations generalizing engine with
  | nil => simp [overlaid, laid, course]
  | cons operation others ih =>
    have hstep := engine.perform_balance operation
    have hrest := ih (engine.perform operation).1
    simp only [overlaid, laid, course, List.flatMap_cons, List.length_append,
      List.countP_cons, run_cons] at hrest ⊢
    omega

theorem run_take_succ (engine : Engine) {operations : List Operation} {n : Nat}
    {operation : Operation} (h : operations[n]? = some operation) :
    (engine.run (operations.take (n + 1))).1 =
      ((engine.run (operations.take n)).1.perform operation).1 := by
  rw [List.take_add_one, h, run_append]
  rfl

end Engine

/-- An overlay types at most once. After a touch that types, nothing is pending. In every
beginning of a run, the texts whose keys were supplied by an overlay and the overlay that lies
there are together no more than the touches that have laid one, each of which leaves an overlay
behind it. -/
theorem overlay_types_once (keyboard : Keyboard) (operations : List Operation) (n : Nat) :
    (∀ events text, ((Engine.start keyboard).run operations).2[n]? = some events →
      .text text ∈ events →
        ((Engine.start keyboard).run (operations.take (n + 1))).1.mode.overlay = none ∧
          ((Engine.start keyboard).run (operations.take (n + 1))).1.mode.armed = none) ∧
    ((Engine.start keyboard).overlaid (operations.take n)).length +
        ((Engine.start keyboard).run (operations.take n)).1.overlays ≤
      (Engine.start keyboard).laid (operations.take n) ∧
    ∀ operation, operations[n]? = some operation →
      ((Engine.start keyboard).run (operations.take n)).1.laysBy operation →
        ((Engine.start keyboard).run (operations.take (n + 1))).1.mode.overlay.isSome := by
  refine ⟨?_, ?_, ?_⟩
  · intro events text he ht
    rw [Engine.run_events, Option.map_eq_some_iff] at he
    obtain ⟨operation, hn, rfl⟩ := he
    rw [Engine.run_take_succ _ hn, (Engine.perform_of_text ht).2]
    exact ⟨rfl, rfl⟩
  · have hbalance := (Engine.start keyboard).run_balance (operations.take n)
    have hfresh : (Engine.start keyboard).overlays = 0 := rfl
    omega
  · intro operation hn hlays
    rw [Engine.run_take_succ _ hn]
    exact Engine.perform_of_laysBy hlays

/-- The overlay is laid again after its slot has been disarmed, used by one text but not by the
next, laid and taken away. -/
def deadKeyTouches : List Operation :=
  [.press 0 1 .tap, .press 0 2 .tap, .press 0 1 .upDown, .press 0 0 .leftRight, .press 0 0 .tap,
    .press 0 1 .tap, .press 0 1 .tap]

theorem deadKey_types_once :
    ((Engine.start deadKeyKeyboard).run deadKeyTouches).2[3]? = some [.text "a", .redraw] ∧
      ((Engine.start deadKeyKeyboard).run (deadKeyTouches.take 4)).1.mode.overlay = none ∧
      ((Engine.start deadKeyKeyboard).run (deadKeyTouches.take 4)).1.mode.armed = none ∧
      deadKeyTouches[5]? = some (.press 0 1 .tap) ∧
      ((Engine.start deadKeyKeyboard).run (deadKeyTouches.take 6)).1.mode.overlay.isSome ∧
      (Engine.start deadKeyKeyboard).overlaid (deadKeyTouches.take 6) = ["a"] ∧
      2 ≤ (Engine.start deadKeyKeyboard).laid (deadKeyTouches.take 6) ∧
      (Engine.start deadKeyKeyboard).laid deadKeyTouches = 3 := by
  have htyped : ((Engine.start deadKeyKeyboard).run deadKeyTouches).2[3]? =
      some [.text "a", .redraw] := by decide +kernel
  have hlaid : deadKeyTouches[5]? = some (.press 0 1 .tap) := rfl
  have hsettled := (overlay_types_once deadKeyKeyboard deadKeyTouches 3).1 _ "a" htyped (by simp)
  have hlast := (overlay_types_once deadKeyKeyboard deadKeyTouches 5).2.2 _ hlaid
    (by decide +kernel)
  have hcount := (overlay_types_once deadKeyKeyboard deadKeyTouches 6).2.1
  have hused : (Engine.start deadKeyKeyboard).overlaid (deadKeyTouches.take 6) = ["a"] := by
    decide +kernel
  have hlies : ((Engine.start deadKeyKeyboard).run (deadKeyTouches.take 6)).1.overlays = 1 :=
    if_pos hlast
  rw [hused, hlies] at hcount
  exact ⟨htyped, hsettled.1, hsettled.2, hlaid, hlast, hused, hcount, by decide +kernel⟩

end KeyGrid
