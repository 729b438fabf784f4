import KeyGrid.Proofs.Vacant

/-!
# First and second presses of a slot

A slot with a dead key or a latched switch is pressed twice: the first press lays an overlay
and arms the slot, the second one takes the overlay away or makes the switch. Touches in
between that neither type nor change the mode, however many, do not matter.
-/

namespace KeyGrid

namespace Engine

/-! ### Touches that change nothing -/

/-- The ways in which a touch can come to nothing, but for a word to the host. -/
inductive Inert (engine : Engine) (row col : Nat) (swipe : Swipe) : Prop
  | outside (h : ¬(row < engine.keyboard.rows ∧ col < engine.keyboard.cols))
  | preview (h : swipe = .altLabel)
  | absent (h : engine.key? row col swipe = none)
  | device {action : Device} (h : engine.key? row col swipe = some (.device action))
  | unbound {slot : Nat} (h : engine.key? row col swipe = some (.placeholder slot))
      (hempty : engine.metaKey? slot = none)
  | external {label : String} {latched : Bool}
      (h : engine.key? row col swipe = some (.direct (.switch label .external latched)))

theorem key?_of_outside {engine : Engine} {row col : Nat}
    (h : ¬(row < engine.keyboard.rows ∧ col < engine.keyboard.cols)) (swipe : Swipe) :
    engine.key? row col swipe = none := by
  rw [key?, if_neg h]

/-- The keys that an inert touch meets leave the mode alone. -/
theorem Inert.activate {engine : Engine} {row col : Nat} {swipe : Swipe}
    (h : engine.Inert row col swipe) (hs : swipe ≠ .altLabel) {key : Key}
    (hk : engine.key? row col swipe = some key) :
    (engine.activate key).1 = engine.mode ∧
      ∀ event ∈ (engine.activate key).2, event ≠ .redraw ∧ ∀ text, event ≠ .text text := by
  cases h with
  | outside h =>
    rw [key?_of_outside h] at hk
    cases hk
  | preview h => exact absurd h hs
  | absent h =>
    rw [h] at hk
    cases hk
  | device h =>
    rw [h] at hk
    cases hk
    simp [Engine.activate]
  | unbound h hempty =>
    rw [h] at hk
    cases hk
    rw [activate_of_metaKey?_none hempty]
    simp
  | external h =>
    rw [h] at hk
    cases hk
    simp [Engine.activate, begin, MetaKey.isExternal, MetaKey.signals]

theorem Inert.press {engine : Engine} {row col : Nat} {swipe : Swipe}
    (h : engine.Inert row col swipe) :
    (engine.press row col swipe).1 = engine ∧
      ∀ event ∈ (engine.press row col swipe).2, event ≠ .redraw ∧ ∀ text, event ≠ .text text := by
  rcases engine.press_cases row col swipe with ⟨_, hp⟩ | ⟨key, hs, hk, hp⟩
  · rw [hp]
    exact ⟨rfl, fun _ he => absurd he List.not_mem_nil⟩
  · obtain ⟨hmode, hevents⟩ := h.activate hs hk
    rw [hp, hmode]
    exact ⟨rfl, hevents⟩

/-- Touches each of which is inert when it comes. -/
inductive InertRun : Engine → List Operation → Prop
  | nil (engine : Engine) : InertRun engine []
  | cons {engine : Engine} {row col : Nat} {swipe : Swipe} {others : List Operation}
      (h : engine.Inert row col swipe)
      (hr : InertRun (engine.perform (.press row col swipe)).1 others) :
      InertRun engine (.press row col swipe :: others)

/-- A touch that is inert in front of inert touches leaves them inert. -/
theorem InertRun.behind {engine : Engine} {row col : Nat} {swipe : Swipe}
    {others : List Operation} (h : engine.Inert row col swipe) (hr : engine.InertRun others) :
    engine.InertRun (.press row col swipe :: others) := by
  have hsame : (engine.perform (.press row col swipe)).1 = engine := h.press.1
  refine .cons h ?_
  rw [hsame]
  exact hr

theorem InertRun.run {engine : Engine} {touches : List Operation}
    (h : engine.InertRun touches) :
    (engine.run touches).1 = engine ∧
      ∀ events ∈ (engine.run touches).2, ∀ event ∈ events,
        event ≠ .redraw ∧ ∀ text, event ≠ .text text := by
  induction h with
  | nil engine => exact ⟨rfl, fun _ he => absurd he List.not_mem_nil⟩
  | @cons engine row col swipe others h _ ih =>
    obtain ⟨hsame, hquiet⟩ := h.press
    have hnext : (engine.perform (.press row col swipe)).1 = engine := hsame
    rw [hnext] at ih
    rw [run_cons, hnext]
    refine ⟨ih.1, ?_⟩
    intro events he
    rcases List.mem_cons.mp he with rfl | he
    · exact hquiet
    · exact ih.2 events he

/-! ### The two presses -/

/-- A touch that is not a preview meets the key of a slot. -/
def Meets (engine : Engine) (row col : Nat) (swipe : Swipe) (slot : Nat) : Prop :=
  swipe ≠ .altLabel ∧ engine.key? row col swipe = some (.placeholder slot)

theorem Meets.press {engine : Engine} {row col : Nat} {swipe : Swipe} {slot : Nat}
    {change : MetaKey} (h : engine.Meets row col swipe slot)
    (hc : engine.metaKey? slot = some change) :
    (engine.press row col swipe).1 = { engine with mode := engine.toggle slot change } ∧
      ∀ text, .text text ∉ (engine.press row col swipe).2 := by
  rw [press_of_key? h.1 h.2, activate_of_metaKey? hc]
  refine ⟨rfl, ?_⟩
  intro text ht
  rcases List.mem_append.mp ht with ht | ht
  · exact change.text_notMem_signals text ht
  · simp at ht

end Engine

/-- Where the second press leads from a state: a dead key stays there, a latched switch goes
to its target. -/
inductive MetaKey.Leads (current : Nat) : MetaKey → Nat → Prop
  | dead (label : String) (layers : List Layer) : Leads current (.dead label layers) current
  | latched (label : String) (index : Nat) :
      Leads current (.switch label (.state index) true) index

namespace Engine

/-- A key that leads somewhere shows layers, and the state it leads to exists. -/
theorem previews_of_leads {engine : Engine} (closed : engine.keyboard.Closed)
    (hm : engine.mode.InRange engine.keyboard) {slot : Nat} {change : MetaKey}
    (hc : engine.metaKey? slot = some change) {destination : Nat}
    (hl : change.Leads engine.mode.current destination) :
    (∃ layers, engine.keyboard.Previews change layers) ∧
      destination < engine.keyboard.states.length := by
  have hadmits := admitsMetaKey_metaKey? closed hc
  cases hl with
  | dead label layers => exact ⟨⟨layers, .dead label layers⟩, hm.current⟩
  | latched label index =>
    have hlt : destination < engine.keyboard.states.length :=
      (Extent.admitsMetaKey_state ..).mp hadmits
    exact ⟨⟨_, .latched label (List.getElem?_eq_getElem hlt)⟩, hlt⟩

theorem complete_of_leads {mode : Mode} {change : MetaKey} {destination : Nat}
    (hl : change.Leads mode.current destination) :
    complete (mode.withArmed none) change = .entering destination := by
  cases hl with
  | dead label layers => rfl
  | latched label index => rfl

/-- From an armed slot whose layers lie there, inert touches and one more press of the slot
lead to where its key leads. -/
theorem run_to_second_press {engine : Engine} {slot : Nat} {change : MetaKey}
    {layers : List Layer} (ha : engine.mode.armed = some slot)
    (hc : engine.metaKey? slot = some change) (hp : engine.keyboard.Previews change layers)
    {destination : Nat} (hl : change.Leads engine.mode.current destination)
    {touches : List Operation} (hr : engine.InertRun touches) {row col : Nat} {swipe : Swipe}
    (hmeets : (engine.run touches).1.Meets row col swipe slot) :
    (engine.run (touches ++ [.press row col swipe])).1 =
        ⟨engine.keyboard, .entering destination⟩ ∧
      ∀ events ∈ (engine.run (touches ++ [.press row col swipe])).2,
        ∀ text, .text text ∉ events := by
  obtain ⟨hsame, hquiet⟩ := hr.run
  rw [hsame] at hmeets
  obtain ⟨hlast, hsilent⟩ := hmeets.press hc
  obtain ⟨hcomplete, _⟩ := toggle_again ha hp
  rw [hcomplete, complete_of_leads hl] at hlast
  rw [run_append, hsame]
  refine ⟨hlast, ?_⟩
  intro events he text ht
  rcases List.mem_append.mp he with he | he
  · exact (hquiet events he _ ht).2 text rfl
  · rw [List.mem_singleton.mp he] at ht
    exact hsilent text ht

end Engine

/-- The second press of a slot. Inert touches change nothing and ask for no redraw. Whatever
is pending, as long as the slot is not armed itself, touching the key of a dead key or of a
latched switch lays an overlay over the active state and arms the slot; after inert touches,
the next touch of a key of the slot leaves nothing pending, in the same state for a dead key
and in its target for a latched switch; and nothing is typed all the while. -/
theorem second_press_behind_inert {engine : Engine}
    (h : Reachable Keyboard.Assembled engine) :
    (∀ row col swipe, engine.Inert row col swipe →
      (engine.press row col swipe).1 = engine ∧ .redraw ∉ (engine.press row col swipe).2) ∧
    ∀ slot change destination, engine.mode.armed ≠ some slot →
      engine.metaKey? slot = some change → change.Leads engine.mode.current destination →
      ∀ row col swipe, engine.Meets row col swipe slot →
        ∃ armed layers, (engine.press row col swipe).1 = armed ∧
          armed = ⟨engine.keyboard, ⟨engine.mode.current, some layers, some slot⟩⟩ ∧
          ∀ touches row' col' swipe', armed.InertRun touches →
            (armed.run touches).1.Meets row' col' swipe' slot →
            ∀ last events,
              engine.run (.press row col swipe :: (touches ++ [.press row' col' swipe'])) =
                (last, events) →
              last = ⟨engine.keyboard, .entering destination⟩ ∧
              destination < engine.keyboard.states.length ∧
              ∀ heard ∈ events, ∀ text, .text text ∉ heard := by
  have closed := h.keyboard.closed
  have hm := (h.mono fun _ hk => hk.closed).inRange
  refine ⟨?_, ?_⟩
  · intro row col swipe hinert
    obtain ⟨hsame, hquiet⟩ := hinert.press
    exact ⟨hsame, fun hr => (hquiet _ hr).1 rfl⟩
  · intro slot change destination ha hc hl row col swipe hmeets
    obtain ⟨⟨layers, hp⟩, hlt⟩ := Engine.previews_of_leads closed hm hc hl
    obtain ⟨hfirst, hsilent⟩ := hmeets.press hc
    rw [Engine.toggle_of_previews ha hp] at hfirst
    let armed : Engine := ⟨engine.keyboard, ⟨engine.mode.current, some layers, some slot⟩⟩
    have hkept : armed.metaKey? slot = some change :=
      (engine.metaKey?_of_current (show armed.mode.current = _ from rfl) slot).trans hc
    refine ⟨armed, layers, hfirst, rfl, ?_⟩
    intro touches row' col' swipe' hr hagain last events hrun
    have hsecond := @Engine.run_to_second_press armed slot change layers rfl hkept hp
      destination hl touches hr row' col' swipe' hagain
    rw [Engine.run_cons] at hrun
    have hstep : (engine.perform (.press row col swipe)).1 = armed := hfirst
    rw [hstep] at hrun
    obtain ⟨rfl, rfl⟩ := Prod.mk.inj hrun
    refine ⟨hsecond.1, hlt, ?_⟩
    intro heard hheard
    rcases List.mem_cons.mp hheard with rfl | hheard
    · exact hsilent
    · exact hsecond.2 heard hheard

/-- A dead key and a latched switch beside keys that come to nothing. -/
def pairedKeyboard : Keyboard where
  grid := ⟨1, 6⟩
  layouts :=
    [⟨"base", 1, 6, #[some (.device .backspace), some (.placeholder 3),
      some (.direct Source.externalKey), some (.placeholder 0), some (.placeholder 1), none],
      by decide⟩]
  states :=
    [{ State.blank "main" with
        primary := [⟨0, .plain⟩]
        slots := #v[some (.dead "^" [⟨0, .plain⟩]), some (.switch "n" (.state 1) true),
          none, none] },
      { State.blank "numbers" with primary := [⟨0, .plain⟩] }]
  main := 0

def pairedTouches : List Operation :=
  [.press 0 0 .tap, .press 0 1 .leftRight, .press 0 2 .upDown, .press 0 5 .tap,
    .press 0 3 .altLabel, .press 9 9 .tap]

/-- The engine whose dead key has been pressed once. -/
def pairedEngine : Engine := ((Engine.start pairedKeyboard).perform (.press 0 3 .tap)).1

theorem paired_inert : (pairedEngine.press 0 4 .tap).1.InertRun pairedTouches := by
  refine .behind (.device (show Engine.key? _ 0 0 .tap = some (.device .backspace) by
    decide +kernel)) ?_
  refine .behind (.unbound (show Engine.key? _ 0 1 .leftRight = some (.placeholder 3) by
    decide +kernel) (by decide +kernel)) ?_
  refine .behind (.external (show Engine.key? _ 0 2 .upDown =
    some (.direct (.switch "⌨" .external false)) by decide +kernel)) ?_
  refine .behind (.absent (by decide +kernel)) ?_
  exact .behind (.preview rfl) (.behind (.outside (by decide +kernel)) (.nil _))

/-- The latched switch is pressed while the dead key is armed. -/
theorem paired_second_press :
    Reachable Keyboard.Assembled pairedEngine ∧ pairedEngine.mode.armed = some 0 ∧
      pairedEngine.metaKey? 1 = some (.switch "n" (.state 1) true) ∧
      pairedEngine.Meets 0 4 .tap 1 ∧ (pairedEngine.press 0 4 .tap).1.InertRun pairedTouches ∧
      (pairedEngine.run (.press 0 4 .tap :: (pairedTouches ++ [.press 0 4 .leftRight]))).1 =
        ⟨pairedKeyboard, .entering 1⟩ := by
  have hk : pairedKeyboard.Assembled :=
    ⟨pairedKeyboard.grid, pairedKeyboard.layouts, pairedKeyboard.states, rfl⟩
  have hr : Reachable Keyboard.Assembled pairedEngine :=
    (Reachable.start hk).perform (.press 0 3 .tap) trivial
  have hc : pairedEngine.metaKey? 1 = some (.switch "n" (.state 1) true) := by decide +kernel
  have hmeets : pairedEngine.Meets 0 4 .tap 1 := ⟨by decide, by decide +kernel⟩
  have hagain : ((pairedEngine.press 0 4 .tap).1.run pairedTouches).1.Meets 0 4 .leftRight 1 :=
    ⟨by decide, by decide +kernel⟩
  obtain ⟨armed, _, hfirst, _, hlaw⟩ := (second_press_behind_inert hr).2 1 _ 1 (by decide +kernel)
    hc (.latched "n" 1) 0 4 .tap hmeets
  have hinert := paired_inert
  rw [hfirst] at hinert hagain
  have hlast := hlaw pairedTouches 0 4 .leftRight hinert hagain _ _ rfl
  exact ⟨hr, by decide +kernel, hc, hmeets, paired_inert, hlast.1⟩

end KeyGrid
