import KeyGrid.Engine.Host
import KeyGrid.Proofs.Consistent
import KeyGrid.Proofs.Mirrored

/-!
# Sessions of a host

A host hears of a text or a device key in the midst of a call, but a redraw is put off: what
changes the mode makes one due, and the call asks for it at its end, once. Between two calls
none is ever due, whichever way the last call was left, so an engine keeps nothing of its past
but its mode. Going to a state by its name, going back to the main state and putting another
keyboard in make the mode anew, and from then on the past cannot be told.
-/

namespace KeyGrid

/-- An engine in the hands of a host. -/
structure Session where
  engine : Engine
  /-- A redraw is put off to the end of the call. -/
  due : Bool
  /-- What the host has heard so far. -/
  heard : List Event
deriving DecidableEq

/-- Whatever is pending, a mode change begins as the keyboard has it. -/
theorem Engine.begin_mk (engine : Engine) (other mode : Mode) (change : MetaKey) :
    (Engine.mk engine.keyboard other).begin mode change = engine.begin mode change := by
  cases change with
  | dead label layers => rfl
  | switch label target latched =>
    cases target with
    | external => rfl
    | state index => cases latched <;> rfl

namespace Session

def start (keyboard : Keyboard) : Session := ⟨.start keyboard, false, []⟩

/-! ### Inside a call -/

def tell (session : Session) (event : Event) : Session :=
  { session with heard := session.heard ++ [event] }

def note (session : Session) : Session := { session with due := true }

def put (session : Session) (mode : Mode) : Session :=
  { session with engine := { session.engine with mode := mode } }

/-- The redraw that is due, at the end of a call. -/
def flush (session : Session) : Session :=
  if session.due then { session with due := false, heard := session.heard ++ [.redraw] }
  else session

def lay (session : Session) (layers : List Layer) : Session :=
  (session.put (session.engine.mode.withOverlay (some layers))).note

def switchTo (session : Session) (index : Nat) : Session := (session.put (.entering index)).note

def firstPress (session : Session) : MetaKey → Session
  | .dead _ layers => session.lay layers
  | .switch _ .external _ => session.tell .external
  | .switch _ (.state index) true => session.lay (session.engine.primaryLayers index)
  | .switch _ (.state index) false => session.switchTo index

def secondPress (session : Session) : MetaKey → Session
  | .dead _ _ => (session.put (session.engine.mode.withOverlay none)).note
  | .switch _ .external _ => session.tell .external
  | .switch _ (.state index) _ => session.switchTo index

def typeText (session : Session) (text : String) : Session :=
  let told := (session.tell (.text text)).put session.engine.mode.settled
  if session.engine.mode.isPending then told.note else told

/-- The slot is armed by its first press and disarmed by its second one, and a slot that
leaves the keyboard is disarmed in any case. -/
def pressSlot (session : Session) (slot : Nat) : Session :=
  match session.engine.metaKey? slot with
  | none => session
  | some change =>
    let mode := session.engine.mode
    let pressed :=
      if mode.armed = some slot then
        (session.note.put (mode.withArmed none)).secondPress change
      else (session.note.put (mode.withArmed (some slot))).firstPress change
    if change.isExternal then pressed.put (pressed.engine.mode.withArmed none) else pressed

def pressKey (session : Session) : Key → Session
  | .text key => session.typeText key.text
  | .device action => session.tell (.device action)
  | .direct change => session.firstPress change
  | .placeholder slot => session.pressSlot slot

/-! ### Calls -/

/-- A touch; a preview, or a place without a key, leaves the call early. -/
def press (session : Session) (row col : Nat) (swipe : Swipe) : Session :=
  if swipe = .altLabel then session
  else
    match session.engine.key? row col swipe with
    | none => session
    | some key => (session.pressKey key).flush

/-- A state that does not exist leaves the call early. -/
def goTo (session : Session) (name : String) : Except EngineError Unit × Session :=
  match session.engine.keyboard.stateIndex? name with
  | none => (.error (.unknownState name), session)
  | some index => (.ok (), (session.switchTo index).flush)

def reset (session : Session) : Session :=
  (session.switchTo session.engine.keyboard.main).flush

def load (session : Session) (keyboard : Keyboard) : Session :=
  { session with engine := .start keyboard }.note.flush

def perform (session : Session) : Operation → Session
  | .press row col swipe => session.press row col swipe
  | .setState name => (session.goTo name).2
  | .reset => session.reset
  | .load keyboard => session.load keyboard

def run (session : Session) (operations : List Operation) : Session :=
  operations.foldl perform session

/-- A session after a call with the given outcome, and no redraw due. -/
def after (session : Session) (outcome : Engine × List Event) : Session :=
  ⟨outcome.1, false, session.heard ++ outcome.2⟩

theorem after_after (session : Session) (first second : Engine × List Event) :
    (session.after first).after second = session.after (second.1, first.2 ++ second.2) := by
  simp only [after, List.append_assoc]

theorem after_nothing {session : Session} (h : session.due = false) :
    session.after (session.engine, []) = session := by
  obtain ⟨engine, due, heard⟩ := session
  cases h
  simp only [after, List.append_nil]

theorem flush_eq (session : Session) :
    session.flush =
      session.after (session.engine, if session.due then [.redraw] else []) := by
  obtain ⟨engine, due, heard⟩ := session
  cases due with
  | true => rfl
  | false => simp only [flush, after, Bool.false_eq_true, if_false, List.append_nil]

/-! ### A call does what the engine does -/

theorem firstPress_eq (session : Session) (change : MetaKey) :
    session.firstPress change =
      ⟨{ session.engine with mode := session.engine.begin session.engine.mode change },
        session.due || !change.isExternal, session.heard ++ change.signals⟩ := by
  cases change with
  | dead label layers =>
    simp [firstPress, lay, put, note, Engine.begin, MetaKey.signals, MetaKey.isExternal]
  | switch label target latched =>
    cases target with
    | external => simp [firstPress, tell, Engine.begin, MetaKey.signals, MetaKey.isExternal]
    | state index =>
      cases latched <;>
        simp [firstPress, lay, switchTo, put, note, Engine.begin, MetaKey.signals,
          MetaKey.isExternal]

theorem secondPress_eq (session : Session) (change : MetaKey) :
    session.secondPress change =
      ⟨{ session.engine with mode := Engine.complete session.engine.mode change },
        session.due || !change.isExternal, session.heard ++ change.signals⟩ := by
  cases change with
  | dead label layers =>
    simp [secondPress, put, note, Engine.complete, MetaKey.signals, MetaKey.isExternal]
  | switch label target latched =>
    cases target with
    | external => simp [secondPress, tell, Engine.complete, MetaKey.signals, MetaKey.isExternal]
    | state index =>
      simp [secondPress, switchTo, put, note, Engine.complete, MetaKey.signals,
        MetaKey.isExternal]

/-- A slot with a mode change makes a redraw due, whichever press it is. -/
theorem pressSlot_eq {session : Session} {slot : Nat} {change : MetaKey}
    (hc : session.engine.metaKey? slot = some change) :
    session.pressSlot slot =
      ⟨{ session.engine with mode := session.engine.toggle slot change }, true,
        session.heard ++ change.signals⟩ := by
  simp only [pressSlot, hc, firstPress_eq, secondPress_eq, Engine.toggle]
  -- the press was noted before the slot was armed or disarmed, so the target does not matter
  by_cases ha : session.engine.mode.armed = some slot
  · cases he : change.isExternal <;> simp [ha, note, put]
  · cases he : change.isExternal <;> simp [ha, note, put, Engine.begin_mk]

theorem typeText_eq (session : Session) (text : String) :
    session.typeText text =
      ⟨{ session.engine with mode := session.engine.mode.settled },
        session.due || session.engine.mode.isPending, session.heard ++ [.text text]⟩ := by
  cases hp : session.engine.mode.isPending <;> simp [typeText, hp, tell, put, note]

/-- A key that is pressed with no redraw due leaves none due behind the call. -/
theorem pressKey_flush {session : Session} (h : session.due = false) (key : Key) :
    (session.pressKey key).flush =
      session.after ({ session.engine with mode := (session.engine.activate key).1 },
        (session.engine.activate key).2) := by
  rw [flush_eq]
  cases key with
  | text key =>
    rw [pressKey, typeText_eq]
    simp [after, h, Engine.activate]
  | device action => simp [pressKey, tell, after, h, Engine.activate]
  | direct change =>
    rw [pressKey, firstPress_eq]
    rcases Engine.signals_cases change with ⟨he, hs⟩ | ⟨he, hs⟩ <;>
      simp [after, h, Engine.activate, he, hs]
  | placeholder slot =>
    cases hc : session.engine.metaKey? slot with
    | none =>
      rw [Engine.activate_of_metaKey?_none hc]
      simp [pressKey, pressSlot, hc, after, h]
    | some change =>
      rw [Engine.activate_of_metaKey? hc, pressKey, pressSlot_eq hc]
      simp [after]

theorem switchTo_flush (session : Session) (index : Nat) :
    (session.switchTo index).flush = session.after (session.engine.enter index) := rfl

/-- A host is answered as the engine answers it. -/
theorem goTo_eq (session : Session) (name : String) :
    session.goTo name =
      match session.engine.goTo name with
      | .ok outcome => (.ok (), session.after outcome)
      | .error e => (.error e, session) := by
  unfold goTo Engine.goTo Engine.setState?
  cases session.engine.keyboard.stateIndex? name with
  | none => rfl
  | some index => rfl

section

variable {session : Session} (h : session.due = false)
include h

theorem press_eq (row col : Nat) (swipe : Swipe) :
    session.press row col swipe = session.after (session.engine.press row col swipe) := by
  rcases session.engine.press_cases row col swipe with ⟨hnone, hp⟩ | ⟨key, hs, hk, hp⟩
  · rw [hp, after_nothing h, press]
    rcases hnone with hs | hk
    · rw [if_pos hs]
    · simp only [hk, ite_self]
  · rw [hp, press, if_neg hs, ← pressKey_flush h key]
    simp only [hk]

theorem perform_eq (operation : Operation) :
    session.perform operation = session.after (session.engine.perform operation) := by
  cases operation with
  | press row col swipe => exact press_eq h row col swipe
  | setState name =>
    -- a refused name is no operation of the engine, and the call leaves no trace
    simp only [perform, goTo_eq, Engine.goTo, Engine.perform]
    cases session.engine.setState? name with
    | none => exact (after_nothing h).symm
    | some outcome => rfl
  | reset => rfl
  | load keyboard => rfl

/-- No call finds a redraw due, however the ones before it were left. -/
theorem run_eq (operations : List Operation) :
    session.run operations =
      session.after ((session.engine.run operations).1,
        (session.engine.run operations).2.flatten) := by
  induction operations generalizing session with
  | nil => exact (after_nothing h).symm
  | cons operation others ih =>
    have hnext : session.run (operation :: others) =
        (session.after (session.engine.perform operation)).run others :=
      congrArg (run · others) (perform_eq h operation)
    rw [hnext, ih rfl, after_after, Engine.run_cons, List.flatten_cons]
    rfl

end

theorem goTo_eq_ok_iff {session next : Session} {name : String} :
    session.goTo name = (.ok (), next) ↔
      ∃ index, session.engine.keyboard.stateIndex? name = some index ∧
        next = session.after (session.engine.enter index) := by
  unfold goTo
  cases session.engine.keyboard.stateIndex? name with
  | none =>
    constructor
    · intro h
      cases h
    · rintro ⟨_, h, _⟩
      cases h
  | some index =>
    constructor
    · intro h
      cases h
      exact ⟨index, rfl, session.switchTo_flush index⟩
    · rintro ⟨_, h, rfl⟩
      cases h
      exact congrArg (Prod.mk _) (session.switchTo_flush index)

theorem goTo_of_notMem {session : Session} {name : String}
    (h : name ∉ session.engine.keyboard.stateNames) :
    session.goTo name = (.error (.unknownState name), session) := by
  have hnone := Keyboard.stateIndex?_eq_none_iff.mpr h
  simp only [goTo, hnone]

/-! ### Between calls -/

/-- What calls make of a session that has just begun. -/
inductive Reached (kind : Keyboard → Prop) : Session → Prop
  | start {keyboard : Keyboard} (hk : kind keyboard) : Reached kind (.start keyboard)
  | perform {session : Session} (hr : Reached kind session) (operation : Operation)
      (ho : operation.Brings kind) : Reached kind (session.perform operation)

theorem Reached.between_calls {kind : Keyboard → Prop} {session : Session}
    (h : session.Reached kind) : session.due = false ∧ Reachable kind session.engine := by
  induction h with
  | start hk => exact ⟨rfl, .start hk⟩
  | perform _ operation ho ih =>
    rw [perform_eq ih.1 operation]
    exact ⟨rfl, ih.2.perform operation ho⟩

/-- The engines in the hands of hosts are the reachable ones. -/
theorem exists_reached_iff {kind : Keyboard → Prop} {engine : Engine} :
    (∃ session, Reached kind session ∧ session.engine = engine) ↔ Reachable kind engine := by
  constructor
  · rintro ⟨session, hr, rfl⟩
    exact hr.between_calls.2
  · intro h
    induction h with
    | start hk => exact ⟨_, .start hk, rfl⟩
    | perform _ operation ho ih =>
      obtain ⟨session, hr, rfl⟩ := ih
      refine ⟨_, hr.perform operation ho, ?_⟩
      rw [perform_eq hr.between_calls.1 operation]
      rfl

/-- Whatever calls come, both hosts hear the same from now on, and the engines they have
then are equal. -/
def Alike (first second : Session) : Prop :=
  ∀ operations, ∃ last events,
    first.run operations = ⟨last, false, first.heard ++ events⟩ ∧
      second.run operations = ⟨last, false, second.heard ++ events⟩

/-- Sessions differ in nothing to come if their engines are equal. -/
theorem alike_of_engine {first second : Session} (hf : first.due = false)
    (hs : second.due = false) (he : first.engine = second.engine) : first.Alike second := by
  intro operations
  refine ⟨_, _, run_eq hf operations, ?_⟩
  rw [run_eq hs operations, he]
  rfl

end Session

/-- The position that a name is looked up at is the only one with this name. -/
theorem Keyboard.Assembled.stateNames_getElem?_iff {keyboard : Keyboard} (h : keyboard.Assembled)
    {name : String} {index : Nat} (hi : keyboard.stateIndex? name = some index) (other : Nat) :
    keyboard.stateNames[other]? = some name ↔ other = index := by
  have hfound : keyboard.stateIndex? name = some other ↔
      ∃ state, keyboard.states[other]? = some state ∧ state.name = name :=
    findIdx?_name_eq_some_iff h.consistent.stateNames
  rw [Keyboard.stateNames, List.getElem?_map, Option.map_eq_some_iff, ← hfound, hi,
    Option.some.injEq, eq_comm]

/-- Transitions by name forget what was before. After any calls no redraw is due, and the
session goes on, and answers its host, as its engine does. Once it and any other session of
the same keyboard have gone to a state by its name, both are in the only state of that name
with nothing pending, either host has heard one redraw, and no calls tell them apart any more.
Going back is going to the main state. Behind a keyboard that is put in, everything is as if
it had just been started. A host is refused exactly the names that are not those of a state,
and then nothing at all has happened. -/
theorem transitions_forget {first second : Session} (hf : first.Reached Keyboard.Assembled)
    (hk : first.engine.keyboard = second.engine.keyboard) :
    (∀ operations, first.run operations =
      first.after ((first.engine.run operations).1,
        (first.engine.run operations).2.flatten)) ∧
    (∀ name, first.goTo name =
      match first.engine.goTo name with
      | .ok outcome => (.ok (), first.after outcome)
      | .error e => (.error e, first)) ∧
    (∀ name next other, first.goTo name = (.ok (), next) → second.goTo name = (.ok (), other) →
      ∃ index, (∀ position,
          first.engine.keyboard.stateNames[position]? = some name ↔ position = index) ∧
        next = ⟨⟨first.engine.keyboard, .entering index⟩, false, first.heard ++ [.redraw]⟩ ∧
        other = ⟨⟨first.engine.keyboard, .entering index⟩, false, second.heard ++ [.redraw]⟩ ∧
        next.Alike other) ∧
    first.goTo Keyboard.mainName = (.ok (), first.reset) ∧
    (∀ keyboard,
      first.load keyboard = ⟨.start keyboard, false, first.heard ++ [.redraw]⟩ ∧
        (first.load keyboard).Alike (.start keyboard)) ∧
    ∀ name, ((∃ e, (first.goTo name).1 = .error e) ↔
        name ∉ first.engine.keyboard.stateNames) ∧
      (name ∉ first.engine.keyboard.stateNames →
        first.goTo name = (.error (.unknownState name), first)) := by
  obtain ⟨hdue, hr⟩ := hf.between_calls
  refine ⟨Session.run_eq hdue, first.goTo_eq, ?_, ?_, ?_, ?_⟩
  · intro name next other hnext hother
    obtain ⟨index, hi, rfl⟩ := Session.goTo_eq_ok_iff.mp hnext
    obtain ⟨found, hfound, rfl⟩ := Session.goTo_eq_ok_iff.mp hother
    rw [← hk, hi] at hfound
    cases hfound
    have hsame : (second.engine.enter index).1 = ⟨first.engine.keyboard, .entering index⟩ := by
      rw [hk]
      rfl
    refine ⟨index, hr.keyboard.stateNames_getElem?_iff hi, rfl, ?_, ?_⟩
    · rw [Session.after, hsame]
      rfl
    · exact Session.alike_of_engine rfl rfl hsame.symm
  · exact Session.goTo_eq_ok_iff.mpr ⟨_, hr.keyboard.stateIndex?_main, rfl⟩
  · intro keyboard
    exact ⟨rfl, Session.alike_of_engine rfl rfl rfl⟩
  · intro name
    refine ⟨⟨?_, ?_⟩, Session.goTo_of_notMem⟩
    · rintro ⟨e, he⟩ hname
      cases hi : first.engine.keyboard.stateIndex? name with
      | none => exact Keyboard.stateIndex?_eq_none_iff.mp hi hname
      | some index =>
        rw [Session.goTo_eq_ok_iff.mpr ⟨index, hi, rfl⟩] at he
        cases he
    · intro hname
      rw [Session.goTo_of_notMem hname]
      exact ⟨_, rfl⟩

/-- A dead key in the main state and a latched switch in another one. -/
def forkedKeyboard : Keyboard where
  grid := ⟨1, 2⟩
  layouts := [⟨"base", 1, 2, #[some (.ofText "a"), some (.placeholder 0)], by decide⟩]
  states :=
    [{ State.blank "main" with
        primary := [⟨0, .plain⟩]
        slots := #v[some (.dead "^" [⟨0, .shift⟩]), none, none, none] },
      { State.blank "numbers" with
        primary := [⟨0, .plain⟩]
        slots := #v[some (.switch "abc" (.state 0) true), none, none, none] }]
  main := 0

/-- The session in which the switch in the other state has been pressed once. -/
def forkedSession : Session :=
  (Session.start forkedKeyboard).run [.setState "numbers", .press 0 1 .tap]

/-- A pending dead key and a pending switch are both forgotten. -/
theorem forked_forget :
    ∃ first next other : Session, first.Reached Keyboard.Assembled ∧
      first.engine.keyboard = forkedSession.engine.keyboard ∧
      first.engine.mode = ⟨0, some [⟨0, .shift⟩], some 0⟩ ∧
      forkedSession.engine.mode = ⟨1, some [⟨0, .plain⟩], some 0⟩ ∧
      first.goTo "numbers" = (.ok (), next) ∧ forkedSession.goTo "numbers" = (.ok (), other) ∧
      next.engine = ⟨forkedKeyboard, .entering 1⟩ ∧ next.Alike other ∧
      first.goTo "letters" = (.error (.unknownState "letters"), first) := by
  have hk : forkedKeyboard.Assembled :=
    ⟨forkedKeyboard.grid, forkedKeyboard.layouts, forkedKeyboard.states, rfl⟩
  have hf := (Session.Reached.start hk).perform (.press 0 1 .tap) trivial
  obtain ⟨_, _, hforget, _, _, hrefuse⟩ := @transitions_forget _ forkedSession hf rfl
  obtain ⟨index, hindex, hnext, _, halike⟩ := hforget "numbers" _ _ rfl rfl
  have hone : 1 = index := (hindex 1).mp (by decide +kernel)
  subst hone
  exact ⟨_, _, _, hf, rfl, by decide +kernel, by decide +kernel, rfl, rfl,
    congrArg Session.engine hnext, halike, (hrefuse "letters").2 (by decide +kernel)⟩

end KeyGrid
