import KeyGrid.CommandLine.Run
import KeyGrid.Proofs.Overlay
import KeyGrid.Proofs.Session
import KeyGrid.Proofs.StrictAccess

/-!
# Transcripts

What is printed about touches that are made one after the other: a record of each, with what a
host hears of it, up to the first word that is no touch. A record is printed before the next
word is looked at, so it stands whatever comes behind it.
-/

namespace KeyGrid

open CommandLine (Touch)

/-- A text that is written to a file is read back. -/
theorem Keyboard.ofBytes_toUTF8 (text : String) :
    Keyboard.ofBytes text.toUTF8 = Keyboard.ofSource text := by
  have hvalid : text.toUTF8.IsValidUTF8 := text.isValidUTF8
  simp only [Keyboard.ofBytes, String.fromUTF8?, dif_pos hvalid]
  rfl

theorem Keyboard.compiled_of_ofBytes {bytes : ByteArray} {keyboard : Keyboard}
    (h : Keyboard.ofBytes bytes = .ok keyboard) : keyboard.Compiled := by
  unfold Keyboard.ofBytes at h
  split at h
  · exact ⟨_, h⟩
  · cases h

theorem Engine.stateName_of_getElem? {engine : Engine} {keyboard : Keyboard} {state : State}
    (hk : engine.keyboard = keyboard)
    (h : keyboard.states[engine.mode.current]? = some state) :
    engine.stateName = state.name := by
  rw [Engine.stateName, Engine.state?, hk, h, Option.map_some, Option.getD_some]

namespace Session

/-- The session after everything heard so far was taken out. -/
def drained (session : Session) : Session := { session with heard := [] }

/-- Touches one after the other; what is heard of each is taken out before the next one. -/
def listen (session : Session) : List Touch → List (List Event) × Session
  | [] => ([], session)
  | touch :: others =>
    let pressed := session.press touch.row touch.col touch.swipe
    let (heard, last) := pressed.drained.listen others
    (pressed.heard :: heard, last)

theorem length_listen (session : Session) (touches : List Touch) :
    (session.listen touches).1.length = touches.length := by
  induction touches generalizing session with
  | nil => rfl
  | cons touch others ih => exact congrArg Nat.succ (ih _)

/-- Between two touches nothing is left but the engine. -/
theorem listen_cons (engine : Engine) (touch : Touch) (others : List Touch) :
    (Session.mk engine false []).listen (touch :: others) =
      let (next, events) := engine.press touch.row touch.col touch.swipe
      let (heard, last) := (Session.mk next false []).listen others
      (events :: heard, last) := by
  rw [listen, press_eq rfl]
  rfl

/-- Touches stay with the keyboard, and in states that it has. -/
theorem listen_inRange {engine : Engine} (closed : engine.keyboard.Closed)
    (hm : engine.mode.InRange engine.keyboard) (touches : List Touch) :
    let last := ((Session.mk engine false []).listen touches).2.engine
    last.keyboard = engine.keyboard ∧ last.mode.InRange engine.keyboard := by
  induction touches generalizing engine with
  | nil => exact ⟨rfl, hm⟩
  | cons touch others ih =>
    have hnext := Engine.perform_inRange closed hm
      (show Operation.Brings _ (.press touch.row touch.col touch.swipe) from trivial)
    have hkeyboard : (engine.press touch.row touch.col touch.swipe).1.keyboard =
        engine.keyboard := by
      rcases engine.press_cases touch.row touch.col touch.swipe with ⟨_, hp⟩ | ⟨_, _, _, hp⟩
      · rw [hp]
      · rw [hp]
    rw [listen_cons]
    have hclosed : (engine.press touch.row touch.col touch.swipe).1.keyboard.Closed := by
      rwa [hkeyboard]
    have hlast := ih hclosed hnext
    rwa [hkeyboard] at hlast

end Session

namespace CommandLine

/-! ### Records -/

/-- The records of words with their touches, made in a session one after the other. -/
def records (session : Session) (accepted : List (String × Touch)) : List String :=
  List.zipWith (fun word events => word ++ " -> [" ++ eventsText events ++ "]")
    (accepted.map Prod.fst) (session.listen (accepted.map Prod.snd)).1

theorem length_records (session : Session) (accepted : List (String × Touch)) :
    (records session accepted).length = accepted.length := by
  simp [records, Session.length_listen]

/-- Touches are answered one by one. -/
theorem pressAnswer_append {accepted : List (String × Touch)}
    (h : ∀ pair ∈ accepted, readTouch pair.1 = .ok pair.2) (engine : Engine)
    (rest : List String) :
    pressAnswer engine (accepted.map Prod.fst ++ rest) =
      let session := Session.mk engine false []
      let last := pressAnswer (session.listen (accepted.map Prod.snd)).2.engine rest
      ⟨records session accepted ++ last.lines, last.failure⟩ := by
  induction accepted generalizing engine with
  | nil => rfl
  | cons pair accepted ih =>
    obtain ⟨word, touch⟩ := pair
    obtain ⟨hword, hothers⟩ := List.forall_mem_cons.mp h
    simp only [List.map_cons, List.cons_append, pressAnswer, hword, ih hothers]
    simp only [records, List.map_cons, Session.listen_cons, Answer.after, touchLine,
      List.zipWith_cons_cons, List.cons_append]
    rfl

/-- The touches in front of the first word that is none. -/
def accepted : List String → List (String × Touch)
  | [] => []
  | word :: others =>
    match readTouch word with
    | .ok touch => (word, touch) :: accepted others
    | .error _ => []

theorem accepted_spec (words : List String) :
    (∀ pair ∈ accepted words, readTouch pair.1 = .ok pair.2) ∧
      ∃ rest, words = (accepted words).map Prod.fst ++ rest ∧
        ∀ word others, rest = word :: others → ∃ fault, readTouch word = .error fault := by
  induction words with
  | nil => exact ⟨by simp [accepted], [], rfl, by simp⟩
  | cons word words ih =>
    cases hword : readTouch word with
    | error fault =>
      simp only [accepted, hword]
      refine ⟨by simp, word :: words, rfl, ?_⟩
      rintro first others ⟨⟩
      exact ⟨fault, hword⟩
    | ok touch =>
      obtain ⟨hfront, rest, hrest, hrefused⟩ := ih
      simp only [accepted, hword]
      exact ⟨List.forall_mem_cons.mpr ⟨hword, hfront⟩, rest, congrArg (word :: ·) hrest, hrefused⟩

theorem answer_press {file : String} {bytes : ByteArray} {keyboard : Keyboard}
    (hk : Keyboard.ofBytes bytes = .ok keyboard) (words : List String) :
    (Request.press file words).answer (.ok bytes) = pressAnswer (.start keyboard) words := by
  simp only [Request.answer, withKeyboard, keyboardOf, hk]

/-- Of the words in front of a rest only the records and what they lead to matter to it. -/
theorem answer_press_append {bytes : ByteArray} {keyboard : Keyboard}
    (hk : Keyboard.ofBytes bytes = .ok keyboard) (file : String) {words rest : List String}
    {front : List (String × Touch)} (hwords : words = front.map Prod.fst ++ rest)
    (h : ∀ pair ∈ front, readTouch pair.1 = .ok pair.2) (more : List String) :
    (Request.press file (words ++ more)).answer (.ok bytes) =
      let last := pressAnswer ((Session.start keyboard).listen (front.map Prod.snd)).2.engine
        (rest ++ more)
      ⟨records (.start keyboard) front ++ last.lines, last.failure⟩ := by
  rw [answer_press hk, hwords, List.append_assoc]
  exact pressAnswer_append h _ _

/-- A key that types and one that goes to another state. -/
def twoStateSource : String :=
  "size 1 2\nlayout base \x7b\nx S0\n\x7d\nstate main \x7b\n  layout base\n" ++
    "  S0 go state other\n\x7d\nstate other \x7b\n  layout base\n\x7d\n"

def twoStateKeyboard : Keyboard where
  grid := ⟨1, 2⟩
  layouts := [⟨"base", 1, 2, #[some (.ofText "x"), some (.placeholder 0)], by decide⟩]
  states :=
    [State.setMetaKey { State.blank "main" with primary := [⟨0, .plain⟩] } 0
        (.switch "go" (.state 1) false),
      { State.blank "other" with primary := [⟨0, .plain⟩] }]
  main := 0

end CommandLine
end KeyGrid
