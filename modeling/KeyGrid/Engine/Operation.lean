import KeyGrid.Engine.Press

/-!
# Operations

Everything a host can do to an engine: touches, going to a state by its name, going
back to the main state and putting another keyboard in. The last three forget
whatever was pending and always ask for a redraw.
-/

namespace KeyGrid

inductive Operation where
  | press (row col : Nat) (swipe : Swipe)
  | setState (name : String)
  | reset
  | load (keyboard : Keyboard)
deriving DecidableEq

namespace Engine

/-- The engine in the state at a position of the list, with nothing pending. -/
def enter (engine : Engine) (state : Nat) : Engine × List Event :=
  ({ engine with mode := .entering state }, [.redraw])

/-- The engine in the state of a given name, if there is one. -/
def setState? (engine : Engine) (name : String) : Option (Engine × List Event) :=
  (engine.keyboard.stateIndex? name).map engine.enter

/-- The engine back in its main state. -/
def reset (engine : Engine) : Engine × List Event := engine.enter engine.keyboard.main

/-- Another keyboard in its main state. -/
def load (_ : Engine) (keyboard : Keyboard) : Engine × List Event := (start keyboard, [.redraw])

/-- One operation; going to a state that does not exist does nothing. -/
def perform (engine : Engine) : Operation → Engine × List Event
  | .press row col swipe => engine.press row col swipe
  | .setState name => (engine.setState? name).getD (engine, [])
  | .reset => engine.reset
  | .load keyboard => engine.load keyboard

/-- Operations one after the other, with the events of each. -/
def run (engine : Engine) : List Operation → Engine × List (List Event)
  | [] => (engine, [])
  | operation :: others =>
    let (next, events) := engine.perform operation
    let (last, rest) := next.run others
    (last, events :: rest)

@[simp] theorem run_nil (engine : Engine) : engine.run [] = (engine, []) := rfl

theorem run_cons (engine : Engine) (operation : Operation) (others : List Operation) :
    engine.run (operation :: others) =
      (((engine.perform operation).1.run others).1,
        (engine.perform operation).2 :: ((engine.perform operation).1.run others).2) := rfl

theorem run_append (engine : Engine) (front back : List Operation) :
    engine.run (front ++ back) =
      (((engine.run front).1.run back).1,
        (engine.run front).2 ++ ((engine.run front).1.run back).2) := by
  induction front generalizing engine with
  | nil => rfl
  | cons operation others ih => simp [run_cons, ih]

end Engine
end KeyGrid
