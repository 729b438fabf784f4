import KeyGrid.Engine.Operation
import KeyGrid.Keyboard.Declared

/-!
# Requests of a host

A host names the state to go to, or hands over the text of another layout file.
Either can be refused, and then the engine stays as it is.
-/

namespace KeyGrid

/-- Why a host is refused. -/
inductive EngineError where
  | unknownState (name : String)
  | load (error : LoadError)
deriving DecidableEq

def EngineError.message : EngineError → String
  | .unknownState name => s!"Unknown state: {name}"
  | .load error => s!"Layout error: {error.message}"

namespace Engine

/-- The engine in the state that a host names. -/
def goTo (engine : Engine) (name : String) : Except EngineError (Engine × List Event) :=
  match engine.setState? name with
  | some outcome => .ok outcome
  | none => .error (.unknownState name)

/-- The engine with the keyboard of another layout file. -/
def loadSource (engine : Engine) (text : String) : Except EngineError (Engine × List Event) :=
  match Keyboard.ofSource text with
  | .ok keyboard => .ok (engine.load keyboard)
  | .error error => .error (.load error)

end Engine
end KeyGrid
