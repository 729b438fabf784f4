import KeyGrid.Engine.Operation
import KeyGrid.Keyboard.Strict

/-!
# Engines in a machine

The queries and operations of an engine once more, with every look-up made the way a machine
makes it.
-/

namespace KeyGrid
namespace Engine

/-! ### Queries -/

def strictKey (engine : Engine) (row col : Nat) (swipe : Swipe) : Except Trap (Option Key) :=
  if engine.keyboard.rows ≤ row ∨ engine.keyboard.cols ≤ col then .ok none
  else
    match engine.mode.overlay with
    | some layers => engine.keyboard.strictResolve row col layers
    | none => do
      let state ← engine.keyboard.strictState engine.mode.current
      engine.keyboard.strictResolve row col (state.layers swipe)

def strictLabel (engine : Engine) (row col : Nat) (swipe : Swipe) : Except Trap String := do
  match ← engine.strictKey row col swipe with
  | none => return ""
  | some (.placeholder slot) =>
    let state ← engine.keyboard.strictState engine.mode.current
    return ((state.metaKey? slot).map (·.label)).getD ""
  | some key => return key.label?.getD ""

def strictAltLabel (engine : Engine) (row col : Nat) : Except Trap String :=
  engine.strictLabel row col .altLabel

def strictLook (engine : Engine) (row col : Nat) (swipe : Swipe) : Except Trap Look := do
  match ← engine.strictKey row col swipe with
  | none => return .normal
  | some key =>
    return if engine.isArmed key then .armed else (engine.source swipe).2.look

/-! ### Operations -/

/-- A switch looks at the state it leaves and at the one it enters. -/
def strictSwitch (engine : Engine) (index : Nat) : Except Trap Mode := do
  let _ ← engine.keyboard.strictState engine.mode.current
  let _ ← engine.keyboard.strictState index
  return .entering index

def strictBegin (engine : Engine) (mode : Mode) : MetaKey → Except Trap Mode
  | .dead _ layers => .ok (mode.withOverlay (some layers))
  | .switch _ .external _ => .ok mode
  | .switch _ (.state index) true => do
    let target ← engine.keyboard.strictState index
    return mode.withOverlay (some target.primary)
  | .switch _ (.state index) false => engine.strictSwitch index

def strictComplete (engine : Engine) (mode : Mode) : MetaKey → Except Trap Mode
  | .dead _ _ => .ok (mode.withOverlay none)
  | .switch _ .external _ => .ok mode
  | .switch _ (.state index) _ => engine.strictSwitch index

def strictToggle (engine : Engine) (slot : Nat) (change : MetaKey) : Except Trap Mode := do
  let after ←
    if engine.mode.armed = some slot then
      engine.strictComplete (engine.mode.withArmed none) change
    else engine.strictBegin (engine.mode.withArmed (some slot)) change
  return if change.isExternal then after.withArmed none else after

def strictActivate (engine : Engine) : Key → Except Trap (Mode × List Event)
  | .text key =>
    .ok (engine.mode.settled, .text key.text :: if engine.mode.isPending then [.redraw] else [])
  | .device action => .ok (engine.mode, [.device action])
  | .direct change => do
    let mode ← engine.strictBegin engine.mode change
    return (mode, if change.isExternal then change.signals else [.redraw])
  | .placeholder slot => do
    let state ← engine.keyboard.strictState engine.mode.current
    match state.metaKey? slot with
    | none => return (engine.mode, [])
    | some change =>
      let mode ← engine.strictToggle slot change
      return (mode, change.signals ++ [.redraw])

def strictPress (engine : Engine) (row col : Nat) (swipe : Swipe) :
    Except Trap (Engine × List Event) :=
  match swipe with
  | .altLabel => .ok (engine, [])
  | swipe => do
    match ← engine.strictKey row col swipe with
    | none => return (engine, [])
    | some key =>
      let (mode, events) ← engine.strictActivate key
      return ({ engine with mode := mode }, events)

def strictEnter (engine : Engine) (index : Nat) : Except Trap (Engine × List Event) := do
  let mode ← engine.strictSwitch index
  return ({ engine with mode := mode }, [.redraw])

def strictPerform (engine : Engine) : Operation → Except Trap (Engine × List Event)
  | .press row col swipe => engine.strictPress row col swipe
  | .setState name =>
    match engine.keyboard.stateIndex? name with
    | none => .ok (engine, [])
    | some index => engine.strictEnter index
  | .reset => engine.strictEnter engine.keyboard.main
  | .load keyboard => .ok (engine.load keyboard)

end Engine
end KeyGrid
