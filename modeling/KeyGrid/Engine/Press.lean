import KeyGrid.Engine.Basic

/-!
# Presses

What a touch does. A text key types and ends whatever was pending; a device key
changes nothing; a mode change put directly into a cell takes effect at once. A
placeholder remembers its slot: the first press of a slot begins the mode change,
the second press of the same slot completes it.
-/

namespace KeyGrid

namespace MetaKey

/-- Whether the key hands over to the host. -/
def isExternal : MetaKey → Bool
  | .switch _ .external _ => true
  | _ => false

/-- What the host hears of a mode change, apart from redraws. -/
def signals (change : MetaKey) : List Event := if change.isExternal then [.external] else []

end MetaKey

namespace Engine

/-- The primary layers of the state at a position of the list. -/
def primaryLayers (engine : Engine) (state : Nat) : List Layer :=
  (engine.keyboard.states[state]?.map (·.primary)).getD []

/-- The mode after a first press: overlays are laid, unlatched switches are made. -/
def begin (engine : Engine) (mode : Mode) : MetaKey → Mode
  | .dead _ layers => mode.withOverlay (some layers)
  | .switch _ .external _ => mode
  | .switch _ (.state index) true => mode.withOverlay (some (engine.primaryLayers index))
  | .switch _ (.state index) false => .entering index

/-- The mode after a second press: an overlay is taken away, a switch is made. -/
def complete (mode : Mode) : MetaKey → Mode
  | .dead _ _ => mode.withOverlay none
  | .switch _ .external _ => mode
  | .switch _ (.state index) _ => .entering index

/-- The mode after the mode change in a slot is pressed. A slot that hands over to
the host is never left armed. -/
def toggle (engine : Engine) (slot : Nat) (change : MetaKey) : Mode :=
  let mode := engine.mode
  let after :=
    if mode.armed = some slot then complete (mode.withArmed none) change
    else engine.begin (mode.withArmed (some slot)) change
  if change.isExternal then after.withArmed none else after

/-- The mode and the events that a key brings about. -/
def activate (engine : Engine) : Key → Mode × List Event
  | .text key =>
    (engine.mode.settled, .text key.text :: if engine.mode.isPending then [.redraw] else [])
  | .device action => (engine.mode, [.device action])
  | .direct change =>
    (engine.begin engine.mode change,
      if change.isExternal then change.signals else [.redraw])
  | .placeholder slot =>
    match engine.metaKey? slot with
    | none => (engine.mode, [])
    | some change => (engine.toggle slot change, change.signals ++ [.redraw])

/-- A touch at a position. Previewed labels are never activated. -/
def press (engine : Engine) (row col : Nat) (swipe : Swipe) : Engine × List Event :=
  match swipe with
  | .altLabel => (engine, [])
  | swipe =>
    match engine.key? row col swipe with
    | none => (engine, [])
    | some key =>
      let (mode, events) := engine.activate key
      ({ engine with mode := mode }, events)

end Engine
end KeyGrid
