import KeyGrid.Main
import KeyGrid.Proofs.Assembled
import KeyGrid.Proofs.Consistent
import KeyGrid.Proofs.Reachable
import KeyGrid.Proofs.StrictAccess
import KeyGrid.Proofs.Numeral
import KeyGrid.Proofs.Meaning
import KeyGrid.Proofs.Filled
import KeyGrid.Proofs.Parts
import KeyGrid.Proofs.Compiled
import KeyGrid.Proofs.Registered
import KeyGrid.Proofs.Overlay
import KeyGrid.Proofs.Handover
import KeyGrid.Proofs.Arranged
import KeyGrid.Proofs.Redraw
import KeyGrid.Proofs.Accepted
import KeyGrid.Proofs.Printed
import KeyGrid.Proofs.Reread
import KeyGrid.Proofs.Blamed
import KeyGrid.Proofs.Resolvable
import KeyGrid.Proofs.Regular
import KeyGrid.Proofs.Mirrored
import KeyGrid.Proofs.Reordered
import KeyGrid.Proofs.Appended
import KeyGrid.Proofs.Sliced
import KeyGrid.Proofs.Longest
import KeyGrid.Proofs.Spacing
import KeyGrid.Proofs.Returns
import KeyGrid.Proofs.Typed
import KeyGrid.Proofs.SecondPress
import KeyGrid.Proofs.Session
import KeyGrid.Proofs.Consumed
import KeyGrid.Proofs.Shadowed
import KeyGrid.Proofs.Usable
import KeyGrid.Proofs.Indexed
import KeyGrid.Proofs.Decided
import KeyGrid.Proofs.Layered
import KeyGrid.Proofs.Trapped
import KeyGrid.Proofs.Exchanged
import KeyGrid.Proofs.SlotWords
import KeyGrid.Proofs.Sized
import KeyGrid.Proofs.TouchWords
import KeyGrid.Proofs.Unambiguous
import KeyGrid.Proofs.Transcript
import KeyGrid.Proofs.Overwritten
import KeyGrid.Proofs.Labelled
import KeyGrid.Proofs.InStep
