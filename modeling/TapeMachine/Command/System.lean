import TapeMachine.Command.Options
import TapeMachine.Diagnostics.Logging

/-!
# The system of the command

What the command does not decide itself: how its arguments and the text that asks for diagnostics
are read, what stands behind a path, and how much memory there is. All of it is given as one
`System`, about which nothing is assumed but what its parts promise.
-/

namespace TapeMachine

/-- The memory of a system. -/
structure Memory where
  /-- How many bytes can be told apart. -/
  addresses : Nat
  /-- Whether so many bytes in a row can be had. -/
  grants : Nat → Bool

/-- Why bytes cannot be had. -/
inductive Shortage where
  /-- No bytes in a row are that many. -/
  | capacity
  | memory
  deriving DecidableEq

namespace Memory

/-- Whether a number is one of those that count bytes. -/
def counts (m : Memory) (size : Nat) : Bool := size < m.addresses

/-- Asks for bytes in a row. These take less than half of the addresses. -/
def allocate (m : Memory) (size : Nat) : Except Shortage Unit :=
  if m.addresses / 2 ≤ size then .error .capacity
  else if m.grants size then .ok ()
  else .error .memory

end Memory

/-- What the command finds around it. Reading one stream takes nothing away from another. -/
structure System where
  arguments : ArgumentParser
  logging : Logging
  /-- Opens a file: the answers of its reads, or the reason why it cannot be opened. -/
  opens : String → Except IoError (List ReadEvent)
  memory : Memory

end TapeMachine
