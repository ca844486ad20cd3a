import TapeMachine.Command.Arguments
import TapeMachine.Diagnostics.Filter
import TapeMachine.Proofs.Command.Report
import TapeMachine.Proofs.Machine.Hearing

/-!
# The command and its machine

On every system, if its files can be opened and its tape can be had, the command runs a machine on
what the files hold, with the settings that its arguments give, and tells what has come of it. A
folder can be opened but its reads fail, so it fails the run when it is first read: as the program at
once, and as the input at the first input operation. If a file cannot be opened or the tape cannot
be had there is no run, and nothing is read.
-/

namespace TapeMachine

namespace Machine

variable {m : Machine} {error : IoError} {rest : List ReadEvent} {count : Nat}

end Machine

/-- The bytes of a tape of this size can be had. -/
structure Memory.Holds (memory : Memory) (size : Nat) : Prop where
  inHalf : size < memory.addresses / 2
  granted : memory.grants size = true

namespace Options

variable {o : Options} {memory : Memory} (program input : List ReadEvent)

end Options

/-- What the input operations read: the standard input if no file is named, and else the file. -/
inductive System.InputOf (sys : System) (stdin : List ReadEvent) :
    Option String → List ReadEvent → Prop where
  | stdin : sys.InputOf stdin none stdin
  | file {path : String} {input : List ReadEvent} (h : sys.opens path = .ok input) :
    sys.InputOf stdin (some path) input

namespace System

variable {sys : System} {o : Options} {stdin program input : List ReadEvent} {error : IoError}
  {path : String}

theorem InputOf.openInput {named : Option String} (h : sys.InputOf stdin named input) :
    sys.openInput stdin named = .ok input := by
  cases h with
  | stdin => rfl
  | file h =>
    rw [System.openInput, h]
    rfl

end System

namespace Command

open Machine

variable {sys : System} {arguments : List String} {given : Given} {o : Options}
  {stdin program input : List ReadEvent} {fuel : Nat}

section Accepted

variable (haccepted : sys.arguments.parse arguments = .ok given)

include haccepted

variable (hprogram : sys.opens given.options.program = .ok program)
  (hinput : sys.InputOf stdin given.options.input input)

include hprogram hinput

variable (hholds : sys.memory.Holds given.options.config.tapeSize)

include hholds

end Accepted

end Command

end TapeMachine
