import TapeMachine.Machine.Config
import TapeMachine.Program.Recording
import TapeMachine.Stream.Sink
import TapeMachine.Tape.Basic

/-!
# The state of a machine

A machine executes the operations of its program as they arrive. It holds the two streams, the
sink, the tape, the recording of the current top-level loop with the positions of the loops entered
in it, and its counters. Counters of steps and of bytes are taken to stay below 2^64, and the depths
of loops below the number of addresses.
-/

namespace TapeMachine

/-- What a machine does with the next operation. -/
inductive Mode where
  | running
  /-- Operations are passed over up to the end of a loop that was not entered. The depth counts
  its brackets that are still to be closed. -/
  | skipping (depth : Nat)
  | halted
  deriving DecidableEq

/-- The mode in which so many brackets are still to be closed. -/
def Mode.within : Nat → Mode
  | 0 => running
  | depth + 1 => skipping (depth + 1)

/-- The counts reported for a run. Each of them is taken to stay below 2^64. -/
structure Summary where
  /-- Operations executed, the ones passed over excluded. -/
  steps : Nat
  /-- Bytes that were written and flushed. -/
  outputBytes : Nat
  /-- Brackets still to be closed when the program ended. -/
  unclosedLoops : Nat
  /-- Program bytes consumed, comments included. -/
  programBytes : Nat
  deriving DecidableEq

/-- A machine between two steps. -/
structure Machine where
  config : Config
  source : Source
  /-- The answers of the input reads still to be made. -/
  input : List ReadEvent
  sink : Sink
  tape : Tape
  /-- What has been recorded of the current top-level loop. -/
  recording : Recording
  /-- The loops entered and not left, by the positions of their brackets in the recording. -/
  loops : LoopStack
  mode : Mode
  /-- Operations executed, below 2^64. -/
  steps : Nat
  /-- Bytes that were written and flushed, below 2^64. -/
  outputBytes : Nat
  unclosedLoops : Nat

namespace Machine

/-- A machine that has done nothing yet. -/
def initial (config : Config) (program input : List ReadEvent) (sink : Sink) : Machine where
  config := config
  source := .ofEvents program
  input := input
  sink := sink
  tape := .blank config.tapeSize config.boundary
  recording := .empty
  loops := .empty
  mode := .running
  steps := 0
  outputBytes := 0
  unclosedLoops := 0

/-- The initial machine, if the configuration is acceptable. -/
def start (config : Config) (program input : List ReadEvent) (sink : Sink) :
    Except Fault Machine :=
  match config.check with
  | .ok () => .ok (initial config program input sink)
  | .error fault => .error fault

/-- The counts so far. -/
def summary (m : Machine) : Summary :=
  ⟨m.steps, m.outputBytes, m.unclosedLoops, m.source.offset⟩

theorem start_eq_ok_iff {config : Config} {program input : List ReadEvent} {sink : Sink}
    {m : Machine} : start config program input sink = .ok m ↔
      config.Valid ∧ m = initial config program input sink := by
  unfold start
  rw [← Config.check_eq_ok_iff]
  split <;> rename_i h <;> simp [h, eq_comm]

end Machine

end TapeMachine
