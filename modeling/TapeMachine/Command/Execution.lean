import TapeMachine.Command.System
import TapeMachine.Machine.Run

/-!
# The command

What the command does on a system with its arguments and its standard input: the bytes it puts out,
the lines it writes about itself, and how it ends. The program file is opened first and then the
input file, and the tape is asked for last; nothing is executed unless all of them are there. The
lines of diagnostics come before the line that tells why a run failed, and have no part in anything
else. The standard output takes what it is given, and the memory that a run needs beyond its first
tape is taken to be there.
-/

namespace TapeMachine

/-- What a finished command has done. What the runtime writes when it ends a command is left out. -/
structure Report where
  /-- The exit code, as a shell tells it. -/
  exitCode : UInt8
  output : Array UInt8
  lines : List String
  /-- What has not been read of the standard input. -/
  unread : List ReadEvent

/-- Why a command does not come to execute anything. -/
inductive Obstacle where
  | program (path : String) (error : IoError)
  | input (path : String) (error : IoError)
  /-- The size of the tape is not a number of bytes on this system. -/
  | tapeSize
  | config (fault : Fault)
  | shortage (kind : Shortage)
  deriving DecidableEq

namespace Command

/-- The name with which the command speaks of itself. -/
def name : String := "streambf"

/-- The line that tells why the command failed. -/
def errorLine (parts : List String) : String := ": ".intercalate (name :: parts)

/-- The report of the command that it has succeeded. -/
def doneRecord (s : Summary) : Record :=
  ⟨.debug, name, "done", [("summary", .text ("Summary \x7b steps: " ++ toString s.steps
    ++ ", output_bytes: " ++ toString s.outputBytes
    ++ ", unclosed_loops: " ++ toString s.unclosedLoops
    ++ ", program_bytes: " ++ toString s.programBytes ++ " \x7d"))]⟩

end Command

namespace Obstacle

/-- The parts of the line that the command writes about an obstacle. -/
def parts? : Obstacle → Option (List String)
  | program path error => some ["could not open program " ++ path, error.text]
  | input path error => some ["could not open input " ++ path, error.text]
  | tapeSize =>
    some ["tape size does not fit in memory", "out of range integral type conversion attempted"]
  | config fault => some [fault.report]
  | shortage _ => none

/-- On a size that is too large the runtime panics, and for want of memory it aborts. -/
def exitCode : Obstacle → UInt8
  | shortage .capacity => 101
  | shortage .memory => 134
  | program .. | input .. | tapeSize | config _ => 1

/-- Nothing has been read when a command meets its obstacle. -/
def report (obstacle : Obstacle) (stdin : List ReadEvent) : Report :=
  ⟨obstacle.exitCode, #[], (obstacle.parts?.map Command.errorLine).toList, stdin⟩

end Obstacle

namespace Options

/-- The machine that the options ask for, with its tape in the given memory. -/
def machine (o : Options) (memory : Memory) (program input : List ReadEvent) :
    Except Obstacle Machine := do
  if ¬ memory.counts o.config.tapeSize then
    throw .tapeSize
  o.config.check.mapError .config
  (memory.allocate o.config.tapeSize).mapError .shortage
  return .initial o.config program input .accepting

/-- What a run has left of the standard input. It is not touched if there is an input file. -/
def unread (o : Options) (stdin : List ReadEvent) (m : Machine) : List ReadEvent :=
  match o.input with
  | none => m.input
  | some _ => stdin

/-- The report on a run that is over. -/
def report (o : Options) (s : Subscriber) (stdin : List ReadEvent) (r : Run) : Report :=
  let records := r.events.toList.map Event.record
  let unread := o.unread stdin r.machine
  match r.fault with
  | none =>
    ⟨0, r.machine.sink.bytes, s.lines (records ++ [Command.doneRecord r.machine.summary]), unread⟩
  | some fault =>
    ⟨1, r.machine.sink.bytes,
      s.lines records ++ [Command.errorLine ["failed to execute " ++ o.program, fault.report]],
      unread⟩

end Options

namespace System

/-- The reads of the program. -/
def openProgram (sys : System) (path : String) : Except Obstacle (List ReadEvent) :=
  (sys.opens path).mapError (.program path)

/-- The reads of the input operations: those of the input file, or of the standard input if no file
is named. -/
def openInput (sys : System) (stdin : List ReadEvent) :
    Option String → Except Obstacle (List ReadEvent)
  | none => .ok stdin
  | some path => (sys.opens path).mapError (.input path)

/-- Gets everything ready that the options ask for. -/
def prepare (sys : System) (o : Options) (stdin : List ReadEvent) : Except Obstacle Machine := do
  let program ← sys.openProgram o.program
  let input ← sys.openInput stdin o.input
  o.machine sys.memory program input

/-- Executes what the options ask for. The result is `none` if the fuel is spent before the run is
over. -/
def execute (sys : System) (fuel : Nat) (o : Options) (stdin : List ReadEvent) (s : Subscriber) :
    Option Report :=
  match sys.prepare o stdin with
  | .error obstacle => some (obstacle.report stdin)
  | .ok machine => (machine.run fuel).map (o.report s stdin)

/-- The command, unless the parser of its arguments ends it. -/
def invoke (sys : System) (fuel : Nat) (arguments : List String) (stdin : List ReadEvent)
    (filter : Option String) : Option Report :=
  match sys.arguments.parse arguments with
  | .error parting => some ⟨parting.exitCode, parting.output, parting.lines, stdin⟩
  | .ok given => sys.execute fuel given.options stdin (sys.logging.inForce filter)

end System

end TapeMachine
