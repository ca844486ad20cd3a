import TapeMachine.Command.Report
import TapeMachine.Machine.Demand

/-!
# The command line

The command with real files and streams. Files are opened before anything is executed; program and
input are read byte by byte, when the machine asks for them. What is written where, and when a run
is over, is decided in `TapeMachine.Command`.
-/

namespace TapeMachine.Command

/-- A failure of the system: its text and its number. -/
def describe : IO.Error → IoError
  | .otherError code text | .resourceBusy code text | .resourceVanished code text
  | .unsupportedOperation code text | .hardwareFault code text
  | .unsatisfiedConstraints code text | .illegalOperation code text | .protocolError code text
  | .timeExpired code text | .alreadyExists _ code text | .interrupted _ code text
  | .noFileOrDirectory _ code text | .invalidArgument _ code text
  | .permissionDenied _ code text | .resourceExhausted _ code text
  | .inappropriateType _ code text | .noSuchThing _ code text =>
    ⟨text ++ " (os error " ++ toString code ++ ")"⟩
  | .userError text => ⟨text⟩
  | .unexpectedEof => ⟨"unexpected end of file"⟩

/-- The answer of one read of one byte. -/
def readOne (stream : IO.FS.Stream) : IO ReadEvent := do
  try
    match (← stream.read 1).toList with
    | value :: _ => return .byte value
    | [] => return .endOfStream
  catch
    | .interrupted .. => return .interrupted
    | e => return .failure (describe e)

/-- Writes and flushes one byte. -/
def writeOne (stream : IO.FS.Stream) (value : UInt8) : IO WriteReply := do
  try
    stream.write (ByteArray.empty.push value)
    stream.flush
    return .taken
  catch e => return .failure (describe e)

/-- The streams of a run. -/
structure Streams where
  program : IO.FS.Stream
  input : IO.FS.Stream
  output : IO.FS.Stream
  errors : IO.FS.Stream

/-- Runs a machine to its end, answering its demands, and writes its records on the way. -/
partial def drive (s : Streams) (log : Subscriber) (m : Machine) :
    IO (Machine × Option Fault) := do
  match m.demand with
  | .programByte => drive s log (m.offerProgram (← readOne s.program))
  | .inputByte => drive s log (m.offerInput (← readOne s.input))
  | demand =>
    let m ← match demand with
      | .put value => (m.offerWrite ·) <$> writeOne s.output value
      | _ => pure m
    let step := m.step
    for line in log.lines (step.events.map Event.record) do
      s.errors.putStrLn line
    match step.machine.mode with
    | .halted => return (step.machine, step.fault)
    | _ => drive s log step.machine

/-- Opens a file for reading. -/
def openFile (obstacle : IoError → Obstacle) (path : String) :
    IO (Except Obstacle IO.FS.Stream) := do
  try return .ok (.ofHandle (← IO.FS.Handle.mk path .read))
  catch e => return .error (obstacle (describe e))

/-- Opens the streams and gets the machine that the options ask for. -/
def prepare (o : Options) : IO (Except Obstacle (Streams × Machine)) := do
  match ← openFile (.program o.program) o.program with
  | .error obstacle => return .error obstacle
  | .ok program =>
    let input ← match o.input with
      | none => Except.ok <$> IO.getStdin
      | some path => openFile (.input path) path
    match input with
    | .error obstacle => return .error obstacle
    | .ok input =>
      let streams := ⟨program, input, ← IO.getStdout, ← IO.getStderr⟩
      return (o.machine .unlimited [] []).map (streams, ·)

/-- Executes what the options ask for and gives the exit code. -/
def perform (o : Options) (log : Subscriber) : IO UInt32 := do
  let errors ← IO.getStderr
  match ← prepare o with
  | .error obstacle =>
    for line in (obstacle.report []).lines do
      errors.putStrLn line
    return obstacle.exitCode.toUInt32
  | .ok (streams, machine) =>
    let (machine, fault) ← drive streams log machine
    match fault with
    | some fault =>
      errors.putStrLn (errorLine ["failed to execute " ++ o.program, fault.report])
      return 1
    | none =>
      for line in log.lines [machine.closing.record, doneRecord machine.summary] do
        errors.putStrLn line
      return 0

end TapeMachine.Command

/-- The command with its arguments. The text that asks for diagnostics comes from the
environment. -/
def main (arguments : List String) : IO UInt32 := do
  let log := TapeMachine.Filter.logging.inForce (← IO.getEnv "RUST_LOG")
  match TapeMachine.ArgumentParser.ofOptions.parse arguments with
  | .error parting =>
    (← IO.getStdout).write ⟨parting.output⟩
    for line in parting.lines do
      (← IO.getStderr).putStrLn line
    return parting.exitCode.toUInt32
  | .ok given => TapeMachine.Command.perform given.options log
