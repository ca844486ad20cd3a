import TapeMachine.Machine.Step

/-!
# What a machine needs next

The answers of the outside world need not be known in advance. `demand` tells, from the answers
known so far, what the next step will ask for, and `offer` supplies it. A machine asks for a program
byte only when its recording is used up and for an input byte only when an input operation comes
next, so a program can be executed while it arrives.
-/

namespace TapeMachine

/-- What the next step asks of the outside world. -/
inductive Demand where
  | nothing
  /-- The answer of a read of the program. -/
  | programByte
  /-- The answer of a read of the input. -/
  | inputByte
  /-- That a byte be written and flushed. -/
  | put (value : UInt8)
  deriving DecidableEq

/-- An answer with which reading on to the next operation is not over. -/
def ReadEvent.isSilent : ReadEvent → Bool
  | byte value => (Op.ofByte? value).isNone
  | interrupted => true
  | endOfStream | failure _ => false

/-- Nothing that is known of the program ends the search for the next operation. -/
def Source.awaits (s : Source) : Bool := !s.exhausted && s.events.all ReadEvent.isSilent

namespace Machine

/-- The operation that the next step handles, as far as it is known. -/
def nextOp? (m : Machine) : Option Op :=
  match m.recording.ops[m.recording.cursor]? with
  | some op => some op
  | none =>
    match m.source.next.1 with
    | .ok op => op
    | .error _ => none

/-- The next operation has to be read from the program, of which too little is known. -/
def awaitsProgram (m : Machine) : Bool :=
  m.recording.ops[m.recording.cursor]?.isNone && m.source.awaits

/-- What the next step asks for. -/
def demand (m : Machine) : Demand :=
  match m.mode with
  | .halted => .nothing
  | .skipping _ => if m.awaitsProgram then .programByte else .nothing
  | .running =>
    if m.awaitsProgram then .programByte
    else
      match m.nextOp? with
      | some .input => if m.input.all (· = .interrupted) then .inputByte else .nothing
      | some .output => .put m.tape.current
      | _ => .nothing

/-- Makes the answer of a program read known. -/
def offerProgram (event : ReadEvent) (m : Machine) : Machine :=
  { m with source := { m.source with events := m.source.events ++ [event] } }

/-- Makes the answer of an input read known. -/
def offerInput (event : ReadEvent) (m : Machine) : Machine :=
  { m with input := m.input ++ [event] }

/-- Makes the answer of a write known. -/
def offerWrite (reply : WriteReply) (m : Machine) : Machine :=
  { m with sink := { m.sink with writes := m.sink.writes ++ [reply] } }

end Machine

end TapeMachine
