import TapeMachine.Machine.Config
import TapeMachine.Program.Brackets
import TapeMachine.Tape.Basic

/-!
# The resident evaluator

The meaning of a program that is held in memory as a whole. The partner of each bracket is known in
advance and loops are jumps between partners, so nothing is recorded or passed over. Its sink takes
every byte. A machine that reads the same text as a stream is compared with this evaluator.
-/

namespace TapeMachine

/-- A program in memory: its operations with the offsets of their bytes, and the partners among its
brackets. -/
structure Listing where
  ops : List (Nat × Op)
  partners : List (Nat × Nat)

namespace Listing

/-- The program of a text. -/
def ofText (text : List UInt8) : Listing := ⟨located 0 text, Brackets.partners (operations text)⟩

/-- The partner of the opening bracket at a position. -/
def closing? (l : Listing) (position : Nat) : Option Nat :=
  (l.partners.find? fun pair => pair.1 == position).map Prod.snd

/-- The partner of the closing bracket at a position. -/
def opening? (l : Listing) (position : Nat) : Option Nat :=
  (l.partners.find? fun pair => pair.2 == position).map Prod.fst

end Listing

/-- A program in memory, the position of its next operation, and what it works on. -/
structure Resident where
  config : Config
  listing : Listing
  position : Nat
  tape : Tape
  input : List ReadEvent
  output : Array UInt8

namespace Resident

/-- The program of a text before its first operation. -/
def initial (config : Config) (text : List UInt8) (input : List ReadEvent) : Resident where
  config := config
  listing := .ofText text
  position := 0
  tape := .blank config.tapeSize config.boundary
  input := input
  output := #[]

/-- The outcome of one operation. -/
inductive Outcome where
  | next (state : Resident)
  | stop (state : Resident) (fault : Option Fault)

/-- Goes on at a position. -/
def goto (position : Nat) (r : Resident) : Outcome := .next { r with position := position }

/-- Goes on with the following operation. -/
def advance (r : Resident) : Outcome := r.goto (r.position + 1)

/-- Moves the cursor. -/
def moveCursor (direction : Direction) (r : Resident) : Outcome :=
  match r.tape.move direction with
  | (.ok (), tape) => { r with tape := tape }.advance
  | (.error fault, tape) => .stop { r with tape := tape } fault

/-- Reads from the input into the current cell. -/
def readInput (r : Resident) : Outcome :=
  match readByte r.input with
  | (.ok value, rest) =>
    { r with input := rest, tape := r.tape.set (r.config.stored value) }.advance
  | (.error error, rest) => .stop { r with input := rest } (some (.unavailable .input error))

/-- An opening bracket on a zero cell leads behind its partner, or to the end of the program if it
has none. -/
def enterLoop (r : Resident) : Outcome :=
  if r.tape.current ≠ 0 then r.advance
  else
    match r.listing.closing? r.position with
    | some partner => r.goto (partner + 1)
    | none => r.goto r.listing.ops.length

/-- A closing bracket on a non-zero cell leads behind its partner. Without one it is a fault. -/
def closeLoop (offset : Nat) (r : Resident) : Outcome :=
  match r.listing.opening? r.position with
  | none => .stop r (some (.unmatchedClose offset))
  | some partner => if r.tape.current = 0 then r.advance else r.goto (partner + 1)

/-- Executes the operation at the current position, if there is one. -/
def step (r : Resident) : Outcome :=
  match r.listing.ops[r.position]? with
  | none => .stop r none
  | some (_, .increment) => { r with tape := r.tape.increment }.advance
  | some (_, .decrement) => { r with tape := r.tape.decrement }.advance
  | some (_, .right) => r.moveCursor .right
  | some (_, .left) => r.moveCursor .left
  | some (_, .input) => r.readInput
  | some (_, .output) => { r with output := r.output.push r.tape.current }.advance
  | some (_, .loopOpen) => r.enterLoop
  | some (offset, .loopClose) => r.closeLoop offset

/-- Executes operations until one stops the program. The result is `none` if the fuel is spent
before that. -/
def run : Nat → Resident → Option (Resident × Option Fault)
  | 0, _ => none
  | fuel + 1, r =>
    match r.step with
    | .next r => run fuel r
    | .stop r fault => some (r, fault)

end Resident

end TapeMachine
