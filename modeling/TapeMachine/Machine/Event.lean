import TapeMachine.Diagnostics.Record
import TapeMachine.Op

/-!
# Machine events

What a machine reports about its own work.
-/

namespace TapeMachine

/-- A notable moment of a run. -/
inductive Event where
  /-- An operation is about to be executed. The position is the one after it in the recording, or 0
  if nothing is being recorded; cursor and cell are those before the operation. -/
  | dispatch (op : Op) (position cursor : Nat) (cell : UInt8)
  /-- A loop is entered, whose opening bracket is recorded at a position, as the `depth`-th of
  the loops that are then entered. -/
  | enterLoop (position depth : Nat)
  /-- A top-level loop is left, of which so many operations were recorded. -/
  | leaveLoop (recorded : Nat)
  /-- The program ended although brackets were still to be closed. -/
  | endedInsideLoop (unclosedLoops : Nat)
  /-- A run to the end of the program is complete. -/
  | finished (steps outputBytes programBytes : Nat)
  deriving DecidableEq

namespace Event

/-- The component under which machines report. -/
def target : String := "streambf::engine"

/-- The event as a diagnostic record. -/
def record : Event → Record
  | dispatch op position cursor cell =>
    ⟨.trace, target, "dispatch", [("op", .text op.symbol.toString), ("pc", .number position),
      ("cursor", .number cursor), ("cell", .number cell.toNat)]⟩
  | enterLoop position depth =>
    ⟨.debug, target, "enter loop", [("position", .number position), ("depth", .number depth)]⟩
  | leaveLoop recorded =>
    ⟨.debug, target, "leave top-level loop", [("recorded", .number recorded)]⟩
  | endedInsideLoop unclosedLoops =>
    ⟨.warn, target, "program ended inside a loop", [("unclosed_loops", .number unclosedLoops)]⟩
  | finished steps outputBytes programBytes =>
    ⟨.debug, target, "program finished", [("steps", .number steps),
      ("output_bytes", .number outputBytes), ("program_bytes", .number programBytes)]⟩

end Event

end TapeMachine
