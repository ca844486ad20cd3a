import TapeMachine.Machine.State
import TapeMachine.Program.Listing

/-!
# Upcoming operations

What a machine has before it: the unread part of its recording, then the operations that its source
has still to deliver. A machine need not reach all of them, and a loop is before it only once.
-/

namespace TapeMachine

/-- The operations that the source has still to deliver. -/
def Source.remaining (s : Source) : List Op :=
  if s.exhausted then [] else Listing.operations (Listing.delivered s.events)

/-- No failure comes before the end of the program. -/
def Source.Unfailing (s : Source) : Prop := s.exhausted = true ∨ Listing.Unfailing s.events

namespace Machine

/-- The recorded operations from the cursor on. -/
def unread (m : Machine) : List Op := m.recording.ops.toList.drop m.recording.cursor

/-- The operations before the machine. -/
def upcoming (m : Machine) : List Op := m.unread ++ m.source.remaining

@[simp] theorem upcoming_initial (config : Config) (program input : List ReadEvent) (sink : Sink) :
    (initial config program input sink).upcoming
      = Listing.operations (Listing.delivered program) := by
  simp [initial, upcoming, unread, Recording.empty, Source.ofEvents, Source.remaining]

end Machine

end TapeMachine
