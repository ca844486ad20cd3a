import TapeMachine.Machine.Config

/-!
# Command-line options

The command has options with one value each. How an argument list is read is not fixed here: an
`ArgumentParser` says which lists are accepted, and what they give. What is not given has its
default. Arguments and paths are texts.
-/

namespace TapeMachine

/-- The values that an accepted argument list gives. -/
structure Given where
  program : Option String := none
  input : Option String := none
  tapeSize : Option UInt64 := none
  boundary : Option Boundary := none
  inputTransform : Option InputTransform := none
  eofValue : Option UInt8 := none
  deriving DecidableEq

/-- What a parser says when it ends the command itself, because it refuses the arguments or because
they only ask for help. -/
structure Parting where
  exitCode : UInt8
  output : Array UInt8
  lines : List String
  deriving DecidableEq

/-- A way to read argument lists. -/
structure ArgumentParser where
  parse : List String → Except Parting Given
  /-- Sizes are declared to be 1 at least. -/
  tapeSize_pos : ∀ {arguments given size}, parse arguments = .ok given →
    given.tapeSize = some size → 0 < size

/-- What the command is asked for. Without an input path the standard input is read. -/
structure Options where
  program : String
  input : Option String
  tapeSize : UInt64
  boundary : Boundary
  inputTransform : InputTransform
  eofValue : UInt8
  deriving DecidableEq

/-- What is not given has its default. -/
def Given.options (g : Given) : Options where
  program := g.program.getD "program.bf"
  input := g.input
  tapeSize := g.tapeSize.getD 30000
  boundary := g.boundary.getD .wrap
  inputTransform := g.inputTransform.getD .identity
  eofValue := g.eofValue.getD 0

/-- The settings of the machine. -/
def Options.config (o : Options) : Config :=
  ⟨o.tapeSize.toNat, o.boundary, o.inputTransform, o.eofValue⟩

end TapeMachine
