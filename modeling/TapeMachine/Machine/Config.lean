import TapeMachine.Fault
import TapeMachine.Tape.Boundary

/-!
# Configurations

The settings of a machine: the size and boundary of its tape and the treatment of input. The only
configuration that is refused is one without cells.
-/

namespace TapeMachine

/-- What is done to an input byte before it is stored. -/
inductive InputTransform where
  | identity
  /-- Subtracts the code of the digit zero, modulo 256, so that a digit is read as its value. -/
  | subtractAsciiZero
  deriving DecidableEq

namespace InputTransform

def all : List InputTransform := [identity, subtractAsciiZero]

/-- The name by which the transform is chosen. -/
def name : InputTransform → String
  | identity => "identity"
  | subtractAsciiZero => "subtract-ascii-zero"

def ofName (ignoreCase : Bool) (text : String) : Except UnknownName InputTransform :=
  Spelling.choose name all ignoreCase text

theorem ofName_eq_ok_iff {text : String} {transform : InputTransform} :
    ofName false text = .ok transform ↔ transform.name = text :=
  Spelling.choose_eq_ok_iff (fun transform => by cases transform <;> decide)
    fun first second => by cases first <;> cases second <;> decide

def apply : InputTransform → UInt8 → UInt8
  | identity, value => value
  | subtractAsciiZero, value => value - 48

end InputTransform

/-- The settings of a machine. -/
structure Config where
  tapeSize : Nat := 30000
  boundary : Boundary := .wrap
  inputTransform : InputTransform := .identity
  /-- The value stored by an input operation at the end of the input. -/
  eofValue : UInt8 := 0
  deriving DecidableEq

namespace Config

/-- The tape has a cell for the cursor. -/
def Valid (c : Config) : Prop := 0 < c.tapeSize

/-- What an input operation stores: a byte after its transform, or the value for the end of the
input as it is. -/
def stored (c : Config) : Option UInt8 → UInt8
  | some value => c.inputTransform.apply value
  | none => c.eofValue

/-- Refuses a configuration that is not valid. -/
def check (c : Config) : Except Fault Unit :=
  if c.tapeSize = 0 then .error (.invalidConfig .noCells) else .ok ()

theorem check_eq_ok_iff {c : Config} : c.check = .ok () ↔ c.Valid := by
  unfold check Valid
  split <;> simp <;> omega

end Config

end TapeMachine
