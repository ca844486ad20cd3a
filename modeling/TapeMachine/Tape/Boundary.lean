import TapeMachine.Text.Spelling

/-!
# Boundaries of the tape

What becomes of a move past an end of the tape.
-/

namespace TapeMachine

/-- The rule for moves past an end of the tape. -/
inductive Boundary where
  /-- The cursor goes on at the other end. -/
  | wrap
  /-- The cursor stays where it is. -/
  | clamp
  /-- A zero cell is appended on the right; a move past the left end is refused. -/
  | growRight
  /-- Every such move is refused. -/
  | strict
  deriving DecidableEq

namespace Boundary

def all : List Boundary := [wrap, clamp, growRight, strict]

/-- The name by which the boundary is chosen. -/
def name : Boundary → String
  | wrap => "wrap"
  | clamp => "clamp"
  | growRight => "grow-right"
  | strict => "strict"

def ofName (ignoreCase : Bool) (text : String) : Except UnknownName Boundary :=
  Spelling.choose name all ignoreCase text

theorem ofName_eq_ok_iff {text : String} {boundary : Boundary} :
    ofName false text = .ok boundary ↔ boundary.name = text :=
  Spelling.choose_eq_ok_iff (fun boundary => by cases boundary <;> decide)
    fun first second => by cases first <;> cases second <;> decide

end Boundary

end TapeMachine
