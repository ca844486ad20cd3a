/-!
# Byte offsets

Places in a text, counted in the bytes that its characters take in UTF-8. A text can be cut between
two characters only.
-/

namespace TapeMachine.Offset

/-- The number of bytes that a text takes. -/
def size : List Char → Nat
  | [] => 0
  | c :: text => c.utf8Size + size text

/-- Cuts a text after a number of bytes. There is no result inside a character or past the end. -/
def split? : Nat → List Char → Option (List Char × List Char)
  | 0, text => some ([], text)
  | _ + 1, [] => none
  | offset + 1, c :: text =>
    if c.utf8Size ≤ offset + 1 then
      (split? (offset + 1 - c.utf8Size) text).map fun (before, after) => (c :: before, after)
    else none

/-- The text from an offset on. -/
def from? (start : Nat) (text : List Char) : Option (List Char) := (split? start text).map (·.2)

/-- The text between two offsets. -/
def between? (start stop : Nat) (text : List Char) : Option (List Char) := do
  from? start (← split? stop text).1

end TapeMachine.Offset
