/-!
# The eight operations of a tape program

A program text is a string of bytes. Eight byte values denote operations and every other byte is a
comment. Decoding is exact: by `ofByte?_eq_some_iff` a byte is read as an operation only when it is
that operation's own byte, so no operation is lost and none is invented.
-/

namespace TapeMachine

/-- One operation. `input` and `output` exchange a byte with the outside, `loopOpen` and `loopClose`
delimit a loop, and the other four act on the tape. -/
inductive Op where
  | increment
  | decrement
  | right
  | left
  | input
  | output
  | loopOpen
  | loopClose
  deriving DecidableEq

namespace Op

/-- The byte that denotes the operation in a program text. -/
def byte : Op → UInt8
  | increment => 43
  | decrement => 45
  | right => 62
  | left => 60
  | input => 44
  | output => 46
  | loopOpen => 91
  | loopClose => 93

/-- The operation that a byte of a program text denotes; a comment byte denotes none. -/
def ofByte? (b : UInt8) : Option Op :=
  if b = 43 then some increment
  else if b = 45 then some decrement
  else if b = 62 then some right
  else if b = 60 then some left
  else if b = 44 then some input
  else if b = 46 then some output
  else if b = 91 then some loopOpen
  else if b = 93 then some loopClose
  else none

/-- The character that stands for the operation in diagnostics. -/
def symbol (op : Op) : Char := Char.ofUInt8 op.byte

@[simp] theorem ofByte?_byte (op : Op) : ofByte? op.byte = some op := by
  cases op <;> rfl

theorem eq_byte_of_ofByte? {b : UInt8} {op : Op} (h : ofByte? b = some op) : b = op.byte := by
  unfold ofByte? at h
  repeat' split at h
  all_goals cases h
  all_goals assumption

/-- A byte denotes an operation exactly when it is that operation's own byte. -/
theorem ofByte?_eq_some_iff {b : UInt8} {op : Op} : ofByte? b = some op ↔ b = op.byte :=
  ⟨eq_byte_of_ofByte?, fun h => h ▸ ofByte?_byte op⟩

end Op

end TapeMachine
