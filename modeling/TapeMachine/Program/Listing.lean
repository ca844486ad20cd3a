import TapeMachine.Op
import TapeMachine.Stream.Reading

/-!
# Program texts

A program as a whole: the bytes of its text, the operations that they denote, and the place of each
operation in the text. These are the terms in which a run is compared with the text that it
executes; a machine itself never holds the text.
-/

namespace TapeMachine.Listing

/-- The operations that a text denotes, in order. -/
def operations (text : List UInt8) : List Op := text.filterMap Op.ofByte?

/-- The operations of a text, each with the offset of its byte. The first byte has the given
offset. -/
def located (offset : Nat) : List UInt8 → List (Nat × Op)
  | [] => []
  | byte :: rest =>
    match Op.ofByte? byte with
    | some op => (offset, op) :: located (offset + 1) rest
    | none => located (offset + 1) rest

/-- The bytes that a stream delivers before its first end. Interruptions and failures deliver
none. -/
def delivered : List ReadEvent → List UInt8
  | [] => []
  | .endOfStream :: _ => []
  | .byte value :: rest => value :: delivered rest
  | .interrupted :: rest => delivered rest
  | .failure _ :: rest => delivered rest

/-- The stream reports no failure before its first end. -/
def Unfailing : List ReadEvent → Prop
  | [] => True
  | .endOfStream :: _ => True
  | .failure _ :: _ => False
  | .byte _ :: rest => Unfailing rest
  | .interrupted :: rest => Unfailing rest

/-- Locating the operations leaves out none of them. -/
theorem map_snd_located (offset : Nat) (text : List UInt8) :
    (located offset text).map Prod.snd = operations text := by
  induction text generalizing offset with
  | nil => rfl
  | cons byte rest ih =>
    unfold located operations
    cases h : Op.ofByte? byte with
    | none => simpa [h, operations] using ih (offset + 1)
    | some op => simpa [h, operations] using ih (offset + 1)

theorem operations_append (first second : List UInt8) :
    operations (first ++ second) = operations first ++ operations second := by
  simp [operations]

@[simp] theorem delivered_bytes (text : List UInt8) : delivered (text.map .byte) = text := by
  induction text with
  | nil => rfl
  | cons byte rest ih => simp [delivered, ih]

end TapeMachine.Listing
