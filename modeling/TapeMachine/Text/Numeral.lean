import TapeMachine.Text.Spelling

/-!
# Decimal numerals

Numerals are written with the digits 0 to 9 and at least one of them. A plus sign may stand in
front and leading zeros are allowed; no blank or separator is. A fractional numeral may moreover
have a minus sign, a point and an exponent, or be one of three words.
-/

namespace TapeMachine.Numeral

/-- The value of a sequence of digits. -/
def ofDigits? (digits : List Char) : Option Nat :=
  if digits.isEmpty || !digits.all Char.isDigit then none
  else some (digits.foldl (fun value digit => 10 * value + (digit.toNat - 48)) 0)

/-- The value of a numeral without a minus sign. -/
def natural? (text : String) : Option Nat :=
  match text.toList with
  | '+' :: digits => ofDigits? digits
  | digits => ofDigits? digits

/-- The value of a numeral that may have a minus sign. -/
def integer? (text : String) : Option Int :=
  match text.toList with
  | '-' :: digits => (ofDigits? digits).map fun value => -(value : Int)
  | _ => (natural? text).map fun value => (value : Int)

/-- The text after its sign, if it has one. -/
def afterSign : List Char → List Char
  | '+' :: rest | '-' :: rest => rest
  | text => text

/-- Whether a text is an exponent or empty. -/
def isExponent : List Char → Bool
  | [] => true
  | mark :: rest => (mark = 'e' || mark = 'E') && (ofDigits? (afterSign rest)).isSome

/-- Whether a text is digits with at most one point among them, and perhaps an exponent. A digit
stands on one side of the point at least. -/
def isMagnitude (text : List Char) : Bool :=
  let whole := text.takeWhile Char.isDigit
  match text.dropWhile Char.isDigit with
  | '.' :: rest =>
    !(whole ++ rest.takeWhile Char.isDigit).isEmpty && isExponent (rest.dropWhile Char.isDigit)
  | rest => !whole.isEmpty && isExponent rest

/-- Whether a text is a fractional numeral. Every other numeral is one too. -/
def isFractional (text : String) : Bool :=
  let unsigned := afterSign text.toList
  isMagnitude unsigned
    || ["inf", "infinity", "nan"].any fun word => Spelling.agrees true word (.ofList unsigned)

end TapeMachine.Numeral
