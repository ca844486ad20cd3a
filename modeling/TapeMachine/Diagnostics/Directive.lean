import TapeMachine.Diagnostics.Record
import TapeMachine.Text.Blank
import TapeMachine.Text.Numeral
import TapeMachine.Text.Numeric
import TapeMachine.Text.Offset
import TapeMachine.Text.Pattern
import TapeMachine.Text.Spelling

/-!
# Directives

A directive sets a limit for the records that it is about. In full it reads
`target[span{detail=value}]=level`, and every part may be missing. It is about the records whose
target begins with the given text and that have the given detail. A span, or a value for the detail,
asks for what no record of a component has, so such a directive decides about none of them.

The form of a directive is that of its text without the blanks around it. Its parts, however, are
taken from the text as it was given, at the same byte offsets: blanks in front shift the parts, and
blanks behind belong to the last one.
-/

namespace TapeMachine

/-- A condition on the details of a record: that one has this name and, if a value is given, that it
is this value. -/
structure DetailTest where
  name : String
  value : Option String
  deriving DecidableEq

/-- A limit for some of the records. Where no target is given it is about all targets, and no limit
means that nothing is let through. -/
structure Directive where
  target : Option String
  span : Option String
  detail : Option DetailTest
  limit : Option Severity
  deriving DecidableEq

/-- The severity of a rank, where rank 0 stands for no severity at all. -/
def Severity.ofRank? : Nat → Option (Option Severity)
  | 0 => some none
  | rank => (all.find? fun s => s.rank == rank).map some

/-- The limit that a text names, by its rank or by its name in any case. -/
def Severity.limit? (text : String) : Option (Option Severity) :=
  match Numeral.natural? text with
  | some rank => ofRank? rank
  | none =>
    if Spelling.agrees true "off" text then some none
    else (all.find? fun s => Spelling.agrees true s.name text).map some

namespace DetailTest

/-- Whether a text can be the value of a detail: a number or a pattern. -/
def isValue (text : String) : Bool := Numeral.isFractional text || Pattern.isWellFormed text

/-- Reads a name and perhaps a value behind an equals sign. A second equals sign ends the value. -/
def ofText? (text : String) : Option DetailTest :=
  match text.splitOn "=" with
  | name :: value :: _ => if isValue value then some ⟨name, some value⟩ else none
  | _ => some ⟨text, none⟩

/-- Whether a record passes. The values of its details are not known to the filter. -/
def holdsOf (r : Record) (test : DetailTest) : Bool := test.value.isNone && r.mentions test.name

end DetailTest

namespace Directive

/-! ## The form of a directive -/

/-- The place of a part, as byte offsets. -/
structure Extent where
  start : Nat
  stop : Nat
  deriving DecidableEq

/-- The place of a part that begins at an offset. -/
def Extent.at (start : Nat) (part : List Char) : Extent := ⟨start, start + Offset.size part⟩

/-- Where the parts of a directive stand. A level runs to the end of the text. A text without marks
is a word, which is a level or a target. -/
inductive Form where
  | word
  | parts (target span detail : Option Extent) (level : Option Nat)
  deriving DecidableEq

/-- The characters with which a target or a level may begin. -/
def canBegin (c : Char) : Bool := c ∈ ['-', ':', '_'] || isAlphanumeric c

namespace Form

/-- Reads on behind the bracket that closes a span. -/
def afterSpan? (target span detail : Option Extent) (offset : Nat) : List Char → Option Form
  | [] => some (.parts target span detail none)
  | '=' :: _ => some (.parts target span detail (some (offset + 1)))
  | _ => none

/-- Reads on behind the bracket that opens a span. In braces there is a detail, which is not empty,
and with a detail the name of the span may be missing. -/
def inSpan? (target : Option Extent) (offset : Nat) (text : List Char) : Option Form :=
  let name := text.takeWhile fun c => c ≠ ']' && c ≠ '\x7b'
  let span := Extent.at offset name
  match text.dropWhile fun c => c ≠ ']' && c ≠ '\x7b' with
  | [] => none
  | ']' :: rest => afterSpan? target (some span) none (span.stop + 1) rest
  | _ :: rest =>
    let inner := rest.takeWhile (· ≠ '\x7d')
    let detail := Extent.at (span.stop + 1) inner
    match rest.dropWhile (· ≠ '\x7d') with
    | _ :: ']' :: rest =>
      if inner.isEmpty then none
      else
        afterSpan? target (if name.isEmpty then none else some span) (some detail)
          (detail.stop + 2) rest
    | _ => none

/-- The form of a text that has no blanks around it. -/
def ofTrimmed? : List Char → Option Form
  | [] => none
  | '[' :: rest => inSpan? none 1 rest
  | c :: rest =>
    if !canBegin c then none
    else
      let target := Extent.at 0 ((c :: rest).takeWhile fun c => c ≠ '=' && c ≠ '[')
      match (c :: rest).dropWhile fun c => c ≠ '=' && c ≠ '[' with
      | [] => some .word
      | '[' :: rest => inSpan? (some target) (target.stop + 1) rest
      | _ => some (.parts (some target) none none (some (target.stop + 1)))

end Form

/-! ## Reading -/

/-- The part of a text at a place. -/
def Extent.part? (text : String) (e : Extent) : Option String :=
  (Offset.between? e.start e.stop text.toList).map .ofList

/-- The limit that stands at the end of a text, from an offset on. A level that is empty, or that is
not there, lets everything through. -/
def limitFrom? (text : String) : Option Nat → Option (Option Severity)
  | none => some (some .trace)
  | some start => do
    let level ← Offset.from? start text.toList
    if level.isEmpty then some (some .trace) else Severity.limit? (.ofList level)

/-- The directive of a word. A word that is no level is a target. -/
def ofWord (text : String) : Directive :=
  match Severity.limit? text with
  | some limit => ⟨none, none, none, limit⟩
  | none => ⟨some text, none, none, some .trace⟩

/-- Reads a directive. -/
def ofText? (text : String) : Option Directive := do
  match ← Form.ofTrimmed? (trimBlanks text.toList) with
  | .word => some (ofWord text)
  | .parts target span detail level =>
    return {
      target := ← target.mapM (·.part? text)
      span := ← span.mapM (·.part? text)
      detail := ← detail.mapM fun e => e.part? text >>= DetailTest.ofText?
      limit := ← limitFrom? text level }

/-! ## Deciding -/

/-- Whether the directive is about a record. Records stand in no span. -/
def appliesTo (r : Record) (d : Directive) : Bool :=
  d.span.isNone && d.target.all (r.target.startsWith ·) && d.detail.all (·.holdsOf r)

/-- How narrow the directive is: by the length of its target first, and then by its detail. -/
def narrowness (d : Directive) : Nat × String :=
  (d.target.elim 0 fun target => target.utf8ByteSize + 1, d.detail.elim "" (·.name))

/-- Whether a later directive decides where this one would. -/
def yieldsTo (d later : Directive) : Bool :=
  d.narrowness.1 < later.narrowness.1
    || d.narrowness.1 = later.narrowness.1 && d.narrowness.2 ≤ later.narrowness.2

end Directive

end TapeMachine
