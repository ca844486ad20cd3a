import TapeMachine.Text.Blank
import TapeMachine.Text.Numeric

/-!
# Patterns

Which texts are regular expressions. A pattern is read from left to right: `step` takes one
construct off the text, and `State` holds what the constructs before it have left open. The pattern
is well formed if every construct is and nothing stays open at its end.

The patterns meant here stand in braces themselves, so they hold no closing brace; a brace that
would open a counted repetition is therefore never in place. A construct whose meaning depends on
properties of characters beyond ASCII is refused: classes of words, digits and blanks, boundaries of
words, and letters in any case, unless the pattern has given up such characters with `(?-u)`. Where
they are given up, no class, negation or dot may stand for them.
-/

namespace TapeMachine.Pattern

/-- The settings under which a part of a pattern is read. -/
structure Mode where
  unicode : Bool := true
  anyCase : Bool := false
  verbose : Bool := false
  deriving DecidableEq

/-- What a backslash stands for, together with the characters after it. -/
inductive Escape where
  | literal (c : Char)
  | charClass
  | assertion
  deriving DecidableEq

/-- What the constructs that were read have left open. `outer` holds the modes around the open
groups, `names` the names of groups, `repeatable` tells whether a construct that can be repeated
has just ended, and `classes` counts the open classes. -/
structure State where
  mode : Mode := {}
  outer : List Mode := []
  names : List (List Char) := []
  repeatable : Bool := false
  classes : Nat := 0
  deriving DecidableEq

/-! ## Blanks and settings -/

/-- The text after blanks and comments. A comment goes from a number sign to the end of the line. -/
def afterComments (inComment : Bool) : List Char → List Char
  | [] => []
  | c :: rest =>
    if inComment then afterComments (c ≠ '\n') rest
    else if isBlank c then afterComments false rest
    else if c = '#' then afterComments true rest
    else c :: rest

namespace Mode

/-- The text from its next construct on. Blanks and comments count in verbose mode only. -/
def next (m : Mode) (text : List Char) : List Char :=
  if m.verbose then afterComments false text else text

/-- Whether literals and classes would have to match in any case beyond ASCII. -/
def foldsUnicode (m : Mode) : Bool := m.unicode && m.anyCase

/-- The mode after a list of flags, those behind a hyphen being switched off. No flag stands twice,
and the hyphen is not the last. -/
def switch? (flags : List Char) (m : Mode) : Option Mode :=
  if flags.all ("imsUuRx-".toList.contains ·) && flags.Nodup && flags.getLast? ≠ some '-' then
    let on := flags.takeWhile (· ≠ '-')
    let setting (flag : Char) (old : Bool) : Bool :=
      if flag ∈ on then true else if flag ∈ flags then false else old
    some ⟨setting 'u' m.unicode, setting 'i' m.anyCase, setting 'x' m.verbose⟩
  else none

end Mode

/-! ## Escapes -/

/-- The value of a hexadecimal digit. -/
def hexDigit? (c : Char) : Option Nat := "0123456789abcdef".toList.findIdx? (· = c.toLower)

/-- The character whose code is given by hexadecimal digits of a fixed number, and the rest. -/
def coded? (count : Nat) (text : List Char) : Option (Char × List Char) := do
  let digits ← (text.take count).mapM hexDigit?
  let code := digits.foldl (16 * · + ·) 0
  if digits.length = count ∧ code.isValidChar then some (.ofNat code, text.drop count) else none

/-- The control characters that have an escape of one letter. -/
def controls : List (Char × Char) :=
  [('a', '\x07'), ('f', '\x0c'), ('n', '\n'), ('r', '\r'), ('t', '\t'), ('v', '\x0b')]

/-- Reads what stands after a backslash. Any mark of ASCII may be escaped. -/
def escape? (m : Mode) : List Char → Option (Escape × List Char)
  | [] => none
  | 'x' :: rest =>
    (coded? 2 rest).bind fun (c, rest) =>
      if m.unicode || c.toNat < 128 then some (.literal c, rest) else none
  | 'u' :: rest => (coded? 4 rest).map fun (c, rest) => (.literal c, rest)
  | 'U' :: rest => (coded? 8 rest).map fun (c, rest) => (.literal c, rest)
  | c :: rest =>
    if c ∈ ['A', 'z'] then some (.assertion, rest)
    else if c ∈ ['b', 'B', '<', '>'] then if m.unicode then none else some (.assertion, rest)
    else if c ∈ ['d', 's', 'w'] then if m.unicode then none else some (.charClass, rest)
    else
      match controls.lookup c with
      | some control => some (.literal control, rest)
      | none => if c.isAlphanum || 128 ≤ c.toNat then none else some (.literal c, rest)

/-! ## Classes -/

/-- The names of the classes of ASCII characters. -/
def classNames : List String :=
  ["alnum", "alpha", "ascii", "blank", "cntrl", "digit", "graph", "lower", "print", "punct",
    "space", "upper", "word", "xdigit"]

/-- The text after a named class whose bracket is open, as `:digit:]` or negated `:^digit:]`. -/
def afterNamedClass? (m : Mode) : List Char → Option (List Char)
  | ':' :: text =>
    let negated := text.head? = some '^'
    let text := if negated then text.drop 1 else text
    match text.dropWhile (· ≠ ':') with
    | ':' :: ']' :: rest =>
      if String.ofList (text.takeWhile (· ≠ ':')) ∈ classNames && (m.unicode || !negated) then
        some rest
      else none
    | _ => none
  | _ => none

/-- Reads a member of a class. It is `none` if it is a class itself. -/
def classMember? (m : Mode) (text : List Char) : Option (Option Char × List Char) := do
  let (member, rest) ← match text with
    | [] => none
    | '\\' :: rest => escape? m rest
    | c :: rest => some (.literal c, rest)
  match member with
  | .literal c => if m.unicode || c.toNat < 128 then some (some c, rest) else none
  | .charClass => some (none, rest)
  | .assertion => none

/-- Reads a member of a class or a range of members. A hyphen before the end of the class or before
another hyphen makes no range. -/
def afterClassItem? (m : Mode) (text : List Char) : Option (List Char) := do
  let (first, rest) ← classMember? m text
  match m.next rest with
  | '-' :: after =>
    match m.next after with
    | ']' :: _ | '-' :: _ => some ('-' :: after)
    | text =>
      match first, ← classMember? m text with
      | some first, (some last, rest) => if first ≤ last then some rest else none
      | _, _ => none
  | rest => some rest

namespace State

/-- A construct that can be repeated has ended. -/
def closed (s : State) : State := { s with repeatable := true }

/-- The state after a literal or a class. -/
def matching? (s : State) : Option State := if s.mode.foldsUnicode then none else some s.closed

/-- Opens a class, after its bracket. Hyphens at the front are members, and so is a closing bracket
that comes first. -/
def openClass? (s : State) (text : List Char) : Option (State × List Char) := do
  let s ← s.matching?
  let text ← match s.mode.next text with
    | '^' :: rest => if s.mode.unicode then some (s.mode.next rest) else none
    | text => some text
  let inside : State := { s with classes := s.classes + 1 }
  match text with
  | ']' :: rest => some (inside, rest)
  | text => some (inside, text.dropWhile (· = '-'))

/-- Takes one construct off the text inside a class. -/
def classStep (s : State) (text : List Char) : Option (State × List Char) :=
  match s.mode.next text with
  | [] => none
  | '[' :: rest =>
    match afterNamedClass? s.mode rest with
    | some rest => some (s, rest)
    | none => s.openClass? rest
  | ']' :: rest => some ({ s with classes := s.classes - 1 }, rest)
  | '&' :: '&' :: rest | '-' :: '-' :: rest | '~' :: '~' :: rest => some (s, rest)
  | text => (afterClassItem? s.mode text).map (s, ·)

/-! ## Groups -/

/-- Opens a group that is read in the given mode. -/
def openGroup (mode : Mode) (s : State) : State :=
  { s with mode, outer := s.mode :: s.outer, repeatable := false }

/-- Whether a text can name a group. -/
def isGroupName : List Char → Bool
  | [] => false
  | first :: rest =>
    (first = '_' || isAlphabetic first)
      && rest.all fun c => c ∈ ['_', '.', '[', ']'] || isAlphanumeric c

/-- Opens a group with a name that no other group has. -/
def openNamed? (s : State) (text : List Char) : Option (State × List Char) :=
  let name := text.takeWhile (· ≠ '>')
  match text.dropWhile (· ≠ '>') with
  | [] => none
  | _ :: rest =>
    if isGroupName name && name ∉ s.names then
      some ({ s.openGroup s.mode with names := name :: s.names }, rest)
    else none

/-- Opens a group after its parenthesis, or switches the mode for the rest of the group around. -/
def group? (s : State) (text : List Char) : Option (State × List Char) :=
  match s.mode.next text with
  | '?' :: 'P' :: '<' :: rest | '?' :: '<' :: rest => s.openNamed? rest
  | '?' :: rest => do
    let flags := rest.takeWhile fun c => c ≠ ':' && c ≠ ')'
    let mode ← s.mode.switch? flags
    match rest.dropWhile fun c => c ≠ ':' && c ≠ ')' with
    | [] => none
    | ':' :: rest => some (s.openGroup mode, rest)
    | _ :: rest => if flags.isEmpty then none else some ({ s with mode, repeatable := false }, rest)
  | rest => some (s.openGroup s.mode, rest)

/-! ## Patterns -/

/-- Takes one construct off the text outside classes. -/
def outerStep (s : State) (text : List Char) : Option (State × List Char) :=
  match s.mode.next text with
  | [] => some (s, [])
  | '(' :: rest => s.group? rest
  | ')' :: rest =>
    match s.outer with
    | [] => none
    | mode :: outer => some ({ s with mode, outer, repeatable := true }, rest)
  | '|' :: rest => some ({ s with repeatable := false }, rest)
  | '[' :: rest => s.openClass? rest
  | '\x7b' :: _ => none
  | '.' :: rest => if s.mode.unicode then some (s.closed, rest) else none
  | '\\' :: rest => do
    match ← escape? s.mode rest with
    | (.assertion, rest) => some (s.closed, rest)
    | (_, rest) => (·, rest) <$> s.matching?
  | c :: rest =>
    if c ∈ ['*', '+', '?'] then
      if s.repeatable then some (s, if rest.head? = some '?' then rest.drop 1 else rest) else none
    else if c ∈ ['^', '$'] then some (s.closed, rest)
    else (·, rest) <$> s.matching?

/-- Takes one construct off the text. -/
def step (s : State) (text : List Char) : Option (State × List Char) :=
  if s.classes = 0 then s.outerStep text else s.classStep text

/-- Whether nothing is open. -/
def isComplete (s : State) : Bool := s.classes = 0 && s.outer.isEmpty

/-- Whether the text completes the pattern that was begun. Every construct takes a character. -/
def accepts (s : State) (text : List Char) : Bool :=
  if text.isEmpty then s.isComplete
  else
    match s.step text with
    | none => false
    | some (next, rest) => if rest.length < text.length then next.accepts rest else false
termination_by text.length

end State

/-- Whether a text is a well-formed pattern. -/
def isWellFormed (text : String) : Bool := State.accepts {} text.toList

end TapeMachine.Pattern
