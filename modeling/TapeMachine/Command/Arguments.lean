import TapeMachine.Command.Options
import TapeMachine.Text.Numeral

/-!
# Argument lists

An `ArgumentParser` with which the command can be tried out. The arguments are options with one
value each, in any order and each at most once. A value follows its option as the next argument,
after an equals sign, or, for the short form `-f`, at once. A separate value does not begin with a
hyphen unless it is a lone hyphen. A lone double hyphen ends the options; as the command takes no
other arguments, nothing may follow it.
-/

namespace TapeMachine

/-- The options that the command knows. -/
inductive OptionName where
  | program
  | input
  | tapeSize
  | boundary
  | inputTransform
  | eofValue
  deriving DecidableEq

/-- Why an argument list is refused. -/
inductive UsageError where
  /-- An argument that is neither a known option nor its value. -/
  | unexpected (argument : String)
  | missingValue (option : OptionName)
  | repeated (option : OptionName)
  | invalidValue (option : OptionName) (value : String)
  deriving DecidableEq

namespace OptionName

def all : List OptionName := [program, input, tapeSize, boundary, inputTransform, eofValue]

/-- The long form of the option. -/
def long : OptionName → String
  | program => "--file"
  | input => "--input"
  | tapeSize => "--tape-size"
  | boundary => "--boundary"
  | inputTransform => "--input-transform"
  | eofValue => "--eof-value"

/-- The option with the given long form. -/
def ofLong? (text : String) : Option OptionName := all.find? fun option => option.long == text

end OptionName

namespace UsageError

def message : UsageError → String
  | unexpected argument => "error: unexpected argument '" ++ argument ++ "' found"
  | missingValue option => "error: a value is required for '" ++ option.long ++ "'"
  | repeated option =>
    "error: the argument '" ++ option.long ++ "' cannot be used multiple times"
  | invalidValue option value =>
    "error: invalid value '" ++ value ++ "' for '" ++ option.long ++ "'"

end UsageError

/-- Refused arguments end the command with the exit code 2. -/
def UsageError.parting (e : UsageError) : Parting := ⟨2, #[], [e.message]⟩

/-- What a single argument is. -/
inductive Argument where
  /-- An option, with its value if that is part of the same argument. -/
  | option (name : OptionName) (value : Option String)
  | endOfOptions
  | other
  deriving DecidableEq

namespace Argument

/-- Recognises an argument that is not itself the value of an option. -/
def ofText (text : String) : Argument :=
  match text.toList with
  | ['-', '-'] => .endOfOptions
  | '-' :: '-' :: _ =>
    let name := String.ofList (text.toList.takeWhile (· ≠ '='))
    match OptionName.ofLong? name, text.toList.dropWhile (· ≠ '=') with
    | some name, [] => .option name none
    | some name, _ :: value => .option name (some (String.ofList value))
    | none, _ => .other
  | ['-', 'f'] => .option .program none
  | '-' :: 'f' :: '=' :: value => .option .program (some (String.ofList value))
  | '-' :: 'f' :: value => .option .program (some (String.ofList value))
  | _ => .other

/-- Whether an argument can be the separate value of an option. -/
def isValue (text : String) : Bool := text == "-" || !text.startsWith "-"

end Argument

namespace Given

/-- Splits an argument list into options and their values. -/
def pairs : List String → Except UsageError (List (OptionName × String))
  | [] => .ok []
  | text :: rest =>
    match Argument.ofText text with
    | .option name (some value) => ((name, value) :: ·) <$> pairs rest
    | .option name none =>
      match rest with
      | [] => .error (.missingValue name)
      | value :: rest =>
        if Argument.isValue value then ((name, value) :: ·) <$> pairs rest
        else .error (.missingValue name)
    | .endOfOptions =>
      match rest with
      | [] => .ok []
      | extra :: _ => .error (.unexpected extra)
    | .other => .error (.unexpected text)

/-- The number of cells that a text asks for: at least one, and below 2^64. -/
def tapeSize? (text : String) : Option UInt64 :=
  ((Numeral.natural? text).filter (· < UInt64.size)).map UInt64.ofNat |>.filter (0 < ·)

/-- The byte that a text denotes. -/
def byte? (text : String) : Option UInt8 :=
  ((Numeral.integer? text).filter fun value => 0 ≤ value && value < 256).map fun value =>
    UInt8.ofNat value.toNat

/-- A path, which is not empty. -/
def path? (text : String) : Option String := if text = "" then none else some text

/-- Takes over the value of one option, if it is acceptable. -/
def assign? (g : Given) (name : OptionName) (value : String) : Option Given :=
  match name with
  | .program => (path? value).map fun path => { g with program := some path }
  | .input => (path? value).map fun path => { g with input := some path }
  | .tapeSize => (tapeSize? value).map fun size => { g with tapeSize := some size }
  | .boundary => (Boundary.ofName false value).toOption.map fun boundary =>
    { g with boundary := some boundary }
  | .inputTransform => (InputTransform.ofName false value).toOption.map fun transform =>
    { g with inputTransform := some transform }
  | .eofValue => (byte? value).map fun value => { g with eofValue := some value }

/-- Takes over the values of options of which none is among those `seen` before. -/
def assignAll (seen : List OptionName) :
    List (OptionName × String) → Given → Except UsageError Given
  | [], g => .ok g
  | (name, value) :: rest, g =>
    if name ∈ seen then .error (.repeated name)
    else
      match g.assign? name value with
      | none => .error (.invalidValue name value)
      | some g => assignAll (name :: seen) rest g

/-- Reads an argument list. -/
def ofArguments (arguments : List String) : Except UsageError Given := do
  assignAll [] (← pairs arguments) {}

variable {name : OptionName} {value : String} {seen : List OptionName}
  {pairs : List (OptionName × String)} {g g' : Given}

theorem assignAll_cons_eq_ok_iff :
    assignAll seen ((name, value) :: pairs) g = .ok g' ↔
      name ∉ seen ∧ ∃ next, g.assign? name value = some next ∧
        assignAll (name :: seen) pairs next = .ok g' := by
  rw [assignAll]
  split
  · next hseen => simp [hseen]
  · next hseen => split <;> simp_all

/-- What the value of an option does: it is read, and one setting takes it over. -/
inductive Assigns (g : Given) (value : String) : OptionName → Given → Prop where
  | program {path : String} (hread : path? value = some path) :
    Assigns g value .program { g with program := some path }
  | input {path : String} (hread : path? value = some path) :
    Assigns g value .input { g with input := some path }
  | tapeSize {size : UInt64} (hread : tapeSize? value = some size) :
    Assigns g value .tapeSize { g with tapeSize := some size }
  | boundary {boundary : Boundary}
    (hread : (Boundary.ofName false value).toOption = some boundary) :
    Assigns g value .boundary { g with boundary := some boundary }
  | inputTransform {transform : InputTransform}
    (hread : (InputTransform.ofName false value).toOption = some transform) :
    Assigns g value .inputTransform { g with inputTransform := some transform }
  | eofValue {byte : UInt8} (hread : byte? value = some byte) :
    Assigns g value .eofValue { g with eofValue := some byte }

theorem assigns_of_assign (h : g.assign? name value = some g') : Assigns g value name g' := by
  cases name with
  | program | input | tapeSize | boundary | inputTransform | eofValue =>
    obtain ⟨_, hread, rfl⟩ := Option.map_eq_some_iff.mp h
    constructor
    exact hread

/-- A size that is given is not zero. -/
def HasCells (g : Given) : Prop := ∀ size ∈ g.tapeSize, 0 < size

theorem Assigns.hasCells (h : Assigns g value name g') (hg : g.HasCells) : g'.HasCells := by
  cases h with
  | tapeSize hread =>
    intro size hsize
    obtain rfl := Option.some.inj hsize
    rw [tapeSize?, Option.filter_eq_some_iff] at hread
    exact of_decide_eq_true hread.2
  | program | input | boundary | inputTransform | eofValue => exact hg

theorem hasCells_of_assignAll (h : assignAll seen pairs g = .ok g') (hg : g.HasCells) :
    g'.HasCells := by
  induction pairs generalizing seen g with
  | nil =>
    obtain rfl : g = g' := Except.ok.inj h
    exact hg
  | cons first pairs ih =>
    obtain ⟨-, next, hassign, hrest⟩ := assignAll_cons_eq_ok_iff.mp h
    exact ih hrest ((assigns_of_assign hassign).hasCells hg)

theorem hasCells_of_arguments {arguments : List String} (h : ofArguments arguments = .ok g) :
    g.HasCells := by
  unfold ofArguments at h
  cases hpairs : Given.pairs arguments with
  | error problem =>
    rw [hpairs] at h
    cases h
  | ok pairs =>
    rw [hpairs] at h
    exact hasCells_of_assignAll h (by simp [HasCells])

end Given

/-- The reader of argument lists, as a parser. -/
def ArgumentParser.ofOptions : ArgumentParser where
  parse arguments := (Given.ofArguments arguments).mapError UsageError.parting
  tapeSize_pos := by
    intro arguments given size h hsize
    cases hread : Given.ofArguments arguments with
    | error problem =>
      rw [hread] at h
      cases h
    | ok read =>
      rw [hread] at h
      obtain rfl : read = given := Except.ok.inj h
      exact Given.hasCells_of_arguments hread size hsize

end TapeMachine
