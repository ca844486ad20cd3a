import TapeMachine.Diagnostics.Directive
import TapeMachine.Diagnostics.Logging

/-!
# Diagnostic filters

A `Logging` with which the command can be tried out. A filter decides which records are written. It
is given as directives separated by commas. Of the directives that are about a record the narrowest
decides, and of two that are equally narrow the later one; a record that no directive is about is
not written. A filter without directives lets errors through.
-/

namespace TapeMachine

/-- Directives in the order in which they were given. -/
structure Filter where
  directives : List Directive
  deriving DecidableEq

namespace Filter

/-- The filter with one level for all records. -/
def upTo (limit : Severity) : Filter := ⟨[⟨none, none, none, some limit⟩]⟩

/-- The filter of some directives. -/
def ofDirectives : List Directive → Filter
  | [] => upTo .error
  | directives => ⟨directives⟩

/-- The texts of the directives, without the empty ones. -/
def pieces (text : String) : List String := (text.splitOn ",").filter (· ≠ "")

/-- Reads a filter, if every directive can be read. -/
def ofText? (text : String) : Option Filter :=
  ((pieces text).mapM Directive.ofText?).map ofDirectives

/-- Reads a filter, leaving out the directives that cannot be read. -/
def ofPart (text : String) : Filter := ofDirectives ((pieces text).filterMap Directive.ofText?)

/-- The directive that decides about a record. -/
def decisive? (f : Filter) (r : Record) : Option Directive :=
  (f.directives.filter (·.appliesTo r)).foldl (fun best d =>
    match best with
    | none => some d
    | some b => if b.yieldsTo d then some d else some b) none

/-- Whether a record is written. -/
def admits (f : Filter) (r : Record) : Bool :=
  match f.decisive? r with
  | none => false
  | some d => r.severity.within d.limit

/-- Writes the records that the filter admits. -/
def subscriber (f : Filter) : Subscriber where
  line? r := if f.admits r then some r.line else none
  isOwn_line := by
    intro r line h
    obtain ⟨-, hline⟩ := Option.ite_none_right_eq_some.mp h
    obtain rfl := Option.some.inj hline
    obtain ⟨rest, hrest⟩ := isPrefix_line r
    rw [Command.isOwn, ← hrest]
    cases r.severity with
    | error | warn | info | debug | trace => rfl

/-- The subscribers that filters make. -/
def logging : Logging where
  read? text := (ofText? text).map subscriber
  readPart text := (ofPart text).subscriber

end Filter

end TapeMachine
