/-!
# Diagnostic records

What a component reports about its work: how severe it is, which component reports it, a message
and some named details. `line` is the written form.
-/

namespace TapeMachine

/-- How much a record matters. -/
inductive Severity where
  | error
  | warn
  | info
  | debug
  | trace
  deriving DecidableEq

namespace Severity

def all : List Severity := [error, warn, info, debug, trace]

/-- The most severe has rank 1. -/
def rank : Severity → Nat
  | error => 1
  | warn => 2
  | info => 3
  | debug => 4
  | trace => 5

def name : Severity → String
  | error => "ERROR"
  | warn => "WARN"
  | info => "INFO"
  | debug => "DEBUG"
  | trace => "TRACE"

/-- Whether a record of this severity passes a limit. Nothing passes the limit `none`. -/
def within (s : Severity) : Option Severity → Bool
  | none => false
  | some limit => s.rank ≤ limit.rank

end Severity

/-- The value of a named detail. -/
inductive Detail where
  | number (value : Nat)
  | text (value : String)
  deriving DecidableEq

def Detail.written : Detail → String
  | number value => toString value
  | text value => value

/-- One report of a component, the target. -/
structure Record where
  severity : Severity
  target : String
  message : String
  details : List (String × Detail)
  deriving DecidableEq

/-- Whether the record has a detail of the given name. The message counts as one. -/
def Record.mentions (r : Record) (name : String) : Bool :=
  name = "message" || r.details.any fun detail => detail.1 = name

/-- The written form: severity, target and message, then each detail with its name. -/
def Record.line (r : Record) : String :=
  r.details.foldl (fun line (name, value) => line ++ " " ++ name ++ "=" ++ value.written)
    (r.severity.name ++ " " ++ r.target ++ ": " ++ r.message)

/-- The written form begins with the severity. -/
theorem isPrefix_line (r : Record) : r.severity.name.toList <+: r.line.toList := by
  unfold Record.line
  generalize hstart : r.severity.name ++ " " ++ r.target ++ ": " ++ r.message = start
  have hstarts : r.severity.name.toList <+: start.toList := by
    simp only [← hstart, String.toList_append, List.append_assoc]
    exact List.prefix_append _ _
  clear hstart
  generalize r.details = details
  -- Each detail is written behind what is there.
  induction details generalizing start with
  | nil => exact hstarts
  | cons detail details ih =>
    refine ih _ (hstarts.trans ?_)
    simp only [String.toList_append, List.append_assoc]
    exact List.prefix_append _ _

end TapeMachine
