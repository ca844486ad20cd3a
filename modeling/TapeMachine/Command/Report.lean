import TapeMachine.Command.Arguments
import TapeMachine.Command.Directory
import TapeMachine.Command.Execution
import TapeMachine.Diagnostics.Filter

/-!
# The command on a directory of files

The command can be tried out on a system that holds a directory of files and has memory without
limit.
-/

namespace TapeMachine

/-- A memory of 64-bit addresses that grants what can be addressed. -/
def Memory.unlimited : Memory := ⟨UInt64.size, fun _ => true⟩

/-- The system with the given files. -/
def System.ofDirectory (d : Directory) : System where
  arguments := .ofOptions
  logging := Filter.logging
  opens := d.opens
  memory := .unlimited

/-- The command on the given files, with the bytes of its standard input. -/
def Command.invoke (fuel : Nat) (arguments : List String) (files : Directory) (stdin : List UInt8)
    (filter : Option String) : Option Report :=
  (System.ofDirectory files).invoke fuel arguments (stdin.map .byte) filter

end TapeMachine
