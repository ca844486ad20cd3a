import TapeMachine.Machine.Run

/-!
# Partial operations

The operations of a machine as partial functions. An access to a cell needs a cursor on the tape,
the last cell is that of a tape with cells, a recording starts on an empty one and is rewound only
to a recorded opening bracket, a skipped bracket is closed only if one is open, and a program ends
only with its source. Where such a need is not met there is no result.
-/

namespace TapeMachine

namespace Tape

variable {t : Tape}

/-- The cell under the cursor. -/
def read? (t : Tape) : Option UInt8 := t.cells[t.cursor]?

def write? (value : UInt8) (t : Tape) : Option Tape :=
  if h : t.cursor < t.cells.size then some { t with cells := t.cells.set t.cursor value h }
  else none

def increment? (t : Tape) : Option Tape := do
  let value ← t.read?
  t.write? (value + 1)

def decrement? (t : Tape) : Option Tape := do
  let value ← t.read?
  t.write? (value - 1)

/-- The position of the last cell. -/
def last? (t : Tape) : Option Nat :=
  if 1 ≤ t.cells.size then some (t.cells.size - 1) else none

def moveRight? (t : Tape) : Option (Except Fault Unit × Tape) := do
  let last ← t.last?
  if t.cursor < last then some (.ok (), { t with cursor := t.cursor + 1 })
  else
    match t.boundary with
    | .wrap => some (.ok (), { t with cursor := 0 })
    | .clamp => some (.ok (), t)
    | .growRight => some (.ok (), { t with cells := t.cells.push 0, cursor := t.cursor + 1 })
    | .strict => some (.error (t.refusal .right), t)

def moveLeft? (t : Tape) : Option (Except Fault Unit × Tape) :=
  if 0 < t.cursor then some (.ok (), { t with cursor := t.cursor - 1 })
  else
    match t.boundary with
    | .wrap => do
      let last ← t.last?
      some (.ok (), { t with cursor := last })
    | .clamp => some (.ok (), t)
    | .growRight | .strict => some (.error (t.refusal .left), t)

def move? : Direction → Tape → Option (Except Fault Unit × Tape)
  | .left, t => t.moveLeft?
  | .right, t => t.moveRight?

theorem read?_eq (h : t.InBounds) : t.read? = some t.current := by
  unfold InBounds at h
  simp [read?, current, h]

theorem write?_eq (value : UInt8) (h : t.InBounds) : t.write? value = some (t.set value) := by
  unfold InBounds at h
  rw [write?, dif_pos h, set, Array.setIfInBounds, dif_pos h]

theorem increment?_eq (h : t.InBounds) : t.increment? = some t.increment := by
  rw [increment?, read?_eq h]
  exact write?_eq _ h

theorem decrement?_eq (h : t.InBounds) : t.decrement? = some t.decrement := by
  rw [decrement?, read?_eq h]
  exact write?_eq _ h

theorem last?_eq (h : t.InBounds) : t.last? = some (t.cells.size - 1) :=
  if_pos (Nat.one_le_of_lt h)

theorem moveRight?_eq (h : t.InBounds) : t.moveRight? = some t.moveRight := by
  rw [moveRight?, last?_eq h, moveRight]
  have hiff : t.cursor < t.cells.size - 1 ↔ t.cursor + 1 < t.cells.size := by omega
  simp only [Option.bind_eq_bind, Option.bind_some, hiff]
  split
  · rfl
  · cases t.boundary <;> rfl

theorem moveLeft?_eq (h : t.InBounds) : t.moveLeft? = some t.moveLeft := by
  rw [moveLeft?, last?_eq h, moveLeft]
  split
  · rfl
  · cases t.boundary <;> rfl

/-- On a tape with the cursor in bounds every move has a result. -/
theorem move?_eq (direction : Direction) (h : t.InBounds) :
    t.move? direction = some (t.move direction) := by
  cases direction with
  | left => exact moveLeft?_eq h
  | right => exact moveRight?_eq h

end Tape

namespace Recording

/-- Starts a recording where there is none. -/
def start? (op : Op) (r : Recording) : Option Recording :=
  if r.ops.isEmpty then some ⟨r.ops.push op, 1⟩ else none

/-- Goes back to a recorded opening bracket. -/
def rewind? (position : Nat) (r : Recording) : Option Recording :=
  if r.ops[position]? = some .loopOpen then some (r.rewind position) else none

theorem start?_eq (op : Op) {r : Recording} (h : r.isActive = false) :
    r.start? op = some (.start op) := by
  have hempty : r.ops = #[] := by simpa [isActive] using h
  simp [start?, start, hempty]

end Recording

namespace Machine

def moveCursor? (direction : Direction) (m : Machine) : Option Step := do
  let (result, tape) ← m.tape.move? direction
  let m := { m with tape := tape }
  match result with
  | .ok () => some (.quiet m)
  | .error fault => some (.failed fault m)

def readInput? (m : Machine) : Option Step :=
  let (result, input) := readByte m.input
  let m := { m with input := input }
  match result with
  | .ok value => do
    let tape ← m.tape.write? (m.config.stored value)
    some (.quiet { m with tape := tape })
  | .error error => some (.failed (.unavailable .input error) m)

def writeOutput? (m : Machine) : Option Step := do
  let value ← m.tape.read?
  let (result, sink) := m.sink.put value
  let m := { m with sink := sink }
  match result with
  | .ok () => some (.quiet { m with outputBytes := m.outputBytes + 1 })
  | .error fault => some (.failed fault m)

def enterLoop? (m : Machine) : Option Step := do
  let value ← m.tape.read?
  if value = 0 then some (.quiet { m with mode := .skipping 1 })
  else
    let recording ←
      if m.recording.isActive then some m.recording else m.recording.start? .loopOpen
    let position := recording.lastPosition
    let loops := m.loops.push position
    some ⟨{ m with recording := recording, loops := loops }, none,
      [.enterLoop position loops.depth]⟩

def closeLoop? (m : Machine) : Option Step :=
  let (result, loops) := m.loops.pop
  let m := { m with loops := loops }
  match result with
  | .error _ => some (.failed (.unmatchedClose (m.source.offset - 1)) m)
  | .ok position => do
    let value ← m.tape.read?
    if value ≠ 0 then
      let recording ← m.recording.rewind? position
      some (.quiet { m with recording := recording })
    else if m.loops.isEmpty then
      some ⟨{ m with recording := .empty }, none, [.leaveLoop m.recording.size]⟩
    else some (.quiet m)

def execute? (m : Machine) : Op → Option Step
  | .increment => do
    let tape ← m.tape.increment?
    some (.quiet { m with tape := tape })
  | .decrement => do
    let tape ← m.tape.decrement?
    some (.quiet { m with tape := tape })
  | .right => m.moveCursor? .right
  | .left => m.moveCursor? .left
  | .input => m.readInput?
  | .output => m.writeOutput?
  | .loopOpen => m.enterLoop?
  | .loopClose => m.closeLoop?

/-- The end of the program, which is that of its source. -/
def end? (unclosed : Nat) (m : Machine) : Option Step :=
  if m.source.exhausted then some (.ended unclosed m) else none

/-- Fetches one operation and executes it. The report of the operation reads the current cell. -/
def executeNext? (m : Machine) : Option Step :=
  match m.fetch with
  | (.error fault, m) => some (.failed fault m)
  | (.ok none, m) => m.end? m.loops.depth
  | (.ok (some op), m) => do
    let value ← m.tape.read?
    let event := .dispatch op m.recording.cursor m.tape.cursor value
    let step ← { m with steps := m.steps + 1 }.execute? op
    some { step with events := event :: step.events }

def depthAfter? (depth : Nat) : Op → Option Nat
  | .loopOpen => some (depth + 1)
  | .loopClose => if 1 ≤ depth then some (depth - 1) else none
  | _ => some depth

def skipNext? (depth : Nat) (m : Machine) : Option Step :=
  match m.fetch with
  | (.error fault, m) => some (.failed fault m)
  | (.ok none, m) => m.end? (m.loops.depth + depth)
  | (.ok (some op), m) => do
    let depth ← depthAfter? depth op
    some (.quiet { m with mode := .within depth })

def step? (m : Machine) : Option Step :=
  match m.mode with
  | .halted => some (.quiet m)
  | .running => m.executeNext?
  | .skipping depth => m.skipNext? depth

def advance? : Nat → Machine → Array Event → Option Run
  | 0, m, log => some ⟨m, none, log⟩
  | limit + 1, m, log => do
    let step ← m.step?
    let log := log ++ step.events
    match step.machine.mode with
    | .halted => some ⟨step.machine, step.fault, log⟩
    | _ => advance? limit step.machine log

/-- A call made to a machine: one step, or a run of which at most `limit` steps are made. -/
inductive Call where
  | step
  | run (limit : Nat)
  deriving DecidableEq

/-- The machine after one call. -/
def answer (m : Machine) : Call → Machine
  | .step => m.step.machine
  | .run limit => (m.advance limit #[]).machine

def answer? (m : Machine) : Call → Option Machine
  | .step => m.step?.map (·.machine)
  | .run limit => (m.advance? limit #[]).map (·.machine)

/-- The machine after several calls. -/
def perform (m : Machine) (calls : List Call) : Machine := calls.foldl answer m

def perform? (m : Machine) (calls : List Call) : Option Machine := calls.foldlM answer? m

end Machine

end TapeMachine
