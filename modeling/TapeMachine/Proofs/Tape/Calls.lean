import Mathlib.Data.List.Induction
import Mathlib.Order.Bounds.Basic
import TapeMachine.Proofs.Tape.Ends

/-!
# What becomes of a tape

The cursor, the size and every cell of a tape after any calls, refused moves among them, in terms of
the calls alone: the cursor by the moves, the size by the cells that the cursor came to, and a cell
by what was asked while the cursor stood on it.
-/

namespace TapeMachine.Tape

/-- What may be asked of a tape. -/
inductive Call where
  | increment
  | decrement
  | set (value : UInt8)
  | move (direction : Direction)
  deriving DecidableEq

/-- The value that a call stores, if it stores one. -/
def Call.value? : Call → Option UInt8
  | set value => some value
  | increment | decrement | move _ => none

def perform (t : Tape) : Call → Except Fault Unit × Tape
  | .increment => (.ok (), t.increment)
  | .decrement => (.ok (), t.decrement)
  | .set value => (.ok (), t.set value)
  | .move direction => t.move direction

/-- One call after another. Those that come behind a refused move go on with the tape as it is. -/
def performAll (t : Tape) (calls : List Call) : Tape :=
  calls.foldl (fun t call => (t.perform call).2) t

/-- By how many cells the calls move the cursor to the right. -/
def displacement (calls : List Call) : Int :=
  calls.count (.move .right) - calls.count (.move .left)

/-- The cursor after a call if it stops at the ends of a tape of a given size. -/
def saturated (size cursor : Nat) : Call → Nat
  | .move .left => cursor - 1
  | .move .right => min (cursor + 1) (size - 1)
  | .increment | .decrement | .set _ => cursor

/-- The cursors before, between and after the calls. -/
def cursors (t : Tape) (calls : List Call) : Set Nat :=
  {cursor | ∃ front, front <+: calls ∧ (t.performAll front).cursor = cursor}

/-- The calls that are made while the cursor stands on a cell. -/
def callsAt (place : Nat) : Tape → List Call → List Call
  | _, [] => []
  | t, call :: rest =>
    (if t.cursor = place then [call] else []) ++ callsAt place (t.perform call).2 rest

/-- The value stored last, or zero. -/
def stored (calls : List Call) : UInt8 := (calls.reverse.findSome? Call.value?).getD 0

/-- The calls behind the one that stored a value last, from the latest on. -/
def sinceStored (calls : List Call) : List Call :=
  calls.reverse.takeWhile (·.value?.isNone)

/-- What the calls made on a cell amount to, modulo 256. -/
def amount (calls : List Call) : UInt8 :=
  stored calls + .ofNat ((sinceStored calls).count .increment)
    - .ofNat ((sinceStored calls).count .decrement)

/-- The value of a cell. Beyond the tape it is zero, like that of a cell which is appended. -/
def cell (place : Nat) (t : Tape) : UInt8 := t.cells[place]?.getD 0

variable {t : Tape} {call : Call} {calls : List Call} {direction : Direction} {size place : Nat}
  {boundary : Boundary}

theorem perform_move (t : Tape) (direction : Direction) :
    t.perform (.move direction) = t.move direction := rfl

theorem performAll_concat (t : Tape) (calls : List Call) (call : Call) :
    t.performAll (calls ++ [call]) = ((t.performAll calls).perform call).2 := by
  simp [performAll]

theorem inBounds_perform (call : Call) (h : t.InBounds) : (t.perform call).2.InBounds := by
  cases call with
  | increment | decrement | set value => exact inBounds_set.mpr h
  | move direction => exact inBounds_move direction h

theorem boundary_perform (t : Tape) (call : Call) : (t.perform call).2.boundary = t.boundary := by
  cases call with
  | increment | decrement | set value => rfl
  | move direction => exact boundary_move direction t

/-- However a tape is used, the cursor stands on a cell and the boundary stays. -/
theorem inBounds_performAll (h : t.InBounds) (calls : List Call) :
    (t.performAll calls).InBounds ∧ (t.performAll calls).boundary = t.boundary := by
  induction calls using List.reverseRecOn with
  | nil => exact ⟨h, rfl⟩
  | append_singleton calls call ih =>
    rw [performAll_concat]
    exact ⟨inBounds_perform call ih.1, (boundary_perform _ call).trans ih.2⟩

theorem displacement_concat (calls : List Call) (call : Call) :
    displacement (calls ++ [call]) = displacement calls + displacement [call] := by
  simp only [displacement, List.count_append]
  omega

theorem displacement_move (direction : Direction) :
    displacement [.move direction] = direction.offset := by
  cases direction <;> decide

/-- With joined ends a move goes round the tape. -/
theorem perform_wrap (hbounds : t.InBounds) (hboundary : t.boundary = .wrap) (call : Call) :
    (t.perform call).1 = .ok () ∧ (t.perform call).2.size = t.size ∧
      ((t.perform call).2.cursor : Int) = (t.cursor + displacement [call]) % t.size := by
  have hlt : (t.cursor : Int) < t.size := Int.ofNat_lt.mpr hbounds
  have hstays : (t.cursor : Int) = (t.cursor + 0) % t.size := by
    rw [Int.add_zero, Int.emod_eq_of_lt (Int.natCast_nonneg _) hlt]
  cases call with
  | increment | decrement | set value => exact ⟨rfl, size_set _ t, hstays⟩
  | move direction =>
    rw [displacement_move, perform_move, ← target]
    by_cases hend : t.AtEnd direction
    · rw [move_wrap hboundary hend]
      refine ⟨rfl, rfl, ?_⟩
      cases direction with
      | left =>
        have hcursor : t.cursor = 0 := hend
        have htarget : t.target .left = -1 := by simp [target, Direction.offset, hcursor]
        rw [htarget, ← Int.add_emod_right, Int.emod_eq_of_lt (by omega) (by omega)]
        simp only [farEnd]
        omega
      | right =>
        have hcursor : t.cursor + 1 = t.size := hend
        have htarget : t.target .right = t.size := by
          simp only [target, Direction.offset]
          omega
        rw [htarget, Int.emod_self]
        rfl
    · rw [move_of_not_atEnd hbounds hend]
      rw [atEnd_iff hbounds, not_not] at hend
      refine ⟨rfl, rfl, ?_⟩
      rw [Int.emod_eq_of_lt hend.1 hend.2]
      exact Int.toNat_of_nonneg hend.1

/-- The cursor of a tape with joined ends counts the moves modulo the size. -/
theorem performAll_wrap (hbounds : t.InBounds) (hboundary : t.boundary = .wrap)
    (calls : List Call) : (t.performAll calls).size = t.size ∧
      ((t.performAll calls).cursor : Int) = (t.cursor + displacement calls) % t.size := by
  induction calls using List.reverseRecOn with
  | nil =>
    refine ⟨rfl, ?_⟩
    have hlt : (t.cursor : Int) < t.size := Int.ofNat_lt.mpr hbounds
    simp only [displacement, List.count_nil]
    rw [Int.emod_eq_of_lt (by omega) (by omega)]
    exact (Int.add_zero _).symm
  | append_singleton calls call ih =>
    obtain ⟨hinside, hkept⟩ := inBounds_performAll hbounds calls
    obtain ⟨-, hsize, hcursor⟩ := perform_wrap hinside (hkept.trans hboundary) call
    rw [performAll_concat, hcursor, hsize, ih.1, ih.2, Int.emod_add_emod, displacement_concat,
      Int.add_assoc]
    exact ⟨rfl, rfl⟩

/-- At an end that stops the cursor a move does nothing. -/
theorem perform_clamp (hbounds : t.InBounds) (hboundary : t.boundary = .clamp) (call : Call) :
    (t.perform call).1 = .ok () ∧ (t.perform call).2.size = t.size ∧
      (t.perform call).2.cursor = saturated t.size t.cursor call := by
  cases call with
  | increment | decrement | set value => exact ⟨rfl, size_set _ t, rfl⟩
  | move direction =>
    rw [perform_move]
    by_cases hend : t.AtEnd direction
    · rw [move_clamp hboundary hend]
      refine ⟨rfl, rfl, ?_⟩
      cases direction <;> simp only [AtEnd, saturated] at hend ⊢ <;> omega
    · rw [move_of_not_atEnd hbounds hend]
      refine ⟨rfl, rfl, ?_⟩
      unfold InBounds at hbounds
      cases direction <;>
        simp only [AtEnd, saturated, target, Direction.offset, size] at hend ⊢ <;> omega

theorem performAll_clamp (hbounds : t.InBounds) (hboundary : t.boundary = .clamp)
    (calls : List Call) : (t.performAll calls).size = t.size ∧
      (t.performAll calls).cursor = calls.foldl (saturated t.size) t.cursor := by
  induction calls using List.reverseRecOn with
  | nil => exact ⟨rfl, rfl⟩
  | append_singleton calls call ih =>
    obtain ⟨hinside, hkept⟩ := inBounds_performAll hbounds calls
    obtain ⟨-, hsize, hcursor⟩ := perform_clamp hinside (hkept.trans hboundary) call
    rw [performAll_concat, hsize, hcursor, ih.1, ih.2, List.foldl_append]
    exact ⟨rfl, rfl⟩

/-- A strict tape never changes its size, and refuses a move at an end. -/
theorem size_perform_strict (hbounds : t.InBounds) (hboundary : t.boundary = .strict)
    (call : Call) : (t.perform call).2.size = t.size := by
  cases call with
  | increment | decrement | set value => exact size_set _ t
  | move direction =>
    rw [perform_move]
    by_cases hend : t.AtEnd direction
    · rw [move_strict hboundary hend]
    · rw [move_of_not_atEnd hbounds hend]
      rfl

theorem size_performAll_strict (hbounds : t.InBounds) (hboundary : t.boundary = .strict)
    (calls : List Call) : (t.performAll calls).size = t.size := by
  induction calls using List.reverseRecOn with
  | nil => rfl
  | append_singleton calls call ih =>
    obtain ⟨hinside, hkept⟩ := inBounds_performAll hbounds calls
    rw [performAll_concat, size_perform_strict hinside (hkept.trans hboundary) call, ih]

/-- A tape that grows has room for the cursor and loses no cell. -/
theorem size_perform_growRight (hbounds : t.InBounds) (hboundary : t.boundary = .growRight)
    (call : Call) : (t.perform call).2.size = max t.size ((t.perform call).2.cursor + 1) := by
  have hstays : t.size = max t.size (t.cursor + 1) := (Nat.max_eq_left hbounds).symm
  cases call with
  | increment | decrement | set value => exact (size_set _ t).trans hstays
  | move direction =>
    rw [perform_move]
    by_cases hend : t.AtEnd direction
    · cases direction with
      | left =>
        rw [move_growRight_left hboundary hend]
        exact hstays
      | right =>
        rw [move_growRight_right hboundary hend]
        simp only [AtEnd, size, Array.size_push] at hend ⊢
        omega
    · rw [move_of_not_atEnd hbounds hend]
      rw [atEnd_iff hbounds, not_not] at hend
      simp only [size] at hend ⊢
      omega

theorem cursors_concat (t : Tape) (calls : List Call) (call : Call) :
    t.cursors (calls ++ [call])
      = insert (t.performAll (calls ++ [call])).cursor (t.cursors calls) := by
  ext cursor
  simp only [cursors, Set.mem_ofPred_eq, Set.mem_insert_iff, List.prefix_concat_iff]
  constructor
  · rintro ⟨front, rfl | hfront, rfl⟩
    · exact Or.inl rfl
    · exact Or.inr ⟨front, hfront, rfl⟩
  · rintro (rfl | ⟨front, hfront, rfl⟩)
    · exact ⟨_, Or.inl rfl, rfl⟩
    · exact ⟨front, Or.inr hfront, rfl⟩

/-- The size of a tape that grows is that of the cells it had and of those the cursor came to. -/
theorem performAll_growRight (hbounds : t.InBounds) (hboundary : t.boundary = .growRight)
    (calls : List Call) : ∃ largest, IsGreatest (t.cursors calls) largest ∧
      (t.performAll calls).size = max t.size (1 + largest) := by
  induction calls using List.reverseRecOn with
  | nil =>
    refine ⟨t.cursor, ?_, ?_⟩
    · have hcursors : t.cursors [] = {t.cursor} := by
        ext cursor
        simp [cursors, performAll, eq_comm]
      rw [hcursors]
      exact isGreatest_singleton
    · rw [Nat.add_comm]
      exact (Nat.max_eq_left hbounds).symm
  | append_singleton calls call ih =>
    obtain ⟨largest, hlargest, hsize⟩ := ih
    obtain ⟨hinside, hkept⟩ := inBounds_performAll hbounds calls
    have hgrown := size_perform_growRight hinside (hkept.trans hboundary) call
    rw [← performAll_concat] at hgrown
    refine ⟨max (t.performAll (calls ++ [call])).cursor largest, ?_, ?_⟩
    · rw [cursors_concat]
      exact hlargest.insert _
    · rw [hgrown, hsize]
      omega

theorem callsAt_concat (place : Nat) (t : Tape) (calls : List Call) (call : Call) :
    callsAt place t (calls ++ [call])
      = callsAt place t calls ++ if (t.performAll calls).cursor = place then [call] else [] := by
  induction calls generalizing t with
  | nil => exact List.append_nil _
  | cons first rest ih =>
    rw [List.cons_append, callsAt, callsAt, ih, List.append_assoc]
    rfl

theorem stored_concat (calls : List Call) (call : Call) :
    stored (calls ++ [call]) = (call.value?).getD (stored calls) := by
  rw [stored, List.reverse_concat, List.findSome?_cons]
  cases call.value? <;> rfl

theorem sinceStored_concat (calls : List Call) (call : Call) :
    sinceStored (calls ++ [call])
      = if call.value?.isNone then call :: sinceStored calls else [] := by
  rw [sinceStored, List.reverse_concat, List.takeWhile_cons]
  rfl

/-- What one more call makes of the value of the cell on which it is made. -/
def Call.effect : Call → UInt8 → UInt8
  | increment, value => value + 1
  | decrement, value => value - 1
  | set value, _ => value
  | move _, value => value

theorem amount_concat (calls : List Call) (call : Call) :
    amount (calls ++ [call]) = call.effect (amount calls) := by
  have hstored := stored_concat calls call
  have hsince := sinceStored_concat calls call
  unfold amount
  rw [hstored, hsince]
  cases call with
  | increment =>
    simp only [Call.value?, Call.effect, Option.isNone_none, if_true, Option.getD_none,
      List.count_cons_self, List.count_cons_of_ne (by decide : Call.increment ≠ .decrement),
      UInt8.ofNat_add]
    grind
  | decrement =>
    simp only [Call.value?, Call.effect, Option.isNone_none, if_true, Option.getD_none,
      List.count_cons_self, List.count_cons_of_ne (by decide : Call.decrement ≠ .increment),
      UInt8.ofNat_add]
    grind
  | set value => simp [Call.value?, Call.effect]
  | move direction => simp [Call.value?, Call.effect]

theorem cell_set (value : UInt8) (hbounds : t.InBounds) (place : Nat) :
    (t.set value).cell place = if t.cursor = place then value else t.cell place := by
  unfold InBounds at hbounds
  simp only [cell, set, Array.getElem?_setIfInBounds]
  by_cases hplace : t.cursor = place
  · rw [if_pos hplace, if_pos hplace, if_pos hbounds]
    rfl
  · rw [if_neg hplace, if_neg hplace]

theorem cell_move (direction : Direction) (t : Tape) (place : Nat) :
    (t.move direction).2.cell place = t.cell place := by
  cases direction with
  | left =>
    simp only [move, moveLeft]
    split
    · rfl
    · split <;> rfl
  | right =>
    simp only [move, moveRight]
    split
    · rfl
    · split
      · rfl
      · rfl
      · simp only [cell, Array.getElem?_push]
        split
        · next happended => rw [Array.getElem?_eq_none (Nat.le_of_eq happended.symm)]; rfl
        · rfl
      · rfl

/-- A call changes at most the cell under the cursor. -/
theorem cell_perform (hbounds : t.InBounds) (call : Call) (place : Nat) :
    (t.perform call).2.cell place
      = if t.cursor = place then call.effect (t.cell place) else t.cell place := by
  have hcurrent : t.cursor = place → t.current = t.cell place := by
    rintro rfl
    rfl
  cases call with
  | increment =>
    refine (cell_set (t.current + 1) hbounds place).trans ?_
    split
    · next hplace => rw [hcurrent hplace]; rfl
    · rfl
  | decrement =>
    refine (cell_set (t.current - 1) hbounds place).trans ?_
    split
    · next hplace => rw [hcurrent hplace]; rfl
    · rfl
  | set value => exact cell_set value hbounds place
  | move direction => exact (cell_move direction t place).trans (ite_self _).symm

/-- What was asked while the cursor stood on a cell makes up its value. -/
theorem cell_performAll (hbounds : t.InBounds) (hblank : t.cell place = 0) (calls : List Call) :
    (t.performAll calls).cell place = amount (callsAt place t calls) := by
  induction calls using List.reverseRecOn with
  | nil => exact hblank.trans (by decide : (0 : UInt8) = amount [])
  | append_singleton calls call ih =>
    rw [performAll_concat, cell_perform (inBounds_performAll hbounds calls).1, callsAt_concat, ih]
    split
    · rw [amount_concat]
    · rw [List.append_nil]

theorem cell_blank (size : Nat) (boundary : Boundary) (place : Nat) :
    (blank size boundary).cell place = 0 := by
  simp only [cell, blank, Array.getElem?_replicate]
  split <;> rfl

/-- How a tape stands that had so many zero cells before the calls. -/
structure Obeys (size : Nat) (boundary : Boundary) (calls : List Call) (t : Tape) : Prop where
  inBounds : t.cursor < t.size
  /-- A move that stays on the tape leads one cell on, under every boundary. -/
  inside : ∀ direction, 0 ≤ t.target direction → t.target direction < t.size →
    t.move direction = (.ok (), { t with cursor := (t.target direction).toNat })
  wrap : boundary = .wrap → (∀ direction, (t.move direction).1 = .ok ()) ∧ t.size = size ∧
    (t.cursor : Int) = ((size / 2 : Nat) + displacement calls) % size
  clamp : boundary = .clamp → (∀ direction, (t.move direction).1 = .ok ()) ∧ t.size = size ∧
    t.cursor = calls.foldl (saturated size) (size / 2)
  strict : boundary = .strict → t.size = size ∧ ∀ direction,
    ((t.move direction).1 = .ok () ↔ 0 ≤ t.target direction ∧ t.target direction < size) ∧
      ((t.move direction).1 ≠ .ok () →
        t.move direction = (.error (.outOfBounds t.cursor t.size direction), t))
  growRight : boundary = .growRight → (t.move .right).1 = .ok () ∧
    ((t.move .left).1 = .ok () ↔ t.cursor ≠ 0) ∧
    ((t.move .left).1 ≠ .ok () → t.move .left = (.error (.outOfBounds 0 t.size .left), t)) ∧
    ∃ largest, IsGreatest ((blank size .growRight).cursors calls) largest ∧
      t.size = max size (1 + largest)
  /-- A move past the right end comes to a zero cell that is appended. -/
  grows : boundary = .growRight → t.cursor + 1 = t.size →
    t.move .right = (.ok (), { t with cells := t.cells.push 0, cursor := t.cursor + 1 })
  cells : ∀ place (h : place < t.cells.size),
    t.cells[place] = amount (callsAt place (blank size boundary) calls)

/-- A tape that is used in any way, over refused moves too, stands as its boundary demands. -/
theorem obeys_performAll (hsize : 0 < size) (boundary : Boundary) (calls : List Call) :
    Obeys size boundary calls ((blank size boundary).performAll calls) := by
  have hblank := inBounds_blank boundary hsize
  have hblankSize : (blank size boundary).size = size := Array.size_replicate
  obtain ⟨hbounds, hboundary⟩ := inBounds_performAll hblank calls
  refine ⟨hbounds, ?_, ?_, ?_, ?_, ?_, ?_, ?_⟩
  · intro direction hleast hmost
    refine move_of_not_atEnd hbounds ?_
    rw [atEnd_iff hbounds, not_not]
    exact ⟨hleast, hmost⟩
  · rintro rfl
    obtain ⟨hsame, hcursor⟩ := performAll_wrap hblank rfl calls
    rw [hblankSize] at hsame hcursor
    exact ⟨fun direction => (perform_wrap hbounds hboundary (.move direction)).1, hsame, hcursor⟩
  · rintro rfl
    obtain ⟨hsame, hcursor⟩ := performAll_clamp hblank rfl calls
    rw [hblankSize] at hsame hcursor
    exact ⟨fun direction => (perform_clamp hbounds hboundary (.move direction)).1, hsame, hcursor⟩
  · rintro rfl
    have hsame := size_performAll_strict hblank rfl calls
    rw [hblankSize] at hsame
    have hmoves := fun direction => @move_strict_ok_iff _ direction hbounds hboundary
    rw [hsame] at hmoves
    exact ⟨hsame, fun direction => ⟨hmoves direction, move_of_ne_ok⟩⟩
  · rintro rfl
    obtain ⟨largest, hlargest, hgrown⟩ := performAll_growRight hblank rfl calls
    rw [hblankSize] at hgrown
    have hleft := moveLeft_growRight_ok_iff hbounds hboundary
    refine ⟨moveRight_growRight_ok hbounds hboundary, hleft, fun hne => ?_, largest, hlargest,
      hgrown⟩
    have hcursor := not_not.mp (mt hleft.mpr hne)
    rw [move_of_ne_ok hne, refusal, hcursor]
  · rintro rfl hend
    exact move_growRight_right hboundary hend
  · intro place hplace
    rw [← cell_performAll hblank (cell_blank size boundary place) calls, cell,
      Array.getElem?_eq_getElem hplace]
    rfl

/-- From the second of two cells over the right end, and back against the left one. -/
theorem obeys_growing : 0 < 2 ∧
    Obeys 2 .growRight
      [.decrement, .move .right, .set 7, .increment, .move .left, .move .left, .move .left]
      ((blank 2 .growRight).performAll
        [.decrement, .move .right, .set 7, .increment, .move .left, .move .left, .move .left]) :=
  ⟨by decide, obeys_performAll (by decide) .growRight _⟩

end TapeMachine.Tape
