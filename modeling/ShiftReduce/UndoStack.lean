/-
  ShiftReduce.UndoStack
  ────────────────────────────────
  **A STACK WHOSE POPS CAN BE REFUSED.**

  A popped item goes into an undo log.  Committing makes the pops final and
  hands the log out, rolling back puts the logged items back where they were.

  Main statements: what each operation does to the list of items, bottom first
  (`toList_push`, `toList_of_pop?`, `toList_rollback`), and that a pop leaves the
  rolled back stack as it was (`rollback_of_pop?`).
-/

namespace ShiftReduce

/-! ## §1. Stacks. -/

/-- The items on the stack, top first, and the undo log, last pop first. -/
structure UndoStack (α : Type) where
  items : List α
  popped : List α
  deriving DecidableEq

namespace UndoStack

variable {α : Type}

/-- The stack without items and without pops to undo. -/
def empty : UndoStack α := ⟨[], []⟩

/-! ## §2. Changing the stack. -/

/-- Puts an item on top. -/
def push (stack : UndoStack α) (item : α) : UndoStack α :=
  { stack with items := item :: stack.items }

/-- Takes the top item off and logs it; there is nothing to take from an empty stack. -/
def pop? (stack : UndoStack α) : Option (α × UndoStack α) :=
  match stack.items with
  | [] => none
  | top :: rest => some (top, ⟨rest, top :: stack.popped⟩)

/-- Makes the pops final; the popped items come out in pop order. -/
def commit (stack : UndoStack α) : List α × UndoStack α :=
  (stack.popped.reverse, { stack with popped := [] })

/-- Puts every logged item back, the last popped one first. -/
def rollback (stack : UndoStack α) : UndoStack α :=
  ⟨stack.popped.reverse ++ stack.items, []⟩

/-! ## §3. Looking at the stack. -/

/-- The top item. -/
def peek? (stack : UndoStack α) : Option α :=
  stack.items.head?

/-- The number of items on the stack. -/
def size (stack : UndoStack α) : Nat :=
  stack.items.length

/-- There is no item on the stack. -/
def isEmpty (stack : UndoStack α) : Bool :=
  stack.items.isEmpty

/-- The number of pops that can still be undone. -/
def pending (stack : UndoStack α) : Nat :=
  stack.popped.length

/-- The items on the stack, bottom first. -/
def toList (stack : UndoStack α) : List α :=
  stack.items.reverse

/-- The items from the top to the bottom, once all pops are undone. -/
def drain (stack : UndoStack α) : List α :=
  stack.rollback.items

/-! ## §4. The operations on the list of items. -/

@[simp]
theorem toList_empty : (empty : UndoStack α).toList = [] := rfl

@[simp]
theorem toList_push (stack : UndoStack α) (item : α) :
    (stack.push item).toList = stack.toList ++ [item] := by
  simp [push, toList]

@[simp]
theorem toList_commit (stack : UndoStack α) : stack.commit.2.toList = stack.toList := rfl

@[simp]
theorem toList_rollback (stack : UndoStack α) :
    stack.rollback.toList = stack.toList ++ stack.popped := by
  simp [rollback, toList]

@[simp]
theorem size_push (stack : UndoStack α) (item : α) : (stack.push item).size = stack.size + 1 := rfl

@[simp]
theorem pending_rollback (stack : UndoStack α) : stack.rollback.pending = 0 := rfl

theorem pop?_eq_none_iff {stack : UndoStack α} : stack.pop? = none ↔ stack.items = [] := by
  unfold pop?
  split <;> simp_all

theorem items_of_pop? {stack rest : UndoStack α} {top : α} (h : stack.pop? = some (top, rest)) :
    stack.items = top :: rest.items := by
  unfold pop? at h
  split at h
  · cases h
  · next heq =>
    cases h
    exact heq

/-- A popped item is the last one in the log. -/
theorem popped_of_pop? {stack rest : UndoStack α} {top : α} (h : stack.pop? = some (top, rest)) :
    rest.popped = top :: stack.popped := by
  unfold pop? at h
  split at h <;> cases h
  rfl

theorem toList_of_pop? {stack rest : UndoStack α} {top : α} (h : stack.pop? = some (top, rest)) :
    stack.toList = rest.toList ++ [top] := by
  rw [toList, items_of_pop? h, List.reverse_cons, toList]

/-- A pop that is rolled back has not happened. -/
theorem rollback_of_pop? {stack rest : UndoStack α} {top : α} (h : stack.pop? = some (top, rest)) :
    rest.rollback = stack.rollback := by
  simp [rollback, items_of_pop? h, popped_of_pop? h]

/-- There is nothing to roll back when no pop is pending. -/
theorem rollback_of_clean {stack : UndoStack α} (clean : stack.popped = []) :
    stack.rollback = stack := by
  obtain ⟨items, popped⟩ := stack
  cases clean
  rfl

theorem drain_of_clean {stack : UndoStack α} (clean : stack.popped = []) :
    stack.drain = stack.items := by
  rw [drain, rollback_of_clean clean]

end UndoStack

end ShiftReduce
