/-
  ShiftReduce.Proofs.UndoLog
  ────────────────────────────────
  **NO ITEM IS LOST ON A STACK WHOSE POPS CAN BE REFUSED.**

  The operations come in any order: items are pushed over pops that are still
  pending, items pushed since the log was last empty are popped, and there may
  be nothing to pop.  What each operation has shown its caller is recorded
  beside the stack, and the record alone tells what the undo log holds: the items
  popped since it was last cleared.

  Main statement: `items_accounted_for`.
-/
import Mathlib.Data.List.DropRight
import Mathlib.Data.List.Infix
import ShiftReduce.UndoStack

namespace ShiftReduce

namespace UndoStack

variable {α : Type}

/-! ## §1. Operations and what they show. -/

/-- What can be done to a stack. -/
inductive Operation (α : Type) where
  | push (item : α)
  | pop
  | commit
  | rollback
  deriving DecidableEq

/-- The item that the operation puts on the stack. -/
def Operation.pushed? : Operation α → Option α
  | push item => some item
  | _ => none

/-- What the caller of an operation gets to know. -/
inductive Event (α : Type) where
  | pushed
  | popped (item : α)
  /-- There was nothing to pop. -/
  | missed
  | committed (items : List α)
  | rolledBack

namespace Event

/-- The item that a pop has returned. -/
def popped? : Event α → Option α
  | popped item => some item
  | _ => none

/-- The items that a commit has returned. -/
def committedItems : Event α → List α
  | committed items => items
  | _ => []

/-- A commit or a rollback: no pop is pending after it. -/
def clears : Event α → Bool
  | committed _ => true
  | rolledBack => true
  | _ => false

end Event

/-- Does an operation: what it shows, and the stack after it. -/
def perform (stack : UndoStack α) : Operation α → Event α × UndoStack α
  | .push item => (.pushed, stack.push item)
  | .pop =>
    match stack.pop? with
    | none => (.missed, stack)
    | some (top, rest) => (.popped top, rest)
  | .commit => (.committed stack.commit.1, stack.commit.2)
  | .rollback => (.rolledBack, stack.rollback)

/-- A pushed item is new on the stack; everything else stays, is logged, put back or handed out. -/
theorem perform_balance (stack : UndoStack α) (operation : Operation α) :
    (operation.pushed?.toList ++ (stack.toList ++ stack.popped)).Perm
      ((stack.perform operation).2.toList ++ (stack.perform operation).2.popped ++
        (stack.perform operation).1.committedItems) := by
  cases operation with
  | push item =>
    show (item :: (stack.toList ++ stack.popped)).Perm ((stack.push item).toList ++ stack.popped ++ [])
    rw [List.append_nil, toList_push, List.append_assoc]
    exact List.perm_middle.symm
  | pop =>
    unfold perform
    cases found : stack.pop? with
    | none =>
      show (stack.toList ++ stack.popped).Perm (stack.toList ++ stack.popped ++ [])
      rw [List.append_nil]
    | some pair =>
      obtain ⟨top, rest⟩ := pair
      show (stack.toList ++ stack.popped).Perm (rest.toList ++ rest.popped ++ [])
      -- The item goes from the end of one list to the beginning of the other.
      rw [List.append_nil, toList_of_pop? found, popped_of_pop? found, List.append_assoc]
      rfl
  | commit =>
    show (stack.toList ++ stack.popped).Perm (stack.commit.2.toList ++ [] ++ stack.popped.reverse)
    rw [List.append_nil, toList_commit]
    exact (List.reverse_perm stack.popped).symm.append_left _
  | rollback =>
    show (stack.toList ++ stack.popped).Perm (stack.rollback.toList ++ [] ++ [])
    rw [List.append_nil, List.append_nil, toList_rollback]

/-- A commit and a rollback clear the log, and a pop that has found an item adds it. -/
theorem perform_log (stack : UndoStack α) (operation : Operation α) :
    (stack.perform operation).2.popped.reverse =
      if (stack.perform operation).1.clears then []
      else stack.popped.reverse ++ (stack.perform operation).1.popped?.toList := by
  cases operation with
  | push item => exact (List.append_nil _).symm
  | pop =>
    unfold perform
    cases found : stack.pop? with
    | none => exact (List.append_nil _).symm
    | some pair =>
      show pair.2.popped.reverse = stack.popped.reverse ++ [pair.1]
      rw [popped_of_pop? found, List.reverse_cons]
  | commit => rfl
  | rollback => rfl

/-! ## §2. Sessions. -/

/-- The items popped since the last commit or rollback, in the order of the pops. -/
def poppedSince (events : List (Event α)) : List α :=
  (events.rtakeWhile fun event => !event.clears).filterMap Event.popped?

/-- All that the commits have returned. -/
def handedOut (events : List (Event α)) : List α :=
  events.flatMap Event.committedItems

theorem poppedSince_concat (events : List (Event α)) (event : Event α) :
    poppedSince (events ++ [event]) =
      if event.clears then [] else poppedSince events ++ event.popped?.toList := by
  unfold poppedSince
  cases clears : event.clears with
  | true => rw [List.rtakeWhile_concat_neg _ _ _ (by simp [clears])]; rfl
  | false =>
    rw [List.rtakeWhile_concat_pos _ _ _ (by simp [clears]), List.filterMap_append]
    cases popped : event.popped? <;> simp [popped]

theorem handedOut_concat (events : List (Event α)) (event : Event α) :
    handedOut (events ++ [event]) = handedOut events ++ event.committedItems := by
  simp [handedOut]

/-- A stack in use, with the record of what the operations so far have shown, the first one first. -/
structure Session (α : Type) where
  events : List (Event α)
  stack : UndoStack α

namespace Session

/-- The session after one more operation. -/
def step (session : Session α) (operation : Operation α) : Session α :=
  ⟨session.events ++ [(session.stack.perform operation).1], (session.stack.perform operation).2⟩

/-- The session after the given operations, from the empty stack on. -/
def run (operations : List (Operation α)) : Session α :=
  operations.foldl step ⟨[], .empty⟩

theorem run_append (before after : List (Operation α)) :
    run (before ++ after) = after.foldl step (run before) :=
  List.foldl_append ..

theorem run_concat (operations : List (Operation α)) (operation : Operation α) :
    run (operations ++ [operation]) = (run operations).step operation :=
  run_append operations [operation]

/-- The items pushed by the operations are on the stack, pending, or handed out,
and the undo log holds the items popped since it was last cleared. -/
structure Accounts (operations : List (Operation α)) (session : Session α) : Prop where
  balance : (operations.filterMap Operation.pushed?).Perm
    (session.stack.toList ++ session.stack.popped ++ handedOut session.events)
  log : session.stack.popped.reverse = poppedSince session.events

/-- One more operation keeps the accounts, whatever the stack is. -/
theorem Accounts.step {operations : List (Operation α)} {session : Session α}
    (accounts : Accounts operations session) (operation : Operation α) :
    Accounts (operations ++ [operation]) (session.step operation) where
  balance := by
    have pushed : (operations ++ [operation]).filterMap Operation.pushed? =
        operations.filterMap Operation.pushed? ++ operation.pushed?.toList := by
      rw [List.filterMap_append]
      cases found : operation.pushed? <;> simp [found]
    rw [pushed]
    show List.Perm _ (_ ++ handedOut (_ ++ [_]))
    rw [handedOut_concat]
    refine (accounts.balance.append_right _).trans ?_
    -- What is pushed moves to the front, where the account of one operation takes it.
    refine List.perm_append_comm.trans ?_
    rw [← List.append_assoc]
    refine ((perform_balance session.stack operation).append_right _).trans ?_
    rw [List.append_assoc _ _ (handedOut _)]
    exact List.perm_append_comm.append_left _
  log := by
    show (session.stack.perform operation).2.popped.reverse = poppedSince (_ ++ [_])
    rw [perform_log, poppedSince_concat, accounts.log]

/-- The accounts hold after any operations: by induction on them, the last one taken off. -/
theorem accounts_run (operations : List (Operation α)) : Accounts operations (run operations) := by
  induction operations using List.reverseRecOn with
  | nil => exact ⟨.nil, rfl⟩
  | append_singleton operations operation accounts =>
    rw [run_concat]
    exact accounts.step operation

/-! ## §3. Since the log was last empty. -/

/-- The log is empty after the operations before, and after none of the later ones. -/
def LastClear (before after : List (Operation α)) : Prop :=
  (run before).stack.pending = 0 ∧
    ∀ early, early ≠ [] → early <+: after → (run (before ++ early)).stack.pending ≠ 0

/-- There always is such a moment: the log has been empty at the beginning. -/
theorem exists_lastClear (operations : List (Operation α)) :
    ∃ before after, operations = before ++ after ∧ LastClear before after := by
  induction operations using List.reverseRecOn with
  | nil =>
    refine ⟨[], [], rfl, rfl, fun early nonempty starts => ?_⟩
    exact absurd (List.prefix_nil.1 starts) nonempty
  | append_singleton operations operation ih =>
    obtain ⟨before, after, rfl, clear, standing⟩ := ih
    by_cases now : (run (before ++ (after ++ [operation]))).stack.pending = 0
    · refine ⟨before ++ (after ++ [operation]), [], by simp, now, fun early nonempty starts => ?_⟩
      exact absurd (List.prefix_nil.1 starts) nonempty
    · refine ⟨before, after ++ [operation], by simp, clear, fun early nonempty starts => ?_⟩
      obtain rfl | earlier := List.prefix_concat_iff.1 starts
      · exact now
      · exact standing early nonempty earlier

/-- As long as the log does not become empty, there are only pushes and pops. -/
theorem LastClear.push_or_pop {before after : List (Operation α)} (last : LastClear before after)
    {operation : Operation α} (mem : operation ∈ after) :
    (∃ item, operation = .push item) ∨ operation = .pop := by
  obtain ⟨early, late, rfl⟩ := List.append_of_mem mem
  have standing : (run (before ++ (early ++ [operation]))).stack.pending ≠ 0 :=
    last.2 (early ++ [operation]) (by simp) ⟨late, by simp⟩
  rw [← List.append_assoc, run_concat] at standing
  cases operation with
  | push item => exact .inl ⟨item, rfl⟩
  | pop => exact .inr rfl
  | commit => exact absurd rfl standing
  | rollback => exact absurd rfl standing

/-- A pop, also one that finds nothing, is undone by the next rollback. -/
theorem rollback_step_pop (session : Session α) :
    (session.step .pop).stack.rollback = session.stack.rollback := by
  show (session.stack.perform .pop).2.rollback = _
  unfold perform
  cases popped : session.stack.pop? with
  | none => rfl
  | some pair => exact rollback_of_pop? popped

/-- Pops alone leave the rolled back stack as it was. -/
theorem rollback_foldl_pop (session : Session α) {operations : List (Operation α)}
    (pops : ∀ operation ∈ operations, operation = .pop) :
    (operations.foldl step session).stack.rollback = session.stack.rollback := by
  induction operations generalizing session with
  | nil => rfl
  | cons operation operations ih =>
    rw [List.forall_mem_cons] at pops
    rw [List.foldl_cons, ih _ pops.2, pops.1, rollback_step_pop]

/-- Without a push since the log was last empty a rollback restores the stack of that moment. -/
theorem LastClear.rollback {before after : List (Operation α)} (last : LastClear before after)
    (unpushed : ∀ item, Operation.push item ∉ after) :
    (run (before ++ after)).stack.rollback = (run before).stack := by
  have pops : ∀ operation ∈ after, operation = .pop := by
    intro operation mem
    obtain ⟨item, rfl⟩ | pop := last.push_or_pop mem
    · exact absurd mem (unpushed item)
    · exact pop
  rw [run_append, rollback_foldl_pop _ pops]
  exact rollback_of_clean (List.eq_nil_of_length_eq_zero last.1)

end Session
end UndoStack

/-! ## §4. All items are accounted for. -/

open UndoStack in
/-- Whatever has been done to a stack: each pushed item is on it, in the undo log, or has been
returned by a commit, as often as it was pushed; a commit returns what was popped since the log was
last cleared, in that order; a rollback puts this back on top, the last popped item first, and
leaves nothing pending.  The log has been empty at some time, and without a push since then a rollback
gives the stack of that moment, and draining gives its items from the top down. -/
theorem items_accounted_for {α : Type} (operations : List (Operation α)) :
    (operations.filterMap Operation.pushed?).Perm
      ((Session.run operations).stack.toList ++ (Session.run operations).stack.popped ++
        handedOut (Session.run operations).events) ∧
    (Session.run operations).stack.commit.1 = poppedSince (Session.run operations).events ∧
    (∃ before after, operations = before ++ after ∧ Session.LastClear before after) ∧
    (∀ before after, operations = before ++ after → Session.LastClear before after →
      (∀ item, Operation.push item ∉ after) →
      (Session.run operations).stack.rollback = (Session.run before).stack ∧
      (Session.run operations).stack.drain = (Session.run before).stack.toList.reverse) ∧
    (Session.run operations).stack.rollback.toList =
      (Session.run operations).stack.toList ++ (poppedSince (Session.run operations).events).reverse ∧
    (Session.run operations).stack.rollback.pending = 0 := by
  have accounts := Session.accounts_run operations
  refine ⟨accounts.balance, accounts.log, Session.exists_lastClear operations, ?_, ?_,
    pending_rollback _⟩
  · rintro before after rfl last unpushed
    have restored := last.rollback unpushed
    refine ⟨restored, ?_⟩
    rw [drain, restored, toList, List.reverse_reverse]
  · rw [toList_rollback, ← accounts.log, List.reverse_reverse]

open UndoStack in
/-- After a commit `3` is pushed over `1`; three pops, one too many, are rolled back. -/
theorem items_accounted_for_pops :
    Session.LastClear [.push 1, .push 2, .pop, .commit, .push 3] [.pop, .pop, .pop] ∧
    (∀ item : Nat, Operation.push item ∉ [.pop, .pop, .pop]) ∧
    (Session.run [.push 1, .push 2, .pop, .commit, .push 3, .pop, .pop, .pop]).stack.rollback =
      ⟨[3, 1], []⟩ := by
  have last : Session.LastClear [.push 1, .push 2, .pop, .commit, .push 3] [.pop, .pop, .pop] := by
    refine ⟨rfl, fun early nonempty starts => ?_⟩
    rw [← List.mem_inits] at starts
    revert nonempty
    revert early
    decide
  have unpushed : ∀ item : Nat, Operation.push item ∉ [.pop, .pop, .pop] := by
    intro item
    simp
  exact ⟨last, unpushed, ((items_accounted_for _).2.2.2.1 _ _ rfl last unpushed).1⟩

end ShiftReduce
