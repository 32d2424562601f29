/-
  ShiftReduce.Proofs.Search.Run
  ────────────────────────────────
  **THE RUNS OF A MACHINE.**

  A run makes one proposed move after the other until a state ends: because it
  is over, because the bound on the moves is reached, or because it proposes
  nothing.  Runs speak of single states; the search, with its histories and its
  fuel, is compared with them elsewhere.

  Main statements: `Run.resume_eq` (replaying the moves of a run leads to its
  last state), `Run.append`, and `Run.length_le` (a rank that moves lower bounds
  the length of runs).
-/
import ShiftReduce.Search.Machine

namespace ShiftReduce.Machine

variable {S : Type} [GrammarSymbol S] {σ μ : Type}

/-! ## §1. What the search relies on. -/

/-- The search relies on this: a property of the states that moves keep, under
which looking for the moves does not change what they do, and that a state
that refuses a move is over. -/
structure Lawful (machine : Machine S σ μ) (inv : σ → Prop) : Prop where
  start : inv machine.start
  play : ∀ state move, inv state → inv (machine.play state move).1
  looked : ∀ state move, inv state → (machine.moves state).1 ≠ [] →
    machine.play (machine.moves state).2 move = machine.play state move
  refused : ∀ state move, (machine.play state move).2 = true →
    machine.isOver (machine.play state move).1 = true

/-! ## §2. How a state ends. -/

variable (machine : Machine S σ μ) (maxSteps : Option Nat)

/-- The result of a state after `steps` moves, if the branch ends there. -/
def ending? (steps : Nat) (state : σ) : Option (ParseResult S) :=
  if machine.isOver state then some (machine.result state)
  else if maxSteps.any (· ≤ steps) then some (machine.result (machine.interrupt state))
  else if (machine.moves state).1.isEmpty then some (machine.result (machine.moves state).2)
  else none

variable {machine maxSteps}

theorem ending?_eq_none_iff {steps : Nat} {state : σ} :
    machine.ending? maxSteps steps state = none ↔
      machine.isOver state = false ∧ maxSteps.any (· ≤ steps) = false ∧
        (machine.moves state).1 ≠ [] := by
  unfold ending?
  split
  · simp [*]
  · split
    · simp [*]
    · split
      · simp_all
      · simp_all

/-- The three ways in which a branch ends after `steps` moves, with its result. -/
inductive Ends (machine : Machine S σ μ) (maxSteps : Option Nat) (steps : Nat) (state : σ) :
    ParseResult S → Prop where
  | finished (ended : machine.isOver state = true) : Ends machine maxSteps steps state (machine.result state)
  | cut (going : machine.isOver state = false) (exhausted : maxSteps.any (· ≤ steps) = true) :
      Ends machine maxSteps steps state (machine.result (machine.interrupt state))
  | stuck (going : machine.isOver state = false) (within : maxSteps.any (· ≤ steps) = false)
      (nothing : (machine.moves state).1 = []) :
      Ends machine maxSteps steps state (machine.result (machine.moves state).2)

theorem ends_of_ending {steps : Nat} {state : σ} {result : ParseResult S}
    (h : machine.ending? maxSteps steps state = some result) : machine.Ends maxSteps steps state result := by
  unfold ending? at h
  split at h
  · next ended =>
    cases h
    exact .finished ended
  · next going =>
    have going : machine.isOver state = false := Bool.eq_false_iff.2 going
    split at h
    · next exhausted =>
      cases h
      exact .cut going exhausted
    · next within =>
      split at h
      · next nothing =>
        cases h
        exact .stuck going (Bool.eq_false_iff.2 within) (List.isEmpty_iff.1 nothing)
      · cases h

/-- Without a bound only the state decides whether the branch ends. -/
theorem ending?_of_isOver {steps : Nat} {state : σ} (h : machine.isOver state = true) :
    machine.ending? maxSteps steps state = some (machine.result state) := by
  rw [ending?, if_pos h]

/-! ## §3. Runs. -/

/-- The moves of the list, each one proposed by the state it is made in, lead
from one state to another; `steps` moves were made before the first one. -/
inductive Run (machine : Machine S σ μ) (maxSteps : Option Nat) : Nat → σ → List μ → σ → Prop where
  | nil (steps : Nat) (state : σ) : Run machine maxSteps steps state [] state
  | cons {steps : Nat} {state final : σ} {move : μ} {rest : List μ}
      (going : machine.ending? maxSteps steps state = none) (proposed : move ∈ (machine.moves state).1)
      (run : Run machine maxSteps (steps + 1) (machine.play state move).1 rest final) :
      Run machine maxSteps steps state (move :: rest) final

namespace Run

theorem append {steps : Nat} {state middle final : σ} {history rest : List μ}
    (first : Run machine maxSteps steps state history middle)
    (second : Run machine maxSteps (steps + history.length) middle rest final) :
    Run machine maxSteps steps state (history ++ rest) final := by
  induction first with
  | nil => exact second
  | @cons steps _ _ _ history going proposed _ ih =>
    refine .cons going proposed (ih ?_)
    rw [List.length_cons, ← Nat.add_assoc, Nat.add_right_comm] at second
    exact second

/-- A run can be made longer by a move that its last state proposes. -/
theorem snoc {steps : Nat} {state final : σ} {history : List μ} {move : μ}
    (run : Run machine maxSteps steps state history final)
    (going : machine.ending? maxSteps (steps + history.length) final = none)
    (proposed : move ∈ (machine.moves final).1) :
    Run machine maxSteps steps state (history ++ [move]) (machine.play final move).1 :=
  run.append (.cons going proposed (.nil _ _))

/-- No move is made in a state that is over. -/
theorem eq_of_isOver {steps : Nat} {state final : σ} {history : List μ}
    (run : Run machine maxSteps steps state history final) (h : machine.isOver state = true) :
    final = state := by
  cases run with
  | nil => rfl
  | cons going =>
    rw [ending?_of_isOver h] at going
    cases going

/-- No move is made in a state in which the branch ends. -/
theorem eq_nil_of_ending {steps : Nat} {state final : σ} {history : List μ} {result : ParseResult S}
    (run : Run machine maxSteps steps state history final)
    (h : machine.ending? maxSteps steps state = some result) : history = [] := by
  cases run with
  | nil => rfl
  | cons going =>
    rw [h] at going
    cases going

/-- What moves keep, with their number counted, holds at the end of a run if it
holds at its beginning. -/
theorem counted (inv : Nat → σ → Prop)
    (play : ∀ steps state move, inv steps state → machine.isOver state = false →
      move ∈ (machine.moves state).1 → inv (steps + 1) (machine.play state move).1)
    {steps : Nat} {state final : σ} {history : List μ}
    (run : Run machine maxSteps steps state history final) (h : inv steps state) :
    inv (steps + history.length) final := by
  induction run with
  | nil => exact h
  | cons going proposed _ ih =>
    rw [List.length_cons, ← Nat.add_assoc, Nat.add_right_comm]
    exact ih (play _ _ _ h (ending?_eq_none_iff.1 going).1 proposed)

/-- What moves keep holds at the end of a run if it holds at its beginning. -/
theorem invariant (inv : σ → Prop) (play : ∀ state move, inv state → machine.isOver state = false →
      move ∈ (machine.moves state).1 → inv (machine.play state move).1)
    {steps : Nat} {state final : σ} {history : List μ}
    (run : Run machine maxSteps steps state history final) (h : inv state) : inv final :=
  run.counted (fun _ => inv) (fun _ => play) h

/-- With a bound on the moves no run is longer. -/
theorem add_length_le {steps bound : Nat} {state final : σ} {history : List μ}
    (run : Run machine (some bound) steps state history final) (within : steps ≤ bound) :
    steps + history.length ≤ bound := by
  induction run with
  | nil => exact within
  | cons going _ _ ih =>
    have less := (ending?_eq_none_iff.1 going).2.1
    rw [Option.any_some, decide_eq_false_iff_not] at less
    rw [List.length_cons, ← Nat.add_assoc, Nat.add_right_comm]
    exact ih (by omega)

/-- Making the moves of a run again leads to its last state. -/
theorem resume_eq {inv : σ → Prop} (lawful : machine.Lawful inv) {steps : Nat} {state final : σ}
    {history : List μ} (run : Run machine maxSteps steps state history final) :
    machine.resume state history = final := by
  induction run with
  | nil => rfl
  | @cons _ state _ move _ _ _ run ih =>
    unfold resume
    split
    · next after refused =>
      -- The state is over then, so the run has no further moves.
      have ended := lawful.refused state move (by rw [refused])
      rw [refused] at run ended
      exact (run.eq_of_isOver ended).symm
    · next after accepted =>
      rw [accepted] at ih
      exact ih

end Run

/-! ## §4. How long runs are. -/

/-- Every move lowers the rank, unless the branch ends with it. -/
def LowersRank (machine : Machine S σ μ) (maxSteps : Option Nat) (inv : σ → Prop)
    (rank : Nat → σ → Nat) : Prop :=
  ∀ steps state move, inv state → machine.ending? maxSteps steps state = none →
    move ∈ (machine.moves state).1 →
      machine.ending? maxSteps (steps + 1) (machine.play state move).1 = none →
        rank (steps + 1) (machine.play state move).1 < rank steps state

/-- A run makes at most one move more than its first state has rank. -/
theorem Run.length_le {inv : σ → Prop} (lawful : machine.Lawful inv) {rank : Nat → σ → Nat}
    (lowers : machine.LowersRank maxSteps inv rank) {steps : Nat} {state final : σ}
    {history : List μ} (run : Run machine maxSteps steps state history final) (kept : inv state) :
    history.length ≤ rank steps state + 1 := by
  induction run with
  | nil => exact Nat.zero_le _
  | @cons steps state _ move rest going proposed run ih =>
    rw [List.length_cons]
    cases hafter : machine.ending? maxSteps (steps + 1) (machine.play state move).1 with
    | some result =>
      rw [run.eq_nil_of_ending hafter]
      exact Nat.succ_le_succ (Nat.zero_le _)
    | none =>
      have less := lowers steps state move kept going proposed hafter
      have shorter := ih (lawful.play state move kept)
      omega

/-- If runs cannot be arbitrarily long, each of them goes on to an end. -/
theorem Run.exists_ending {steps bound : Nat} {state final : σ} {history : List μ}
    (short : ∀ longer last, Run machine maxSteps steps state longer last → longer.length ≤ bound)
    (run : Run machine maxSteps steps state history final) :
    ∃ rest last result, Run machine maxSteps steps state (history ++ rest) last ∧
      machine.ending? maxSteps (steps + (history ++ rest).length) last = some result := by
  -- As long as the branch does not end there is a move to add, up to the bound.
  induction hleft : bound - history.length using Nat.strongRecOn generalizing history final with
  | ind left ih =>
    cases hending : machine.ending? maxSteps (steps + history.length) final with
    | some result => exact ⟨[], final, result, by rw [List.append_nil]; exact ⟨run, hending⟩⟩
    | none =>
      obtain ⟨move, proposed⟩ := List.exists_mem_of_ne_nil _ (ending?_eq_none_iff.1 hending).2.2
      have longer := run.snoc hending proposed
      have within := short _ _ longer
      rw [List.length_append, List.length_singleton] at within
      obtain ⟨rest, last, result, run', hlast⟩ := ih _ (by
        rw [List.length_append, List.length_singleton]
        omega) longer rfl
      exact ⟨move :: rest, last, result, by rw [List.append_cons]; exact ⟨run', hlast⟩⟩

/-! ## §5. Histories. -/

/-- Moves that none of the states on the way refuses are made one list after the other. -/
theorem resume_append {inv : σ → Prop} (lawful : machine.Lawful inv) {state : σ} {history rest : List μ}
    (going : machine.isOver (machine.resume state history) = false) :
    machine.resume state (history ++ rest) = machine.resume (machine.resume state history) rest := by
  induction history generalizing state with
  | nil => rfl
  | cons move history ih =>
    rw [List.cons_append]
    cases hplay : machine.play state move with
    | mk after refused =>
      cases refused with
      | false =>
        simp only [resume, hplay] at going ⊢
        exact ih going
      | true =>
        -- A refusal would have ended the branch, but it goes on.
        have ended := lawful.refused state move (by rw [hplay])
        rw [hplay] at ended
        simp only [resume, hplay] at going
        rw [ended] at going
        cases going

/-- One more move is made from where the history has led. -/
theorem replay_snoc {inv : σ → Prop} (lawful : machine.Lawful inv) {history : List μ} {move : μ}
    (going : machine.isOver (machine.replay history) = false) :
    machine.replay (history ++ [move]) = (machine.play (machine.replay history) move).1 := by
  rw [replay, resume_append lawful going, ← replay, resume]
  split
  · next after h => rw [h]
  · next after h =>
    rw [h]
    rfl

/-! ## §6. How branches end. -/

/-- Some branch ends in the result. -/
def EndsIn (machine : Machine S σ μ) (maxSteps : Option Nat) (result : ParseResult S) : Prop :=
  ∃ history state, Run machine maxSteps 0 machine.start history state ∧
    machine.ending? maxSteps history.length state = some result

/-- The three ways in which a branch stops after `steps` moves, with the state that
it stops in. -/
inductive Stops (machine : Machine S σ μ) (maxSteps : Option Nat) (steps : Nat) (state : σ) :
    σ → Prop where
  | finished (ended : machine.isOver state = true) : Stops machine maxSteps steps state state
  | cut (going : machine.isOver state = false) (exhausted : maxSteps.any (· ≤ steps) = true) :
      Stops machine maxSteps steps state (machine.interrupt state)
  | stuck (going : machine.isOver state = false) (within : maxSteps.any (· ≤ steps) = false)
      (nothing : (machine.moves state).1 = []) :
      Stops machine maxSteps steps state (machine.moves state).2

/-- A branch ends in the result of the state that it stops in. -/
theorem Ends.exists_stops {machine : Machine S σ μ} {maxSteps : Option Nat} {steps : Nat} {state : σ}
    {result : ParseResult S} (ends : machine.Ends maxSteps steps state result) :
    ∃ stopped, machine.Stops maxSteps steps state stopped ∧ machine.result stopped = result := by
  cases ends with
  | finished ended => exact ⟨_, .finished ended, rfl⟩
  | cut going exhausted => exact ⟨_, .cut going exhausted, rfl⟩
  | stuck going within nothing => exact ⟨_, .stuck going within nothing, rfl⟩

/-- Some branch stops in the state. -/
def StopsIn (machine : Machine S σ μ) (maxSteps : Option Nat) (stopped : σ) : Prop :=
  ∃ history state, Run machine maxSteps 0 machine.start history state ∧
    machine.Stops maxSteps history.length state stopped

/-- A result in which some branch ends is that of a state in which it stops. -/
theorem EndsIn.exists_stopsIn {machine : Machine S σ μ} {maxSteps : Option Nat} {result : ParseResult S}
    (ends : machine.EndsIn maxSteps result) :
    ∃ stopped, machine.StopsIn maxSteps stopped ∧ machine.result stopped = result := by
  obtain ⟨history, state, run, ending⟩ := ends
  obtain ⟨stopped, stops, hresult⟩ := (ends_of_ending ending).exists_stops
  exact ⟨stopped, ⟨history, state, run, stops⟩, hresult⟩

end ShiftReduce.Machine
