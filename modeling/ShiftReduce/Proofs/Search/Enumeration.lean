/-
  ShiftReduce.Proofs.Search.Enumeration
  ────────────────────────────────
  **ALL BRANCHES, BY PLAIN RECURSION.**

  The search keeps histories and makes branches again from the beginning.  Here
  the branches are enumerated as one would first write it: where a state ends,
  its result; otherwise the results after each of its moves, one after the
  other.

  Main statements: `mem_results_iff` (the results are those in which runs end)
  and `exists_enumerate`: a rank that decreases along the branches makes the
  enumeration finite.
-/
import ShiftReduce.Proofs.Search.Run

namespace ShiftReduce

variable {S : Type} [GrammarSymbol S] {σ μ α : Type}

/-! ## §1. Harvests. -/

/-- The results of some branches, in order, and the number of forks met on the
way to them. -/
structure Harvest (S : Type) [GrammarSymbol S] where
  results : List (ParseResult S)
  forks : Nat

namespace Harvest

/-- One harvest for each element of a list, put together. -/
def gather (harvest : α → Option (Harvest S)) : List α → Option (Harvest S)
  | [] => some ⟨[], 0⟩
  | first :: rest =>
    match harvest first, gather harvest rest with
    | some one, some others => some ⟨one.results ++ others.results, one.forks + others.forks⟩
    | _, _ => none

variable {harvest : α → Option (Harvest S)}

theorem gather_cons_eq_some {first : α} {rest : List α} {all : Harvest S} :
    gather harvest (first :: rest) = some all ↔
      ∃ one others, harvest first = some one ∧ gather harvest rest = some others ∧
        all = ⟨one.results ++ others.results, one.forks + others.forks⟩ := by
  rw [gather]
  split
  · next one others hone hothers =>
    simp only [Option.some.injEq, hone, hothers, exists_eq_left', exists_and_left]
    exact eq_comm
  · next missing =>
    constructor
    · intro h
      cases h
    · intro h
      obtain ⟨one, others, hone, hothers, _⟩ := h
      exact absurd hothers (missing one others hone)

theorem exists_gather {elements : List α}
    (h : ∀ element ∈ elements, ∃ one, harvest element = some one) :
    ∃ all, gather harvest elements = some all := by
  induction elements with
  | nil => exact ⟨_, rfl⟩
  | cons first rest ih =>
    obtain ⟨one, hone⟩ := h first (by simp)
    obtain ⟨others, hothers⟩ := ih fun element mem => h element (List.mem_cons_of_mem _ mem)
    exact ⟨_, gather_cons_eq_some.2 ⟨one, others, hone, hothers, rfl⟩⟩

theorem mem_gather {elements : List α} {all : Harvest S} (h : gather harvest elements = some all)
    {result : ParseResult S} :
    result ∈ all.results ↔
      ∃ element ∈ elements, ∃ one, harvest element = some one ∧ result ∈ one.results := by
  induction elements generalizing all with
  | nil =>
    cases h
    simp
  | cons first rest ih =>
    obtain ⟨one, others, hone, hothers, rfl⟩ := gather_cons_eq_some.1 h
    simp only [List.mem_append, ih hothers, List.mem_cons, or_and_right, exists_or, exists_eq_left,
      hone, Option.some.injEq, exists_eq_left']

theorem of_gather {elements : List α} {all : Harvest S} (h : gather harvest elements = some all)
    {element : α} (mem : element ∈ elements) : ∃ one, harvest element = some one := by
  induction elements generalizing all with
  | nil => exact absurd mem List.not_mem_nil
  | cons first rest ih =>
    obtain ⟨one, others, hone, hothers, _⟩ := gather_cons_eq_some.1 h
    rcases List.mem_cons.1 mem with rfl | mem
    · exact ⟨one, hone⟩
    · exact ih hothers mem

end Harvest

namespace Machine

/-! ## §2. The enumeration. -/

/-- The harvest of all branches that go through a state after `steps` moves. -/
def enumerate? (machine : Machine S σ μ) (maxSteps : Option Nat) : Nat → Nat → σ → Option (Harvest S)
  | 0, _, _ => none
  | fuel + 1, steps, state =>
    match machine.ending? maxSteps steps state with
    | some result => some ⟨[result], 0⟩
    | none =>
      let (moves, state) := machine.moves state
      let after (move : μ) := enumerate? machine maxSteps fuel (steps + 1) (machine.play state move).1
      (Harvest.gather after moves).map fun harvest =>
        { harvest with forks := harvest.forks + if moves.length = 1 then 0 else 1 }

variable {machine : Machine S σ μ} {maxSteps : Option Nat}

theorem enumerate?_of_ending {fuel steps : Nat} {state : σ} {result : ParseResult S}
    (h : machine.ending? maxSteps steps state = some result) :
    machine.enumerate? maxSteps (fuel + 1) steps state = some ⟨[result], 0⟩ := by
  rw [enumerate?, h]

/-- In a state that does not end, the harvests after its moves are put together. -/
theorem enumerate?_of_going {fuel steps : Nat} {state : σ} {harvest : Harvest S}
    (h : machine.ending? maxSteps steps state = none) :
    machine.enumerate? maxSteps (fuel + 1) steps state = some harvest ↔
      ∃ after, Harvest.gather (fun move => machine.enumerate? maxSteps fuel (steps + 1)
          (machine.play (machine.moves state).2 move).1) (machine.moves state).1 = some after ∧
        harvest = ⟨after.results,
          after.forks + if (machine.moves state).1.length = 1 then 0 else 1⟩ := by
  rw [enumerate?, h]
  simp only [Option.map_eq_some_iff]
  constructor
  · intro h
    obtain ⟨after, hafter, rfl⟩ := h
    exact ⟨after, hafter, rfl⟩
  · intro h
    obtain ⟨after, hafter, rfl⟩ := h
    exact ⟨after, hafter, rfl⟩

/-- What is harvested are the results in which runs end. -/
theorem mem_results_iff {inv : σ → Prop} (lawful : machine.Lawful inv) {fuel steps : Nat} {state : σ}
    {harvest : Harvest S} (kept : inv state)
    (h : machine.enumerate? maxSteps fuel steps state = some harvest) {result : ParseResult S} :
    result ∈ harvest.results ↔
      ∃ history final, Run machine maxSteps steps state history final ∧
        machine.ending? maxSteps (steps + history.length) final = some result := by
  induction fuel generalizing steps state harvest with
  | zero => cases h
  | succ fuel ih =>
    cases hending : machine.ending? maxSteps steps state with
    | some found =>
      -- The only run is the empty one.
      rw [enumerate?_of_ending hending] at h
      cases h
      rw [List.mem_singleton]
      constructor
      · intro h
        exact ⟨[], state, .nil _ _, by rw [h, List.length_nil, Nat.add_zero, hending]⟩
      · intro h
        obtain ⟨history, final, run, hfinal⟩ := h
        cases run with
        | nil =>
          rw [List.length_nil, Nat.add_zero, hending] at hfinal
          exact (Option.some.inj hfinal).symm
        | cons going =>
          rw [going] at hending
          cases hending
    | none =>
      obtain ⟨after, hafter, rfl⟩ := (enumerate?_of_going hending).1 h
      -- Runs make their moves in the state itself, not in what looking for the moves has left.
      have looked (move : μ) := lawful.looked state move kept (ending?_eq_none_iff.1 hending).2.2
      simp only [looked] at hafter
      rw [Harvest.mem_gather hafter]
      constructor
      · intro h
        obtain ⟨move, proposed, one, hone, hresult⟩ := h
        obtain ⟨history, final, run, hfinal⟩ := (ih (lawful.play state move kept) hone).1 hresult
        refine ⟨move :: history, final, .cons hending proposed run, ?_⟩
        rw [List.length_cons, ← Nat.add_assoc, Nat.add_right_comm, hfinal]
      · intro h
        obtain ⟨history, final, run, hfinal⟩ := h
        cases run with
        | nil =>
          rw [List.length_nil, Nat.add_zero, hending] at hfinal
          cases hfinal
        | @cons _ _ _ move rest _ proposed run =>
          obtain ⟨one, hone⟩ := Harvest.of_gather hafter proposed
          refine ⟨move, proposed, one, hone, (ih (lawful.play state move kept) hone).2 ?_⟩
          refine ⟨rest, final, run, ?_⟩
          rw [List.length_cons, ← Nat.add_assoc, Nat.add_right_comm] at hfinal
          exact hfinal

/-! ## §3. When the enumeration is finite. -/

/-- A rank that decreases with every move, unless the branch ends there, bounds
the enumeration. -/
theorem exists_enumerate {inv : σ → Prop} (lawful : machine.Lawful inv) {rank : Nat → σ → Nat}
    (lowers : machine.LowersRank maxSteps inv rank) {fuel steps : Nat} {state : σ} (kept : inv state)
    (enough : rank steps state + 1 < fuel) :
    ∃ harvest, machine.enumerate? maxSteps fuel steps state = some harvest := by
  induction fuel generalizing steps state with
  | zero => omega
  | succ fuel ih =>
    cases hending : machine.ending? maxSteps steps state with
    | some result => exact ⟨_, enumerate?_of_ending hending⟩
    | none =>
      have looked (move : μ) := lawful.looked state move kept (ending?_eq_none_iff.1 hending).2.2
      have each : ∀ move ∈ (machine.moves state).1, ∃ one,
          machine.enumerate? maxSteps fuel (steps + 1)
            (machine.play (machine.moves state).2 move).1 = some one := by
        intro move proposed
        rw [looked move]
        cases hafter : machine.ending? maxSteps (steps + 1) (machine.play state move).1 with
        | some result =>
          -- The rank need not decrease here, but one step is left for the ending.
          obtain ⟨fuel, rfl⟩ : ∃ n, fuel = n + 1 := ⟨fuel - 1, by omega⟩
          exact ⟨_, enumerate?_of_ending hafter⟩
        | none =>
          have less := lowers steps state move kept hending proposed hafter
          exact ih (lawful.play state move kept) (by omega)
      obtain ⟨after, hafter⟩ := Harvest.exists_gather each
      exact ⟨_, (enumerate?_of_going hending).2 ⟨after, hafter, rfl⟩⟩

/-- A bound on the moves lets each move lower the number of moves left. -/
theorem lowersRank_of_bound (machine : Machine S σ μ) (inv : σ → Prop) (bound : Nat) :
    machine.LowersRank (some bound) inv fun steps _ => bound - steps := by
  intro steps state move _ going _ _
  have within : steps < bound := by
    have := (ending?_eq_none_iff.1 going).2.1
    simpa using this
  show bound - (steps + 1) < bound - steps
  omega

/-- With a bound on the moves the enumeration is finite. -/
theorem exists_enumerate_of_bound {inv : σ → Prop} (lawful : machine.Lawful inv) (bound : Nat) :
    ∃ fuel harvest, machine.enumerate? (some bound) fuel 0 machine.start = some harvest :=
  ⟨bound + 2, exists_enumerate lawful (lowersRank_of_bound machine inv bound) lawful.start (by omega)⟩

end Machine

end ShiftReduce
