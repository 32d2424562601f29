/-
  ShiftReduce.Proofs.Search.SingleSuccess
  ────────────────────────────────
  **ONE SUCCESS, AND A DEAD END FOR EACH FORK.**

  A machine without a bound on its moves may find its way almost alone: it mostly
  proposes a single move, and where it forks, one of two moves leads nowhere at
  once.  The number of branches is then known from the number of forks, and both
  can be counted along the one branch that succeeds, from its end backwards.

  Main statements: `SucceedsOnce.of_sole` and `SucceedsOnce.of_fork` (what one move
  preserves), and `exists_collects_of_succeedsOnce` (what a whole search comes to).
-/
import ShiftReduce.Proofs.Search.Pruning
import ShiftReduce.Proofs.Search.Verdict

namespace ShiftReduce

variable {S : Type} [GrammarSymbol S] {σ μ : Type}

namespace Machine

/-! ## §1. States with a single success ahead. -/

/-- Of the branches that go through the state one is accepted, with a single tree,
and besides it there is one more branch for each of so many forks. -/
def SucceedsOnce (machine : Machine S σ μ) (state : σ) (forks : Nat) : Prop :=
  ∀ steps, ∃ fuel harvest tree, machine.enumerate? none fuel steps state = some harvest ∧
    harvest.forks = forks ∧ harvest.results.length = forks + 1 ∧
    acceptedOf harvest.results = [⟨[tree], none⟩]

variable {machine : Machine S σ μ} {inv : σ → Prop} {state : σ} {forks : Nat}

/-- In a state that goes on, the harvests after its moves are put together, with one fork
more if there are several. -/
theorem enumerate?_of_moves {moves : List μ} {after : Harvest S} {fuel steps : Nat}
    (lawful : machine.Lawful inv) (kept : inv state) (going : machine.isOver state = false)
    (proposed : (machine.moves state).1 = moves) (nonempty : moves ≠ [])
    (gathered : Harvest.gather
      (fun move => machine.enumerate? none fuel (steps + 1) (machine.play state move).1) moves = some after) :
    machine.enumerate? none (fuel + 1) steps state =
      some ⟨after.results, after.forks + if moves.length = 1 then 0 else 1⟩ := by
  subst proposed
  have goes : machine.ending? none steps state = none := ending?_eq_none_iff.2 ⟨going, rfl, nonempty⟩
  have looked (move : μ) := lawful.looked state move kept nonempty
  refine (enumerate?_of_going goes).2 ⟨after, ?_, rfl⟩
  simp only [looked]
  exact gathered

/-- In a state that is over with a tree, the success is there and no fork is to come. -/
theorem succeedsOnce_of_result {tree : ParseTree S} (ended : machine.isOver state = true)
    (result : machine.result state = ⟨[tree], none⟩) : machine.SucceedsOnce state 0 := by
  intro steps
  refine ⟨1, _, tree, enumerate?_of_ending (ending?_of_isOver ended), rfl, rfl, ?_⟩
  rw [result]
  rfl

/-- A sole move leads to the same success, through as many forks. -/
theorem SucceedsOnce.of_sole {move : μ} (lawful : machine.Lawful inv) (kept : inv state)
    (going : machine.isOver state = false) (sole : (machine.moves state).1 = [move])
    (later : machine.SucceedsOnce (machine.play state move).1 forks) :
    machine.SucceedsOnce state forks := by
  intro steps
  obtain ⟨fuel, harvest, tree, found, hforks, hlength, haccepted⟩ := later (steps + 1)
  have enumerated := enumerate?_of_moves lawful kept going sole (List.cons_ne_nil _ _)
    (Harvest.gather_cons_eq_some.2 ⟨harvest, ⟨[], 0⟩, found, rfl, rfl⟩)
  refine ⟨fuel + 1, _, tree, enumerated, ?_, ?_, ?_⟩
  · exact hforks
  · show (harvest.results ++ []).length = forks + 1
    rw [List.append_nil, hlength]
  · show acceptedOf (harvest.results ++ []) = _
    rw [List.append_nil, haccepted]

/-- Where one of two moves ends the branch at once without success, there is one
fork more, and one branch more. -/
theorem SucceedsOnce.of_fork {dead live : μ} (lawful : machine.Lawful inv) (kept : inv state)
    (going : machine.isOver state = false) (two : (machine.moves state).1 = [dead, live])
    (ended : machine.isOver (machine.play state dead).1 = true)
    (failed : (machine.result (machine.play state dead).1).isAccepted = false)
    (later : machine.SucceedsOnce (machine.play state live).1 forks) :
    machine.SucceedsOnce state (forks + 1) := by
  intro steps
  obtain ⟨fuel, harvest, tree, found, hforks, hlength, haccepted⟩ := later (steps + 1)
  -- The dead end takes a step of its own, so one more unit of fuel serves for both.
  have missed : machine.enumerate? none (fuel + 1) (steps + 1) (machine.play state dead).1 =
      some ⟨[machine.result (machine.play state dead).1], 0⟩ :=
    enumerate?_of_ending (ending?_of_isOver ended)
  have enumerated := enumerate?_of_moves lawful kept going two (List.cons_ne_nil _ _)
    (Harvest.gather_cons_eq_some.2 ⟨_, _, missed, Harvest.gather_cons_eq_some.2
      ⟨harvest, ⟨[], 0⟩, enumerate?_mono (Nat.le_succ fuel) found, rfl, rfl⟩, rfl⟩)
  refine ⟨fuel + 2, _, tree, enumerated, ?_, ?_, ?_⟩
  · show 0 + harvest.forks + 1 = forks + 1
    rw [Nat.zero_add, hforks]
  · show (_ :: (harvest.results ++ [])).length = forks + 1 + 1
    rw [List.append_nil, List.length_cons, hlength]
  · show acceptedOf ([machine.result (machine.play state dead).1] ++ (harvest.results ++ [])) = _
    rw [List.append_nil, acceptedOf_append, acceptedOf_singleton failed, haccepted]
    rfl

end Machine

/-! ## §2. Whole searches. -/

namespace Verdict

variable [DecidableEq S]

/-- The tree of the only accepted result is the verdict. -/
theorem ofResults_of_acceptedOf {results : List (ParseResult S)} {tree : ParseTree S}
    (sole : acceptedOf results = [⟨[tree], none⟩]) : ofResults results = .accepted tree := by
  -- The trees of the results are those of the accepted ones.
  have trees : ∀ other, other ∈ treesOf results ↔ other = tree := by
    intro other
    have among : ∀ result : ParseResult S,
        result ∈ results ∧ result.error = none ↔ result = ⟨[tree], none⟩ := by
      intro result
      have kept : result ∈ acceptedOf results ↔ result ∈ results ∧ result.error = none := by
        rw [acceptedOf, List.mem_filter, ParseResult.isAccepted, Option.isNone_iff_eq_none]
      rw [← kept, sole, List.mem_singleton]
    rw [mem_treesOf]
    constructor
    · intro h
      obtain ⟨result, mem, accepted, head⟩ := h
      rw [(among result).1 ⟨mem, accepted⟩] at head
      exact (Option.some.inj head).symm
    · intro same
      obtain ⟨mem, accepted⟩ := (among ⟨[tree], none⟩).2 rfl
      exact ⟨_, mem, accepted, by rw [same]; rfl⟩
  exact ((decides_ofResults trees).accepted tree).2 fun other => Iff.rfl

/-- Without an accepted result the verdict is a rejection. -/
theorem ofResults_of_acceptedOf_nil {results : List (ParseResult S)} (none : acceptedOf results = []) :
    ∃ errors, ofResults results = .rejected errors := by
  have trees : ∀ tree, tree ∈ treesOf results ↔ False := by
    intro tree
    rw [mem_treesOf, iff_false]
    intro h
    obtain ⟨result, mem, accepted, _⟩ := h
    exact List.filter_eq_nil_iff.1 none result mem (Option.isNone_iff_eq_none.2 accepted)
  exact (decides_ofResults trees).rejected.2 fun _ => id

end Verdict

namespace Search

variable [DecidableEq S] {machine : Machine S σ μ} {inv : σ → Prop} {forks : Nat}

/-- A search for a single success hands out one accepted result, and has explored
one branch more than it has met forks. -/
theorem exists_collects_of_succeedsOnce (lawful : machine.Lawful inv) (deduplicate : Bool)
    (once : machine.SucceedsOnce machine.start forks) :
    ∃ results final tree, Collects machine { deduplicate } initial results final ∧ final.pending = [] ∧
      final.forks = forks ∧ final.explored = forks + 1 ∧ acceptedOf results = [⟨[tree], none⟩] := by
  obtain ⟨fuel, harvest, tree, enumerated, hforks, hlength, haccepted⟩ := once 0
  refine ⟨_, _, tree, collects_initial lawful enumerated, rfl, ?_, ?_, ?_⟩
  · show 0 + harvest.forks = forks
    rw [Nat.zero_add, hforks]
  · show 0 + harvest.results.length = forks + 1
    rw [Nat.zero_add, hlength]
  · -- There is nothing that a single success could repeat.
    rw [acceptedOf_reported, haccepted, reported, if_neg fun skips => List.not_mem_nil skips.2.2]
    rfl

end Search

end ShiftReduce
