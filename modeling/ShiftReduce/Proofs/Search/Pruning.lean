/-
  ShiftReduce.Proofs.Search.Pruning
  ────────────────────────────────
  **LEAVING OUT BRANCHES THAT NO SUCCESS LIES ON.**

  Two machines over the same states are compared.  In every state they propose
  the same moves, and make them alike, unless no branch that goes on from there
  is accepted by either machine.  One machine may give up early what the other
  one follows to its bitter end; the results without a failure are the same, in
  the same order and as many times over.

  Main statements: `Prunes.accepted_of_enumerate` (two enumerations) and
  `accepted_of_collects` (two searches).
-/
import ShiftReduce.Proofs.Branch.Machine
import ShiftReduce.Proofs.Search.Bound
import ShiftReduce.Proofs.Search.Finite

namespace ShiftReduce

variable {S : Type} [GrammarSymbol S] {σ μ α : Type}

/-! ## §1. States that no success comes from. -/

/-- The results without a failure, in their order. -/
def acceptedOf (results : List (ParseResult S)) : List (ParseResult S) :=
  results.filter ParseResult.isAccepted

theorem acceptedOf_append (first second : List (ParseResult S)) :
    acceptedOf (first ++ second) = acceptedOf first ++ acceptedOf second :=
  List.filter_append ..

theorem acceptedOf_singleton {result : ParseResult S} (h : result.isAccepted = false) :
    acceptedOf [result] = [] :=
  List.filter_cons_of_neg (by rw [h]; exact Bool.false_ne_true)

/-- What is gathered from the same elements in two ways holds the same accepted
results if each pair of harvests does. -/
theorem Harvest.gather_accepted {one other : α → Option (Harvest S)} {elements : List α}
    (each : ∀ element ∈ elements, ∀ left right, one element = some left → other element = some right →
      acceptedOf left.results = acceptedOf right.results)
    {left right : Harvest S} (hleft : gather one elements = some left)
    (hright : gather other elements = some right) :
    acceptedOf left.results = acceptedOf right.results := by
  -- By induction on the elements; the results of the first one come first on both sides.
  induction elements generalizing left right with
  | nil =>
    cases hleft
    cases hright
    rfl
  | cons first rest ih =>
    obtain ⟨a, as, ha, has, rfl⟩ := gather_cons_eq_some.1 hleft
    obtain ⟨b, bs, hb, hbs, rfl⟩ := gather_cons_eq_some.1 hright
    rw [acceptedOf_append, acceptedOf_append, each first List.mem_cons_self a b ha hb,
      ih (fun element mem => each element (List.mem_cons_of_mem _ mem)) has hbs]

namespace Machine

/-- No branch that goes on from the state is accepted. -/
def Barren (machine : Machine S σ μ) (maxSteps : Option Nat) (state : σ) : Prop :=
  ∀ steps history final result, Run machine maxSteps steps state history final →
    machine.ending? maxSteps (steps + history.length) final = some result →
      result.isAccepted = false

variable {machine : Machine S σ μ} {maxSteps : Option Nat}

theorem Barren.acceptedOf_eq_nil {inv : σ → Prop} (lawful : machine.Lawful inv) {fuel steps : Nat}
    {state : σ} {harvest : Harvest S} (barren : machine.Barren maxSteps state) (kept : inv state)
    (h : machine.enumerate? maxSteps fuel steps state = some harvest) :
    acceptedOf harvest.results = [] := by
  refine List.filter_eq_nil_iff.2 fun result mem => ?_
  obtain ⟨history, final, run, ended⟩ := (mem_results_iff lawful kept h).1 mem
  rw [barren steps history final result run ended]
  exact Bool.false_ne_true

/-- A state is barren if moves keep it in a class of states that are not accepted. -/
theorem barren_of_invariant {fruitless : σ → Prop}
    (play : ∀ state move, fruitless state → machine.isOver state = false →
      move ∈ (machine.moves state).1 → fruitless (machine.play state move).1)
    (ends : ∀ steps state result, fruitless state →
      machine.ending? maxSteps steps state = some result → result.isAccepted = false)
    {state : σ} (h : fruitless state) : machine.Barren maxSteps state :=
  fun _ _ final result run ended => ends _ final result (run.invariant fruitless play h) ended

/-- No move is made in a state that is over, so its own result decides. -/
theorem barren_of_isOver {state : σ} (isOver : machine.isOver state = true)
    (refused : (machine.result state).isAccepted = false) : machine.Barren maxSteps state := by
  intro steps history final result run ended
  have same : final = state := run.eq_of_isOver isOver
  rw [same, ending?_of_isOver isOver] at ended
  cases ended
  exact refused

/-- A state that is not over is barren if it is not accepted where it stands and
no move leads to a state that is not barren. -/
theorem barren_of_moves {state : σ} (going : machine.isOver state = false)
    (cut : (machine.result (machine.interrupt state)).isAccepted = false)
    (stuck : (machine.moves state).1 = [] → (machine.result (machine.moves state).2).isAccepted = false)
    (each : ∀ move ∈ (machine.moves state).1, machine.Barren maxSteps (machine.play state move).1) :
    machine.Barren maxSteps state := by
  -- The branch ends here, in one of the three ways, or goes on from a state after one move.
  intro steps history final result run ended
  cases run with
  | nil =>
    cases ends_of_ending ended with
    | finished isOver =>
      rw [going] at isOver
      cases isOver
    | cut => exact cut
    | stuck _ _ nothing => exact stuck nothing
  | @cons _ _ _ move rest _ proposed run =>
    rw [List.length_cons, ← Nat.add_assoc, Nat.add_right_comm] at ended
    exact each move proposed _ rest final result run ended

/-- Where the bound is reached the branch is interrupted. -/
theorem ending?_of_exhausted {steps : Nat} {state : σ} (going : machine.isOver state = false)
    (exhausted : maxSteps.any (· ≤ steps) = true) :
    machine.ending? maxSteps steps state = some (machine.result (machine.interrupt state)) := by
  rw [ending?, if_neg (by rw [going]; exact Bool.false_ne_true), if_pos exhausted]

/-- Where nothing is proposed the branch ends as looking for moves has left it. -/
theorem ending?_of_stuck {steps : Nat} {state : σ} (going : machine.isOver state = false)
    (within : maxSteps.any (· ≤ steps) = false) (nothing : (machine.moves state).1 = []) :
    machine.ending? maxSteps steps state = some (machine.result (machine.moves state).2) := by
  rw [ending?, if_neg (by rw [going]; exact Bool.false_ne_true),
    if_neg (by rw [within]; exact Bool.false_ne_true), nothing]
  rfl

/-! ## §2. A machine that leaves out barren branches. -/

/-- In every state that the moves of the second machine lead to, the two machines
propose the same moves and make them alike, or no success comes from there. -/
structure Prunes (pruned full : Machine S σ μ) (maxSteps : Option Nat) (inv : σ → Prop) : Prop where
  start : pruned.start = full.start
  isOver : pruned.isOver = full.isOver
  interrupt : pruned.interrupt = full.interrupt
  result : pruned.result = full.result
  holds : inv full.start
  play : ∀ state move, inv state → full.isOver state = false → move ∈ (full.moves state).1 →
    inv (full.play state move).1
  stuck : ∀ state, inv state → full.isOver state = false →
    ((pruned.moves state).1 = [] → (pruned.result (pruned.moves state).2).isAccepted = false) ∧
      ((full.moves state).1 = [] → (full.result (full.moves state).2).isAccepted = false)
  agree : ∀ state, inv state → full.isOver state = false →
    (pruned.Barren maxSteps state ∧ full.Barren maxSteps state) ∨
      (pruned.moves state).1 = (full.moves state).1 ∧
        ∀ move ∈ (full.moves state).1,
          (pruned.play state move).1 = (full.play state move).1 ∨
            pruned.Barren maxSteps (pruned.play state move).1 ∧
              full.Barren maxSteps (full.play state move).1

variable {pruned full : Machine S σ μ} {inv law law' : σ → Prop}

/-- In a state the two machines end alike, as far as success is concerned; or no
success comes from there; or both go on with the same moves. -/
theorem Prunes.compare (prunes : Prunes pruned full maxSteps inv) (steps : Nat) {state : σ}
    (holds : inv state) :
    (∃ one other, pruned.ending? maxSteps steps state = some one ∧
      full.ending? maxSteps steps state = some other ∧ acceptedOf [one] = acceptedOf [other]) ∨
    (pruned.Barren maxSteps state ∧ full.Barren maxSteps state) ∨
    (pruned.ending? maxSteps steps state = none ∧ full.ending? maxSteps steps state = none ∧
      (pruned.moves state).1 = (full.moves state).1 ∧
        ∀ move ∈ (full.moves state).1,
          (pruned.play state move).1 = (full.play state move).1 ∨
            pruned.Barren maxSteps (pruned.play state move).1 ∧
              full.Barren maxSteps (full.play state move).1) := by
  cases ended : full.isOver state with
  | true =>
    have ended' : pruned.isOver state = true := by rw [prunes.isOver, ended]
    refine .inl ⟨_, _, ending?_of_isOver ended', ending?_of_isOver ended, ?_⟩
    rw [prunes.result]
  | false =>
    have going : pruned.isOver state = false := by rw [prunes.isOver, ended]
    cases exhausted : maxSteps.any (· ≤ steps) with
    | true =>
      refine .inl ⟨_, _, ending?_of_exhausted going exhausted, ending?_of_exhausted ended exhausted, ?_⟩
      rw [prunes.result, prunes.interrupt]
    | false =>
      rcases prunes.agree state holds ended with barren | ⟨same, alike⟩
      · exact .inr (.inl barren)
      · by_cases none : (full.moves state).1 = []
        · -- Neither machine has a move to make, and neither succeeds without one.
          have none' : (pruned.moves state).1 = [] := by rw [same, none]
          obtain ⟨refused, refused'⟩ := prunes.stuck state holds ended
          refine .inl ⟨_, _, ending?_of_stuck going exhausted none', ending?_of_stuck ended exhausted none,
            ?_⟩
          rw [acceptedOf_singleton (refused none'), acceptedOf_singleton (refused' none)]
        · have some : (pruned.moves state).1 ≠ [] := by
            rw [same]
            exact none
          exact .inr (.inr ⟨ending?_eq_none_iff.2 ⟨going, exhausted, some⟩,
            ending?_eq_none_iff.2 ⟨ended, exhausted, none⟩, same, alike⟩)

/-- Wherever both enumerations are finite, they hold the same accepted results. -/
theorem Prunes.accepted_of_enumerate (prunes : Prunes pruned full maxSteps inv)
    (lawful : pruned.Lawful law) (lawful' : full.Lawful law') (laws : ∀ state, inv state → law state)
    (laws' : ∀ state, inv state → law' state) {fuel more steps : Nat} {state : σ}
    {left right : Harvest S} (holds : inv state)
    (hleft : pruned.enumerate? maxSteps fuel steps state = some left)
    (hright : full.enumerate? maxSteps more steps state = some right) :
    acceptedOf left.results = acceptedOf right.results := by
  -- By induction on the fuel of the one; the fuel of the other may be anything that suffices.
  induction fuel generalizing more steps state left right with
  | zero => cases hleft
  | succ fuel ih =>
    cases more with
    | zero => cases hright
    | succ more =>
      have kept := laws state holds
      have kept' := laws' state holds
      rcases prunes.compare steps holds with ⟨one, other, hone, hother, same⟩ | ⟨barren, barren'⟩ |
        ⟨hending, hending', same, alike⟩
      · rw [enumerate?_of_ending hone] at hleft
        rw [enumerate?_of_ending hother] at hright
        cases hleft
        cases hright
        exact same
      · rw [barren.acceptedOf_eq_nil lawful kept hleft, barren'.acceptedOf_eq_nil lawful' kept' hright]
      · -- Both go on; move by move, they agree or find no success.
        obtain ⟨going, _, proposes⟩ := ending?_eq_none_iff.1 hending'
        obtain ⟨after, hafter, rfl⟩ := (enumerate?_of_going hending).1 hleft
        obtain ⟨after', hafter', rfl⟩ := (enumerate?_of_going hending').1 hright
        simp only [lawful.looked state _ kept (ending?_eq_none_iff.1 hending).2.2] at hafter
        simp only [lawful'.looked state _ kept' proposes] at hafter'
        rw [same] at hafter
        have agreed : acceptedOf after.results = acceptedOf after'.results := by
          refine Harvest.gather_accepted (fun move proposed one other hone hother => ?_) hafter hafter'
          rcases alike move proposed with played | ⟨barren, barren'⟩
          · rw [played] at hone
            exact ih (prunes.play state move holds going proposed) hone hother
          · rw [barren.acceptedOf_eq_nil lawful (lawful.play state move kept) hone,
              barren'.acceptedOf_eq_nil lawful' (lawful'.play state move kept') hother]
        exact agreed

end Machine

/-! ## §3. Searches. -/

namespace Search

variable [DecidableEq S] {pruned full : Machine S σ μ} {options : SearchOptions}
  {inv law law' : σ → Prop}

/-- Skipping repetitions commutes with leaving out the failures. -/
theorem acceptedOf_reported (emitted : List (List (ParseTree S))) (results : List (ParseResult S)) :
    acceptedOf (reported options emitted results) = reported options emitted (acceptedOf results) := by
  unfold acceptedOf
  rw [isAccepted_eq]
  exact filter_reported _ (fun _ _ => Iff.rfl) results

/-- Wherever both searches end, they hand out the same accepted results. -/
theorem accepted_of_collects (prunes : Machine.Prunes pruned full options.maxSteps inv)
    (lawful : pruned.Lawful law) (lawful' : full.Lawful law') (laws : ∀ state, inv state → law state)
    (laws' : ∀ state, inv state → law' state) {results others : List (ParseResult S)}
    {final final' : Search S μ} (h : Collects pruned options initial results final)
    (h' : Collects full options initial others final') : acceptedOf results = acceptedOf others := by
  obtain ⟨fuel, left, hleft, rfl, _⟩ := exists_enumerate_of_collects lawful h
  obtain ⟨more, right, hright, rfl, _⟩ := exists_enumerate_of_collects lawful' h'
  rw [prunes.start] at hleft
  rw [acceptedOf_reported, acceptedOf_reported,
    prunes.accepted_of_enumerate lawful lawful' laws laws' prunes.holds hleft hright]

end Search

/-! ## §4. Branches. -/

/-- A branch that has failed is not accepted. -/
theorem Problem.barren_of_failed [DecidableEq S] (problem : Problem S) (check : Branch S → Attempt S)
    {maxSteps : Option Nat} {branch : Branch S} (failed : branch.error.isSome = true) :
    (problem.machineWith check).Barren maxSteps branch := by
  exact Machine.barren_of_isOver (Branch.isOver_of_failed failed) (isAccepted_of_failed failed)

end ShiftReduce
