/-
  ShiftReduce.Proofs.Search.Bound
  ────────────────────────────────
  **A SMALLER BOUND ON THE MOVES CUTS BRANCHES AND CHANGES NOTHING ELSE.**

  A machine is metered if an accepted tree shows how many moves were made for
  it, and an interruption can be told from any other failure.  The results
  under two bounds then agree, but for the branches that are cut under the
  smaller one: these end without success, and every tree that is accepted
  beyond them is too large for the smaller bound.

  Main statements: `Metered.accepted_of_run` and `Metered.isCut_iff`,
  `curtails_of_enumerate`, `curtails_reported` (skipping repetitions keeps the
  agreement) and `curtails_of_collects`.
-/
import ShiftReduce.Proofs.Search.Driver

namespace ShiftReduce

variable {S : Type} [GrammarSymbol S] {σ μ α : Type}

/-! ## §1. Accepted trees and their size. -/

namespace ParseResult

/-- The result is accepted with a tree that takes at most `bound` moves to build,
one for each node but the first leaf. -/
def isWithin (bound : Nat) (result : ParseResult S) : Bool :=
  result.tree?.any fun tree => tree.size ≤ bound + 1

/-- The result is that of a branch that has been interrupted. -/
def IsCut (result : ParseResult S) : Prop :=
  ∃ error, result.error = some error ∧ error.phase = .complete

theorem IsCut.isAccepted {result : ParseResult S} (h : result.IsCut) : result.isAccepted = false := by
  obtain ⟨error, herror, _⟩ := h
  rw [ParseResult.isAccepted, herror]
  rfl

theorem isWithin_of_error {result : ParseResult S} (h : result.isAccepted = false) (bound : Nat) :
    result.isWithin bound = false := by
  obtain ⟨forest, error⟩ := result
  cases error with
  | none => cases h
  | some error =>
    have none : tree? ⟨forest, some error⟩ = none := by
      unfold tree?
      split
      · next h =>
        cases h
      · rfl
    rw [isWithin, none]
    rfl

theorem isWithin_of_tree {tree : ParseTree S} (bound : Nat) :
    isWithin bound ⟨[tree], none⟩ = decide (tree.size ≤ bound + 1) := rfl

end ParseResult

/-! ## §2. Metered machines. -/

namespace Machine

/-- A property of states and numbers of moves that moves keep, under which
accepted trees show the number of moves, and only interruptions leave a failure
of the phase of completion. -/
structure Metered (machine : Machine S σ μ) (meter : Nat → σ → Prop) : Prop where
  start : meter 0 machine.start
  play : ∀ steps state move, meter steps state → machine.isOver state = false →
    move ∈ (machine.moves state).1 → meter (steps + 1) (machine.play state move).1
  accepted : ∀ steps state, meter steps state → machine.isOver state = true →
    (machine.result state).isAccepted = true →
      ∃ tree, (machine.result state).forest = [tree] ∧ tree.size = steps + 1
  finished : ∀ steps state, meter steps state → machine.isOver state = true →
    ¬(machine.result state).IsCut
  stuck : ∀ steps state, meter steps state → machine.isOver state = false →
    (machine.moves state).1 = [] →
      (machine.result (machine.moves state).2).isAccepted = false ∧
        ¬(machine.result (machine.moves state).2).IsCut
  cut : ∀ state, machine.isOver state = false → (machine.result (machine.interrupt state)).IsCut

variable {machine : Machine S σ μ} {meter : Nat → σ → Prop} {maxSteps : Option Nat}

/-- A run that ends with success ends in a state that is over, and has made as
many moves as the accepted tree has nodes but one. -/
theorem Metered.accepted_of_run (metered : machine.Metered meter) {steps : Nat} {state final : σ}
    {history : List μ} {result : ParseResult S} (kept : meter steps state)
    (run : Run machine maxSteps steps state history final)
    (h : machine.ending? maxSteps (steps + history.length) final = some result)
    (accepted : result.isAccepted = true) :
    machine.isOver final = true ∧ ∃ tree, result.forest = [tree] ∧
      tree.size = steps + history.length + 1 := by
  have kept' := run.counted meter metered.play kept
  cases ends_of_ending h with
  | finished ended => exact ⟨ended, metered.accepted _ _ kept' ended accepted⟩
  | cut going =>
    rw [(metered.cut final going).isAccepted] at accepted
    cases accepted
  | stuck going _ nothing =>
    rw [(metered.stuck _ _ kept' going nothing).1] at accepted
    cases accepted

/-- A run ends with an interruption if and only if it has used up the bound and
its last state is not over. -/
theorem Metered.isCut_iff (metered : machine.Metered meter) {steps : Nat} {state final : σ}
    {history : List μ} {result : ParseResult S} (kept : meter steps state)
    (run : Run machine maxSteps steps state history final)
    (h : machine.ending? maxSteps (steps + history.length) final = some result) :
    result.IsCut ↔
      machine.isOver final = false ∧ maxSteps.any (· ≤ steps + history.length) = true := by
  have kept' := run.counted meter metered.play kept
  cases ends_of_ending h with
  | finished ended =>
    rw [ended]
    exact ⟨fun cut => absurd cut (metered.finished _ _ kept' ended), fun going => by cases going.1⟩
  | cut going exhausted => exact iff_of_true (metered.cut final going) ⟨going, exhausted⟩
  | stuck going within nothing =>
    rw [within]
    exact ⟨fun cut => absurd cut (metered.stuck _ _ kept' going nothing).2, fun h => by cases h.2⟩

end Machine

/-! ## §3. Results under two bounds. -/

/-- The results under a bound, compared with those under a larger one: the
accepted ones are those whose tree the bound allows for, in the same order, and
if no branch has been interrupted the results are the same. -/
structure Curtails (bound : Nat) (short long : List (ParseResult S)) : Prop where
  accepted : short.filter ParseResult.isAccepted = long.filter (ParseResult.isWithin bound)
  same : (∀ result ∈ short, ¬result.IsCut) → long = short

namespace Curtails

variable {bound : Nat}

theorem nil : Curtails bound ([] : List (ParseResult S)) [] :=
  ⟨rfl, fun _ => rfl⟩

theorem append {short short' long long' : List (ParseResult S)} (one : Curtails bound short long)
    (other : Curtails bound short' long') : Curtails bound (short ++ short') (long ++ long') := by
  constructor
  · rw [List.filter_append, List.filter_append, one.accepted, other.accepted]
  · intro uncut
    rw [one.same fun result mem => uncut result (List.mem_append_left _ mem),
      other.same fun result mem => uncut result (List.mem_append_right _ mem)]

/-- A result whose tree the bound allows for, if it is accepted, stays. -/
theorem single {result : ParseResult S} (h : result.isAccepted = result.isWithin bound) :
    Curtails bound [result] [result] := by
  refine ⟨?_, fun _ => rfl⟩
  rw [List.filter_cons, List.filter_cons, h]
  rfl

/-- A branch that is cut leaves nothing of what lies beyond the bound. -/
theorem cut {result : ParseResult S} {long : List (ParseResult S)} (h : result.IsCut)
    (beyond : ∀ later ∈ long, later.isWithin bound = false) : Curtails bound [result] long := by
  constructor
  · have nothing : long.filter (ParseResult.isWithin bound) = [] := by
      refine List.filter_eq_nil_iff.2 fun later mem => ?_
      rw [beyond later mem]
      exact Bool.false_ne_true
    rw [nothing, List.filter_cons_of_neg (by rw [h.isAccepted]; exact Bool.false_ne_true),
      List.filter_nil]
  · intro uncut
    exact absurd h (uncut result List.mem_cons_self)

end Curtails

/-- What is gathered from the same elements in two ways agrees if each pair of harvests does. -/
theorem Harvest.gather_curtails {bound : Nat} {one other : α → Option (Harvest S)} {elements : List α}
    (each : ∀ element ∈ elements, ∀ short long, one element = some short → other element = some long →
      Curtails bound short.results long.results)
    {short long : Harvest S} (hshort : gather one elements = some short)
    (hlong : gather other elements = some long) : Curtails bound short.results long.results := by
  -- By induction on the elements, whose harvests are put one after the other on both sides.
  induction elements generalizing short long with
  | nil =>
    cases hshort
    cases hlong
    exact .nil
  | cons first rest ih =>
    obtain ⟨a, as, ha, has, rfl⟩ := gather_cons_eq_some.1 hshort
    obtain ⟨b, bs, hb, hbs, rfl⟩ := gather_cons_eq_some.1 hlong
    exact (each first List.mem_cons_self a b ha hb).append
      (ih (fun element mem => each element (List.mem_cons_of_mem _ mem)) has hbs)

namespace Machine

variable {machine : Machine S σ μ} {meter : Nat → σ → Prop} {inv : σ → Prop} {bound wider : Nat}

/-- Trees that are accepted after a state which is not over take more moves than it has made. -/
theorem isWithin_of_going (lawful : machine.Lawful inv) (metered : machine.Metered meter)
    {maxSteps : Option Nat} {fuel steps : Nat} {state : σ} {harvest : Harvest S} (kept : inv state)
    (metered' : meter steps state) (going : machine.isOver state = false)
    (h : machine.enumerate? maxSteps fuel steps state = some harvest) {result : ParseResult S}
    (mem : result ∈ harvest.results) : result.isWithin steps = false := by
  obtain ⟨history, final, run, hfinal⟩ := (mem_results_iff lawful kept h).1 mem
  cases accepted : result.isAccepted with
  | false => exact ParseResult.isWithin_of_error accepted steps
  | true =>
    obtain ⟨ended, tree, forest, size⟩ := metered.accepted_of_run metered' run hfinal accepted
    have positive : 0 < history.length := by
      cases run with
      | nil =>
        rw [ended] at going
        cases going
      | cons => exact Nat.succ_pos _
    rw [ParseResult.eq_of_isAccepted accepted forest, ParseResult.isWithin_of_tree, size]
    exact decide_eq_false (by omega)

/-- The enumeration under a bound agrees with that under a larger one. -/
theorem curtails_of_enumerate (lawful : machine.Lawful inv) (metered : machine.Metered meter)
    (le : bound ≤ wider) {fuel more steps : Nat} {state : σ} {short long : Harvest S}
    (kept : inv state) (metered' : meter steps state) (within : steps ≤ bound)
    (hshort : machine.enumerate? (some bound) fuel steps state = some short)
    (hlong : machine.enumerate? (some wider) more steps state = some long) :
    Curtails bound short.results long.results := by
  -- By induction on the fuel; while the bound is not reached both enumerations go on alike.
  induction fuel generalizing more steps state short long with
  | zero => cases hshort
  | succ fuel ih =>
    cases more with
    | zero => cases hlong
    | succ more =>
      cases hending : machine.ending? (some bound) steps state with
      | some result =>
        rw [enumerate?_of_ending hending] at hshort
        cases hshort
        cases ends_of_ending hending with
        | finished ended =>
          rw [enumerate?_of_ending (ending?_of_isOver ended)] at hlong
          cases hlong
          refine .single ?_
          cases accepted : (machine.result state).isAccepted with
          | false => exact (ParseResult.isWithin_of_error accepted bound).symm
          | true =>
            obtain ⟨tree, forest, size⟩ := metered.accepted steps state metered' ended accepted
            rw [ParseResult.eq_of_isAccepted accepted forest, ParseResult.isWithin_of_tree, size]
            exact (decide_eq_true (by omega)).symm
        | cut going exhausted =>
          -- Here the smaller bound is reached, and what comes later takes more moves than it allows.
          rw [Option.any_some, decide_eq_true_eq] at exhausted
          obtain rfl : bound = steps := Nat.le_antisymm exhausted within
          refine .cut (metered.cut state going) fun later mem => ?_
          exact isWithin_of_going lawful metered kept metered' going hlong mem
        | stuck going unspent nothing =>
          have same : machine.ending? (some wider) steps state =
              some (machine.result (machine.moves state).2) := by
            rw [Option.any_some, decide_eq_false_iff_not] at unspent
            rw [ending?, going, nothing]
            simp
            omega
          rw [enumerate?_of_ending same] at hlong
          cases hlong
          have refused := (metered.stuck steps state metered' going nothing).1
          exact .single (by rw [refused, ParseResult.isWithin_of_error refused])
      | none =>
        -- Under either bound the branch goes on, with the same moves.
        obtain ⟨going, unspent, proposes⟩ := ending?_eq_none_iff.1 hending
        rw [Option.any_some, decide_eq_false_iff_not] at unspent
        have hending' : machine.ending? (some wider) steps state = none := by
          refine ending?_eq_none_iff.2 ⟨going, ?_, proposes⟩
          rw [Option.any_some, decide_eq_false_iff_not]
          omega
        obtain ⟨after, hafter, rfl⟩ := (enumerate?_of_going hending).1 hshort
        obtain ⟨after', hafter', rfl⟩ := (enumerate?_of_going hending').1 hlong
        simp only [lawful.looked state _ kept proposes] at hafter hafter'
        have curtailed : Curtails bound after.results after'.results := by
          refine Harvest.gather_curtails (fun move proposed a b ha hb => ?_) hafter hafter'
          exact ih (lawful.play state move kept)
            (metered.play steps state move metered' going proposed) (by omega) ha hb
        exact curtailed

end Machine

/-! ## §4. Results without repetitions. -/

namespace Search

variable [DecidableEq S] {options : SearchOptions}

/-- An accepted result whose forest is looked at. -/
def isLookedAt (looks : List (ParseTree S) → Bool) (result : ParseResult S) : Bool :=
  result.isAccepted && looks result.forest

/-- Which of the accepted results are looked at, by their forests, makes no
difference to which of them are repetitions. -/
theorem filter_reported (looks : List (ParseTree S) → Bool) {emitted emitted' : List (List (ParseTree S))}
    (agree : ∀ forest, looks forest = true → (forest ∈ emitted ↔ forest ∈ emitted'))
    (results : List (ParseResult S)) :
    (reported options emitted results).filter (isLookedAt looks) =
      reported options emitted' (results.filter (isLookedAt looks)) := by
  -- By induction on the results; the forests noted on both sides agree on what is looked at.
  induction results generalizing emitted emitted' with
  | nil => rfl
  | cons result rest ih =>
    rw [reported]
    cases looked : isLookedAt looks result with
    | true =>
      obtain ⟨_, looks'⟩ := Bool.and_eq_true_iff.1 looked
      -- The result is a repetition on both sides or on neither.
      have same : Skips options emitted result ↔ Skips options emitted' result := by
        rw [Skips, Skips, agree _ looks']
      rw [List.filter_cons_of_pos looked, reported]
      by_cases skips : Skips options emitted' result
      · rw [if_pos skips, if_pos (same.2 skips), ih agree]
      · rw [if_neg skips, if_neg (mt same.1 skips), List.filter_cons_of_pos looked]
        congr 1
        refine ih fun forest hlooks => ?_
        unfold emittedWith
        split
        · rw [List.mem_append, List.mem_append, agree forest hlooks]
        · exact agree forest hlooks
    | false =>
      have passed : ¬isLookedAt looks result = true := by
        rw [looked]
        exact Bool.false_ne_true
      rw [List.filter_cons_of_neg passed]
      split
      · exact ih agree
      · rw [List.filter_cons_of_neg passed]
        refine ih fun forest hlooks => ?_
        unfold emittedWith
        split
        · next noted =>
          -- What has been noted is the forest of a result that is not looked at.
          have other : forest ≠ result.forest := by
            intro same
            rw [isLookedAt, (Bool.and_eq_true_iff.1 noted).2, ← same, hlooks] at looked
            cases looked
          rw [List.mem_append, List.mem_singleton, ← agree forest hlooks]
          exact or_iff_left other
        · exact agree forest hlooks

/-- Results that are no successes are never repetitions. -/
theorem mem_reported_of_isCut {emitted : List (List (ParseTree S))} {results : List (ParseResult S)}
    {result : ParseResult S} (mem : result ∈ results) (cut : result.IsCut) :
    result ∈ reported options emitted results := by
  induction results generalizing emitted with
  | nil => exact mem
  | cons first rest ih =>
    rw [reported]
    rcases List.mem_cons.1 mem with rfl | mem
    · have kept : ¬Skips options emitted result := by
        intro skips
        have accepted := skips.2.1
        rw [cut.isAccepted] at accepted
        cases accepted
      rw [if_neg kept]
      exact List.mem_cons_self
    · split
      · exact ih mem
      · exact List.mem_cons_of_mem _ (ih mem)

/-- The trees of a forest that are looked at under a bound: a single one that
the bound allows for. -/
def allows (bound : Nat) : List (ParseTree S) → Bool
  | [tree] => tree.size ≤ bound + 1
  | _ => false

omit [DecidableEq S] in
theorem isWithin_eq (bound : Nat) :
    ParseResult.isWithin bound = isLookedAt (S := S) (allows bound) := by
  funext result
  obtain ⟨forest, error⟩ := result
  cases error with
  | some error =>
    rw [ParseResult.isWithin_of_error rfl]
    rfl
  | none =>
    match forest with
    | [] => rfl
    | [tree] => rfl
    | _ :: _ :: _ => rfl

omit [DecidableEq S] in
theorem isAccepted_eq : ParseResult.isAccepted = isLookedAt (S := S) fun _ => true := by
  funext result
  exact (Bool.and_true _).symm

/-- What is handed out depends on the bound only through what is found. -/
theorem reported_congr {others : SearchOptions} (same : options.deduplicate = others.deduplicate)
    (emitted : List (List (ParseTree S))) (results : List (ParseResult S)) :
    reported options emitted results = reported others emitted results := by
  induction results generalizing emitted with
  | nil => rfl
  | cons result rest ih =>
    have skips : Skips options emitted result ↔ Skips others emitted result := by
      rw [Skips, Skips, same]
    have noted : emittedWith options emitted result = emittedWith others emitted result := by
      rw [emittedWith, emittedWith, same]
    simp only [reported, ih, noted, skips]

/-- Skipping repetitions keeps the agreement of the results under two bounds. -/
theorem curtails_reported {bound : Nat} {short long : List (ParseResult S)}
    (h : Curtails bound short long) :
    Curtails bound (reported options [] short) (reported options [] long) := by
  constructor
  · rw [isAccepted_eq, isWithin_eq, filter_reported _ (fun _ _ => Iff.rfl),
      filter_reported _ (fun _ _ => Iff.rfl), ← isAccepted_eq, ← isWithin_eq, h.accepted]
  · intro uncut
    rw [h.same fun result mem cut => uncut result (mem_reported_of_isCut mem cut) cut]

/-- What a search hands out under a bound agrees with what it hands out under a
larger one. -/
theorem curtails_of_collects {machine : Machine S σ μ} {meter : Nat → σ → Prop} {inv : σ → Prop}
    (lawful : machine.Lawful inv) (metered : machine.Metered meter) {bound wider : Nat}
    (le : bound ≤ wider) {deduplicate : Bool} {short long : List (ParseResult S)}
    {final final' : Search S μ}
    (hshort : Collects machine { deduplicate, maxSteps := some bound } initial short final)
    (hlong : Collects machine { deduplicate, maxSteps := some wider } initial long final') :
    Curtails bound short long := by
  obtain ⟨_, harvest, enumerated⟩ := Machine.exists_enumerate_of_bound lawful bound
  obtain ⟨_, harvest', enumerated'⟩ := Machine.exists_enumerate_of_bound lawful wider
  have curtails : Curtails bound harvest.results harvest'.results :=
    Machine.curtails_of_enumerate lawful metered le lawful.start metered.start (Nat.zero_le _)
      enumerated enumerated'
  obtain ⟨rfl, _⟩ := hshort.unique (collects_initial lawful enumerated)
  obtain ⟨rfl, _⟩ := hlong.unique (collects_initial lawful enumerated')
  have same : reported { deduplicate, maxSteps := some wider } [] harvest'.results =
      reported { deduplicate, maxSteps := some bound } [] harvest'.results := by
    refine reported_congr ?_ [] harvest'.results
    rfl
  rw [same]
  exact curtails_reported curtails

end Search

end ShiftReduce
