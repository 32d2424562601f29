/-
  ShiftReduce.Proofs.Search.Finite
  ────────────────────────────────
  **A SEARCH THAT ENDS HAS FINITELY MANY BRANCHES.**

  If the enumeration is finite, so is the search.  Here is the converse: a
  search that has handed out all its results has explored every branch it had
  pending, so the plain enumeration of each of them comes to an end as well.
  What is known of enumerations thereby holds of all searches that end, for
  whatever reason they do.

  Main statement: `exists_enumerate_of_collects`.
-/
import ShiftReduce.Proofs.Search.EventTree

namespace ShiftReduce

variable {S : Type} [GrammarSymbol S] {σ μ α : Type}

/-! ## §1. More fuel for an enumeration. -/

/-- What is gathered stays the same if no harvest changes. -/
theorem Harvest.gather_mono {harvest other : α → Option (Harvest S)} {elements : List α}
    (each : ∀ element ∈ elements, ∀ one, harvest element = some one → other element = some one)
    {all : Harvest S} (h : gather harvest elements = some all) : gather other elements = some all := by
  induction elements generalizing all with
  | nil => exact h
  | cons first rest ih =>
    obtain ⟨one, others, hone, hothers, rfl⟩ := gather_cons_eq_some.1 h
    refine gather_cons_eq_some.2 ⟨one, others, each first List.mem_cons_self one hone, ?_, rfl⟩
    exact ih (fun element mem => each element (List.mem_cons_of_mem _ mem)) hothers

namespace Machine

variable {machine : Machine S σ μ} {maxSteps : Option Nat}

theorem enumerate?_mono {fuel more steps : Nat} {state : σ} {harvest : Harvest S} (enough : fuel ≤ more)
    (h : machine.enumerate? maxSteps fuel steps state = some harvest) :
    machine.enumerate? maxSteps more steps state = some harvest := by
  induction fuel generalizing more steps state harvest with
  | zero => cases h
  | succ fuel ih =>
    obtain ⟨more, rfl⟩ : ∃ n, more = n + 1 := ⟨more - 1, by omega⟩
    cases hending : machine.ending? maxSteps steps state with
    | some result =>
      rw [enumerate?_of_ending hending] at h ⊢
      exact h
    | none =>
      obtain ⟨after, hafter, rfl⟩ := (enumerate?_of_going hending).1 h
      refine (enumerate?_of_going hending).2 ⟨after, ?_, rfl⟩
      exact Harvest.gather_mono (fun move _ one hone => ih (by omega) hone) hafter

/-- The branches that go through the state are finite in number and length. -/
def Enumerates (machine : Machine S σ μ) (maxSteps : Option Nat) (steps : Nat) (state : σ) : Prop :=
  ∃ fuel harvest, machine.enumerate? maxSteps fuel steps state = some harvest

theorem enumerates_of_ending {steps : Nat} {state : σ} {result : ParseResult S}
    (h : machine.ending? maxSteps steps state = some result) : machine.Enumerates maxSteps steps state :=
  ⟨1, _, enumerate?_of_ending h⟩

/-- One amount of fuel serves for all of several states. -/
theorem exists_common_fuel {steps : Nat} {next : μ → σ} {moves : List μ}
    (each : ∀ move ∈ moves, machine.Enumerates maxSteps steps (next move)) :
    ∃ fuel, ∀ move ∈ moves, ∃ harvest,
      machine.enumerate? maxSteps fuel steps (next move) = some harvest := by
  induction moves with
  | nil => exact ⟨0, fun move none => absurd none List.not_mem_nil⟩
  | cons first rest ih =>
    obtain ⟨fuel, harvest, hfirst⟩ := each first List.mem_cons_self
    obtain ⟨more, hrest⟩ := ih fun move mem => each move (List.mem_cons_of_mem _ mem)
    refine ⟨max fuel more, fun move mem => ?_⟩
    rcases List.mem_cons.1 mem with rfl | mem
    · exact ⟨harvest, enumerate?_mono (Nat.le_max_left fuel more) hfirst⟩
    · obtain ⟨one, hone⟩ := hrest move mem
      exact ⟨one, enumerate?_mono (Nat.le_max_right fuel more) hone⟩

/-- Finitely many branches go through a state if finitely many go on with each of its moves. -/
theorem enumerates_of_moves {steps : Nat} {state : σ}
    (going : machine.ending? maxSteps steps state = none)
    (each : ∀ move ∈ (machine.moves state).1,
      machine.Enumerates maxSteps (steps + 1) (machine.play (machine.moves state).2 move).1) :
    machine.Enumerates maxSteps steps state := by
  obtain ⟨fuel, unfolded⟩ := exists_common_fuel each
  obtain ⟨after, hafter⟩ := Harvest.exists_gather unfolded
  exact ⟨fuel + 1, _, (enumerate?_of_going going).2 ⟨after, hafter, rfl⟩⟩

/-! ## §2. What has been explored is finite. -/

/-- The branches that begin with a history are finite if exploring it comes to
an end, or to histories of which that is known. -/
theorem enumerates_of_explore {inv : σ → Prop} (lawful : machine.Lawful inv) {fuel : Nat}
    {history : List μ} {exploration : Exploration S μ}
    (h : machine.explore maxSteps fuel history (machine.replay history) = some exploration)
    (forked : ∀ histories, exploration = .forked histories → ∀ longer ∈ histories,
      machine.Enumerates maxSteps longer.length (machine.replay longer)) :
    machine.Enumerates maxSteps history.length (machine.replay history) := by
  induction fuel generalizing history with
  | zero => cases h
  | succ fuel ih =>
    cases hending : machine.ending? maxSteps history.length (machine.replay history) with
    | some result => exact enumerates_of_ending hending
    | none =>
      obtain ⟨going, _, some⟩ := ending?_eq_none_iff.1 hending
      have kept : inv (machine.replay history) := inv_resume lawful lawful.start history
      -- A move leads to the state that the history with this move is replayed to.
      have replayed (move : μ) : (machine.play (machine.moves (machine.replay history)).2 move).1 =
          machine.replay (history ++ [move]) := by
        rw [lawful.looked _ move kept some, machine.replay_snoc lawful going]
      have length (move : μ) : history.length + 1 = (history ++ [move]).length := by
        rw [List.length_append, List.length_singleton]
      refine enumerates_of_moves hending fun move proposed => ?_
      rw [replayed, length move]
      by_cases hlength : (machine.moves (machine.replay history)).1.length = 1
      · obtain ⟨sole, hsole⟩ := List.length_eq_one_iff.1 hlength
        rw [hsole, List.mem_singleton] at proposed
        subst proposed
        rw [explore_of_single hending hsole, replayed] at h
        exact ih h
      · rw [explore_of_several hending hlength] at h
        cases h
        exact forked _ rfl _ (List.mem_map.2 ⟨move, proposed, rfl⟩)

end Machine

namespace Search

variable [DecidableEq S] {machine : Machine S σ μ} {options : SearchOptions}

/-- Every branch that the search has pending is finite. -/
def PendingEnumerates (machine : Machine S σ μ) (options : SearchOptions) (search : Search S μ) : Prop :=
  ∀ history ∈ search.pending,
    machine.Enumerates options.maxSteps history.length (machine.replay history)

/-- The branches pending before a result has been handed out are finite if those
pending afterwards are. -/
theorem pendingEnumerates_of_next? {inv : σ → Prop} (lawful : machine.Lawful inv) {fuel : Nat}
    {search after : Search S μ} {result : Option (ParseResult S)}
    (h : next? machine options fuel search = some (result, after))
    (later : PendingEnumerates machine options after) : PendingEnumerates machine options search := by
  induction fuel generalizing search with
  | zero => cases h
  | succ fuel ih =>
    cases hpending : search.pending with
    | nil =>
      intro history mem
      rw [hpending] at mem
      exact absurd mem List.not_mem_nil
    | cons first pending =>
      rw [next?_cons hpending] at h
      cases hexplore : machine.explore options.maxSteps fuel first (machine.replay first) with
      | none =>
        rw [hexplore] at h
        cases h
      | some exploration =>
        rw [hexplore] at h
        -- Whatever comes of the first branch, it is finite if the next ones are.
        have pendingOf (forked : ∀ histories, exploration = .forked histories →
              ∀ longer ∈ histories,
                machine.Enumerates options.maxSteps longer.length (machine.replay longer))
            (others : ∀ history ∈ pending,
              machine.Enumerates options.maxSteps history.length (machine.replay history)) :
            PendingEnumerates machine options search := by
          intro history mem
          rw [hpending] at mem
          rcases List.mem_cons.1 mem with rfl | mem
          · exact Machine.enumerates_of_explore lawful hexplore forked
          · exact others history mem
        cases exploration with
        | forked histories =>
          have finite := ih h
          refine pendingOf ?_ fun history mem => finite history (List.mem_append_right _ mem)
          intro found same longer mem
          cases same
          exact finite longer (List.mem_append_left _ mem)
        | ended ending =>
          refine pendingOf (fun _ same => by cases same) ?_
          dsimp only at h
          split at h
          · exact ih h
          · cases h
            exact later

/-- Where there is no further result, no branch is pending. -/
theorem pending_of_next?_none {fuel : Nat} {search after : Search S μ}
    (h : next? machine options fuel search = some (none, after)) : after.pending = [] := by
  induction fuel generalizing search with
  | zero => cases h
  | succ fuel ih =>
    cases hpending : search.pending with
    | nil =>
      rw [next?, hpending] at h
      cases h
      exact hpending
    | cons first pending =>
      rw [next?_cons hpending] at h
      cases hexplore : machine.explore options.maxSteps fuel first (machine.replay first) with
      | none =>
        rw [hexplore] at h
        cases h
      | some exploration =>
        rw [hexplore] at h
        cases exploration with
        | forked histories => exact ih h
        | ended ending =>
          dsimp only at h
          split at h
          · exact ih h
          · cases h

/-- A search that hands out all its results had finite branches pending only. -/
theorem pendingEnumerates_of_collect? {inv : σ → Prop} (lawful : machine.Lawful inv) {fuel : Nat}
    {search : Search S μ} {collected : List (ParseResult S) × Search S μ}
    (h : collect? machine options fuel search = some collected) :
    PendingEnumerates machine options search := by
  induction fuel generalizing search collected with
  | zero => cases h
  | succ fuel ih =>
    rw [collect?] at h
    cases hnext : next? machine options fuel search with
    | none =>
      rw [hnext] at h
      cases h
    | some outcome =>
      rw [hnext] at h
      obtain ⟨found, after⟩ := outcome
      refine pendingEnumerates_of_next? lawful hnext ?_
      cases found with
      | none =>
        intro history mem
        rw [pending_of_next?_none hnext] at mem
        exact absurd mem List.not_mem_nil
      | some result =>
        obtain ⟨rest, hrest, _⟩ := Option.map_eq_some_iff.1 h
        exact ih hrest

/-- A search that ends hands out what the enumeration lists, less the repetitions,
and has then explored as many branches as there are results. -/
theorem exists_enumerate_of_collects {inv : σ → Prop} (lawful : machine.Lawful inv)
    {results : List (ParseResult S)} {final : Search S μ}
    (h : Collects machine options initial results final) :
    ∃ fuel harvest, machine.enumerate? options.maxSteps fuel 0 machine.start = some harvest ∧
      results = reported options [] harvest.results ∧ final = (stop initial).past options harvest := by
  obtain ⟨fuel, collected⟩ := h
  obtain ⟨enough, harvest, enumerated⟩ :=
    pendingEnumerates_of_collect? lawful collected [] (List.mem_singleton.2 rfl)
  obtain ⟨results_eq, final_eq⟩ :=
    Collects.unique ⟨fuel, collected⟩ (collects_initial lawful enumerated)
  exact ⟨enough, harvest, enumerated, results_eq, final_eq⟩

/-- A search whose enumeration is finite ends. -/
theorem exists_collects {inv : σ → Prop} (lawful : machine.Lawful inv) (options : SearchOptions)
    (finite : ∃ fuel harvest,
      machine.enumerate? options.maxSteps fuel 0 machine.start = some harvest) :
    ∃ results final, Collects machine options initial results final := by
  obtain ⟨_, _, enumerated⟩ := finite
  exact ⟨_, _, collects_initial lawful enumerated⟩

end Search

end ShiftReduce
