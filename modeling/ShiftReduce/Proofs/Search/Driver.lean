/-
  ShiftReduce.Proofs.Search.Driver
  ────────────────────────────────
  **THE SEARCH HANDS OUT WHAT THE ENUMERATION LISTS.**

  The search is given fuel, discards a branch where it forks and replays
  histories.  None of this shows: with fuel enough, the results are those of
  the plain enumeration in the same order, less those skipped as repetitions.

  Main statements: `collects_of_enumerate` and, for searches that need not be
  finite or are stopped, `endsIn_of_next?`.
-/
import ShiftReduce.Proofs.Search.Enumeration
import ShiftReduce.Search

namespace ShiftReduce

variable {S : Type} [GrammarSymbol S] {σ μ : Type}

/-! ## §1. Exploring with fuel enough. -/

namespace Machine

variable {machine : Machine S σ μ} {maxSteps : Option Nat} {history : List μ} {state : σ}

theorem explore_of_ending {fuel : Nat} {result : ParseResult S}
    (h : machine.ending? maxSteps history.length state = some result) :
    machine.explore maxSteps (fuel + 1) history state = some (.ended result) := by
  unfold ending? at h
  unfold explore
  split
  · next ended =>
    rw [if_pos ended] at h
    cases h
    rfl
  · next going =>
    rw [if_neg going] at h
    split
    · next exhausted =>
      rw [if_pos exhausted] at h
      cases h
      rfl
    · next within =>
      rw [if_neg within] at h
      cases hmoves : machine.moves state with
      | mk moves looked =>
        rw [hmoves] at h
        cases moves with
        | nil =>
          cases h
          rfl
        | cons _ _ => cases h

/-- A sole move is made at once. -/
theorem explore_of_single {fuel : Nat} {move : μ}
    (h : machine.ending? maxSteps history.length state = none)
    (sole : (machine.moves state).1 = [move]) :
    machine.explore maxSteps (fuel + 1) history state =
      machine.explore maxSteps fuel (history ++ [move])
        (machine.play (machine.moves state).2 move).1 := by
  obtain ⟨going, within, _⟩ := ending?_eq_none_iff.1 h
  rw [explore, if_neg (by simp [going]), if_neg (by simp [within])]
  cases hmoves : machine.moves state with
  | mk moves looked =>
    rw [hmoves] at sole
    cases (show moves = [move] from sole)
    rfl

/-- Several moves make a fork. -/
theorem explore_of_several {fuel : Nat}
    (h : machine.ending? maxSteps history.length state = none)
    (several : (machine.moves state).1.length ≠ 1) :
    machine.explore maxSteps (fuel + 1) history state =
      some (.forked ((machine.moves state).1.map fun move => history ++ [move])) := by
  obtain ⟨going, within, some⟩ := ending?_eq_none_iff.1 h
  rw [explore, if_neg (by simp [going]), if_neg (by simp [within])]
  cases hmoves : machine.moves state with
  | mk moves looked =>
    rw [hmoves] at several some
    match moves with
    | [] => exact absurd rfl some
    | [_] => exact absurd rfl several
    | _ :: _ :: _ => rfl

/-- More fuel does not change what exploring comes to. -/
theorem explore_mono {fuel more : Nat} {exploration : Exploration S μ} (enough : fuel ≤ more)
    (h : machine.explore maxSteps fuel history state = some exploration) :
    machine.explore maxSteps more history state = some exploration := by
  -- By induction on the fuel that was enough, along the sole moves.
  induction fuel generalizing more history state with
  | zero => cases h
  | succ fuel ih =>
    obtain ⟨more, rfl⟩ : ∃ n, more = n + 1 := ⟨more - 1, by omega⟩
    cases hending : machine.ending? maxSteps history.length state with
    | some result =>
      rw [explore_of_ending hending] at h ⊢
      exact h
    | none =>
      by_cases hlength : (machine.moves state).1.length = 1
      · obtain ⟨move, sole⟩ := List.length_eq_one_iff.1 hlength
        rw [explore_of_single hending sole] at h ⊢
        exact ih (by omega) h
      · rw [explore_of_several hending hlength] at h ⊢
        exact h

/-- With fuel enough, exploring a branch comes to this. -/
def Explores (machine : Machine S σ μ) (maxSteps : Option Nat) (history : List μ) (state : σ)
    (exploration : Exploration S μ) : Prop :=
  ∃ fuel, machine.explore maxSteps fuel history state = some exploration

/-- The moves are those of a run from the beginning. -/
def IsHistory (machine : Machine S σ μ) (maxSteps : Option Nat) (history : List μ) : Prop :=
  ∃ state, Run machine maxSteps 0 machine.start history state

/-- What has been explored is the end of a branch, or forks into histories of runs. -/
def Genuine (machine : Machine S σ μ) (maxSteps : Option Nat) : Exploration S μ → Prop
  | .ended result => machine.EndsIn maxSteps result
  | .forked histories => ∀ history ∈ histories, machine.IsHistory maxSteps history

theorem genuine_of_explore {inv : σ → Prop} (lawful : machine.Lawful inv) {fuel : Nat}
    {exploration : Exploration S μ} (run : Run machine maxSteps 0 machine.start history state)
    (h : machine.explore maxSteps fuel history state = some exploration) :
    machine.Genuine maxSteps exploration := by
  -- By induction on the fuel; a sole move makes the run longer by one.
  induction fuel generalizing history state with
  | zero => cases h
  | succ fuel ih =>
    cases hending : machine.ending? maxSteps history.length state with
    | some result =>
      rw [explore_of_ending hending] at h
      cases h
      exact ⟨history, state, run, hending⟩
    | none =>
      have going : machine.ending? maxSteps (0 + history.length) state = none := by
        rw [Nat.zero_add, hending]
      by_cases hlength : (machine.moves state).1.length = 1
      · obtain ⟨move, sole⟩ := List.length_eq_one_iff.1 hlength
        have proposed : move ∈ (machine.moves state).1 := by
          rw [sole]
          exact List.mem_singleton.2 rfl
        -- The sole move is made in what looking for it has left, which comes to the same.
        have kept : inv state := run.invariant inv
          (fun state move kept _ _ => lawful.play state move kept) lawful.start
        rw [explore_of_single hending sole,
          lawful.looked state move kept (List.ne_nil_of_mem proposed)] at h
        exact ih (run.snoc going proposed) h
      · rw [explore_of_several hending hlength] at h
        cases h
        intro longer hlonger
        obtain ⟨move, proposed, rfl⟩ := List.mem_map.1 hlonger
        exact ⟨_, run.snoc going proposed⟩

end Machine

namespace Search

variable [DecidableEq S] {machine : Machine S σ μ} {options : SearchOptions}

/-! ## §2. The next result. -/

/-- With fuel enough, the search hands out this and is left like that. -/
def Nexts (machine : Machine S σ μ) (options : SearchOptions) (search : Search S μ)
    (outcome : Option (ParseResult S) × Search S μ) : Prop :=
  ∃ fuel, next? machine options fuel search = some outcome

/-- The result is skipped: its forest has been handed out already. -/
def Skips (options : SearchOptions) (emitted : List (List (ParseTree S))) (result : ParseResult S) :
    Prop :=
  options.deduplicate = true ∧ result.isAccepted = true ∧ result.forest ∈ emitted

/-- The forests handed out once the result has been. -/
def emittedWith (options : SearchOptions) (emitted : List (List (ParseTree S)))
    (result : ParseResult S) : List (List (ParseTree S)) :=
  if options.deduplicate && result.isAccepted then emitted ++ [result.forest] else emitted

instance (options : SearchOptions) (emitted : List (List (ParseTree S))) (result : ParseResult S) :
    Decidable (Skips options emitted result) :=
  inferInstanceAs (Decidable (_ ∧ _ ∧ _))

/-- One branch of the search is explored. -/
theorem next?_cons {fuel : Nat} {search : Search S μ} {history : List μ} {pending : List (List μ)}
    (h : search.pending = history :: pending) :
    next? machine options (fuel + 1) search =
      match machine.explore options.maxSteps fuel history (machine.replay history) with
      | none => none
      | some (.forked histories) =>
        next? machine options fuel
          { search with pending := histories ++ pending, forks := search.forks + 1 }
      | some (.ended result) =>
        if Skips options search.emitted result then
          next? machine options fuel { search with pending, explored := search.explored + 1 }
        else
          some (some result, { search with
            pending
            explored := search.explored + 1
            emitted := emittedWith options search.emitted result }) := by
  rw [next?, h]
  dsimp only
  cases machine.explore options.maxSteps fuel history (machine.replay history) with
  | none => rfl
  | some exploration =>
    cases exploration with
    | forked histories => rfl
    | ended result =>
      simp only [Skips, emittedWith, Bool.and_eq_true]
      by_cases hsame : options.deduplicate = true ∧ result.isAccepted = true
      · simp only [hsame, true_and, if_true, and_self]
      · rw [if_neg hsame, if_neg hsame, if_neg]
        intro h
        exact hsame ⟨h.1, h.2.1⟩

theorem next?_mono {fuel more : Nat} {search : Search S μ}
    {outcome : Option (ParseResult S) × Search S μ} (enough : fuel ≤ more)
    (h : next? machine options fuel search = some outcome) :
    next? machine options more search = some outcome := by
  -- By induction on the fuel that was enough; it bounds both the branches and each exploration.
  induction fuel generalizing more search with
  | zero => cases h
  | succ fuel ih =>
    obtain ⟨more, rfl⟩ : ∃ n, more = n + 1 := ⟨more - 1, by omega⟩
    cases hpending : search.pending with
    | nil =>
      rw [next?, hpending] at h ⊢
      exact h
    | cons history pending =>
      rw [next?_cons hpending] at h ⊢
      cases hexplore : machine.explore options.maxSteps fuel history (machine.replay history) with
      | none =>
        rw [hexplore] at h
        cases h
      | some exploration =>
        rw [hexplore] at h
        rw [Machine.explore_mono (by omega) hexplore]
        cases exploration with
        | forked histories => exact ih (by omega) h
        | ended result =>
          dsimp only at h ⊢
          split at h
          · next skipped =>
            rw [if_pos skipped]
            exact ih (by omega) h
          · next kept =>
            rw [if_neg kept]
            exact h

namespace Nexts

variable {search : Search S μ} {history : List μ}
  {outcome : Option (ParseResult S) × Search S μ}

theorem of_forked {histories : List (List μ)}
    (explores : machine.Explores options.maxSteps history (machine.replay history) (.forked histories))
    (h : Nexts machine options
      { search with pending := histories ++ search.pending, forks := search.forks + 1 } outcome) :
    Nexts machine options { search with pending := history :: search.pending } outcome := by
  obtain ⟨fuel, hexplore⟩ := explores
  obtain ⟨more, hnext⟩ := h
  refine ⟨max fuel more + 1, ?_⟩
  rw [next?_cons rfl, Machine.explore_mono (Nat.le_max_left fuel more) hexplore]
  exact next?_mono (Nat.le_max_right fuel more) hnext

theorem of_skipped {result : ParseResult S}
    (explores : machine.Explores options.maxSteps history (machine.replay history) (.ended result))
    (skips : Skips options search.emitted result)
    (h : Nexts machine options { search with explored := search.explored + 1 } outcome) :
    Nexts machine options { search with pending := history :: search.pending } outcome := by
  obtain ⟨fuel, hexplore⟩ := explores
  obtain ⟨more, hnext⟩ := h
  refine ⟨max fuel more + 1, ?_⟩
  rw [next?_cons rfl, Machine.explore_mono (Nat.le_max_left fuel more) hexplore]
  dsimp only
  rw [if_pos skips]
  exact next?_mono (Nat.le_max_right fuel more) hnext

theorem of_ended {result : ParseResult S}
    (explores : machine.Explores options.maxSteps history (machine.replay history) (.ended result))
    (kept : ¬Skips options search.emitted result) :
    Nexts machine options { search with pending := history :: search.pending }
      (some result, { search with
        explored := search.explored + 1
        emitted := emittedWith options search.emitted result }) := by
  obtain ⟨fuel, hexplore⟩ := explores
  refine ⟨fuel + 1, ?_⟩
  rw [next?_cons rfl, hexplore]
  dsimp only
  rw [if_neg kept]

/-- Branches that come to the same can stand for each other. -/
theorem congr_head {other : List μ}
    (same : ∀ exploration,
      machine.Explores options.maxSteps other (machine.replay other) exploration →
        machine.Explores options.maxSteps history (machine.replay history) exploration)
    (h : Nexts machine options { search with pending := other :: search.pending } outcome) :
    Nexts machine options { search with pending := history :: search.pending } outcome := by
  obtain ⟨fuel, hnext⟩ := h
  cases fuel with
  | zero => cases hnext
  | succ fuel =>
    rw [next?_cons rfl] at hnext
    cases hexplore : machine.explore options.maxSteps fuel other (machine.replay other) with
    | none =>
      rw [hexplore] at hnext
      cases hnext
    | some exploration =>
      have explores := same exploration ⟨fuel, hexplore⟩
      rw [hexplore] at hnext
      cases exploration with
      | forked histories => exact of_forked explores ⟨fuel, hnext⟩
      | ended result =>
        dsimp only at hnext
        split at hnext
        · next skipped => exact of_skipped explores skipped ⟨fuel, hnext⟩
        · next kept =>
          cases hnext
          exact of_ended explores kept

end Nexts

/-! ## §3. All results. -/

/-- With fuel enough, the search hands out these results and is left like that. -/
def Collects (machine : Machine S σ μ) (options : SearchOptions) (search : Search S μ)
    (results : List (ParseResult S)) (final : Search S μ) : Prop :=
  ∃ fuel, collect? machine options fuel search = some (results, final)

theorem collect?_mono {fuel more : Nat} {search : Search S μ}
    {collected : List (ParseResult S) × Search S μ} (enough : fuel ≤ more)
    (h : collect? machine options fuel search = some collected) :
    collect? machine options more search = some collected := by
  induction fuel generalizing more search collected with
  | zero => cases h
  | succ fuel ih =>
    obtain ⟨more, rfl⟩ : ∃ n, more = n + 1 := ⟨more - 1, by omega⟩
    rw [collect?] at h ⊢
    cases hnext : next? machine options fuel search with
    | none =>
      rw [hnext] at h
      cases h
    | some outcome =>
      rw [hnext] at h
      rw [next?_mono (by omega) hnext]
      obtain ⟨found, after⟩ := outcome
      cases found with
      | none => exact h
      | some result =>
        obtain ⟨rest, hrest, rfl⟩ := Option.map_eq_some_iff.1 h
        exact Option.map_eq_some_iff.2 ⟨rest, ih (by omega) hrest, rfl⟩

namespace Collects

variable {search after final : Search S μ} {results : List (ParseResult S)}

/-- What a search hands out does not depend on the fuel. -/
theorem unique {others : List (ParseResult S)} {last : Search S μ}
    (h : Collects machine options search results final)
    (h' : Collects machine options search others last) : results = others ∧ final = last := by
  obtain ⟨fuel, collected⟩ := h
  obtain ⟨more, collected'⟩ := h'
  have one := collect?_mono (Nat.le_max_left fuel more) collected
  have other := collect?_mono (Nat.le_max_right fuel more) collected'
  exact Prod.mk.inj (Option.some.inj (one.symm.trans other))

/-- With fuel enough there are always these results, and the verdict is the one on them. -/
theorem eventually (h : Collects machine options search results final) :
    ∃ enough, ∀ fuel, enough ≤ fuel →
      collect? machine options fuel search = some (results, final) ∧
      verdict? machine options fuel search = some (Verdict.ofResults results) := by
  obtain ⟨enough, collected⟩ := h
  refine ⟨enough, fun fuel more => ?_⟩
  have collected := collect?_mono more collected
  exact ⟨collected, by rw [verdict?, collected]; rfl⟩

theorem nil (h : search.pending = []) : Collects machine options search [] search := by
  refine ⟨2, ?_⟩
  rw [collect?, next?, h]

theorem cons {result : ParseResult S} (next : Nexts machine options search (some result, after))
    (h : Collects machine options after results final) :
    Collects machine options search (result :: results) final := by
  obtain ⟨fuel, hnext⟩ := next
  obtain ⟨more, hrest⟩ := h
  refine ⟨max fuel more + 1, ?_⟩
  rw [collect?, next?_mono (Nat.le_max_left fuel more) hnext]
  exact Option.map_eq_some_iff.2 ⟨_, collect?_mono (Nat.le_max_right fuel more) hrest, rfl⟩

/-- A search that goes on like another one collects the same. -/
theorem of_nexts {other : Search S μ}
    (same : ∀ outcome, Nexts machine options other outcome → Nexts machine options search outcome)
    (h : Collects machine options other results final) :
    Collects machine options search results final := by
  obtain ⟨fuel, hcollect⟩ := h
  cases fuel with
  | zero => cases hcollect
  | succ fuel =>
    rw [collect?] at hcollect
    cases hnext : next? machine options fuel other with
    | none =>
      rw [hnext] at hcollect
      cases hcollect
    | some outcome =>
      rw [hnext] at hcollect
      have nexts := same outcome ⟨fuel, hnext⟩
      obtain ⟨found, after⟩ := outcome
      cases found with
      | none =>
        cases hcollect
        obtain ⟨more, hmore⟩ := nexts
        refine ⟨more + 1, ?_⟩
        rw [collect?, hmore]
      | some result =>
        obtain ⟨rest, hrest, hsame⟩ := Option.map_eq_some_iff.1 hcollect
        cases hsame
        exact cons nexts ⟨fuel, hrest⟩

end Collects

/-! ## §4. The search against the enumeration. -/

/-- What is handed out of the given results, after forests that have been. -/
def reported (options : SearchOptions) :
    List (List (ParseTree S)) → List (ParseResult S) → List (ParseResult S)
  | _, [] => []
  | emitted, result :: rest =>
    if Skips options emitted result then reported options emitted rest
    else result :: reported options (emittedWith options emitted result) rest

/-- The forests that have been handed out after the given results. -/
def emittedAfter (options : SearchOptions) :
    List (List (ParseTree S)) → List (ParseResult S) → List (List (ParseTree S))
  | emitted, [] => emitted
  | emitted, result :: rest =>
    if Skips options emitted result then emittedAfter options emitted rest
    else emittedAfter options (emittedWith options emitted result) rest

theorem reported_append (emitted : List (List (ParseTree S))) (first second : List (ParseResult S)) :
    reported options emitted (first ++ second) =
      reported options emitted first ++
        reported options (emittedAfter options emitted first) second := by
  induction first generalizing emitted with
  | nil => rfl
  | cons result rest ih =>
    simp only [List.cons_append, reported, emittedAfter]
    split
    · exact ih emitted
    · rw [ih, List.cons_append]

theorem emittedAfter_append (emitted : List (List (ParseTree S)))
    (first second : List (ParseResult S)) :
    emittedAfter options emitted (first ++ second) =
      emittedAfter options (emittedAfter options emitted first) second := by
  induction first generalizing emitted with
  | nil => rfl
  | cons result rest ih =>
    simp only [List.cons_append, emittedAfter]
    split
    · exact ih emitted
    · exact ih _

/-- The search once it has explored all that a harvest has been gathered from. -/
def past (search : Search S μ) (options : SearchOptions) (harvest : Harvest S) : Search S μ :=
  { search with
    emitted := emittedAfter options search.emitted harvest.results
    explored := search.explored + harvest.results.length
    forks := search.forks + harvest.forks }

theorem past_append (search : Search S μ) (options : SearchOptions) (one others : Harvest S) :
    (search.past options one).past options others =
      search.past options ⟨one.results ++ others.results, one.forks + others.forks⟩ := by
  simp only [past, emittedAfter_append, List.length_append, Nat.add_assoc]

/-- Handing out the single result in which a branch ends. -/
theorem collects_of_ended {search final : Search S μ} {history : List μ} {result : ParseResult S}
    {rest : List (ParseResult S)}
    (explores : machine.Explores options.maxSteps history (machine.replay history) (.ended result))
    (h : Collects machine options (search.past options ⟨[result], 0⟩) rest final) :
    Collects machine options { search with pending := history :: search.pending }
      (reported options search.emitted [result] ++ rest) final := by
  by_cases skips : Skips options search.emitted result
  · simp only [past, reported, emittedAfter, if_pos skips] at h ⊢
    exact h.of_nexts fun outcome => Nexts.of_skipped explores skips
  · simp only [past, reported, emittedAfter, if_neg skips] at h ⊢
    exact h.cons (Nexts.of_ended explores skips)

/-- A search explores the branch of each move in turn if it explores each of
them alone. -/
theorem collects_of_gather {harvest : μ → Option (Harvest S)} {history moves : List μ}
    {all : Harvest S} (gathered : Harvest.gather harvest moves = some all)
    (each : ∀ move ∈ moves, ∀ one, harvest move = some one →
      ∀ (search final : Search S μ) rest,
        Collects machine options (search.past options one) rest final →
        Collects machine options { search with pending := (history ++ [move]) :: search.pending }
          (reported options search.emitted one.results ++ rest) final)
    {search final : Search S μ} {rest : List (ParseResult S)}
    (h : Collects machine options (search.past options all) rest final) :
    Collects machine options
      { search with pending := (moves.map fun move => history ++ [move]) ++ search.pending }
      (reported options search.emitted all.results ++ rest) final := by
  induction moves generalizing all search with
  | nil =>
    cases gathered
    exact h
  | cons first others ih =>
    obtain ⟨one, remaining, hone, hremaining, rfl⟩ := Harvest.gather_cons_eq_some.1 gathered
    rw [← past_append] at h
    -- The branches of the other moves are explored once that of the first has been.
    have later := ih hremaining (fun move mem => each move (List.mem_cons_of_mem _ mem)) h
    have now := each first (by simp) one hone
      { search with pending := (others.map fun move => history ++ [move]) ++ search.pending } final _
      later
    rw [reported_append, List.append_assoc]
    exact now

/-- With the results that the enumeration lists for a branch, in their order,
the search goes on to the branches after it. -/
theorem collects_of_enumerate {inv : σ → Prop} (lawful : machine.Lawful inv) {fuel : Nat}
    {history : List μ} {harvest : Harvest S} (kept : inv (machine.replay history))
    (enumerated : machine.enumerate? options.maxSteps fuel history.length (machine.replay history) =
      some harvest)
    {search final : Search S μ} {rest : List (ParseResult S)}
    (h : Collects machine options (search.past options harvest) rest final) :
    Collects machine options { search with pending := history :: search.pending }
      (reported options search.emitted harvest.results ++ rest) final := by
  -- By induction on the fuel of the enumeration, for any search that has the branch before others.
  induction fuel generalizing history harvest search rest final with
  | zero => cases enumerated
  | succ fuel ih =>
    cases hending : machine.ending? options.maxSteps history.length (machine.replay history) with
    | some result =>
      rw [Machine.enumerate?_of_ending hending] at enumerated
      cases enumerated
      exact collects_of_ended ⟨1, Machine.explore_of_ending hending⟩ h
    | none =>
      obtain ⟨all, hall, rfl⟩ := (Machine.enumerate?_of_going hending).1 enumerated
      obtain ⟨going, _, some⟩ := Machine.ending?_eq_none_iff.1 hending
      have looked (move : μ) := lawful.looked (machine.replay history) move kept some
      -- Each move leads to a longer history, to which the induction hypothesis applies.
      have each : ∀ move ∈ (machine.moves (machine.replay history)).1, ∀ one,
          machine.enumerate? options.maxSteps fuel (history.length + 1)
            (machine.play (machine.moves (machine.replay history)).2 move).1 = Option.some one →
          ∀ (search final : Search S μ) rest,
            Collects machine options (search.past options one) rest final →
              Collects machine options { search with pending := (history ++ [move]) :: search.pending }
                (reported options search.emitted one.results ++ rest) final := by
        intro move _ one hone search final rest later
        rw [looked move, ← machine.replay_snoc lawful going] at hone
        have length : history.length + 1 = (history ++ [move]).length := by
          rw [List.length_append, List.length_singleton]
        rw [length] at hone
        exact ih (by
          rw [machine.replay_snoc lawful going]
          exact lawful.play _ move kept) hone later
      by_cases hlength : (machine.moves (machine.replay history)).1.length = 1
      · obtain ⟨move, sole⟩ := List.length_eq_one_iff.1 hlength
        rw [if_pos hlength, Nat.add_zero] at h
        have := collects_of_gather hall each h
        rw [sole] at this
        -- A sole move is no fork: the search explores on instead of taking up a longer history.
        refine this.of_nexts fun outcome => Nexts.congr_head ?_
        intro exploration explores
        obtain ⟨fuel, hexplore⟩ := explores
        refine ⟨fuel + 1, ?_⟩
        rw [Machine.explore_of_single hending sole, looked move, ← machine.replay_snoc lawful going,
          hexplore]
      · rw [if_neg hlength] at h
        -- The fork is counted before its branches are explored, in the harvest after them.
        have counted : ({ search with forks := search.forks + 1 } : Search S μ).past options all =
            search.past options ⟨all.results, all.forks + 1⟩ := by
          simp only [past, Nat.add_right_comm, Nat.add_assoc]
        rw [← counted] at h
        refine (collects_of_gather hall each h).of_nexts fun outcome => Nexts.of_forked ?_
        exact ⟨1, Machine.explore_of_several hending hlength⟩

/-- A finite search hands out what the enumeration lists, less the repetitions,
and has then explored as many branches as there are results. -/
theorem collects_initial {inv : σ → Prop} (lawful : machine.Lawful inv) {fuel : Nat}
    {harvest : Harvest S}
    (enumerated : machine.enumerate? options.maxSteps fuel 0 machine.start = some harvest) :
    Collects machine options initial (reported options [] harvest.results)
      ((stop initial).past options harvest) := by
  have last : Collects machine options ((stop initial).past options harvest) []
      ((stop initial).past options harvest) := .nil rfl
  have kept : inv (machine.replay []) := lawful.start
  have all := collects_of_enumerate lawful kept enumerated last
  rw [List.append_nil] at all
  exact all

/-- If the enumeration is finite, so is the search: with fuel enough it hands out
the results in which branches end, less the repetitions, and no branch is left. -/
theorem exists_collect {inv : σ → Prop} (lawful : machine.Lawful inv) (options : SearchOptions)
    (finite : ∃ fuel harvest,
      machine.enumerate? options.maxSteps fuel 0 machine.start = some harvest) :
    ∃ results final enough,
      (∀ fuel, enough ≤ fuel → collect? machine options fuel initial =
        some (reported options [] results, final)) ∧
      final.pending = [] ∧ ∀ result, result ∈ results ↔ machine.EndsIn options.maxSteps result := by
  obtain ⟨fuel, harvest, enumerated⟩ := finite
  obtain ⟨enough, hcollect⟩ := collects_initial lawful enumerated
  refine ⟨harvest.results, _, enough, fun fuel more => collect?_mono more hcollect, rfl, ?_⟩
  intro result
  rw [Machine.mem_results_iff lawful lawful.start enumerated, Machine.EndsIn]
  simp only [Nat.zero_add]

/-! ## §5. Searches that may be infinite or stopped. -/

/-- The searches met by asking for results, one after the other, and by stopping. -/
inductive Reachable (machine : Machine S σ μ) (options : SearchOptions) : Search S μ → Prop where
  | initial : Reachable machine options initial
  | next {search after : Search S μ} {fuel : Nat} {result : Option (ParseResult S)}
      (reachable : Reachable machine options search)
      (handed : next? machine options fuel search = some (result, after)) :
      Reachable machine options after
  | stop {search : Search S μ} (reachable : Reachable machine options search) :
      Reachable machine options search.stop

/-- As long as runs lead to the branches left to explore, the next result is
one that a run ends in, and runs lead to the branches left then. -/
theorem of_next? {inv : σ → Prop} (lawful : machine.Lawful inv) {fuel : Nat}
    {search after : Search S μ} {result : Option (ParseResult S)}
    (histories : ∀ history ∈ search.pending, machine.IsHistory options.maxSteps history)
    (h : next? machine options fuel search = some (result, after)) :
    (∀ handed, result = some handed → machine.EndsIn options.maxSteps handed) ∧
      ∀ history ∈ after.pending, machine.IsHistory options.maxSteps history := by
  induction fuel generalizing search with
  | zero => cases h
  | succ fuel ih =>
    cases hpending : search.pending with
    | nil =>
      rw [next?, hpending] at h
      cases h
      exact ⟨fun _ none => (by cases none), histories⟩
    | cons history pending =>
      rw [hpending] at histories
      obtain ⟨state, run⟩ := histories history (by simp)
      have others : ∀ history ∈ pending, machine.IsHistory options.maxSteps history :=
        fun history mem => histories history (List.mem_cons_of_mem _ mem)
      rw [next?_cons hpending] at h
      cases hexplore : machine.explore options.maxSteps fuel history (machine.replay history) with
      | none =>
        rw [hexplore] at h
        cases h
      | some exploration =>
        -- A history left to explore is replayed, and leads where its run led.
        have replayed : machine.replay history = state := run.resume_eq lawful
        have genuine := Machine.genuine_of_explore lawful run (replayed ▸ hexplore)
        rw [hexplore] at h
        cases exploration with
        | forked histories =>
          -- A fork puts histories of runs before the others.
          refine ih ?_ h
          intro longer mem
          rcases List.mem_append.1 mem with mem | mem
          · exact genuine longer mem
          · exact others longer mem
        | ended result =>
          dsimp only at h
          split at h
          · exact ih others h
          · cases h
            refine ⟨?_, others⟩
            intro handed hhanded
            cases hhanded
            exact genuine

/-- Runs lead to all branches that a search has left to explore. -/
theorem Reachable.isHistory {inv : σ → Prop} (lawful : machine.Lawful inv) {search : Search S μ}
    (reachable : Reachable machine options search) {history : List μ}
    (mem : history ∈ search.pending) : machine.IsHistory options.maxSteps history := by
  induction reachable generalizing history with
  | initial =>
    rw [List.mem_singleton.1 mem]
    exact ⟨machine.start, .nil _ _⟩
  | next _ handed ih => exact (of_next? lawful (fun _ => ih) handed).2 history mem
  | stop => exact absurd mem List.not_mem_nil

/-- Every result that a search hands out is one that a run ends in. -/
theorem endsIn_of_next? {inv : σ → Prop} (lawful : machine.Lawful inv) {fuel : Nat}
    {search after : Search S μ} {result : ParseResult S}
    (reachable : Reachable machine options search)
    (h : next? machine options fuel search = some (some result, after)) :
    machine.EndsIn options.maxSteps result :=
  (of_next? lawful (fun _ => reachable.isHistory lawful) h).1 result rfl

/-- Every result that is collected is handed out on the way. -/
theorem exists_next?_of_mem {fuel : Nat} {search final : Search S μ}
    {results : List (ParseResult S)} {result : ParseResult S}
    (reachable : Reachable machine options search)
    (h : collect? machine options fuel search = some (results, final)) (mem : result ∈ results) :
    ∃ fuel before after, Reachable machine options before ∧
      next? machine options fuel before = some (some result, after) := by
  induction fuel generalizing search results with
  | zero => cases h
  | succ fuel ih =>
    rw [collect?] at h
    cases hnext : next? machine options fuel search with
    | none =>
      rw [hnext] at h
      cases h
    | some outcome =>
      rw [hnext] at h
      obtain ⟨found, after⟩ := outcome
      cases found with
      | none =>
        cases h
        exact absurd mem List.not_mem_nil
      | some handed =>
        obtain ⟨rest, hrest, same⟩ := Option.map_eq_some_iff.1 h
        cases same
        rcases List.mem_cons.1 mem with rfl | mem
        · exact ⟨fuel, search, after, reachable, hnext⟩
        · exact ih (reachable.next hnext) hrest mem

end Search

end ShiftReduce
