/-
  ShiftReduce.Proofs.Bare.Search
  ────────────────────────────────
  **SEARCHES IN LOCK STEP.**

  Two machines are twins if their states can be paired so that the two of a pair
  propose the same moves and end in results that are the same when bare.  A search
  compares texts and positions in two places only: when it skips the repetitions
  of an accepted forest, and when the verdict lists every tree once.  If accepted
  trees of a machine can be told apart when bare, both compare the same there, and
  the searches of twins go through the same steps.

  Main statements: `Machine.Twins.next?`, `Machine.Twins.answers?` and
  `Machine.Twins.verdict?`.
-/
import ShiftReduce.Proofs.Bare.Results
import ShiftReduce.Proofs.Search.Verdict
import ShiftReduce.Proofs.SymbolOrder

namespace ShiftReduce

variable {S : Type} [GrammarSymbol S] {σ τ μ : Type}

/-! ## §1. Machines. -/

/-- States that are alike propose the same moves and go on alike, and what they end in
is the same when bare. -/
structure Machine.Twins (left : Machine S σ μ) (right : Machine S τ μ) (alike : σ → τ → Prop) : Prop where
  start : alike left.start right.start
  isOver {s : σ} {t : τ} (h : alike s t) : left.isOver s = right.isOver t
  moves {s : σ} {t : τ} (h : alike s t) :
    (left.moves s).1 = (right.moves t).1 ∧ alike (left.moves s).2 (right.moves t).2
  play {s : σ} {t : τ} (h : alike s t) (move : μ) :
    alike (left.play s move).1 (right.play t move).1 ∧ (left.play s move).2 = (right.play t move).2
  interrupt {s : σ} {t : τ} (h : alike s t) : alike (left.interrupt s) (right.interrupt t)
  result {s : σ} {t : τ} (h : alike s t) : (left.result s).bare = (right.result t).bare

/-- What exploring comes to, with its result bare. -/
def Exploration.bare : Exploration S μ → Exploration S μ
  | ended result => ended result.bare
  | forked histories => forked histories

/-- Branches are accepted with one tree, and no two trees that branches are accepted with
are the same when bare. -/
structure Machine.Legible (machine : Machine S σ μ) (maxSteps : Option Nat) : Prop where
  single {result : ParseResult S} (ends : machine.EndsIn maxSteps result)
    (accepted : result.isAccepted = true) : ∃ tree, result.forest = [tree]
  apart {tree other : ParseTree S} (ends : machine.EndsIn maxSteps ⟨[tree], none⟩)
    (ends' : machine.EndsIn maxSteps ⟨[other], none⟩) (same : tree.bare = other.bare) : tree = other

namespace Machine.Twins

variable {left : Machine S σ μ} {right : Machine S τ μ} {alike : σ → τ → Prop}

theorem resume (twins : left.Twins right alike) {s : σ} {t : τ} (h : alike s t) (history : List μ) :
    alike (left.resume s history) (right.resume t history) := by
  induction history generalizing s t with
  | nil => exact h
  | cons move rest ih =>
    -- A refused move ends both replays, and it is refused in both or in neither.
    obtain ⟨after, refused⟩ := twins.play h move
    rw [Machine.resume, Machine.resume]
    cases hleft : left.play s move with
    | mk s' refused' =>
      cases hright : right.play t move with
      | mk t' refused'' =>
        rw [hleft, hright] at after refused
        cases refused
        cases refused' with
        | true => exact after
        | false => exact ih after

theorem replay (twins : left.Twins right alike) (history : List μ) :
    alike (left.replay history) (right.replay history) :=
  twins.resume twins.start history

/-- With the same fuel, exploring states that are alike comes to the same. -/
theorem explore (twins : left.Twins right alike) (maxSteps : Option Nat) (fuel : Nat) (history : List μ)
    {s : σ} {t : τ} (h : alike s t) :
    (left.explore maxSteps fuel history s).map Exploration.bare =
      (right.explore maxSteps fuel history t).map Exploration.bare := by
  -- By induction on the fuel; with every sole move the states change, and stay alike.
  induction fuel generalizing history s t with
  | zero => rfl
  | succ fuel ih =>
    have ended {s : σ} {t : τ} (h : alike s t) :
        (some (Exploration.ended (left.result s))).map Exploration.bare =
          (some (Exploration.ended (μ := μ) (right.result t))).map Exploration.bare := by
      rw [Option.map_some, Option.map_some, Exploration.bare, Exploration.bare, twins.result h]
    rw [Machine.explore, Machine.explore, twins.isOver h]
    by_cases finished : right.isOver t = true
    · rw [if_pos finished, if_pos finished]
      exact ended h
    · rw [if_neg finished, if_neg finished]
      by_cases exhausted : maxSteps.any (· ≤ history.length) = true
      · rw [if_pos exhausted, if_pos exhausted]
        exact ended (twins.interrupt h)
      · rw [if_neg exhausted, if_neg exhausted]
        obtain ⟨same, looked⟩ := twins.moves h
        generalize left.moves s = foreseen at same looked ⊢
        generalize right.moves t = foreseen' at same looked ⊢
        obtain ⟨moves, s'⟩ := foreseen
        obtain ⟨moves', t'⟩ := foreseen'
        cases same
        cases moves with
        | nil => exact ended looked
        | cons move others =>
          cases others with
          | nil => exact ih _ (twins.play looked move).1
          | cons _ _ => rfl

end Machine.Twins

/-! ## §2. Searches. -/

namespace Search

/-- The search with the forests handed out bare. -/
def bare (search : Search S μ) : Search S μ :=
  { search with emitted := search.emitted.map (List.map ParseTree.bare) }

theorem of_bare_eq {search other : Search S μ} (same : search.bare = other.bare) :
    search.pending = other.pending ∧ search.bare.emitted = other.bare.emitted ∧
      search.explored = other.explored ∧ search.forks = other.forks := by
  simpa only [bare, Search.mk.injEq] using same

/-- An answer of a search and the search after it, both bare. -/
def bareAnswer (answer : Option (ParseResult S) × Search S μ) : Option (ParseResult S) × Search S μ :=
  (answer.1.map ParseResult.bare, answer.2.bare)

/-- Runs lead to the branches left to explore, and branches are accepted with the forests
handed out. -/
structure Honest (machine : Machine S σ μ) (maxSteps : Option Nat) (search : Search S μ) : Prop where
  histories : ∀ history ∈ search.pending, machine.IsHistory maxSteps history
  emitted : ∀ forest ∈ search.emitted, ∃ tree, forest = [tree] ∧ machine.EndsIn maxSteps ⟨[tree], none⟩

namespace Honest

variable {machine : Machine S σ μ} {options : SearchOptions} {search : Search S μ}
variable {history : List μ} {pending : List (List μ)}

theorem initial : Honest machine options.maxSteps (initial : Search S μ) where
  histories history mem := by
    rw [List.mem_singleton.1 mem]
    exact ⟨machine.start, .nil _ _⟩
  emitted forest none := absurd none List.not_mem_nil

/-- The first branch left to explore is a genuine one. -/
theorem genuine {inv : σ → Prop} (lawful : machine.Lawful inv)
    (honest : Honest machine options.maxSteps search) (head : search.pending = history :: pending)
    {fuel : Nat} {exploration : Exploration S μ}
    (explored : machine.explore options.maxSteps fuel history (machine.replay history) = some exploration) :
    machine.Genuine options.maxSteps exploration := by
  obtain ⟨state, run⟩ := honest.histories history (head ▸ List.mem_cons_self)
  have replayed : machine.replay history = state := run.resume_eq lawful
  exact Machine.genuine_of_explore lawful run (replayed ▸ explored)

theorem forked (honest : Honest machine options.maxSteps search) (head : search.pending = history :: pending)
    {histories : List (List μ)} (genuine : machine.Genuine options.maxSteps (.forked histories)) (forks : Nat) :
    Honest machine options.maxSteps { search with pending := histories ++ pending, forks } where
  histories longer mem := by
    rcases List.mem_append.1 mem with mem | mem
    · exact genuine longer mem
    · exact honest.histories longer (head ▸ List.mem_cons_of_mem _ mem)
  emitted := honest.emitted

theorem ended (honest : Honest machine options.maxSteps search) (head : search.pending = history :: pending)
    (explored : Nat) : Honest machine options.maxSteps { search with pending, explored } where
  histories longer mem := honest.histories longer (head ▸ List.mem_cons_of_mem _ mem)
  emitted := honest.emitted

/-- The forest of a result that is handed out is noted. -/
theorem handed (legible : machine.Legible options.maxSteps) (honest : Honest machine options.maxSteps search)
    (head : search.pending = history :: pending) {result : ParseResult S}
    (ends : machine.EndsIn options.maxSteps result) (explored : Nat) :
    Honest machine options.maxSteps
      { search with pending, explored, emitted := emittedWith options search.emitted result } where
  histories := (honest.ended head explored).histories
  emitted forest mem := by
    dsimp only at mem
    unfold emittedWith at mem
    split at mem
    · next noted =>
      rw [Bool.and_eq_true] at noted
      rcases List.mem_append.1 mem with before | now
      · exact honest.emitted forest before
      · obtain ⟨tree, single⟩ := legible.single ends noted.2
        rw [List.mem_singleton.1 now, single]
        exact ⟨tree, rfl, ParseResult.eq_of_isAccepted noted.2 single ▸ ends⟩
    · exact honest.emitted forest mem

/-- A search skips a result if and only if it would when bare. -/
theorem skips_bare (legible : machine.Legible options.maxSteps) (honest : Honest machine options.maxSteps search)
    {result : ParseResult S} (ends : machine.EndsIn options.maxSteps result) :
    Skips options search.bare.emitted result.bare ↔ Skips options search.emitted result := by
  unfold Skips
  rw [ParseResult.isAccepted_bare]
  refine and_congr_right fun _ => and_congr_right fun accepted => ?_
  constructor
  -- A forest handed out that is the same when bare is the forest itself, as both are accepted.
  · intro mem
    obtain ⟨forest, known, same⟩ := List.mem_map.1 mem
    obtain ⟨tree, rfl, ends'⟩ := honest.emitted forest known
    obtain ⟨other, single⟩ := legible.single ends accepted
    have trees : [tree.bare] = result.forest.map ParseTree.bare := same
    rw [single, List.map_singleton, List.cons.injEq] at trees
    rw [single, ← legible.apart ends' (ParseResult.eq_of_isAccepted accepted single ▸ ends) trees.1]
    exact known
  · intro mem
    exact List.mem_map.2 ⟨result.forest, mem, rfl⟩

/-- Asking for a result keeps a search honest. -/
theorem next? [DecidableEq S] {inv : σ → Prop} (lawful : machine.Lawful inv)
    (legible : machine.Legible options.maxSteps) {fuel : Nat} {answer : Option (ParseResult S) × Search S μ}
    (honest : Honest machine options.maxSteps search)
    (h : Search.next? machine options fuel search = some answer) :
    Honest machine options.maxSteps answer.2 := by
  -- By induction on the fuel: forks and skipped results go on with another honest search.
  induction fuel generalizing search with
  | zero => cases h
  | succ fuel ih =>
    cases head : search.pending with
    | nil =>
      rw [Search.next?, head] at h
      cases h
      exact honest
    | cons history pending =>
      rw [Search.next?_cons head] at h
      cases hexplore : machine.explore options.maxSteps fuel history (machine.replay history) with
      | none =>
        rw [hexplore] at h
        cases h
      | some exploration =>
        have genuine := honest.genuine lawful head hexplore
        rw [hexplore] at h
        cases exploration with
        | forked histories => exact ih (honest.forked head genuine _) h
        | ended result =>
          dsimp only at h
          split at h
          · exact ih (honest.ended head _) h
          · cases h
            exact honest.handed legible head genuine _

end Honest

theorem emittedWith_bare (options : SearchOptions) (search : Search S μ) (result : ParseResult S) :
    emittedWith options search.bare.emitted result.bare =
      (emittedWith options search.emitted result).map (List.map ParseTree.bare) := by
  rw [emittedWith, emittedWith, ParseResult.isAccepted_bare, apply_ite (List.map _), List.map_append]
  rfl

end Search

/-! ## §3. The answers of searches in lock step. -/

/-- The same counters with the result bare. -/
def Answer.bare (answer : Answer S) : Answer S :=
  { answer with result := answer.result.map ParseResult.bare }

theorem Answer.bare_of (found : Option (ParseResult S) × Search S μ) :
    (of found).bare = of (Search.bareAnswer found) := rfl

variable [DecidableEq S]

namespace Machine.Twins

variable {left : Machine S σ μ} {right : Machine S τ μ} {alike : σ → τ → Prop}
variable {inv : σ → Prop} {inv' : τ → Prop} {options : SearchOptions}

/-- With the same fuel, searches that are the same when bare give the same answer when bare. -/
theorem next? (twins : left.Twins right alike) (lawful : left.Lawful inv) (lawful' : right.Lawful inv')
    (legible : left.Legible options.maxSteps) (legible' : right.Legible options.maxSteps) (fuel : Nat)
    {search other : Search S μ} (honest : search.Honest left options.maxSteps)
    (honest' : other.Honest right options.maxSteps) (same : search.bare = other.bare) :
    (Search.next? left options fuel search).map Search.bareAnswer =
      (Search.next? right options fuel other).map Search.bareAnswer := by
  -- By induction on the fuel; the searches after a fork, or after a result that is skipped,
  -- are the same when bare again.
  induction fuel generalizing search other with
  | zero => rfl
  | succ fuel ih =>
    obtain ⟨pending, emitted, explored, forks⟩ := Search.of_bare_eq same
    cases head : search.pending with
    | nil =>
      rw [Search.next?, head, Search.next?, ← pending, head]
      show some (none, search.bare) = some (none, other.bare)
      rw [same]
    | cons history rest =>
      have head' : other.pending = history :: rest := pending ▸ head
      have both := twins.explore options.maxSteps fuel history (twins.replay history)
      rw [Search.next?_cons head, Search.next?_cons head']
      cases hleft : left.explore options.maxSteps fuel history (left.replay history) with
      | none =>
        rw [hleft, Option.map_none, eq_comm, Option.map_eq_none_iff] at both
        rw [both]
      | some exploration =>
        rw [hleft, Option.map_some, eq_comm, Option.map_eq_some_iff] at both
        obtain ⟨exploration', hright, alike'⟩ := both
        have genuine := honest.genuine lawful head hleft
        have genuine' := honest'.genuine lawful' head' hright
        rw [hright]
        -- One search forks if and only if the other one does, as what they come to is alike.
        cases exploration with
        | forked histories =>
          cases exploration' with
          | ended result' => cases alike'
          | forked histories' =>
            cases alike'
            refine ih (honest.forked head genuine _) (honest'.forked head' genuine' _) ?_
            show Search.mk _ search.bare.emitted search.explored (search.forks + 1) = _
            rw [emitted, explored, forks]
            rfl
        | ended result =>
          cases exploration' with
          | forked histories' => cases alike'
          | ended result' =>
            have results : result'.bare = result.bare := Exploration.ended.inj alike'
            -- Both skip the result, or both hand it out.
            have skips : Search.Skips options search.emitted result ↔
                Search.Skips options other.emitted result' := by
              rw [← honest.skips_bare legible genuine, ← honest'.skips_bare legible' genuine', emitted,
                results]
            dsimp only
            by_cases skipped : Search.Skips options search.emitted result
            · rw [if_pos skipped, if_pos (skips.1 skipped)]
              refine ih (honest.ended head _) (honest'.ended head' _) ?_
              show Search.mk rest search.bare.emitted (search.explored + 1) search.forks = _
              rw [emitted, explored, forks]
              rfl
            · rw [if_neg skipped, if_neg (mt skips.2 skipped)]
              have noted : (Search.emittedWith options search.emitted result).map (List.map ParseTree.bare) =
                  (Search.emittedWith options other.emitted result').map (List.map ParseTree.bare) := by
                rw [← Search.emittedWith_bare, ← Search.emittedWith_bare, emitted, results]
              show some (some result.bare, Search.mk rest
                ((Search.emittedWith options search.emitted result).map (List.map ParseTree.bare))
                (search.explored + 1) search.forks) = _
              rw [noted, explored, forks, ← results]
              rfl

/-- Neither search answers, or both do, with the same answer when bare. -/
theorem next?_cases (twins : left.Twins right alike) (lawful : left.Lawful inv) (lawful' : right.Lawful inv')
    (legible : left.Legible options.maxSteps) (legible' : right.Legible options.maxSteps) (fuel : Nat)
    {search other : Search S μ} (honest : search.Honest left options.maxSteps)
    (honest' : other.Honest right options.maxSteps) (same : search.bare = other.bare) :
    (Search.next? left options fuel search = none ∧ Search.next? right options fuel other = none) ∨
      ∃ found found', Search.next? left options fuel search = some found ∧
        Search.next? right options fuel other = some found' ∧
        Search.bareAnswer found = Search.bareAnswer found' ∧
        found.2.Honest left options.maxSteps ∧ found'.2.Honest right options.maxSteps := by
  have both := twins.next? lawful lawful' legible legible' fuel honest honest' same
  cases hleft : Search.next? left options fuel search with
  | none =>
    rw [hleft, Option.map_none, eq_comm, Option.map_eq_none_iff] at both
    exact .inl ⟨rfl, both⟩
  | some found =>
    rw [hleft, Option.map_some, eq_comm, Option.map_eq_some_iff] at both
    obtain ⟨found', hright, answers⟩ := both
    refine .inr ⟨found, found', rfl, hright, answers.symm, ?_, ?_⟩
    · exact honest.next? lawful legible hleft
    · exact honest'.next? lawful' legible' hright

/-- Call after call, the searches show the same when bare. -/
theorem answers? (twins : left.Twins right alike) (lawful : left.Lawful inv) (lawful' : right.Lawful inv')
    (legible : left.Legible options.maxSteps) (legible' : right.Legible options.maxSteps) (fuel calls : Nat)
    {search other : Search S μ} (honest : search.Honest left options.maxSteps)
    (honest' : other.Honest right options.maxSteps) (same : search.bare = other.bare) :
    (Search.answers? left options fuel calls search).map (List.map Answer.bare) =
      (Search.answers? right options fuel calls other).map (List.map Answer.bare) := by
  -- By induction on the calls, each of which leaves two searches that are the same when bare.
  induction calls generalizing search other with
  | zero => rfl
  | succ calls ih =>
    have cons (found : Option (ParseResult S) × Search S μ) (rest : Option (List (Answer S))) :
        (rest.map fun rest => .of found :: rest).map (List.map Answer.bare) =
          (rest.map (List.map Answer.bare)).map fun rest => (Answer.of found).bare :: rest := by
      rw [Option.map_map, Option.map_map]
      rfl
    rw [Search.answers?, Search.answers?]
    rcases twins.next?_cases lawful lawful' legible legible' fuel honest honest' same with
      ⟨hleft, hright⟩ | ⟨found, found', hleft, hright, answers, after, after'⟩
    · rw [hleft, hright]
    · rw [hleft, hright]
      dsimp only
      rw [cons, cons, ih after after' (congrArg Prod.snd answers), Answer.bare_of, Answer.bare_of, answers]

/-- The searches hand out results that are the same when bare. -/
theorem collect? (twins : left.Twins right alike) (lawful : left.Lawful inv) (lawful' : right.Lawful inv')
    (legible : left.Legible options.maxSteps) (legible' : right.Legible options.maxSteps) (fuel : Nat)
    {search other : Search S μ} (honest : search.Honest left options.maxSteps)
    (honest' : other.Honest right options.maxSteps) (same : search.bare = other.bare) :
    (Search.collect? left options fuel search).map (fun collected => collected.1.map ParseResult.bare) =
      (Search.collect? right options fuel other).map fun collected => collected.1.map ParseResult.bare := by
  induction fuel generalizing search other with
  | zero => rfl
  | succ fuel ih =>
    have cons (result : ParseResult S) (rest : Option (List (ParseResult S) × Search S μ)) :
        (rest.map fun rest => (result :: rest.1, rest.2)).map (fun collected =>
            collected.1.map ParseResult.bare) =
          (rest.map fun rest => rest.1.map ParseResult.bare).map fun rest => result.bare :: rest := by
      rw [Option.map_map, Option.map_map]
      rfl
    rw [Search.collect?, Search.collect?]
    rcases twins.next?_cases lawful lawful' legible legible' fuel honest honest' same with
      ⟨hleft, hright⟩ | ⟨found, found', hleft, hright, answers, after, after'⟩
    · rw [hleft, hright]
    · have rest := ih after after' (congrArg Prod.snd answers)
      have results : found.1.map ParseResult.bare = found'.1.map ParseResult.bare :=
        congrArg Prod.fst answers
      rw [hleft, hright]
      obtain ⟨result, search⟩ := found
      obtain ⟨result', other⟩ := found'
      cases result with
      | none =>
        rw [Option.map_none, eq_comm, Option.map_eq_none_iff] at results
        cases results
        rfl
      | some result =>
        rw [Option.map_some, eq_comm, Option.map_eq_some_iff] at results
        obtain ⟨result', rfl, handed⟩ := results
        dsimp only at rest ⊢
        rw [cons, cons, rest, handed]

end Machine.Twins

/-! ## §4. Verdicts. -/

namespace Verdict

/-- The verdict with its trees or its failures bare. -/
def bare : Verdict S → Verdict S
  | accepted tree => accepted tree.bare
  | ambiguous trees => ambiguous (trees.map ParseTree.bare)
  | rejected errors => rejected (errors.map ParseError.bare)

omit [DecidableEq S] in
theorem firstTree?_bare (result : ParseResult S) :
    firstTree? result.bare = (firstTree? result).map ParseTree.bare := by
  obtain ⟨forest, error⟩ := result
  cases error with
  | some error => rfl
  | none => exact List.head?_map

omit [DecidableEq S] in
theorem errorsOf_bare (results : List (ParseResult S)) :
    errorsOf (results.map ParseResult.bare) = (errorsOf results).map ParseError.bare := by
  rw [errorsOf, errorsOf, List.filterMap_map, List.map_filterMap]
  rfl

/-- Bare results amount to the bare verdict, if their trees can be told apart when bare. -/
theorem ofResults_bare {results : List (ParseResult S)}
    (apart : ∀ tree ∈ results.filterMap firstTree?, ∀ other ∈ results.filterMap firstTree?,
      tree.bare = other.bare → tree = other) :
    ofResults (results.map ParseResult.bare) = (ofResults results).bare := by
  have trees : (results.map ParseResult.bare).filterMap firstTree? =
      (results.filterMap firstTree?).map ParseTree.bare := by
    rw [List.filterMap_map, List.map_filterMap]
    exact List.filterMap_congr fun result _ => firstTree?_bare result
  unfold ofResults
  rw [treesOf_eq_eraseDups, trees, eraseDups_map_of_apart apart, ← treesOf_eq_eraseDups, errorsOf_bare]
  match treesOf results with
  | [] => rfl
  | [_] => rfl
  | _ :: _ :: _ => rfl

end Verdict

/-- Results that branches end in amount to the bare verdict when bare. -/
theorem Machine.Legible.ofResults_bare {machine : Machine S σ μ} {maxSteps : Option Nat}
    (legible : machine.Legible maxSteps) {results : List (ParseResult S)}
    (ends : ∀ result ∈ results, machine.EndsIn maxSteps result) :
    Verdict.ofResults (results.map ParseResult.bare) = (Verdict.ofResults results).bare := by
  have found : ∀ tree ∈ results.filterMap Verdict.firstTree?, machine.EndsIn maxSteps ⟨[tree], none⟩ := by
    intro tree mem
    obtain ⟨result, hresult, first⟩ := List.mem_filterMap.1 mem
    obtain ⟨alive, head⟩ := Verdict.firstTree?_eq_some.1 first
    have accepted : result.isAccepted = true := by rw [ParseResult.isAccepted, alive, Option.isNone_none]
    obtain ⟨only, single⟩ := legible.single (ends result hresult) accepted
    rw [single, List.head?_cons] at head
    cases head
    exact ParseResult.eq_of_isAccepted accepted single ▸ ends result hresult
  refine Verdict.ofResults_bare fun tree mem other mem' => ?_
  exact legible.apart (found tree mem) (found other mem')

/-- The verdicts of searches of twins are the same when bare. -/
theorem Machine.Twins.verdict? {left : Machine S σ μ} {right : Machine S τ μ} {alike : σ → τ → Prop}
    {inv : σ → Prop} {inv' : τ → Prop} {options : SearchOptions} (twins : left.Twins right alike)
    (lawful : left.Lawful inv) (lawful' : right.Lawful inv') (legible : left.Legible options.maxSteps)
    (legible' : right.Legible options.maxSteps) (fuel : Nat) :
    (Search.verdict? left options fuel .initial).map Verdict.bare =
      (Search.verdict? right options fuel .initial).map Verdict.bare := by
  have collected := twins.collect? lawful lawful' legible legible' fuel Search.Honest.initial
    Search.Honest.initial rfl
  have amounts {ρ : Type} {machine : Machine S ρ μ} {inv : ρ → Prop} (lawful : machine.Lawful inv)
      (legible : machine.Legible options.maxSteps) :
      (Search.verdict? machine options fuel .initial).map Verdict.bare =
        ((Search.collect? machine options fuel .initial).map fun collected =>
          collected.1.map ParseResult.bare).map Verdict.ofResults := by
    rw [Search.verdict?]
    cases hcollect : Search.collect? machine options fuel .initial with
    | none => rfl
    | some collected =>
      refine congrArg some (legible.ofResults_bare fun result mem => ?_).symm
      obtain ⟨_, before, after, reachable, handed⟩ := Search.exists_next?_of_mem .initial hcollect mem
      exact Search.endsIn_of_next? lawful reachable handed
  rw [amounts lawful legible, amounts lawful' legible', collected]

end ShiftReduce
