/-
  ShiftReduce.Proofs.Renaming.Search
  ────────────────────────────────
  **RENAMED MACHINES ARE SEARCHED ALIKE.**

  A machine renames another if its states and moves are images of the other's
  and everything that a search asks of them is kept.  Then searches of the two
  go through the same steps: they explore and fork at the same time, skip the
  same repetitions and hand out renamed results.

  Main statements: `Machine.Renames.explore`, `Machine.Renames.next?` and
  `Machine.Renames.verdict?`.
-/
import ShiftReduce.Proofs.Renaming.Results
import ShiftReduce.Proofs.Search.Verdict

namespace ShiftReduce

variable {S T : Type} [GrammarSymbol S] [GrammarSymbol T] {σ τ μ ν : Type}

/-! ## §1. Machines. -/

/-- The second machine is the first one with its symbols renamed: `state` and
`move` take what the first one does to what the second one does. -/
structure Machine.Renames (f : Renaming S T) (machine : Machine S σ μ) (image : Machine T τ ν)
    (state : σ → τ) (move : μ → ν) : Prop where
  start : image.start = state machine.start
  isOver (s : σ) : image.isOver (state s) = machine.isOver s
  moves (s : σ) : image.moves (state s) = ((machine.moves s).1.map move, state (machine.moves s).2)
  play (s : σ) (m : μ) :
    image.play (state s) (move m) = (state (machine.play s m).1, (machine.play s m).2)
  interrupt (s : σ) : image.interrupt (state s) = state (machine.interrupt s)
  result (s : σ) : image.result (state s) = (machine.result s).rename f

/-- What exploring comes to, renamed. -/
def Exploration.rename (f : Renaming S T) (move : μ → ν) : Exploration S μ → Exploration T ν
  | ended result => ended (result.rename f)
  | forked histories => forked (histories.map (List.map move))

namespace Machine.Renames

variable {f : Renaming S T} {machine : Machine S σ μ} {image : Machine T τ ν}
variable {state : σ → τ} {move : μ → ν}

theorem resume (renames : machine.Renames f image state move) (s : σ) (history : List μ) :
    image.resume (state s) (history.map move) = state (machine.resume s history) := by
  induction history generalizing s with
  | nil => rfl
  | cons first rest ih =>
    -- A refused move ends both replays, and it is refused in both or in neither.
    rw [List.map_cons, Machine.resume, Machine.resume, renames.play]
    obtain ⟨after, refused⟩ := machine.play s first
    cases refused with
    | true => rfl
    | false => exact ih after

theorem replay (renames : machine.Renames f image state move) (history : List μ) :
    image.replay (history.map move) = state (machine.replay history) := by
  rw [Machine.replay, Machine.replay, renames.start]
  exact renames.resume machine.start history

/-- With the same fuel, exploring the image comes to the image. -/
theorem explore (renames : machine.Renames f image state move) (maxSteps : Option Nat) (fuel : Nat)
    (history : List μ) (s : σ) :
    image.explore maxSteps fuel (history.map move) (state s) =
      (machine.explore maxSteps fuel history s).map (Exploration.rename f move) := by
  induction fuel generalizing history s with
  | zero => rfl
  | succ fuel ih =>
    rw [Machine.explore, Machine.explore, renames.isOver, renames.result, renames.interrupt,
      renames.result, List.length_map, renames.moves]
    by_cases isOver : machine.isOver s = true
    · rw [if_pos isOver, if_pos isOver]
      rfl
    · rw [if_neg isOver, if_neg isOver]
      by_cases exhausted : maxSteps.any (fun bound => decide (bound ≤ history.length)) = true
      · rw [if_pos exhausted, if_pos exhausted]
        rfl
      · rw [if_neg exhausted, if_neg exhausted]
        obtain ⟨moves, looked⟩ := machine.moves s
        cases moves with
        | nil => exact congrArg (fun result => some (Exploration.ended result)) (renames.result looked)
        | cons first others =>
          cases others with
          | nil =>
            show image.explore maxSteps fuel (history.map move ++ [move first])
              (image.play (state looked) (move first)).1 = _
            rw [renames.play, ← List.map_singleton, ← List.map_append]
            exact ih (history ++ [first]) (machine.play looked first).1
          | cons second others =>
            refine congrArg (fun histories => some (Exploration.forked histories)) ?_
            show ((first :: second :: others).map move).map (fun m => history.map move ++ [m]) = _
            rw [List.map_map, List.map_map]
            refine List.map_congr_left fun m _ => ?_
            show history.map move ++ [move m] = (history ++ [m]).map move
            rw [List.map_append, List.map_singleton]

end Machine.Renames

/-! ## §2. Searches. -/

namespace Search

variable (f : Renaming S T) (move : μ → ν)

/-- The search with its moves and its forests renamed; the counters stay. -/
def rename (search : Search S μ) : Search T ν :=
  { pending := search.pending.map (List.map move)
    emitted := search.emitted.map (List.map (ParseTree.rename f))
    explored := search.explored
    forks := search.forks }

/-- An answer of a search and the search after it, renamed. -/
def renameAnswer (answer : Option (ParseResult S) × Search S μ) : Option (ParseResult T) × Search T ν :=
  (answer.1.map (ParseResult.rename f), answer.2.rename f move)

variable (options : SearchOptions) (search : Search S μ) (result : ParseResult S)

/-- A renamed forest has been handed out if and only if the forest has. -/
theorem skips_rename :
    Skips options (search.rename f move).emitted (result.rename f) ↔ Skips options search.emitted result := by
  have handedOut : (result.rename f).forest ∈ (search.rename f move).emitted ↔
      result.forest ∈ search.emitted :=
    List.mem_map_of_injective (List.map_injective_iff.2 (ParseTree.rename_injective f))
  rw [Skips, Skips, ParseResult.isAccepted_rename, handedOut]

theorem emittedWith_rename :
    emittedWith options (search.rename f move).emitted (result.rename f) =
      (emittedWith options search.emitted result).map (List.map (ParseTree.rename f)) := by
  rw [emittedWith, emittedWith, ParseResult.isAccepted_rename, apply_ite (List.map _), List.map_append]
  rfl

end Search

/-! ## §3. The trees and failures of some results. -/

namespace Verdict

omit [GrammarSymbol S] [GrammarSymbol T] in
/-- A map that keeps elements apart keeps which of them are repetitions. -/
theorem eraseDups_map {α β : Type} [DecidableEq α] [DecidableEq β] {g : α → β}
    (injective : Function.Injective g) (elements : List α) :
    (elements.map g).eraseDups = elements.eraseDups.map g :=
  eraseDups_map_of_apart fun _ _ _ _ same => injective same

variable (f : Renaming S T)

/-- The verdict with its trees or its failures renamed. -/
def rename : Verdict S → Verdict T
  | accepted tree => accepted (tree.rename f)
  | ambiguous trees => ambiguous (trees.map (ParseTree.rename f))
  | rejected errors => rejected (errors.map (ParseError.rename f))

theorem firstTree?_rename (result : ParseResult S) :
    firstTree? (result.rename f) = (firstTree? result).map (ParseTree.rename f) := by
  obtain ⟨forest, error⟩ := result
  cases error with
  | some error => rfl
  | none => exact List.head?_map

theorem errorsOf_rename (results : List (ParseResult S)) :
    errorsOf (results.map (ParseResult.rename f)) = (errorsOf results).map (ParseError.rename f) := by
  rw [errorsOf, errorsOf, List.filterMap_map, List.map_filterMap]
  rfl

end Verdict

/-! ## §4. The answers of a search. -/

variable [DecidableEq S] [DecidableEq T]

namespace Machine.Renames

variable {f : Renaming S T} {machine : Machine S σ μ} {image : Machine T τ ν}
variable {state : σ → τ} {move : μ → ν}

/-- With the same fuel, the renamed search gives the renamed answer. -/
theorem next? (renames : machine.Renames f image state move) (options : SearchOptions) (fuel : Nat)
    (search : Search S μ) :
    Search.next? image options fuel (search.rename f move) =
      (Search.next? machine options fuel search).map (Search.renameAnswer f move) := by
  induction fuel generalizing search with
  | zero => rfl
  | succ fuel ih =>
    cases hpending : search.pending with
    | nil =>
      have done : (search.rename f move).pending = [] := congrArg (List.map (List.map move)) hpending
      rw [Search.next?, done, Search.next?, hpending]
      rfl
    | cons history pending =>
      have more : (search.rename f move).pending = history.map move :: pending.map (List.map move) :=
        congrArg (List.map (List.map move)) hpending
      rw [Search.next?_cons more, Search.next?_cons hpending, renames.replay, renames.explore]
      cases machine.explore options.maxSteps fuel history (machine.replay history) with
      | none => rfl
      | some exploration =>
        cases exploration with
        | forked histories =>
          -- The histories of the fork go on top of the pending ones, before or after renaming.
          have forked := ih { search with pending := histories ++ pending, forks := search.forks + 1 }
          rw [Search.rename, List.map_append] at forked
          exact forked
        | ended result =>
          -- A result that is skipped is skipped in both searches.
          have ended := ih { search with pending, explored := search.explored + 1 }
          show (if Search.Skips options (search.rename f move).emitted (result.rename f) then _ else _) =
            Option.map _ (if Search.Skips options search.emitted result then _ else _)
          by_cases skips : Search.Skips options search.emitted result
          · rw [if_pos skips, if_pos ((Search.skips_rename f move options search result).2 skips)]
            exact ended
          · rw [if_neg skips, if_neg (mt (Search.skips_rename f move options search result).1 skips),
              Search.emittedWith_rename]
            rfl

theorem collect? (renames : machine.Renames f image state move) (options : SearchOptions) (fuel : Nat)
    (search : Search S μ) :
    Search.collect? image options fuel (search.rename f move) =
      (Search.collect? machine options fuel search).map fun collected =>
        (collected.1.map (ParseResult.rename f), collected.2.rename f move) := by
  induction fuel generalizing search with
  | zero => rfl
  | succ fuel ih =>
    rw [Search.collect?, Search.collect?, renames.next?]
    cases Search.next? machine options fuel search with
    | none => rfl
    | some answer =>
      obtain ⟨result, after⟩ := answer
      cases result with
      | none => rfl
      | some result =>
        show (Search.collect? image options fuel (after.rename f move)).map _ = _
        rw [ih, Option.map_map, Option.map_map]
        rfl

end Machine.Renames

/-! ## §5. Verdicts. -/

namespace Verdict

variable (f : Renaming S T)

theorem treesOf_rename (results : List (ParseResult S)) :
    treesOf (results.map (ParseResult.rename f)) = (treesOf results).map (ParseTree.rename f) := by
  have trees : (results.map (ParseResult.rename f)).filterMap firstTree? =
      (results.filterMap firstTree?).map (ParseTree.rename f) := by
    rw [List.filterMap_map, List.map_filterMap]
    exact List.filterMap_congr fun result _ => firstTree?_rename f result
  rw [treesOf_eq_eraseDups, trees, eraseDups_map (ParseTree.rename_injective f), ← treesOf_eq_eraseDups]

/-- Renamed results amount to the renamed verdict. -/
theorem ofResults_rename (results : List (ParseResult S)) :
    ofResults (results.map (ParseResult.rename f)) = (ofResults results).rename f := by
  unfold ofResults
  rw [treesOf_rename, errorsOf_rename]
  match treesOf results with
  | [] => rfl
  | [_] => rfl
  | _ :: _ :: _ => rfl

end Verdict

theorem Machine.Renames.verdict? {f : Renaming S T} {machine : Machine S σ μ} {image : Machine T τ ν}
    {state : σ → τ} {move : μ → ν} (renames : machine.Renames f image state move)
    (options : SearchOptions) (fuel : Nat) (search : Search S μ) :
    Search.verdict? image options fuel (search.rename f move) =
      (Search.verdict? machine options fuel search).map (Verdict.rename f) := by
  rw [Search.verdict?, Search.verdict?, renames.collect?, Option.map_map, Option.map_map]
  refine congrArg (Option.map · (Search.collect? machine options fuel search)) (funext fun collected => ?_)
  exact Verdict.ofResults_rename f collected.1

end ShiftReduce
