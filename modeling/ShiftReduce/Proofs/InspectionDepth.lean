/-
  ShiftReduce.Proofs.InspectionDepth
  ────────────────────────────────
  **AN INSPECTION STAYS ON THE STACK.**

  The candidates are told apart in rounds, one stack entry deeper in each.
  Nothing counts the rounds, and nothing but the depth filter, which has been
  applied before, keeps them from running off the stack: in round after round
  an item that is still live spans at least the entries that have been looked at,
  and no more entries than there are.

  Main statement: `inspection_stays_on_stack`.
-/
import ShiftReduce.Proofs.ExactPrediction

namespace ShiftReduce

variable {S : Type} [DecidableEq S] [GrammarSymbol S]

/-! ## §1. The rounds of an inspection. -/

namespace Inspection

/-- A round as it begins: the inspection so far, and the entries left on the stack. -/
structure Round (S : Type) [GrammarSymbol S] where
  inspection : Inspection S
  rest : List (Token S)

/-- The rounds that an inspection goes through, one for each turn of `run`. -/
def rounds (inspection : Inspection S) : List (Token S) → List (Round S)
  | [] => [⟨inspection, []⟩]
  | top :: rest =>
    ⟨inspection, top :: rest⟩ ::
      if inspection.settle.isDecided then []
      else (inspection.settle.descend top.kind).rounds rest

end Inspection

/-- The rounds in which candidates are told apart: none if the next token refuses all of them. -/
def Problem.inspectionRounds (lookahead : Option S) (candidates : List (Item S))
    (stack : List (Token S)) : List (Inspection.Round S) :=
  let live := candidates.filter fun item => item.admits lookahead
  if live.isEmpty then [] else (Inspection.ofItems live).rounds stack

/-! ## §2. How deep a live item goes. -/

omit [DecidableEq S] in
theorem Item.Agrees.cons {item : Item S} {distance : Nat} {kind : S} {kinds : List S}
    (expected : item.symbolAt? distance = some kind) (h : item.Agrees (distance + 1) kinds) :
    item.Agrees distance (kind :: kinds) := by
  intro offset symbol expects
  cases offset with
  | zero =>
    rw [Nat.add_zero, expected] at expects
    exact expects
  | succ offset =>
    rw [Nat.add_comm offset 1, ← Nat.add_assoc] at expects
    exact h offset symbol expects

omit [DecidableEq S] in
/-- An item that expects nothing at a distance agrees with whatever stands there. -/
theorem Item.agrees_of_symbolAt?_eq_none {item : Item S} {distance : Nat} (kinds : List S)
    (placed : item.position < item.rule.rhs.length) (positive : 0 < distance)
    (ended : item.symbolAt? distance = none) : item.Agrees distance kinds := by
  intro offset symbol expects
  rw [symbolAt?_eq_none_of_le placed positive ended (Nat.le_add_right distance offset)] at expects
  cases expects

namespace Inspection

/-- Where an inspection stands on a stack of these kinds, top first, with some entries left.  A live
item spans the entries looked at, and not more than there are; if it agrees with those left, it
agrees with the whole stack. -/
structure OnStack (kinds : List S) (inspection : Inspection S) (rest : List (Token S)) : Prop where
  positive : 0 < inspection.distance
  depth : inspection.distance + rest.length = kinds.length + 1
  placed : ∀ item ∈ inspection.live, item.position < item.rule.rhs.length
  deep : ∀ item ∈ inspection.live, inspection.distance ≤ item.span + 1
  covered : ∀ item ∈ inspection.live, item.span ≤ kinds.length
  agreed : ∀ item ∈ inspection.live, item.Agrees inspection.distance (rest.map Token.kind) →
    item.Agrees 1 kinds

variable {inspection : Inspection S} {kinds : List S} {rest : List (Token S)}

omit [DecidableEq S] in
/-- An inspection begins below the top of the stack, which its items have under their dots. -/
theorem onStack_ofItems {items : List (Item S)} {top : S}
    (placed : ∀ item ∈ items, item.position < item.rule.rhs.length ∧ item.symbol? = some top)
    (covered : ∀ item ∈ items, item.span ≤ rest.length + 1) :
    (ofItems items).OnStack (top :: rest.map Token.kind) rest where
  positive := Nat.succ_pos _
  depth := by
    show 2 + rest.length = (rest.map Token.kind).length + 1 + 1
    rw [List.length_map]
    omega
  placed := by
    intro item live
    exact (placed item live).1
  deep := by
    intro item _
    exact Nat.succ_le_succ (Nat.succ_pos _)
  covered := by
    intro item live
    rw [List.length_cons, List.length_map]
    exact covered item live
  agreed := by
    intro item live agrees
    exact .cons (item.symbolAt?_one.trans (placed item live).2) agrees

namespace OnStack

omit [DecidableEq S] in
/-- An item that has not settled goes deeper than the entries looked at. -/
theorem distance_le_span {item : Item S} (onStack : inspection.OnStack kinds rest)
    (live : item ∈ inspection.settle.live) : inspection.distance ≤ item.span := by
  obtain ⟨live, deeper⟩ := mem_live_settle.1 live
  exact Item.le_span_of_symbolAt? (onStack.placed item live) onStack.positive deeper

omit [DecidableEq S] in
/-- If the inspection is not decided, then some item goes deeper. -/
theorem exists_deeper (onStack : inspection.OnStack kinds rest)
    (undecided : inspection.settle.isDecided = false) :
    ∃ item ∈ inspection.live, inspection.distance ≤ item.span := by
  have some : inspection.settle.live ≠ [] := by
    intro none
    rw [isDecided, none] at undecided
    cases undecided
  obtain ⟨item, live⟩ := List.exists_mem_of_ne_nil _ some
  exact ⟨item, (mem_live_settle.1 live).1, onStack.distance_le_span live⟩

omit [DecidableEq S] in
/-- There is an entry for the next round: no item goes deeper than the stack. -/
theorem rest_ne_nil (onStack : inspection.OnStack kinds rest)
    (undecided : inspection.settle.isDecided = false) : rest ≠ [] := by
  rintro rfl
  obtain ⟨item, live, deeper⟩ := onStack.exists_deeper undecided
  have covered := onStack.covered item live
  have depth : inspection.distance + 0 = kinds.length + 1 := onStack.depth
  omega

omit [DecidableEq S] in
/-- An item that settles spans just the entries looked at, and these show its rule up to the dot. -/
theorem of_settling {item : Item S} (onStack : inspection.OnStack kinds rest)
    (live : item ∈ inspection.live) (ended : item.symbolAt? inspection.distance = none) :
    item.span + 1 = inspection.distance ∧
      item.rule.rhs.take item.span = (kinds.take (inspection.distance - 1)).reverse := by
  have placed := onStack.placed item live
  have short := (Item.symbolAt?_eq_none_iff placed onStack.positive).1 ended
  have deep := onStack.deep item live
  have span : item.span + 1 = inspection.distance := by omega
  refine ⟨span, ?_⟩
  have agrees := onStack.agreed item live
    (Item.agrees_of_symbolAt?_eq_none _ placed onStack.positive ended)
  have shown : (item.rule.rhs.take item.span).reverse <+: kinds :=
    agrees.fits placed (onStack.covered item live)
  have hspan : item.span = item.position + 1 := rfl
  rw [List.prefix_iff_eq_take, List.length_reverse, List.length_take, Nat.min_eq_left (by omega)]
    at shown
  rw [← span, Nat.add_sub_cancel, ← shown, List.reverse_reverse]

/-- After a comparison the inspection stands one entry deeper. -/
theorem descend {top : Token S} (onStack : inspection.OnStack kinds (top :: rest)) :
    (inspection.settle.descend top.kind).OnStack kinds rest where
  positive := Nat.succ_pos _
  depth := by
    have depth : inspection.distance + (rest.length + 1) = kinds.length + 1 := onStack.depth
    show inspection.distance + 1 + rest.length = kinds.length + 1
    omega
  placed := by
    intro item live
    exact onStack.placed item (mem_live_settle.1 (List.mem_filter.1 live).1).1
  deep := by
    intro item live
    exact Nat.succ_le_succ (onStack.distance_le_span (List.mem_filter.1 live).1)
  covered := by
    intro item live
    exact onStack.covered item (mem_live_settle.1 (List.mem_filter.1 live).1).1
  agreed := by
    intro item live agrees
    obtain ⟨live, expected⟩ := List.mem_filter.1 live
    exact onStack.agreed item (mem_live_settle.1 live).1 (.cons (of_decide_eq_true expected) agrees)

/-! ## §3. All rounds. -/

/-- The inspection stands on the stack in each of its rounds. -/
theorem of_mem_rounds {round : Round S} (onStack : inspection.OnStack kinds rest)
    (mem : round ∈ inspection.rounds rest) : round.inspection.OnStack kinds round.rest := by
  induction rest generalizing inspection with
  | nil =>
    obtain rfl := List.mem_singleton.1 mem
    exact onStack
  | cons top rest ih =>
    rw [rounds] at mem
    obtain rfl | later := List.mem_cons.1 mem
    · exact onStack
    · split at later
      · cases later
      · exact ih onStack.descend later

/-- The number of rounds is bounded by the spans of the live items. -/
theorem length_rounds {bound : Nat} (onStack : inspection.OnStack kinds rest)
    (spans : ∀ item ∈ inspection.live, item.span ≤ bound) (start : inspection.distance ≤ bound + 1) :
    (inspection.rounds rest).length + inspection.distance ≤ bound + 2 := by
  induction rest generalizing inspection with
  | nil =>
    show 1 + inspection.distance ≤ bound + 2
    omega
  | cons top rest ih =>
    rw [rounds, List.length_cons]
    split
    · rw [List.length_nil]
      omega
    · next undecided =>
      obtain ⟨item, live, deeper⟩ := onStack.exists_deeper (Bool.eq_false_iff.2 undecided)
      have within := spans item live
      have later := ih onStack.descend
        (fun item live => spans item (mem_live_settle.1 (List.mem_filter.1 live).1).1)
        (show inspection.distance + 1 ≤ bound + 1 by omega)
      have next : (inspection.settle.descend top.kind).distance = inspection.distance + 1 := rfl
      omega

/-- A run ends decided, in its last round, and has popped an entry in each round before. -/
theorem run_eq (onStack : inspection.OnStack kinds rest) (popped : List (Token S)) :
    ∃ last, (inspection.rounds rest).getLast? = some last ∧
      last.inspection.settle.isDecided = true ∧
      (inspection.run rest popped).1 = last.inspection.settle ∧
      (inspection.run rest popped).2.pending =
        popped.length + ((inspection.rounds rest).length - 1) := by
  induction rest generalizing inspection popped with
  | nil =>
    have decided : inspection.settle.isDecided = true := by
      by_contra undecided
      exact onStack.rest_ne_nil (Bool.eq_false_iff.2 undecided) rfl
    refine ⟨⟨inspection, []⟩, rfl, decided, ?_, rfl⟩
    rw [run]
    exact if_pos decided
  | cons top rest ih =>
    rw [run, rounds]
    split
    · next decided => exact ⟨⟨inspection, top :: rest⟩, rfl, decided, rfl, rfl⟩
    · obtain ⟨last, hlast, decided, same, pending⟩ := ih onStack.descend (top :: popped)
      refine ⟨last, ?_, decided, same, ?_⟩
      · rw [List.getLast?_cons, hlast]
        rfl
      · have one := List.length_pos_of_mem (List.mem_of_getLast? hlast)
        rw [pending, List.length_cons, List.length_cons]
        omega

end OnStack
end Inspection

/-! ## §4. Inspections of a branch. -/

namespace Problem

variable {problem : Problem S} {branch : Branch S} {top : Token S} {stack : UndoStack (Token S)}
  {candidates : List (Item S)}
  (pop : branch.stack.pop? = some (top, stack))
  (fit : ∀ item ∈ candidates, item ∈ problem.table.items top.kind ∧ item.span ≤ branch.stack.size)

include pop fit

/-- The candidates of the top of a stack, deep enough for them, are inspected from there on. -/
theorem onStack_of_candidates (lookahead : Option S) :
    (Inspection.ofItems (candidates.filter fun item => item.admits lookahead)).OnStack
      (branch.stack.items.map Token.kind) stack.items := by
  have shown : branch.stack.items = top :: stack.items := UndoStack.items_of_pop? pop
  rw [shown, List.map_cons]
  refine Inspection.onStack_ofItems ?_ ?_
  · intro item live
    obtain ⟨rule, _, position, hsymbol, rfl⟩ :=
      DecisionTable.mem_items.1 (fit item (List.mem_filter.1 live).1).1
    exact ⟨(List.getElem?_eq_some_iff.1 hsymbol).1, hsymbol⟩
  · intro item live
    have covered := (fit item (List.mem_filter.1 live).1).2
    rwa [UndoStack.size, shown] at covered

/-- Each round takes place on the stack of the branch. -/
theorem onStack_of_mem_inspectionRounds {round : Inspection.Round S} {lookahead : Option S}
    (mem : round ∈ inspectionRounds lookahead candidates stack.items) :
    round.inspection.OnStack (branch.stack.items.map Token.kind) round.rest := by
  unfold inspectionRounds at mem
  dsimp only at mem
  split at mem
  · cases mem
  · exact (onStack_of_candidates pop fit lookahead).of_mem_rounds mem

/-- There are at most as many rounds as a candidate can span entries. -/
theorem length_inspectionRounds_le {bound : Nat} (lookahead : Option S)
    (spans : ∀ item ∈ candidates, item.span ≤ bound) :
    (inspectionRounds lookahead candidates stack.items).length ≤ bound := by
  unfold inspectionRounds
  dsimp only
  split
  · exact Nat.zero_le _
  · next some =>
    obtain ⟨item, live⟩ := List.exists_mem_of_ne_nil _ (mt List.isEmpty_iff.2 some)
    have positive : 0 < item.span := Nat.succ_pos _
    have within := spans item (List.mem_filter.1 live).1
    have rounds := (onStack_of_candidates pop fit lookahead).length_rounds
      (fun item live => spans item (List.mem_filter.1 live).1) (show 2 ≤ bound + 1 by omega)
    have start : (Inspection.ofItems (candidates.filter fun item => item.admits lookahead)).distance =
      2 := rfl
    omega

/-- Telling candidates apart goes through just these rounds: all but the last one pop an entry, and
the moves are those of the items that the last one leaves. -/
theorem disambiguate_eq_rounds (lookahead : Option S) :
    (disambiguate { branch with stack } top lookahead candidates).1.stack.pending =
      stack.pending + ((inspectionRounds lookahead candidates stack.items).length - 1) ∧
    ∀ moves, (disambiguate { branch with stack } top lookahead candidates).2 = .ok moves →
      ∃ last, (inspectionRounds lookahead candidates stack.items).getLast? = some last ∧
        last.inspection.settle.isDecided = true ∧
        moves = last.inspection.settle.solutions.map Move.ofItem := by
  unfold disambiguate inspectionRounds
  dsimp only
  split
  · refine ⟨rfl, fun moves h => ?_⟩
    cases h
  · obtain ⟨last, hlast, decided, same, pending⟩ :=
      (onStack_of_candidates pop fit lookahead).run_eq stack.popped
    split
    · refine ⟨pending, fun moves h => ?_⟩
      cases h
    · refine ⟨pending, fun moves h => ?_⟩
      cases h
      exact ⟨last, hlast, decided, by rw [same]⟩

end Problem

/-- Candidates of the top of a stack that is deep enough for them are told apart in at most as many
rounds as the longest of them spans entries.  Each round that does not decide finds an entry
to pop.  An item found in a round spans the entries above the one that comes next, and these show
its rule up to the dot.  The rounds are those of `disambiguate`, and the last of them decides: an
item is proposed without having been found only if it is the sole one left, and none has been. -/
theorem inspection_stays_on_stack {problem : Problem S} {branch : Branch S} {top : Token S}
    {stack : UndoStack (Token S)} (pop : branch.stack.pop? = some (top, stack))
    {candidates : List (Item S)}
    (fit : ∀ item ∈ candidates, item ∈ problem.table.items top.kind ∧ item.span ≤ branch.stack.size)
    (lookahead : Option S) :
    (∀ bound, (∀ item ∈ candidates, item.span ≤ bound) →
      (Problem.inspectionRounds lookahead candidates stack.items).length ≤ bound) ∧
    (∀ round ∈ Problem.inspectionRounds lookahead candidates stack.items,
      (round.inspection.settle.isDecided = false → round.rest ≠ []) ∧
      ∃ found, round.inspection.settle.settled = round.inspection.settled ++ found ∧
        ∀ item ∈ found, item.span = round.inspection.distance - 1 ∧
          item.rule.rhs.take item.span =
            ((branch.stack.items.take (round.inspection.distance - 1)).map Token.kind).reverse) ∧
    (Problem.disambiguate { branch with stack } top lookahead candidates).1.stack.pending =
      stack.pending + ((Problem.inspectionRounds lookahead candidates stack.items).length - 1) ∧
    ∀ moves, (Problem.disambiguate { branch with stack } top lookahead candidates).2 = .ok moves →
      ∃ last, (Problem.inspectionRounds lookahead candidates stack.items).getLast? = some last ∧
        last.inspection.settle.isDecided = true ∧
        moves = last.inspection.settle.solutions.map Move.ofItem := by
  refine ⟨fun bound => Problem.length_inspectionRounds_le pop fit lookahead, ?_,
    Problem.disambiguate_eq_rounds pop fit lookahead⟩
  intro round mem
  have onStack := Problem.onStack_of_mem_inspectionRounds pop fit mem
  refine ⟨onStack.rest_ne_nil, _, rfl, fun item found => ?_⟩
  obtain ⟨live, ended⟩ := List.mem_filter.1 found
  obtain ⟨span, shown⟩ := onStack.of_settling live (Option.isNone_iff_eq_none.1 ended)
  refine ⟨by omega, ?_⟩
  rw [shown, List.map_take]

/-- With `E + T` on the stack the items of `T` span one and three entries.  It takes three
rounds to find both, as many as the longer one allows, and they pop the whole stack. -/
theorem inspection_stays_on_stack_sum :
    ∃ branch top stack, Problem.Reachable ⟨sumTable, sumStream⟩ branch ∧
      branch.stackKinds = [.nonTerminal "E", .terminal "+", .nonTerminal "T"] ∧
      branch.stack.pop? = some (top, stack) ∧
      (sumTable.items top.kind).map Item.span = [3, 1] ∧
      (Problem.inspectionRounds none (sumTable.items top.kind) stack.items).map
        (fun round => (round.inspection.distance, round.rest.length)) = [(2, 2), (3, 1), (4, 0)] ∧
      (Problem.disambiguate { branch with stack } top none
        (sumTable.items top.kind)).1.stack.pending = 3 := by
  have known : ∀ move ∈ sumMoves, Problem.Knows ⟨sumTable, sumStream⟩ move := by
    decide +kernel
  have reachable := Problem.Reachable.replay known
  generalize hbranch : (Problem.machine ⟨sumTable, sumStream⟩).replay sumMoves = branch at reachable
  have kinds : branch.stackKinds = [.nonTerminal "E", .terminal "+", .nonTerminal "T"] := by
    rw [← hbranch]
    decide +kernel
  have popped : branch.stack.pop?.map (fun pair => (pair.2.pending,
      (sumTable.items pair.1.kind).map Item.span,
      (Problem.inspectionRounds none (sumTable.items pair.1.kind) pair.2.items).map
        fun round => (round.inspection.distance, round.rest.length))) =
      some (1, [3, 1], [(2, 2), (3, 1), (4, 0)]) := by
    rw [← hbranch]
    decide +kernel
  obtain ⟨⟨top, stack⟩, pop, each⟩ := Option.map_eq_some_iff.1 popped
  simp only [Prod.mk.injEq] at each
  obtain ⟨pending, spans, rounds⟩ := each
  have fit : ∀ item ∈ sumTable.items top.kind,
      item ∈ (Problem.mk sumTable sumStream).table.items top.kind ∧
        item.span ≤ branch.stack.size := by
    intro item mem
    have span : item.span ∈ [3, 1] := spans ▸ List.mem_map_of_mem mem
    have size : branch.stack.size = 3 := by
      rw [← hbranch]
      decide +kernel
    refine ⟨mem, ?_⟩
    simp at span
    omega
  refine ⟨branch, top, stack, reachable, kinds, pop, spans, rounds, ?_⟩
  have three := congrArg List.length rounds
  rw [List.length_map] at three
  rw [(inspection_stays_on_stack pop fit none).2.2.1, pending, three]
  rfl

end ShiftReduce
