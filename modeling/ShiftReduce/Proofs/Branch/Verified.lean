/-
  ShiftReduce.Proofs.Branch.Verified
  ────────────────────────────────
  **PREDICTION WITHOUT SHORTCUTS.**

  Here every item of the top of the stack is compared with the whole of the
  stack and with the next token, and those that match are proposed, the
  shortest ones first and then by the numbers of their rules.  Prediction as it
  is done takes two shortcuts: a sole candidate is never inspected, and the
  inspection of several ends as soon as one is left.  Each of them can only
  propose a single item that does not match in a place where no item matches.

  Main statements: `mem_verifiedItems` (the items proposed here are those that
  match) and `nextMoves_eq_verified` (where there is one, prediction proposes
  the same moves in the same order).
-/
import Mathlib.Data.List.Sort
import ShiftReduce.Proofs.Branch.Machine

namespace ShiftReduce

variable {S : Type} [DecidableEq S] [GrammarSymbol S]

/-! ## §1. The items that match, in order. -/

omit [DecidableEq S] in
/-- The first item spans less of the stack, or as much by a rule with a smaller number. -/
def Item.Before (first second : Item S) : Prop :=
  first.span < second.span ∨ first.span = second.span ∧ first.rule.id < second.rule.id

instance (first second : Item S) : Decidable (first.Before second) :=
  inferInstanceAs (Decidable (_ ∨ _))

omit [DecidableEq S] in
theorem Item.not_before_self (item : Item S) : ¬item.Before item := by
  unfold Before
  omega

omit [DecidableEq S] in
theorem Item.Before.asymm {first second : Item S} (h : first.Before second) : ¬second.Before first := by
  unfold Before at h ⊢
  omega

omit [DecidableEq S] in
/-- Ordered items that all make the same move are one item. -/
theorem Item.map_ofItem_of_pairwise_before {items : List (Item S)} {move : Move S} (some : items ≠ [])
    (ordered : items.Pairwise Item.Before) (same : ∀ item ∈ items, Move.ofItem item = move) :
    items.map Move.ofItem = [move] := by
  cases items with
  | nil => exact absurd rfl some
  | cons first rest =>
    cases rest with
    | nil => rw [List.map_singleton, same first List.mem_cons_self]
    | cons second rest =>
      -- Two items would be the item of the one move, and yet the one before the other.
      have equal : first = second :=
        congrArg Move.item ((same first (by simp)).trans (same second (by simp)).symm)
      have before := (List.pairwise_cons.1 ordered).1 second List.mem_cons_self
      rw [equal] at before
      exact absurd before second.not_before_self

namespace Problem

/-- The stack is deep enough for the item and shows its rule up to the dot; if
the item accepts, it spans the whole stack and all input is consumed; if it
shifts, the next token is one of its lookaheads. -/
def verifies (problem : Problem S) (branch : Branch S) (item : Item S) : Bool :=
  item.span ≤ branch.stack.size &&
    (item.rule.rhs.take item.span).isSuffixOf branch.stackKinds &&
    (!item.isAccept || (item.span = branch.stack.size && branch.cursor = problem.stream.size)) &&
    (!item.isShift || (problem.stream.lexemes[branch.cursor]?).any fun lexeme =>
      decide (lexeme.kind ∈ item.lookaheads))

/-- The items of the top of the stack that pass these checks, ordered by span
and then by rule number. -/
def verifiedItems (problem : Problem S) (branch : Branch S) : List (Item S) :=
  match branch.stack.peek? with
  | none => []
  | some top =>
    ((problem.table.items top.kind).filter (problem.verifies branch)).insertionSort
      fun first second => ¬second.Before first

/-- The moves that follow them.  If there is none, the branch fails. -/
def verifiedMoves (problem : Problem S) (branch : Branch S) : List (Move S) × Branch S :=
  if branch.isOver then ([], branch)
  else
    match (problem.verifiedItems branch).map Move.ofItem with
    | [] =>
      let stuck := branch.enter .predict
      ([], stuck.fail (stuck.errorAt
        (.noApplicableRule (stuck.stack.peek?.map Token.kind) ∅) stuck.topPosition?))
    | moves => (moves, branch)

/-- The branches of a problem, with the moves predicted in this way. -/
def verifyingMachine (problem : Problem S) : Machine S (Branch S) (Move S) :=
  { problem.machine with moves := problem.verifiedMoves }

variable {problem : Problem S} {branch : Branch S}

theorem verifies_iff {item : Item S} (hposition : item.position < item.rule.rhs.length) :
    problem.verifies branch item = true ↔
      item.Fits (branch.stack.items.map Token.kind) ∧
        (item.action = .accept → item.span = branch.stack.size ∧ branch.cursor = problem.stream.size) ∧
        (item.action = .shift → ∃ lexeme, problem.stream.lexemes[branch.cursor]? = some lexeme ∧
          lexeme.kind ∈ item.lookaheads) := by
  have shown : (item.rule.rhs.take item.span).isSuffixOf branch.stackKinds = true ↔
      item.Fits (branch.stack.items.map Token.kind) := by
    rw [List.isSuffixOf_iff_suffix, Branch.stackKinds, UndoStack.toList, List.map_reverse,
      ← List.reverse_prefix, List.reverse_reverse]
    rfl
  have accepts : (!item.isAccept ||
      (item.span = branch.stack.size && branch.cursor = problem.stream.size)) = true ↔
        (item.action = .accept → item.span = branch.stack.size ∧ branch.cursor = problem.stream.size) := by
    unfold Item.isAccept
    by_cases h : item.action = .accept
    · simp [h]
    · simp [h]
  have shifts : (!item.isShift || (problem.stream.lexemes[branch.cursor]?).any fun lexeme =>
      decide (lexeme.kind ∈ item.lookaheads)) = true ↔
        (item.action = .shift → ∃ lexeme, problem.stream.lexemes[branch.cursor]? = some lexeme ∧
          lexeme.kind ∈ item.lookaheads) := by
    unfold Item.isShift
    by_cases h : item.action = .shift
    · simp [h, Option.any_eq_true]
    · simp [h]
  unfold verifies
  rw [Bool.and_eq_true, Bool.and_eq_true, Bool.and_eq_true, shown, accepts, shifts, decide_eq_true_eq,
    and_assoc, and_assoc]
  constructor
  · intro h
    exact h.2
  · intro h
    -- A rule that is shown up to the dot is no longer than the stack.
    have deep := h.1.span_le hposition
    rw [List.length_map] at deep
    exact ⟨deep, h⟩

/-- The items proposed are those that match. -/
theorem mem_verifiedItems {item : Item S} :
    item ∈ problem.verifiedItems branch ↔ problem.Matches branch item := by
  have placed : ∀ top, item ∈ problem.table.items top → item.position < item.rule.rhs.length := by
    intro top mem
    obtain ⟨rule, _, position, hsymbol, rfl⟩ := DecisionTable.mem_items.1 mem
    exact (List.getElem?_eq_some_iff.1 hsymbol).1
  have peek : branch.stack.peek? = branch.stack.items.head? := rfl
  unfold verifiedItems
  split
  · next empty =>
    constructor
    · intro h
      cases h
    · intro h
      obtain ⟨top, htop, _⟩ := h.mem
      rw [← peek, empty] at htop
      cases htop
  · next top htop =>
    rw [List.mem_insertionSort, List.mem_filter]
    constructor
    · intro h
      obtain ⟨fits, whole, next⟩ := (verifies_iff (placed top.kind h.1)).1 h.2
      exact ⟨⟨top, htop, h.1⟩, fits, whole, next⟩
    · intro h
      obtain ⟨other, hother, mem⟩ := h.mem
      rw [← peek, htop] at hother
      cases hother
      exact ⟨mem, (verifies_iff (placed top.kind mem)).2 ⟨h.fits, h.whole, h.next⟩⟩

/-- They are proposed in their order, each of them once. -/
theorem pairwise_verifiedItems (problem : Problem S) (branch : Branch S) :
    (problem.verifiedItems branch).Pairwise Item.Before := by
  unfold verifiedItems
  split
  · exact List.Pairwise.nil
  · next top _ =>
    have total : Std.Total fun first second : Item S => ¬second.Before first := by
      constructor
      intro first second
      unfold Item.Before
      omega
    have trans : IsTrans (Item S) fun first second => ¬second.Before first := by
      constructor
      intro first second third
      unfold Item.Before
      omega
    have sorted := List.pairwise_insertionSort (fun first second : Item S => ¬second.Before first)
      ((problem.table.items top.kind).filter (problem.verifies branch))
    -- Items of the same span are told apart by their rules, wherever sorting puts them.
    have apart : (((problem.table.items top.kind).filter (problem.verifies branch)).insertionSort
        fun first second => ¬second.Before first).Pairwise fun first second =>
          first.span = second.span → first.rule.id ≠ second.rule.id := by
      refine (List.Perm.pairwise_iff (fun h same => (h same.symm).symm)
        (List.perm_insertionSort _ _)).2 ?_
      refine ((problem.table.pairwise_items top.kind).filter _).imp ?_
      intro first second less same
      exact Nat.ne_of_lt (less same)
    refine (sorted.and apart).imp ?_
    intro first second h
    obtain ⟨ordered, differ⟩ := h
    unfold Item.Before at ordered ⊢
    omega

end Problem

/-! ## §2. What an inspection has found out. -/

omit [DecidableEq S] in
/-- What an item expects stops at its span. -/
theorem Item.symbolAt?_eq_none_iff {item : Item S} {distance : Nat}
    (hposition : item.position < item.rule.rhs.length) (positive : 0 < distance) :
    item.symbolAt? distance = none ↔ item.span < distance := by
  unfold symbolAt? span
  by_cases beyond : item.position + 1 < distance
  · simp [beyond]
  · rw [if_neg (by omega), List.getElem?_eq_none_iff]
    omega

omit [DecidableEq S] in
/-- Where an item expects something, it spans the entry. -/
theorem Item.le_span_of_symbolAt? {item : Item S} {distance : Nat}
    (hposition : item.position < item.rule.rhs.length) (positive : 0 < distance)
    (expects : (item.symbolAt? distance).isSome = true) : distance ≤ item.span := by
  by_contra short
  rw [(symbolAt?_eq_none_iff hposition positive).2 (by omega)] at expects
  cases expects

omit [DecidableEq S] in
/-- Beyond an entry at which it expects nothing, an item expects nothing either. -/
theorem Item.symbolAt?_eq_none_of_le {item : Item S} {near far : Nat}
    (hposition : item.position < item.rule.rhs.length) (positive : 0 < near)
    (ended : item.symbolAt? near = none) (beyond : near ≤ far) : item.symbolAt? far = none := by
  have short := (symbolAt?_eq_none_iff hposition positive).1 ended
  exact (symbolAt?_eq_none_iff hposition (by omega)).2 (by omega)

omit [DecidableEq S] in
/-- An item that agrees with all that is shown fits. -/
theorem Item.Agrees.fits {item : Item S} {kinds : List S}
    (hposition : item.position < item.rule.rhs.length) (deep : item.span ≤ kinds.length)
    (h : item.Agrees 1 kinds) : item.Fits kinds := by
  have hspan : item.span = item.position + 1 := rfl
  have length : (item.rule.rhs.take item.span).reverse.length = item.span := by
    rw [List.length_reverse, List.length_take]
    omega
  unfold Fits
  rw [List.prefix_iff_eq_take, length]
  refine List.ext_getElem? fun offset => ?_
  by_cases within : offset < item.span
  · -- The item expects here what its rule has, read from the dot backwards.
    have expected : item.symbolAt? (1 + offset) = item.rule.rhs[item.position - offset]? := by
      unfold symbolAt?
      rw [if_neg (by omega)]
      congr 1
      omega
    have placed : item.rule.rhs[item.position - offset]? = some item.rule.rhs[item.position - offset] :=
      List.getElem?_eq_getElem (by omega)
    rw [List.getElem?_reverse (by rw [List.length_take]; omega), List.getElem?_take_of_lt within,
      h offset _ (expected.trans placed), List.length_take, List.getElem?_take_of_lt (by omega), ← placed]
    congr 1
    omega
  · rw [List.getElem?_eq_none (by omega), List.getElem?_eq_none (by rw [List.length_take]; omega)]

namespace Inspection

/-- What an inspection knows of a stack of these kinds, top first.  The live
items have agreed with all the entries looked at; the settled ones agree
altogether, and the shorter ones come first.  The reach, which is the distance
before settling and one more after it, tells the spans of both apart. -/
structure Reached (kinds : List S) (reach : Nat) (inspection : Inspection S) : Prop where
  positive : 0 < inspection.distance
  placed : ∀ item ∈ inspection.live, item.position < item.rule.rhs.length
  ordered : inspection.live.Pairwise fun a b => a.span = b.span → a.rule.id < b.rule.id
  deep : ∀ item ∈ inspection.live, reach ≤ item.span + 1
  agreed : ∀ item ∈ inspection.live, ∀ offset symbol, offset + 1 < inspection.distance →
    item.symbolAt? (1 + offset) = some symbol → kinds[offset]? = some symbol
  found : ∀ item ∈ inspection.settled, item.Agrees 1 kinds ∧ item.span + 1 < reach
  sorted : inspection.settled.Pairwise Item.Before

variable {inspection : Inspection S} {kinds : List S}

omit [DecidableEq S] in
/-- An inspection begins below the top of the stack, with which its items agree. -/
theorem reached_ofItems {items : List (Item S)} {top : S}
    (placed : ∀ item ∈ items, item.position < item.rule.rhs.length ∧ item.symbol? = some top)
    (ordered : items.Pairwise fun a b => a.span = b.span → a.rule.id < b.rule.id) :
    (ofItems items).Reached (top :: kinds) (ofItems items).distance where
  positive := Nat.succ_pos _
  placed := by
    intro item live
    exact (placed item live).1
  ordered := ordered
  deep := by
    intro item _
    exact Nat.succ_le_succ (Nat.succ_pos _)
  agreed := by
    intro item live offset symbol within expects
    obtain rfl : offset = 0 := by
      have within : offset + 1 < 2 := within
      omega
    rw [Nat.add_zero, Item.symbolAt?_one, (placed item live).2] at expects
    exact expects
  found := by
    intro item settled
    cases settled
  sorted := List.Pairwise.nil

omit [DecidableEq S] in
theorem Reached.settle (reached : inspection.Reached kinds inspection.distance) :
    inspection.settle.Reached kinds (inspection.distance + 1) where
  positive := reached.positive
  placed := by
    intro item live
    exact reached.placed item (mem_live_settle.1 live).1
  ordered := reached.ordered.filter _
  deep := by
    intro item live
    obtain ⟨live, deeper⟩ := mem_live_settle.1 live
    exact Nat.succ_le_succ
      (Item.le_span_of_symbolAt? (reached.placed item live) reached.positive deeper)
  agreed := by
    intro item live
    exact reached.agreed item (mem_live_settle.1 live).1
  found := by
    intro item settled
    rcases mem_settled_settle.1 settled with before | ⟨live, ended⟩
    · obtain ⟨agrees, short⟩ := reached.found item before
      exact ⟨agrees, Nat.lt_succ_of_lt short⟩
    · have placed := reached.placed item live
      have short := (Item.symbolAt?_eq_none_iff placed reached.positive).1 ended
      refine ⟨fun offset symbol expects => ?_, Nat.succ_lt_succ short⟩
      refine reached.agreed item live offset symbol ?_ expects
      -- Beyond the distance reached, the item expects nothing.
      by_contra beyond
      rw [Item.symbolAt?_eq_none_of_le placed reached.positive ended (by omega)] at expects
      cases expects
  sorted := by
    refine List.pairwise_append.2 ⟨reached.sorted, ?_, ?_⟩
    · -- The items settled together have the same span, and stay in the order of their rules.
      have spans : ∀ item ∈ inspection.live.filter fun item => (item.symbolAt? inspection.distance).isNone,
          item.span + 1 = inspection.distance := by
        intro item mem
        obtain ⟨live, ended⟩ := List.mem_filter.1 mem
        have short := (Item.symbolAt?_eq_none_iff (reached.placed item live) reached.positive).1
          (Option.isNone_iff_eq_none.1 ended)
        have deep := reached.deep item live
        omega
      refine (List.Pairwise.imp_of_mem ?_ (reached.ordered.filter _))
      intro first second hfirst hsecond less
      have same : first.span = second.span := by
        have := spans first hfirst
        have := spans second hsecond
        omega
      exact .inr ⟨same, less same⟩
    · intro first hfirst second hsecond
      have short := (reached.found first hfirst).2
      have deep := reached.deep second (List.mem_filter.1 hsecond).1
      exact .inl (by omega)

theorem Reached.descend {kind : S} (reached : inspection.Reached kinds (inspection.distance + 1))
    (shown : kinds[inspection.distance - 1]? = some kind) :
    (inspection.descend kind).Reached kinds (inspection.distance + 1) where
  positive := Nat.succ_pos _
  placed := by
    intro item live
    exact reached.placed item (List.mem_filter.1 live).1
  ordered := reached.ordered.filter _
  deep := by
    intro item live
    exact reached.deep item (List.mem_filter.1 live).1
  agreed := by
    intro item live offset symbol within expects
    obtain ⟨live, expected⟩ := List.mem_filter.1 live
    have within : offset < inspection.distance := Nat.lt_of_succ_lt_succ within
    by_cases last : offset + 1 = inspection.distance
    · -- This is the entry that has just been compared.
      have expected : item.symbolAt? inspection.distance = some kind := of_decide_eq_true expected
      rw [Nat.add_comm 1 offset, last, expected] at expects
      cases expects
      rw [← last, Nat.add_sub_cancel] at shown
      exact shown
    · exact reached.agreed item live offset symbol (by omega) expects
  found := reached.found
  sorted := reached.sorted

omit [DecidableEq S] in
/-- Once nothing is left to tell apart, there is a single item, or all items
are settled. -/
theorem Reached.solutions {reach : Nat} (reached : inspection.Reached kinds reach)
    (decided : inspection.isDecided = true) :
    inspection.solutions.length = 1 ∨
      (∀ item ∈ inspection.solutions, item.Agrees 1 kinds) ∧
        inspection.solutions.Pairwise Item.Before := by
  unfold isDecided at decided
  unfold Inspection.solutions
  rcases Bool.or_eq_true_iff.1 decided with none | sole
  · rw [List.isEmpty_iff.1 none, List.append_nil]
    exact .inr ⟨fun item mem => (reached.found item mem).1, reached.sorted⟩
  · obtain ⟨one, nothing⟩ := Bool.and_eq_true_iff.1 sole
    rw [List.isEmpty_iff.1 nothing, List.nil_append]
    exact .inl (of_decide_eq_true one)

/-- An inspection leaves a single item, or items that agree with the whole
stack, the shorter ones first. -/
theorem solutions_run (items popped : List (Token S)) (reached : inspection.Reached kinds inspection.distance)
    (shown : kinds.drop (inspection.distance - 1) = items.map Token.kind) :
    (inspection.run items popped).1.solutions.length = 1 ∨
      (∀ item ∈ (inspection.run items popped).1.solutions, item.Agrees 1 kinds) ∧
        (inspection.run items popped).1.solutions.Pairwise Item.Before := by
  -- By induction on what is left of the stack; each step settles, and goes one entry deeper.
  induction items generalizing inspection popped with
  | nil =>
    rw [run]
    dsimp only
    split
    · next done => exact reached.settle.solutions done
    · -- The stack has ended, and what has not settled is dropped.
      unfold solutions
      rw [List.append_nil]
      exact .inr ⟨fun item mem => (reached.settle.found item mem).1, reached.settle.sorted⟩
  | cons top items ih =>
    rw [run]
    split
    · next done => exact reached.settle.solutions done
    · have positive := reached.positive
      have here : kinds[inspection.distance - 1]? = some top.kind := by
        rw [← List.head?_drop, shown]
        rfl
      have below : kinds.drop (inspection.distance + 1 - 1) = items.map Token.kind := by
        have tail := congrArg List.tail shown
        rw [List.tail_drop, List.map_cons, List.tail_cons] at tail
        rw [← tail]
        congr 1
        omega
      exact ih _ (reached.settle.descend here) below

end Inspection

/-! ## §3. Where an item matches, the shortcuts change nothing. -/

namespace Problem

variable {problem : Problem S} {branch : Branch S}

/-- Telling candidates apart leaves a single one, or those that admit the next
token and agree with the whole stack, in their order. -/
theorem disambiguate_cases {top : Token S} {lookahead : Option S} {candidates : List (Item S)}
    {moves : List (Move S)}
    (placed : ∀ item ∈ candidates, item.position < item.rule.rhs.length ∧ item.symbol? = some top.kind)
    (ordered : candidates.Pairwise fun a b => a.span = b.span → a.rule.id < b.rule.id)
    (h : (disambiguate branch top lookahead candidates).2 = .ok moves) :
    moves.length = 1 ∨ ∃ items : List (Item S), moves = items.map Move.ofItem ∧
      items.Pairwise Item.Before ∧ ∀ item ∈ items, item ∈ candidates ∧ item.admits lookahead = true ∧
        item.Agrees 1 (top.kind :: branch.stack.items.map Token.kind) := by
  unfold disambiguate at h
  dsimp only at h
  split at h
  · cases h
  -- Neither the lookahead nor the inspection has come to nothing.
  · split at h
    · cases h
    · cases h
      let inspection := Inspection.ofItems (candidates.filter fun item => item.admits lookahead)
      have reached : inspection.Reached (top.kind :: branch.stack.items.map Token.kind)
          inspection.distance :=
        Inspection.reached_ofItems (fun item live => placed item (List.mem_filter.1 live).1)
          (ordered.filter _)
      rcases Inspection.solutions_run branch.stack.items branch.stack.popped reached rfl with one | ⟨agree, sorted⟩
      · exact .inl (by rw [List.length_map, one])
      · refine .inr ⟨_, rfl, sorted, fun item mem => ?_⟩
        rcases Inspection.of_mem_solutions_run mem with settled | live
        · cases settled
        · obtain ⟨candidate, admits⟩ := List.mem_filter.1 live
          exact ⟨candidate, admits, agree item mem⟩

/-- Prediction proposes a single move, or the moves of items that match, in
their order. -/
theorem predict_cases {moves : List (Move S)}
    (linked : problem.Linked branch.stack.items branch.cursor)
    (h : (problem.predict branch).2 = .ok moves) :
    moves.length = 1 ∨ ∃ items : List (Item S), moves = items.map Move.ofItem ∧
      items.Pairwise Item.Before ∧ ∀ item ∈ items, problem.Matches branch item := by
  unfold predict at h
  dsimp only at h
  split at h
  · cases h
  · next top stack pop =>
    have shown : branch.stack.items = top :: stack.items := UndoStack.items_of_pop? pop
    split at h
    · cases h
    -- No candidate is a failure, a sole one is proposed as it is, several are told apart.
    · split at h
      · split at h
        · cases h
        · cases h
      · cases h
        exact .inl rfl
      · have placed : ∀ item ∈ problem.candidates branch branch.stack.size (problem.table.items top.kind),
            item.position < item.rule.rhs.length ∧ item.symbol? = some top.kind := by
          intro item mem
          obtain ⟨rule, _, position, hsymbol, rfl⟩ :=
            DecisionTable.mem_items.1 (mem_candidates.1 mem).1
          exact ⟨(List.getElem?_eq_some_iff.1 hsymbol).1, hsymbol⟩
        have ordered := (problem.table.pairwise_items top.kind).filter fun item =>
          item.span ≤ branch.stack.size &&
            (!item.isAccept || (item.span = branch.stack.size && branch.cursor = problem.stream.size))
        rcases disambiguate_cases placed ordered h with one | ⟨items, rfl, sorted, each⟩
        · exact .inl one
        · refine .inr ⟨items, rfl, sorted, fun item mem => ?_⟩
          obtain ⟨candidate, admits, agrees⟩ := each item mem
          obtain ⟨hitem, deep, whole⟩ := mem_candidates.1 candidate
          refine ⟨⟨top, by rw [shown]; rfl, hitem⟩, ?_, whole, fun shifts => ?_⟩
          · rw [shown]
            refine agrees.fits (placed item candidate).1 ?_
            show item.span ≤ ((top :: stack.items).map Token.kind).length
            rw [List.length_map, ← shown]
            exact deep
          · -- The lookahead of the top of the stack is the next token.
            rw [shown] at linked
            rw [linked.lookaheadKind?] at admits
            unfold Item.admits at admits
            rw [shifts] at admits
            obtain ⟨kind, hkind, mem⟩ := Option.any_eq_true .. |>.1 admits
            obtain ⟨lexeme, hlexeme, rfl⟩ := Option.map_eq_some_iff.1 hkind
            exact ⟨lexeme, hlexeme, of_decide_eq_true mem⟩

/-- Where several moves are proposed, some item matches. -/
theorem verifiedItems_ne_nil (going : branch.isOver = false) (clean : branch.stack.popped = [])
    (linked : problem.Linked branch.stack.items branch.cursor)
    (several : 2 ≤ (problem.nextMoves branch).1.length) : problem.verifiedItems branch ≠ [] := by
  obtain ⟨considered, hnext⟩ := nextMoves_of_going problem clean going
  cases hpredict : (problem.predict (branch.enter .predict)).2 with
  | error error =>
    rw [hnext, hpredict] at several
    cases several
  | ok moves =>
    rw [hnext, hpredict] at several
    have linked' : problem.Linked (branch.enter .predict).stack.items (branch.enter .predict).cursor :=
      linked
    rcases predict_cases linked' hpredict with one | ⟨items, rfl, _, each⟩
    · have several : 2 ≤ moves.length := several
      omega
    · cases items with
      | nil => cases several
      | cons item rest =>
        have found := each item List.mem_cons_self
        exact List.ne_nil_of_mem (mem_verifiedItems.2 ⟨found.mem, found.fits, found.whole, found.next⟩)

/-- Where an item matches, the moves proposed are those of the items that match. -/
theorem nextMoves_eq_verified (clean : branch.stack.popped = []) (going : branch.isOver = false)
    (linked : problem.Linked branch.stack.items branch.cursor)
    (some : problem.verifiedItems branch ≠ []) :
    (problem.nextMoves branch).1 = (problem.verifiedItems branch).map Move.ofItem := by
  -- Prediction leaves out no item that matches, so it is enough that it adds none.
  have proposed : ∀ item ∈ problem.verifiedItems branch,
      Move.ofItem item ∈ (problem.nextMoves branch).1 := by
    intro item mem
    exact ofItem_mem_nextMoves clean going linked (mem_verifiedItems.1 mem)
  have sorted := pairwise_verifiedItems problem branch
  obtain ⟨considered, hnext⟩ := nextMoves_of_going problem clean going
  cases hpredict : (problem.predict (branch.enter .predict)).2 with
  | error error =>
    rw [hnext, hpredict] at proposed
    obtain ⟨item, mem⟩ := List.exists_mem_of_ne_nil _ some
    cases proposed item mem
  | ok moves =>
    rw [hnext, hpredict] at proposed ⊢
    show moves = _
    have linked' : problem.Linked (branch.enter .predict).stack.items (branch.enter .predict).cursor :=
      linked
    rcases predict_cases linked' hpredict with one | ⟨items, rfl, sorted', each⟩
    · -- A single move leaves room for a single item.
      obtain ⟨move, rfl⟩ := List.length_eq_one_iff.1 one
      refine (Item.map_ofItem_of_pairwise_before some sorted fun item mem => ?_).symm
      exact List.mem_singleton.1 (proposed item mem)
    -- Several moves are those of items that match, and two ordered lists of the same items are equal.
    · congr 1
      have irrefl : Std.Irrefl (Item.Before (S := S)) := ⟨Item.not_before_self⟩
      have antisymm : Std.Antisymm (Item.Before (S := S)) := ⟨fun _ _ h h' => absurd h' h.asymm⟩
      refine sorted'.eq_of_mem_iff sorted fun item => ?_
      constructor
      · intro mem
        have h := each item mem
        exact mem_verifiedItems.2 ⟨h.mem, h.fits, h.whole, h.next⟩
      · intro mem
        obtain ⟨other, hother, same⟩ := List.mem_map.1 (proposed item mem)
        have equal : other = item := congrArg Move.item same
        rw [← equal]
        exact hother

end Problem

end ShiftReduce
