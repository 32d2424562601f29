/-
  ShiftReduce.Proofs.Branch.Prediction
  ────────────────────────────────
  **WHICH MOVES ARE PROPOSED, AND THAT LOOKING FOR THEM CHANGES NOTHING.**

  An item matches a branch if the stack shows its rule up to the dot and what
  it calls for can be done.  Prediction never inspects a sole candidate and
  stops inspecting early, so it may propose items that do not match; but it
  proposes every item that does.

  Main statements: `ofItem_mem_nextMoves` (items that match are proposed),
  `nextMoves_of_ne_nil` (what is known of every proposal, and that the branch is
  as it was) and `isOver_of_nextMoves_eq_nil`.
-/
import ShiftReduce.Branch.Prediction
import ShiftReduce.Proofs.Branch.Operations
import ShiftReduce.Proofs.Grammar.Items

namespace ShiftReduce

variable {S : Type} [DecidableEq S] [GrammarSymbol S]

/-! ## §1. Items and the kinds on the stack. -/

namespace Item

omit [DecidableEq S]

/-- The kinds on the stack, top first, begin with the rule up to the dot, read backwards. -/
def Fits (item : Item S) (kinds : List S) : Prop :=
  (item.rule.rhs.take item.span).reverse <+: kinds

/-- What the item expects from a distance on is what the given kinds begin with. -/
def Agrees (item : Item S) (distance : Nat) (kinds : List S) : Prop :=
  ∀ offset symbol, item.symbolAt? (distance + offset) = some symbol → kinds[offset]? = some symbol

theorem Agrees.head {item : Item S} {distance : Nat} {kind : S} {kinds : List S}
    (h : item.Agrees distance (kind :: kinds)) :
    item.symbolAt? distance = none ∨ item.symbolAt? distance = some kind := by
  cases hsymbol : item.symbolAt? distance with
  | none => exact .inl rfl
  | some symbol =>
    have := h 0 symbol hsymbol
    simp only [List.getElem?_cons_zero] at this
    exact .inr this.symm

theorem Agrees.tail {item : Item S} {distance : Nat} {kind : S} {kinds : List S}
    (h : item.Agrees distance (kind :: kinds)) : item.Agrees (distance + 1) kinds := by
  intro offset symbol hsymbol
  rw [Nat.add_assoc, Nat.add_comm 1 offset] at hsymbol
  exact h (offset + 1) symbol hsymbol

theorem Agrees.symbolAt?_eq_none {item : Item S} {distance : Nat} (h : item.Agrees distance []) :
    item.symbolAt? distance = none := by
  cases hsymbol : item.symbolAt? distance with
  | none => rfl
  | some symbol => cases h 0 symbol hsymbol

theorem Fits.agrees {item : Item S} {kinds : List S} (position : item.position < item.rule.rhs.length)
    (h : item.Fits kinds) : item.Agrees 1 kinds := by
  intro offset symbol hsymbol
  obtain ⟨rest, rfl⟩ := h
  simp only [symbolAt?] at hsymbol
  split at hsymbol
  · cases hsymbol
  · next near =>
    -- Read from the dot backwards, the rule up to the dot is indexed by the distance.
    have hlength : (item.rule.rhs.take item.span).length = item.position + 1 := by
      rw [List.length_take, span]
      omega
    rw [List.getElem?_append_left (by rw [List.length_reverse, hlength]; omega),
      List.getElem?_reverse (by rw [hlength]; omega), hlength, List.getElem?_take_of_lt (by
        rw [span]; omega), ← hsymbol]
    congr 1
    omega

theorem Fits.span_le {item : Item S} {kinds : List S} (position : item.position < item.rule.rhs.length)
    (h : item.Fits kinds) : item.span ≤ kinds.length := by
  have hlength := h.length_le
  rw [List.length_reverse, List.length_take] at hlength
  have hspan : item.span = item.position + 1 := rfl
  omega

end Item

/-! ## §2. The inspection. -/

namespace Inspection

/-- Popping for an inspection is undone by a rollback. -/
theorem rollback_run (inspection : Inspection S) (items popped : List (Token S)) :
    (inspection.run items popped).2.rollback = ⟨popped.reverse ++ items, []⟩ := by
  induction items generalizing inspection popped with
  | nil => rfl
  | cons top items ih =>
    rw [run]
    split
    · rfl
    · rw [ih, List.reverse_cons, List.append_assoc]
      rfl

omit [DecidableEq S] in
theorem mem_settled_settle {inspection : Inspection S} {item : Item S} :
    item ∈ inspection.settle.settled ↔
      item ∈ inspection.settled ∨
        item ∈ inspection.live ∧ item.symbolAt? inspection.distance = none := by
  simp [settle, List.mem_filter]

omit [DecidableEq S] in
theorem mem_live_settle {inspection : Inspection S} {item : Item S} :
    item ∈ inspection.settle.live ↔
      item ∈ inspection.live ∧ (item.symbolAt? inspection.distance).isSome = true := by
  simp [settle, List.mem_filter]

/-- Items that agree with the rest of the stack are among the solutions. -/
theorem mem_solutions_run {inspection : Inspection S} {items popped : List (Token S)} {item : Item S}
    (h : item ∈ inspection.settled ∨
      item ∈ inspection.live ∧ item.Agrees inspection.distance (items.map Token.kind)) :
    item ∈ (inspection.run items popped).1.solutions := by
  induction items generalizing inspection popped with
  | nil =>
    -- At the bottom of the stack an agreeing item expects nothing more.
    have settled : item ∈ inspection.settle.settled := by
      refine mem_settled_settle.2 (h.imp id ?_)
      intro live
      exact ⟨live.1, live.2.symbolAt?_eq_none⟩
    rw [run]
    dsimp only
    split
    · exact List.mem_append_left _ settled
    · exact List.mem_append_left _ settled
  | cons top items ih =>
    -- The item is settled here, or expects just the kind on top of the rest.
    have kept : item ∈ inspection.settle.settled ∨
        item ∈ inspection.settle.live ∧ item.symbolAt? inspection.distance = some top.kind ∧
          item.Agrees (inspection.distance + 1) (items.map Token.kind) := by
      rcases h with settled | ⟨live, agrees⟩
      · exact .inl (mem_settled_settle.2 (.inl settled))
      · rcases agrees.head with deepest | deeper
        · exact .inl (mem_settled_settle.2 (.inr ⟨live, deepest⟩))
        · exact .inr ⟨mem_live_settle.2 ⟨live, by rw [deeper]; rfl⟩, deeper, agrees.tail⟩
    rw [run]
    split
    · rcases kept with settled | ⟨live, _⟩
      · exact List.mem_append_left _ settled
      · exact List.mem_append_right _ live
    · refine ih (kept.imp id ?_)
      intro live
      exact ⟨List.mem_filter.2 ⟨live.1, decide_eq_true live.2.1⟩, live.2.2⟩

omit [DecidableEq S] in
/-- Settling only sorts the items inspected. -/
theorem of_mem_settle {inspection : Inspection S} {item : Item S}
    (h : item ∈ inspection.settle.settled ∨ item ∈ inspection.settle.live) :
    item ∈ inspection.settled ∨ item ∈ inspection.live := by
  rcases h with settled | live
  · exact (mem_settled_settle.1 settled).imp id And.left
  · exact .inr (mem_live_settle.1 live).1

/-- The solutions are among the items inspected. -/
theorem of_mem_solutions_run {inspection : Inspection S} {items popped : List (Token S)}
    {item : Item S} (h : item ∈ (inspection.run items popped).1.solutions) :
    item ∈ inspection.settled ∨ item ∈ inspection.live := by
  induction items generalizing inspection popped with
  | nil =>
    rw [run] at h
    dsimp only at h
    split at h
    · exact of_mem_settle (List.mem_append.1 h)
    · exact of_mem_settle ((List.mem_append.1 h).imp id fun live => absurd live List.not_mem_nil)
  | cons top items ih =>
    rw [run] at h
    split at h
    · exact of_mem_settle (List.mem_append.1 h)
    · exact of_mem_settle ((ih h).imp id fun live => (List.mem_filter.1 live).1)

end Inspection

/-! ## §3. Prediction. -/

namespace Problem

/-- The top of the stack knows which token comes next. -/
def Linked (problem : Problem S) (trees : List (Token S)) (cursor : Nat) : Prop :=
  ∀ top, trees.head? = some top →
    top.label.next = if cursor < problem.stream.size then some cursor else none

theorem Linked.lookaheadKind? {problem : Problem S} {top : Token S} {rest : List (Token S)}
    {cursor : Nat} (h : problem.Linked (top :: rest) cursor) :
    top.lookaheadKind? problem.stream = problem.stream.lexemes[cursor]?.map Lexeme.kind := by
  rw [Token.lookaheadKind?, Token.lookahead?, h top rfl]
  split
  · rw [Option.bind_some, TokenStream.get?, Option.map_map]
    rfl
  · next beyond =>
    rw [List.getElem?_eq_none (by simpa [TokenStream.size] using beyond)]
    rfl

/-- The item is one of the top of the stack, its rule up to the dot is on the
stack, and what it calls for can be done: to accept, it covers the whole stack
and no token is left; to shift, the next token is one of its lookaheads. -/
structure Matches (problem : Problem S) (branch : Branch S) (item : Item S) : Prop where
  mem : ∃ top, branch.stack.items.head? = some top ∧ item ∈ problem.table.items top.kind
  fits : item.Fits (branch.stack.items.map Token.kind)
  whole : item.action = .accept →
    item.span = branch.stack.size ∧ branch.cursor = problem.stream.size
  next : item.action = .shift →
    ∃ lexeme, problem.stream.lexemes[branch.cursor]? = some lexeme ∧ lexeme.kind ∈ item.lookaheads

theorem mem_candidates {problem : Problem S} {branch : Branch S} {depth : Nat}
    {items : List (Item S)} {item : Item S} :
    item ∈ problem.candidates branch depth items ↔
      item ∈ items ∧ item.span ≤ depth ∧
        (item.action = .accept → item.span = depth ∧ branch.cursor = problem.stream.size) := by
  simp only [candidates, List.mem_filter, Bool.and_eq_true, decide_eq_true_eq, Bool.or_eq_true,
    Bool.not_eq_true', Item.isAccept, decide_eq_false_iff_not]
  constructor
  · intro h
    exact ⟨h.1, h.2.1, fun accepting => h.2.2.resolve_left fun other => other accepting⟩
  · intro h
    refine ⟨h.1, h.2.1, ?_⟩
    by_cases accepting : item.action = .accept
    · exact .inr (h.2.2 accepting)
    · exact .inl accepting

end Problem

/-- The branch has only been looked at: what it considers has been noted, and
all that has been popped can be put back. -/
def Branch.Peeked (before after : Branch S) : Prop :=
  ∃ considered stack, after = { before.consider considered with stack } ∧
    stack.rollback = before.stack.rollback

namespace Problem

variable {problem : Problem S} {branch : Branch S}

theorem peeked_disambiguate (branch : Branch S) (top : Token S) (lookahead : Option S)
    (candidates : List (Item S)) : branch.Peeked (disambiguate branch top lookahead candidates).1 := by
  unfold disambiguate
  dsimp only
  split
  · exact ⟨branch.diagnostics.considered, branch.stack, rfl, rfl⟩
  · split
    · exact ⟨branch.diagnostics.considered, _, rfl, Inspection.rollback_run _ _ _⟩
    · exact ⟨_, _, rfl, Inspection.rollback_run _ _ _⟩

/-- Among several candidates only candidates are chosen, and at least one. -/
theorem of_disambiguate_ok {top : Token S} {lookahead : Option S} {candidates : List (Item S)}
    {moves : List (Move S)} (h : (disambiguate branch top lookahead candidates).2 = .ok moves) :
    moves ≠ [] ∧ ∀ move ∈ moves, ∃ item ∈ candidates, move = Move.ofItem item := by
  unfold disambiguate at h
  dsimp only at h
  split at h
  · cases h
  · split at h
    · cases h
    · next solved =>
      cases h
      constructor
      · intro none
        exact solved (by rw [List.map_eq_nil_iff.1 none]; rfl)
      · intro move hmove
        obtain ⟨item, hitem, rfl⟩ := List.mem_map.1 hmove
        rcases Inspection.of_mem_solutions_run hitem with settled | live
        · exact absurd settled List.not_mem_nil
        · exact ⟨item, (List.mem_filter.1 live).1, rfl⟩

/-- A candidate that admits the next token and agrees with the stack is chosen. -/
theorem disambiguate_of_agrees {top : Token S} {lookahead : Option S} {candidates : List (Item S)}
    {item : Item S} (mem : item ∈ candidates) (admits : item.admits lookahead = true)
    (agrees : item.Agrees 2 (branch.stack.items.map Token.kind)) :
    ∃ moves, (disambiguate branch top lookahead candidates).2 = .ok moves ∧
      Move.ofItem item ∈ moves := by
  have live : item ∈ candidates.filter fun item => item.admits lookahead :=
    List.mem_filter.2 ⟨mem, admits⟩
  have solution : item ∈ ((Inspection.ofItems (candidates.filter fun item => item.admits lookahead)).run
      branch.stack.items branch.stack.popped).1.solutions :=
    Inspection.mem_solutions_run (.inr ⟨live, agrees⟩)
  unfold disambiguate
  dsimp only
  rw [if_neg (by simp [List.ne_nil_of_mem live]), if_neg (by simp [List.ne_nil_of_mem solution])]
  exact ⟨_, rfl, List.mem_map.2 ⟨item, solution, rfl⟩⟩

theorem peeked_predict (problem : Problem S) (branch : Branch S) :
    branch.Peeked (problem.predict branch).1 := by
  unfold predict
  dsimp only
  split
  · exact ⟨branch.diagnostics.considered, branch.stack, rfl, rfl⟩
  · next top stack pop =>
    have popped : stack.rollback = branch.stack.rollback := UndoStack.rollback_of_pop? pop
    split
    · exact ⟨branch.diagnostics.considered, stack, rfl, popped⟩
    · split
      · split
        · exact ⟨_, stack, rfl, popped⟩
        · exact ⟨_, stack, rfl, popped⟩
      · exact ⟨_, stack, rfl, popped⟩
      · obtain ⟨considered, inspected, hbranch, hstack⟩ :=
          peeked_disambiguate ({ branch with stack }.consider
            (problem.candidates branch branch.stack.size (problem.table.items top.kind))) top
            (top.lookaheadKind? problem.stream)
            (problem.candidates branch branch.stack.size (problem.table.items top.kind))
        rw [hbranch]
        exact ⟨considered, inspected, rfl, hstack.trans popped⟩

/-- What is proposed are candidates of the top of the stack, at least one. -/
theorem of_predict_ok {moves : List (Move S)} (h : (problem.predict branch).2 = .ok moves) :
    moves ≠ [] ∧ ∃ top rest, branch.stack.items = top :: rest ∧
      ∀ move ∈ moves, ∃ item ∈
        problem.candidates branch branch.stack.size (problem.table.items top.kind),
          move = Move.ofItem item := by
  unfold predict at h
  dsimp only at h
  split at h
  · cases h
  · next top stack pop =>
    have items : branch.stack.items = top :: stack.items := UndoStack.items_of_pop? pop
    split at h
    · cases h
    · split at h
      · split at h
        · cases h
        · cases h
      · next item sole =>
        cases h
        refine ⟨List.cons_ne_nil _ _, top, stack.items, items, ?_⟩
        intro move hmove
        rw [sole]
        exact ⟨item, List.mem_singleton.2 rfl, List.mem_singleton.1 hmove⟩
      · obtain ⟨nonempty, chosen⟩ := of_disambiguate_ok h
        exact ⟨nonempty, top, stack.items, items, chosen⟩

/-- An item that matches is proposed, be it as the sole candidate or as one of several. -/
theorem predict_of_matches {item : Item S}
    (linked : problem.Linked branch.stack.items branch.cursor) (h : problem.Matches branch item) :
    ∃ moves, (problem.predict branch).2 = .ok moves ∧ Move.ofItem item ∈ moves := by
  obtain ⟨top, hhead, hitem⟩ := h.mem
  obtain ⟨rest, hrest⟩ : ∃ rest, branch.stack.items = top :: rest := by
    cases hitems : branch.stack.items with
    | nil =>
      rw [hitems] at hhead
      cases hhead
    | cons first rest =>
      rw [hitems] at hhead
      cases hhead
      exact ⟨rest, rfl⟩
  obtain ⟨rule, hrule, position, hsymbol, rfl⟩ := DecisionTable.mem_items.1 hitem
  have hposition : position < rule.rhs.length := (List.getElem?_eq_some_iff.1 hsymbol).1
  -- It passes the checks by which candidates are picked from the items of the top.
  have candidate : problem.table.rules.itemAt rule position ∈
      problem.candidates branch branch.stack.size (problem.table.items top.kind) := by
    refine mem_candidates.2 ⟨hitem, ?_, h.whole⟩
    have := h.fits.span_le hposition
    rwa [List.length_map] at this
  -- And it would survive the inspection, which begins below the top.
  have agrees : (problem.table.rules.itemAt rule position).Agrees 2 (rest.map Token.kind) := by
    have := h.fits.agrees hposition
    rw [hrest, List.map_cons] at this
    exact this.tail
  have admits : (problem.table.rules.itemAt rule position).admits
      (top.lookaheadKind? problem.stream) = true := by
    rw [hrest] at linked
    rw [linked.lookaheadKind?]
    unfold Item.admits
    split
    · next action =>
      obtain ⟨lexeme, hlexeme, hkind⟩ := h.next action
      rw [hlexeme, Option.map_some, Option.any_some]
      exact decide_eq_true hkind
    · rfl
    · rfl
  have pop : branch.stack.pop? = some (top, ⟨rest, top :: branch.stack.popped⟩) := by
    rw [UndoStack.pop?, hrest]
  unfold predict
  dsimp only
  rw [pop]
  dsimp only
  rw [if_neg (by simp [List.ne_nil_of_mem hitem])]
  split
  · next none =>
    rw [none] at candidate
    exact absurd candidate List.not_mem_nil
  · next sole hsole =>
    rw [hsole, List.mem_singleton] at candidate
    rw [candidate]
    exact ⟨_, rfl, List.mem_singleton.2 rfl⟩
  · exact disambiguate_of_agrees candidate admits agrees

/-! ## §4. The next moves. -/

theorem nextMoves_of_isOver (h : branch.isOver = true) : problem.nextMoves branch = ([], branch) := by
  rw [nextMoves, if_pos h]

/-- The stack is restored, and the branch has failed if nothing is proposed. -/
theorem nextMoves_of_going (problem : Problem S) (clean : branch.stack.popped = [])
    (going : branch.isOver = false) :
    ∃ considered, problem.nextMoves branch =
      match (problem.predict (branch.enter .predict)).2 with
      | .ok moves => (moves, (branch.enter .predict).consider considered)
      | .error error => ([], ((branch.enter .predict).consider considered).fail error) := by
  obtain ⟨considered, stack, hbranch, hstack⟩ := peeked_predict problem (branch.enter .predict)
  refine ⟨considered, ?_⟩
  have restored : stack.rollback = branch.stack := by
    rw [hstack, Branch.stack_enter, UndoStack.rollback_of_clean clean]
  rw [nextMoves, if_neg (by simp [going])]
  dsimp only
  rw [hbranch]
  dsimp only
  rw [restored]
  rfl

/-- Where moves are proposed, the branch is the same but for its notes, and
every move follows an item of the top of the stack that the stack is deep enough for. -/
theorem nextMoves_of_ne_nil (clean : branch.stack.popped = [])
    (h : (problem.nextMoves branch).1 ≠ []) :
    (∃ considered, (problem.nextMoves branch).2 = (branch.enter .predict).consider considered) ∧
      ∃ top rest, branch.stack.items = top :: rest ∧
        ∀ move ∈ (problem.nextMoves branch).1, ∃ item ∈
          problem.candidates branch branch.stack.size (problem.table.items top.kind),
            move = Move.ofItem item := by
  cases going : branch.isOver with
  | true =>
    rw [nextMoves_of_isOver going] at h
    exact absurd rfl h
  | false =>
    obtain ⟨considered, hnext⟩ := nextMoves_of_going problem clean going
    cases hpredict : (problem.predict (branch.enter .predict)).2 with
    | error error =>
      rw [hnext, hpredict] at h
      exact absurd rfl h
    | ok moves =>
      rw [hpredict] at hnext
      rw [hnext]
      exact ⟨⟨considered, rfl⟩, (of_predict_ok hpredict).2⟩

/-- What is proposed follows an item with its dot on the top of the stack, which
the stack is deep enough for, and which covers the whole stack with no token
left if it is accepting. -/
theorem of_mem_nextMoves {move : Move S} (clean : branch.stack.popped = [])
    (h : move ∈ (problem.nextMoves branch).1) :
    ∃ top rest, branch.stack.items = top :: rest ∧
      ∃ rule ∈ problem.table.rules.toList, ∃ position, rule.rhs[position]? = some top.kind ∧
        move = .ofItem (problem.table.rules.itemAt rule position) ∧
        position + 1 ≤ branch.stack.items.length ∧
        ((problem.table.rules.itemAt rule position).action = .accept →
          position + 1 = branch.stack.items.length ∧ branch.cursor = problem.stream.size) := by
  obtain ⟨_, top, rest, hitems, chosen⟩ := nextMoves_of_ne_nil clean (List.ne_nil_of_mem h)
  obtain ⟨item, hcandidate, rfl⟩ := chosen move h
  obtain ⟨hitem, deep, whole⟩ := mem_candidates.1 hcandidate
  obtain ⟨rule, hrule, position, hsymbol, rfl⟩ := DecisionTable.mem_items.1 hitem
  exact ⟨top, rest, hitems, rule, hrule, position, hsymbol, rfl, deep, whole⟩

/-- Nothing is proposed on an empty stack. -/
theorem items_ne_nil_of_mem_nextMoves {move : Move S} (clean : branch.stack.popped = [])
    (h : move ∈ (problem.nextMoves branch).1) : branch.stack.items ≠ [] := by
  obtain ⟨_, _, hitems, _⟩ := of_mem_nextMoves clean h
  rw [hitems]
  exact List.cons_ne_nil _ _

/-- What is proposed follows an item of the table. -/
theorem exists_item_of_mem_nextMoves {move : Move S} (clean : branch.stack.popped = [])
    (h : move ∈ (problem.nextMoves branch).1) :
    ∃ symbol, ∃ item ∈ problem.table.items symbol, move = .ofItem item := by
  obtain ⟨top, _, _, rule, hrule, position, hsymbol, same, _⟩ := of_mem_nextMoves clean h
  exact ⟨top.kind, _, DecisionTable.mem_items.2 ⟨rule, hrule, position, hsymbol, rfl⟩, same⟩

/-- Where nothing is proposed, the branch was over or has failed now. -/
theorem isOver_of_nextMoves_eq_nil (clean : branch.stack.popped = [])
    (h : (problem.nextMoves branch).1 = []) :
    branch.isOver = true ∨ (problem.nextMoves branch).2.error.isSome = true := by
  cases going : branch.isOver with
  | true => exact .inl rfl
  | false =>
    refine .inr ?_
    obtain ⟨considered, hnext⟩ := nextMoves_of_going problem clean going
    cases hpredict : (problem.predict (branch.enter .predict)).2 with
    | error error =>
      rw [hnext, hpredict]
      exact Branch.isSome_error_fail _ error
    | ok moves =>
      rw [hnext, hpredict] at h
      exact absurd h (of_predict_ok hpredict).1

/-- Items that match are proposed. -/
theorem ofItem_mem_nextMoves {item : Item S} (clean : branch.stack.popped = [])
    (going : branch.isOver = false) (linked : problem.Linked branch.stack.items branch.cursor)
    (h : problem.Matches branch item) : Move.ofItem item ∈ (problem.nextMoves branch).1 := by
  have h' : problem.Matches (branch.enter .predict) item := ⟨h.mem, h.fits, h.whole, h.next⟩
  have linked' : problem.Linked (branch.enter .predict).stack.items (branch.enter .predict).cursor :=
    linked
  obtain ⟨moves, hpredict, hmem⟩ := predict_of_matches linked' h'
  obtain ⟨considered, hnext⟩ := nextMoves_of_going problem clean going
  rw [hnext, hpredict]
  exact hmem

end Problem

end ShiftReduce
