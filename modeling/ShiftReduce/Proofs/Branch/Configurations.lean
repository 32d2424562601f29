/-
  ShiftReduce.Proofs.Branch.Configurations
  ────────────────────────────────
  **BRANCHES, BY WHAT THEY SHOW.**

  Which moves a branch makes depends on the kinds of the trees on its stack and on
  the kinds of the tokens to come.  For a grammar that one knows, the way of a branch
  can be followed on these two lists, with no tree and no token in sight.  This is for
  tables that have accepting items, and for searches without a bound on the moves.

  Main statements: `Clears.shift`, `Clears.reduce`, `clears_of_accept` and
  `Clears.fork`: how a configuration is cleared, if the one after it is.
-/
import ShiftReduce.Proofs.Branch.Completeness
import ShiftReduce.Proofs.Branch.Verified
import ShiftReduce.Proofs.Search.SingleSuccess

namespace ShiftReduce

variable {S : Type} [DecidableEq S] [GrammarSymbol S]

namespace Problem

variable {problem : Problem S} {branch : Branch S} {rule : Rule S} {kinds below rest : List S}

/-! ## §1. What a branch displays. -/

/-- The branch goes on, has trees of these kinds on its stack, top first, and tokens
of those kinds to come. -/
def Displays (problem : Problem S) (branch : Branch S) (kinds rest : List S) : Prop :=
  ∃ trees cursor, problem.Ready branch trees cursor ∧ cursor ≤ problem.stream.size ∧
    trees.map Token.kind = kinds ∧ (problem.stream.lexemes.drop cursor).map Lexeme.kind = rest

theorem Displays.going (displays : problem.Displays branch kinds rest) : branch.isOver = false := by
  obtain ⟨_, _, ready, _⟩ := displays
  exact ready.going

theorem Displays.clean (displays : problem.Displays branch kinds rest) : branch.stack.popped = [] := by
  obtain ⟨_, _, ready, _⟩ := displays
  exact ready.clean

theorem Displays.linked (displays : problem.Displays branch kinds rest) :
    problem.Linked branch.stack.items branch.cursor := by
  obtain ⟨_, _, ready, _⟩ := displays
  rw [ready.stands.stack, ready.stands.cursor]
  exact ready.linked

theorem Displays.kinds_eq (displays : problem.Displays branch kinds rest) :
    branch.stack.items.map Token.kind = kinds := by
  obtain ⟨_, _, ready, _, same, _⟩ := displays
  rw [ready.stands.stack]
  exact same

/-- At the beginning the first token is on the stack. -/
theorem displays_start (typed : problem.Typed) {first : S} (h : problem.stream.kinds = first :: rest) :
    problem.Displays problem.start [first] rest := by
  obtain ⟨lexeme, lexemes, hlexemes, rfl, rfl⟩ := List.map_eq_cons_iff.1 h
  obtain ⟨token, hget, ready⟩ := ready_start typed hlexemes
  obtain ⟨found, hfound, leaf, _⟩ := TokenStream.get?_eq_some hget
  rw [hlexemes, List.getElem?_cons_zero, Option.some.injEq] at hfound
  subst hfound
  refine ⟨[token], 1, ready, ?_, ?_, ?_⟩
  · rw [TokenStream.size, hlexemes]
    exact Nat.succ_le_succ (Nat.zero_le _)
  · rw [List.map_singleton, ← Token.kind_erase, leaf]
    rfl
  · rw [hlexemes]
    rfl

/-- What is shown on top of the stack, and what is shown below it, are trees of these kinds. -/
theorem Displays.split {shown : List S} (displays : problem.Displays branch (shown.reverse ++ below) rest) :
    ∃ (children others : List (Token S)) (cursor : Nat),
      problem.Ready branch (children.reverse ++ others) cursor ∧ cursor ≤ problem.stream.size ∧
      children.map Token.kind = shown ∧ others.map Token.kind = below ∧
      (problem.stream.lexemes.drop cursor).map Lexeme.kind = rest := by
  obtain ⟨_, cursor, ready, within, hkinds, hrest⟩ := displays
  obtain ⟨front, others, rfl, hfront, hothers⟩ := List.map_eq_append_iff.1 hkinds
  refine ⟨front.reverse, others, cursor, ?_, within, ?_, hothers, hrest⟩
  · rw [List.reverse_reverse]
    exact ready
  · rw [List.map_reverse, hfront, List.reverse_reverse]

/-- The next token is shifted if a rule is shown up to the dot and the token can begin
what the rule goes on with. -/
theorem Displays.shift {shown later : List S} {next symbol : S}
    (displays : problem.Displays branch (shown.reverse ++ below) (next :: rest))
    (hrule : rule ∈ problem.table.rules.toList) (some : shown ≠ [])
    (rhs : rule.rhs = shown ++ symbol :: later) (opens : next ∈ problem.table.rules.first symbol) :
    ∃ after, problem.Leads 1 branch after ∧
      problem.Displays after (next :: (shown.reverse ++ below)) rest := by
  obtain ⟨children, others, cursor, ready, _, rfl, rfl, hrest⟩ := displays.split
  obtain ⟨lexeme, left, hdrop, rfl, rfl⟩ := List.map_eq_cons_iff.1 hrest
  obtain ⟨token, hget, leaf⟩ := get?_of_drop hdrop
  have kind : token.kind = lexeme.kind := by
    rw [← Token.kind_erase, leaf]
    rfl
  have within : cursor < problem.stream.size := by
    refine Nat.lt_of_not_le fun ended => ?_
    rw [TokenStream.get?_eq_none_iff.2 ended] at hget
    cases hget
  rw [← kind] at opens
  obtain ⟨after, leads, ready⟩ := ready.shift hrule (mt List.map_eq_nil_iff.2 some) rhs hget opens
  refine ⟨after, leads, _, _, ready, within, ?_, ?_⟩
  · rw [List.map_cons, List.map_append, List.map_reverse, kind]
  · rw [← List.drop_drop, hdrop]
    rfl

/-- The right-hand side of a rule on top of the stack is replaced by its left-hand side. -/
theorem Displays.reduce (explicit : problem.table.acceptsExplicitly = true)
    (displays : problem.Displays branch (rule.rhs.reverse ++ below) rest)
    (hrule : rule ∈ problem.table.rules.toList) (inner : rule.isTerminating = false)
    (follows : problem.table.canFollow below.head? rule.lhs = true) :
    ∃ after, problem.Leads 1 branch after ∧ problem.Displays after (rule.lhs :: below) rest := by
  obtain ⟨children, others, cursor, ready, within, kinds, rfl, hrest⟩ := displays.split
  rw [List.head?_map] at follows
  obtain ⟨moved, leads, stands, linked⟩ := ready.contract hrule kinds follows fun terminating => by
    rw [inner] at terminating
    cases terminating
  rw [inner] at stands
  -- Only without accepting items could the branch be over after a reduction.
  rcases stands_complete stands with going | ⟨_, implicit, _⟩
  · exact ⟨_, leads, _, cursor, ⟨going, linked⟩, within, rfl, hrest⟩
  · rw [explicit] at implicit
    cases implicit

/-- The right-hand side of an accepting rule that is all of the stack is accepted once
no token is left. -/
theorem Displays.accept (displays : problem.Displays branch rule.rhs.reverse [])
    (hrule : rule ∈ problem.table.rules.toList) (terminating : rule.isTerminating = true)
    (follows : problem.table.canFollow none rule.lhs = true) :
    ∃ after tree, problem.Leads 1 branch after ∧ after.isOver = true ∧ after.result = ⟨[tree], none⟩ := by
  rw [← List.append_nil rule.rhs.reverse] at displays
  obtain ⟨children, others, cursor, ready, within, kinds, hothers, hrest⟩ := displays.split
  obtain rfl := List.map_eq_nil_iff.1 hothers
  have consumed : cursor = problem.stream.size :=
    Nat.le_antisymm within (List.drop_eq_nil_iff.1 (List.map_eq_nil_iff.1 hrest))
  obtain ⟨moved, leads, stands, _⟩ := ready.contract hrule kinds follows fun _ => ⟨rfl, consumed⟩
  rw [terminating] at stands
  have done : (problem.complete moved).Stands [Token.reduce rule.lhs children] cursor true :=
    stands_complete_of_done stands
  refine ⟨_, (Token.reduce rule.lhs children).erase, leads, ?_, ?_⟩
  · rw [Branch.isOver, done.done, Bool.true_or]
  · rw [Branch.result, done.error, done.stack]
    rfl

/-! ## §2. Which moves are proposed. -/

theorem Leads.advances {after : Branch S} (leads : problem.Leads 1 branch after) :
    ∃ move, problem.Advances branch move after := by
  cases leads with
  | snoc first advances =>
    cases first
    exact ⟨_, advances⟩

/-- An item that matches can go on when the next token comes. -/
theorem Displays.admits {top : S} {item : Item S} (displays : problem.Displays branch (top :: kinds) rest)
    (matched : problem.Matches branch item) :
    item ∈ (problem.table.items top).filter fun item => item.admits rest.head? := by
  obtain ⟨trees, cursor, ready, _, hkinds, rfl⟩ := displays
  obtain ⟨found, _, rfl, rfl, _⟩ := List.map_eq_cons_iff.1 hkinds
  obtain ⟨other, hother, mem⟩ := matched.mem
  rw [ready.stands.stack, List.head?_cons, Option.some.injEq] at hother
  subst hother
  refine List.mem_filter.2 ⟨mem, ?_⟩
  unfold Item.admits
  cases haction : item.action with
  | shift =>
    obtain ⟨lexeme, hlexeme, admitted⟩ := matched.next haction
    rw [ready.stands.cursor] at hlexeme
    rw [List.head?_map, List.head?_drop, hlexeme]
    exact decide_eq_true admitted
  | reduce => rfl
  | accept => rfl

/-- The items that match are no more than those that can match. -/
theorem length_verifiedItems_le {candidates : List (Item S)}
    (covers : ∀ item, problem.Matches branch item → item ∈ candidates) :
    (problem.verifiedItems branch).length ≤ candidates.length := by
  have apart : (problem.verifiedItems branch).Nodup := by
    refine (pairwise_verifiedItems problem branch).imp ?_
    intro first second before same
    rw [same] at before
    exact second.not_before_self before
  exact (List.subperm_of_subset apart fun item mem => covers item (mem_verifiedItems.1 mem)).length_le

/-- Where no more than one item matches, a move that goes through is the only one. -/
theorem Displays.sole {move : Move S} {after : Branch S} (displays : problem.Displays branch kinds rest)
    (few : (problem.verifiedItems branch).length ≤ 1) (advances : problem.Advances branch move after) :
    (problem.nextMoves branch).1 = [move] := by
  have proposed := List.length_pos_of_mem advances.proposed
  -- With several moves, they would be those of the items that match, of which there are not as many.
  have alone : (problem.nextMoves branch).1.length ≤ 1 := by
    by_contra several
    have some := verifiedItems_ne_nil displays.going displays.clean displays.linked
      (Nat.lt_of_not_le several)
    rw [nextMoves_eq_verified displays.clean displays.going displays.linked some, List.length_map] at several
    exact several few
  obtain ⟨only, honly⟩ := List.length_eq_one_iff.1 (Nat.le_antisymm alone proposed)
  have mem := advances.proposed
  rw [honly, List.mem_singleton] at mem
  rw [honly, mem]

/-- If just two items match, both of their moves are proposed, that of the shorter item first. -/
theorem Displays.two {first second : Item S} (displays : problem.Displays branch kinds rest)
    (covers : ∀ item, problem.Matches branch item ↔ item = first ∨ item = second)
    (before : first.Before second) :
    (problem.nextMoves branch).1 = [.ofItem first, .ofItem second] := by
  have mem : ∀ item, item ∈ problem.verifiedItems branch ↔ item ∈ [first, second] := by
    intro item
    rw [mem_verifiedItems, covers, List.mem_cons, List.mem_singleton]
  have some := List.ne_nil_of_mem ((mem first).2 List.mem_cons_self)
  rw [nextMoves_eq_verified displays.clean displays.going displays.linked some]
  have irrefl : Std.Irrefl (Item.Before (S := S)) := ⟨Item.not_before_self⟩
  have antisymm : Std.Antisymm (Item.Before (S := S)) := ⟨fun _ _ h h' => absurd h' h.asymm⟩
  have sorted : [first, second].Pairwise Item.Before := List.pairwise_pair.2 before
  rw [(pairwise_verifiedItems problem branch).eq_of_mem_iff sorted fun {item} => mem item]
  rfl

/-- The last item of a rule matches where the stack shows its right-hand side. -/
theorem Displays.matches_last {position : Nat}
    (displays : problem.Displays branch (rule.rhs.reverse ++ below) rest)
    (hrule : rule ∈ problem.table.rules.toList) (inner : rule.isTerminating = false)
    (last : position + 1 = rule.rhs.length) :
    problem.Matches branch (problem.table.rules.itemAt rule position) := by
  obtain ⟨trees, cursor, ready, _, hkinds, _⟩ := displays
  have action : (problem.table.rules.itemAt rule position).action = .reduce :=
    RuleSet.action_itemAt_eq_reduce.2 ⟨Nat.le_of_eq last.symm, inner⟩
  obtain ⟨symbol, hsymbol⟩ : ∃ symbol, rule.rhs[position]? = some symbol :=
    ⟨_, List.getElem?_eq_getElem (by omega)⟩
  -- The top of the stack is the last symbol of the right-hand side, where the dot is.
  have head : trees.head?.map Token.kind = some symbol := by
    rw [← List.head?_map, hkinds, List.head?_append, List.head?_reverse, List.getLast?_eq_getElem?,
      show rule.rhs.length - 1 = position by omega, hsymbol]
    rfl
  obtain ⟨top, htop, rfl⟩ := Option.map_eq_some_iff.1 head
  constructor
  · rw [ready.stands.stack]
    exact ⟨top, htop, DecisionTable.mem_items.2 ⟨rule, hrule, position, hsymbol, rfl⟩⟩
  · show (rule.rhs.take (position + 1)).reverse <+: _
    rw [last, List.take_length, ready.stands.stack, hkinds]
    exact List.prefix_append _ _
  · intro accepts
    rw [action] at accepts
    cases accepts
  · intro shifts
    rw [action] at shifts
    cases shifts

/-- The move of such an item fails if the left-hand side may not sit there. -/
theorem Displays.refused {position : Nat}
    (displays : problem.Displays branch (rule.rhs.reverse ++ below) rest) (inner : rule.isTerminating = false)
    (last : position + 1 = rule.rhs.length)
    (unfit : problem.table.canFollow below.head? rule.lhs = false) :
    (problem.apply (.ofItem (problem.table.rules.itemAt rule position)) branch).branch.error.isSome = true := by
  have clean := displays.clean
  have alive := (Branch.isOver_eq_false_iff.1 displays.going).2
  obtain ⟨trees, cursor, ready, _, hkinds, _⟩ := displays
  have action : (problem.table.rules.itemAt rule position).action = .reduce :=
    RuleSet.action_itemAt_eq_reduce.2 ⟨Nat.le_of_eq last.symm, inner⟩
  cases herror : (problem.apply (.ofItem (problem.table.rules.itemAt rule position)) branch).error with
  | some error => exact error_of_applyWith herror
  | none =>
    -- A move that went through would have put the left-hand side there.
    obtain ⟨_, _, transition, _⟩ :=
      (apply_eq_success clean alive).1 (Attempt.eq_success_of_error herror)
    rw [ready.stands.stack] at transition
    change problem.Transition (problem.table.rules.itemAt rule position) trees branch.cursor _ _ at transition
    cases transition with
    | shift shifts =>
      rw [action] at shifts
      cases shifts
    | @contract children others _ _ kinds follows _ =>
      have kinds : children.map Token.kind = rule.rhs := kinds
      rw [List.map_append, List.map_reverse, kinds, List.append_cancel_left_eq] at hkinds
      rw [← List.head?_map, hkinds] at follows
      exact absurd (follows.symm.trans unfit) (by decide)

/-! ## §3. Configurations that are cleared. -/

/-- No more than one item matches where this is shown. -/
def Forced (problem : Problem S) (kinds rest : List S) : Prop :=
  ∀ branch, problem.Displays branch kinds rest → (problem.verifiedItems branch).length ≤ 1

/-- Of the branches that go on from where this is shown one is accepted, and there is
one more for each of so many forks. -/
def Clears (problem : Problem S) (kinds rest : List S) (forks : Nat) : Prop :=
  ∀ branch, problem.Displays branch kinds rest → problem.machine.SucceedsOnce branch forks

variable {forks : Nat}

/-- The next token often decides what to do. -/
theorem forced_of_admits {top : S}
    (few : ((problem.table.items top).filter fun item => item.admits rest.head?).length ≤ 1) :
    problem.Forced (top :: kinds) rest :=
  fun _ displays => (length_verifiedItems_le fun _ matched => displays.admits matched).trans few

/-- A symbol that stands in one place only leaves no choice. -/
theorem forced_of_items {top : S} (few : (problem.table.items top).length ≤ 1) :
    problem.Forced (top :: kinds) rest :=
  forced_of_admits ((List.length_filter_le _ _).trans few)

theorem play_of_advances {move : Move S} {after : Branch S} (advances : problem.Advances branch move after) :
    (problem.machine.play branch move).1 = after := by
  show (problem.apply move branch).branch = after
  rw [advances.through]
  rfl

/-- Where one move is forced and leads to a success, it is the only one that does. -/
theorem Forced.succeedsOnce {after : Branch S} (forced : problem.Forced kinds rest)
    (displays : problem.Displays branch kinds rest) (leads : problem.Leads 1 branch after)
    (later : problem.machine.SucceedsOnce after forks) : problem.machine.SucceedsOnce branch forks := by
  obtain ⟨move, advances⟩ := leads.advances
  refine .of_sole problem.machine_lawful displays.clean displays.going
    (displays.sole (forced branch displays) advances) ?_
  rw [play_of_advances advances]
  exact later

/-- A configuration is cleared by a shift if the next token leaves one item at most. -/
theorem Clears.shift {later : List S} {top next symbol : S}
    (clears : problem.Clears (next :: top :: kinds) rest forks) (rule : Rule S) (shown : List S)
    (rhs : rule.rhs = shown ++ top :: symbol :: later) (hrule : rule ∈ problem.table.rules.toList)
    (fits : shown.reverse <+: kinds) (opens : next ∈ problem.table.rules.first symbol)
    (forced : problem.Forced (top :: kinds) (next :: rest)) :
    problem.Clears (top :: kinds) (next :: rest) forks := by
  intro branch displays
  obtain ⟨below, rfl⟩ := fits
  -- The top belongs to what the rule has shown already.
  have shape : top :: (shown.reverse ++ below) = (shown ++ [top]).reverse ++ below := by
    rw [List.reverse_concat, List.cons_append]
  have rhs : rule.rhs = (shown ++ [top]) ++ symbol :: later := by
    rw [rhs, List.append_assoc, List.singleton_append]
  have displays' := displays
  rw [shape] at displays'
  obtain ⟨after, leads, shifted⟩ := displays'.shift hrule (by simp) rhs opens
  rw [← shape] at shifted
  exact forced.succeedsOnce displays leads (clears after shifted)

/-- A configuration is cleared by a reduction if nothing else can be done. -/
theorem Clears.reduce (rule : Rule S) (clears : problem.Clears (rule.lhs :: below) rest forks)
    (explicit : problem.table.acceptsExplicitly = true) (hrule : rule ∈ problem.table.rules.toList)
    (inner : rule.isTerminating = false) (follows : problem.table.canFollow below.head? rule.lhs = true)
    (forced : problem.Forced (rule.rhs.reverse ++ below) rest) :
    problem.Clears (rule.rhs.reverse ++ below) rest forks := by
  intro branch displays
  obtain ⟨after, leads, reduced⟩ := displays.reduce explicit hrule inner follows
  exact forced.succeedsOnce displays leads (clears after reduced)

/-- The configuration that is accepted is cleared without a fork. -/
theorem clears_of_accept (rule : Rule S) (hrule : rule ∈ problem.table.rules.toList)
    (terminating : rule.isTerminating = true) (follows : problem.table.canFollow none rule.lhs = true)
    (forced : problem.Forced rule.rhs.reverse []) :
    problem.Clears rule.rhs.reverse [] 0 := by
  intro branch displays
  obtain ⟨after, tree, leads, ended, result⟩ := displays.accept hrule terminating follows
  exact forced.succeedsOnce displays leads (Machine.succeedsOnce_of_result ended result)

/-- Where the right-hand sides of two rules are shown and no other item matches, and the
left-hand side of the shorter one may not sit there, the longer one clears the
configuration, at the cost of one fork. -/
theorem Clears.fork {shorter longer : Rule S} {deeper : List S} {position position' : Nat}
    (clears : problem.Clears (longer.lhs :: deeper) rest forks)
    (shown : kinds = shorter.rhs.reverse ++ below) (shown' : kinds = longer.rhs.reverse ++ deeper)
    (explicit : problem.table.acceptsExplicitly = true)
    (hshorter : shorter ∈ problem.table.rules.toList) (hlonger : longer ∈ problem.table.rules.toList)
    (inner : shorter.isTerminating = false) (inner' : longer.isTerminating = false)
    (last : position + 1 = shorter.rhs.length) (last' : position' + 1 = longer.rhs.length)
    (less : shorter.rhs.length < longer.rhs.length)
    (unfit : problem.table.canFollow below.head? shorter.lhs = false)
    (follows : problem.table.canFollow deeper.head? longer.lhs = true)
    (covers : ∀ branch, problem.Displays branch kinds rest → ∀ item, problem.Matches branch item →
      item = problem.table.rules.itemAt shorter position ∨ item = problem.table.rules.itemAt longer position') :
    problem.Clears kinds rest (forks + 1) := by
  intro branch displays
  have short : problem.Displays branch (shorter.rhs.reverse ++ below) rest := shown ▸ displays
  have long : problem.Displays branch (longer.rhs.reverse ++ deeper) rest := shown' ▸ displays
  -- Both items match, and the shorter one comes first.
  have two : (problem.nextMoves branch).1 =
      [.ofItem (problem.table.rules.itemAt shorter position),
        .ofItem (problem.table.rules.itemAt longer position')] := by
    refine displays.two (fun item => ⟨covers branch displays item, ?_⟩) (.inl ?_)
    · intro h
      rcases h with rfl | rfl
      · exact short.matches_last hshorter inner last
      · exact long.matches_last hlonger inner' last'
    · show position + 1 < position' + 1
      rw [last, last']
      exact less
  have failed := short.refused inner last unfit
  obtain ⟨after, leads, reduced⟩ := long.reduce explicit hlonger inner' follows
  obtain ⟨move, advances⟩ := leads.advances
  have live : move = .ofItem (problem.table.rules.itemAt longer position') := by
    have proposed := advances.proposed
    rw [two, List.mem_cons, List.mem_singleton] at proposed
    refine proposed.resolve_left fun same => ?_
    -- The move of the shorter rule fails, so it is not the one that goes through.
    rw [same] at advances
    rw [advances.through] at failed
    rw [show (Attempt.success after).branch.error = none from
      (Branch.isOver_eq_false_iff.1 reduced.going).2] at failed
    cases failed
  rw [live] at advances
  refine .of_fork problem.machine_lawful displays.clean displays.going two
    (Branch.isOver_of_failed failed) (isAccepted_of_failed failed) ?_
  rw [play_of_advances advances]
  exact clears after reduced

end Problem

end ShiftReduce
