/-
  ShiftReduce.Proofs.Branch.DeadEnds
  ────────────────────────────────
  **BRANCHES THAT GO ON WHERE NO ITEM MATCHES.**

  An item that is proposed unverified may shift a token above a stack that it
  does not match.  If no item matches there, no rule has the top of the stack
  and something that begins with the token next to each other, after the
  symbols that lie below.  The stack as it was then stays where it is: a
  reduction across the border would be by such a rule.  A branch is accepted
  with a single tree, so this one never is.

  Main statements: `Doomed.advance` (what a move keeps) and
  `barren_of_unmatched`.
-/
import ShiftReduce.Proofs.Branch.Completeness
import ShiftReduce.Proofs.Search.Pruning

namespace ShiftReduce

variable {S : Type} [DecidableEq S] [GrammarSymbol S]

namespace Problem

variable {problem : Problem S} {branch before after : Branch S} {move : Move S}
  {trees trees' : List (Token S)} {cursor cursor' : Nat} {maxSteps : Option Nat}

/-! ## §1. What holds of every branch that has not failed. -/

/-- The top of the stack knows which token comes next, whatever move led there. -/
theorem Linked.rewrites {rule : Rule S} {position : Nat} (linked : problem.Linked trees cursor)
    (hrule : rule ∈ problem.table.rules.toList)
    (h : problem.Rewrites (problem.table.rules.itemAt rule position) trees cursor trees' cursor') :
    problem.Linked trees' cursor' := by
  intro top htop
  cases h with
  | @shift _ _ token _ next =>
    cases htop
    obtain ⟨_, _, _, hnext⟩ := TokenStream.get?_eq_some next
    exact hnext
  | @contract children rest _ _ kinds _ =>
    cases htop
    have kinds : children.map Token.kind = rule.rhs := kinds
    have some : children ≠ [] := by
      rintro rfl
      exact problem.table.rules.rhs_ne_nil rule hrule kinds.symm
    obtain ⟨shown, last, rfl⟩ : ∃ init last, children = init ++ [last] :=
      (List.eq_nil_or_concat' children).resolve_left some
    -- The node takes over the link of its last child.
    rw [← linked last (by rw [List.reverse_concat]; rfl)]
    simp [Token.reduce]

/-- No pop is left to undo; unless the branch has failed, it is upright; and
unless it is over, the top of the stack knows which token comes next. -/
structure Regular (problem : Problem S) (branch : Branch S) : Prop where
  clean : branch.stack.popped = []
  upright : branch.error = none → problem.Upright branch
  linked : branch.isOver = false → problem.Linked branch.stack.items branch.cursor

theorem Regular.sound (regular : problem.Regular branch) (going : branch.isOver = false) :
    problem.Sound branch.stack.items branch.cursor := by
  obtain ⟨unfinished, alive⟩ := Branch.isOver_eq_false_iff.1 going
  exact (regular.upright alive).going unfinished

/-- A branch that goes on after a completion is as it was before. -/
theorem linked_complete {moved : Branch S} {done : Bool} (stands : moved.Stands trees cursor done)
    (linked : problem.Linked trees cursor) (going : (problem.complete moved).isOver = false) :
    problem.Linked (problem.complete moved).stack.items (problem.complete moved).cursor := by
  have unfinished := (Branch.isOver_eq_false_iff.1 going).1
  cases done with
  | true =>
    rw [(stands_complete_of_done stands).done] at unfinished
    cases unfinished
  | false =>
    rcases stands_complete stands with stands | ⟨accepted, _⟩
    · rw [stands.stack, stands.cursor]
      exact linked
    · rw [accepted.done] at unfinished
      cases unfinished

theorem regular_start (problem : Problem S) : problem.Regular problem.start where
  clean := clean_start problem
  upright := upright_start
  linked := by
    intro going
    rcases start_cases problem with ⟨token, next, moved, hstart, stands⟩ | ⟨_, failed⟩
    · rw [hstart] at going ⊢
      refine linked_complete stands ?_ going
      obtain ⟨_, _, _, hnext⟩ := TokenStream.get?_eq_some next
      intro top htop
      cases htop
      exact hnext
    · rw [(Branch.isOver_eq_false_iff.1 going).2] at failed
      cases failed

theorem Regular.play (regular : problem.Regular branch) (going : branch.isOver = false)
    (proposed : move ∈ (problem.nextMoves branch).1) :
    problem.Regular (problem.apply move branch).branch where
  clean := clean_apply problem move regular.clean
  upright := by
    intro alive
    have upright := regular.upright (Branch.isOver_eq_false_iff.1 going).2
    exact upright.advance (advances_of_play regular.clean going proposed alive)
  linked := by
    intro unfinished
    have advances := advances_of_play regular.clean going proposed
      (Branch.isOver_eq_false_iff.1 unfinished).2
    obtain ⟨rule, hrule, position, _, _, _, trees, cursor, moved, transition, hafter, stands⟩ :=
      advances.inversion
    rw [hafter] at unfinished ⊢
    have linked := (regular.linked going).rewrites hrule (transition_iff.1 transition).1
    exact linked_complete stands linked unfinished

/-! ## §2. A border that no reduction crosses. -/

/-- No rule has what is shown on the stack, from some place in it up to the top,
and then a symbol that can begin with a token of this kind. -/
def Blocked (problem : Problem S) (shown : List (Token S)) (kind : S) : Prop :=
  ∀ rule ∈ problem.table.rules.toList, ∀ (position : Nat) (next : S),
    rule.rhs[position + 1]? = some next →
      (rule.rhs.take (position + 1)).reverse <+: shown.map Token.kind →
        kind ∉ problem.table.rules.first next

/-- Where no item matches, the border between the stack and the next token is blocked. -/
theorem blocked_of_unmatched {lexeme : Lexeme S} (some : branch.stack.items ≠ [])
    (unmatched : ∀ item, ¬problem.Matches branch item)
    (hlexeme : problem.stream.lexemes[branch.cursor]? = .some lexeme) :
    problem.Blocked branch.stack.items lexeme.kind := by
  intro rule hrule position next hnext shown opens
  have within : position + 1 < rule.rhs.length := (List.getElem?_eq_some_iff.1 hnext).1
  have here : rule.rhs[position]? = .some rule.rhs[position] := List.getElem?_eq_getElem (by omega)
  have shifts : (problem.table.rules.itemAt rule position).action = .shift :=
    RuleSet.action_itemAt_eq_shift.2 within
  obtain ⟨top, rest, hitems⟩ := List.exists_cons_of_ne_nil some
  -- The item with its dot on the top of the stack would match.
  have top_kind : rule.rhs[position] = top.kind := by
    obtain ⟨below, hbelow⟩ := shown
    rw [hitems, List.take_succ_eq_append_getElem (by omega), List.reverse_append] at hbelow
    exact (List.cons.inj hbelow).1
  refine unmatched (problem.table.rules.itemAt rule position) ⟨⟨top, by rw [hitems]; rfl, ?_⟩, shown,
    ?_, fun _ => ⟨lexeme, hlexeme, ?_⟩⟩
  · rw [← top_kind]
    exact DecisionTable.mem_items.2 ⟨rule, hrule, position, here, rfl⟩
  · intro accepts
    rw [shifts] at accepts
    cases accepts
  · rw [problem.table.rules.lookaheads_itemAt hnext]
    exact opens

/-- The trees shown lie untouched at the bottom of the stack, below others whose
first leaf is the given token. -/
def Bordered (shown : List (Token S)) (lexeme : Lexeme S) (trees : List (Token S)) : Prop :=
  ∃ upper, trees = upper ++ shown ∧
    (upper.reverse.flatMap fun token => token.erase.yield).head? = some lexeme

omit [DecidableEq S] [GrammarSymbol S] in
/-- There is a tree above those shown. -/
theorem Bordered.length_lt {shown : List (Token S)} {lexeme : Lexeme S}
    (bordered : Bordered shown lexeme trees) : shown.length < trees.length := by
  obtain ⟨upper, rfl, first⟩ := bordered
  cases upper with
  | nil => cases first
  | cons top rest =>
    rw [List.length_append, List.length_cons]
    omega

omit [DecidableEq S] [GrammarSymbol S] in
/-- A node over trees above the border has their leaves. -/
theorem bordered_reduce {shown children between : List (Token S)} {lexeme : Lexeme S} (symbol : S)
    (some : children ≠ [])
    (first : ((children.reverse ++ between).reverse.flatMap fun token => token.erase.yield).head? =
      .some lexeme) :
    Bordered shown lexeme (Token.reduce symbol children :: (between ++ shown)) := by
  refine ⟨Token.reduce symbol children :: between, rfl, ?_⟩
  rw [List.reverse_append, List.reverse_reverse, List.flatMap_append] at first
  rw [List.reverse_cons, List.flatMap_append, List.flatMap_singleton, Token.yield_reduce _ some]
  exact first

/-- No rule applies to trees from both sides of a blocked border. -/
theorem Blocked.not_crossed {upper across rest : List (Token S)} {lexeme : Lexeme S} {rule : Rule S}
    (typed : problem.Typed) (mem : lexeme ∈ problem.stream.lexemes)
    (blocked : problem.Blocked (across ++ rest) lexeme.kind) (some : across ≠ [])
    (built : ∀ token ∈ upper, token.erase.BuiltBy problem.table.rules.inner)
    (first : (upper.reverse.flatMap fun token => token.erase.yield).head? = .some lexeme)
    (hrule : rule ∈ problem.table.rules.toList) :
    (across.reverse ++ upper.reverse).map Token.kind ≠ rule.rhs := by
  intro kinds
  obtain ⟨lowest, others, hupper⟩ : ∃ lowest others, upper.reverse = lowest :: others := by
    cases hupper : upper.reverse with
    | nil =>
      rw [hupper] at first
      cases first
    | cons lowest others => exact ⟨lowest, others, rfl⟩
  obtain ⟨length, hlength⟩ : ∃ n, across.length = n + 1 :=
    Nat.exists_eq_succ_of_ne_zero (mt List.length_eq_zero_iff.1 some)
  have below : (across.reverse.map Token.kind).length = length + 1 := by
    rw [List.length_map, List.length_reverse, hlength]
  -- The rule has the lowest tree above the border right after the ones below it.
  have next : rule.rhs[length + 1]? = .some lowest.kind := by
    rw [← kinds, hupper, List.map_append, List.getElem?_append_right (by omega), below, Nat.sub_self]
    rfl
  have shown : (rule.rhs.take (length + 1)).reverse <+: (across ++ rest).map Token.kind := by
    rw [← kinds, List.map_append, ← below, List.take_left, List.map_reverse, List.reverse_reverse,
      List.map_append]
    exact List.prefix_append _ _
  obtain ⟨leaf, leaves, hyield⟩ := List.exists_cons_of_ne_nil (Tree.yield_ne_nil lowest.erase)
  have same : leaf = lexeme := by
    rw [hupper, List.flatMap_cons, hyield] at first
    exact Option.some.inj first
  have opens := mem_first_of_yield typed
    (built lowest (List.mem_reverse.1 (by rw [hupper]; exact List.mem_cons_self))) (same ▸ mem) hyield
  rw [Token.kind_erase, same] at opens
  exact blocked rule hrule length lowest.kind next shown opens

/-- A move leaves a blocked border where it is. -/
theorem Bordered.transition {shown : List (Token S)} {lexeme : Lexeme S} {rule : Rule S}
    {position : Nat} (typed : problem.Typed) (mem : lexeme ∈ problem.stream.lexemes)
    (blocked : problem.Blocked shown lexeme.kind) (sound : problem.Sound trees cursor)
    (hrule : rule ∈ problem.table.rules.toList) (bordered : Bordered shown lexeme trees)
    (h : problem.Transition (problem.table.rules.itemAt rule position) trees cursor trees' cursor') :
    Bordered shown lexeme trees' := by
  obtain ⟨upper, htrees, first⟩ := bordered
  cases h with
  | @shift _ _ token _ _ =>
    refine ⟨token :: upper, by rw [htrees]; rfl, ?_⟩
    rw [List.reverse_cons, List.flatMap_append, List.head?_append, first]
    rfl
  | @contract children rest _ _ kinds _ _ =>
    have kinds : children.map Token.kind = rule.rhs := kinds
    have some : children ≠ [] := by
      rintro rfl
      exact problem.table.rules.rhs_ne_nil rule hrule kinds.symm
    -- The children end above the border, or some of them lie across it.
    rcases List.append_eq_append_iff.1 htrees with ⟨between, rfl, rfl⟩ | ⟨across, hchildren, rfl⟩
    · exact bordered_reduce rule.lhs some first
    · by_cases crosses : across = []
      · -- The children are just the trees above the border.
        subst crosses
        rw [List.append_nil] at hchildren
        have first' : ((children.reverse ++ []).reverse.flatMap fun token : Token S =>
            token.erase.yield).head? = .some lexeme := by
          rw [List.append_nil, hchildren, first]
        exact bordered_reduce rule.lhs some first'
      · have built : ∀ token ∈ upper, token.erase.BuiltBy problem.table.rules.inner := by
          intro token mem
          refine sound.built token ?_
          rw [htrees]
          exact List.mem_append_left _ mem
        refine absurd ?_ (blocked.not_crossed typed mem crosses built first hrule)
        rw [← List.reverse_append, ← hchildren, List.reverse_reverse]
        exact kinds

/-! ## §3. Branches that are never accepted. -/

/-- The branch has failed, or it goes on above a border that no reduction crosses. -/
structure Doomed (problem : Problem S) (shown : List (Token S)) (lexeme : Lexeme S)
    (branch : Branch S) : Prop where
  clean : branch.stack.popped = []
  going : branch.error = none → branch.done = false ∧ Bordered shown lexeme branch.stack.items ∧
    problem.Sound branch.stack.items branch.cursor

/-- What stands above the border is not accepted when it is completed. -/
theorem doomed_complete {shown : List (Token S)} {lexeme : Lexeme S} {moved : Branch S}
    (some : shown ≠ []) (stands : moved.Stands trees cursor false)
    (bordered : Bordered shown lexeme trees) (sound : problem.Sound trees cursor) :
    problem.Doomed shown lexeme (problem.complete moved) := by
  rcases stands_complete stands with going | ⟨_, _, kinds, _⟩
  · refine ⟨by rw [going.stack], fun _ => ⟨going.done, ?_⟩⟩
    rw [going.stack, going.cursor]
    exact ⟨bordered, sound⟩
  · -- Only a single tree is completed.
    have single := congrArg List.length kinds
    have several := bordered.length_lt
    have shown := List.length_pos_iff.2 some
    rw [List.length_map, List.length_singleton] at single
    omega

/-- Moves do not save a doomed branch. -/
theorem Doomed.advance {shown : List (Token S)} {lexeme : Lexeme S} (typed : problem.Typed)
    (mem : lexeme ∈ problem.stream.lexemes) (some : shown ≠ [])
    (blocked : problem.Blocked shown lexeme.kind) (doomed : problem.Doomed shown lexeme before)
    (h : problem.Advances before move after) : problem.Doomed shown lexeme after := by
  obtain ⟨_, bordered, sound⟩ := doomed.going (Branch.isOver_eq_false_iff.1 h.going).2
  obtain ⟨rule, hrule, position, hposition, _, whole, trees, cursor, moved, transition, rfl, stands⟩ :=
    h.inversion
  have bordered' := bordered.transition typed mem blocked sound hrule transition
  by_cases accepts : (problem.table.rules.itemAt rule position).action = .accept
  · -- An accepting item would have made a single tree of the stack.
    obtain ⟨_, _, _, single, _⟩ :=
      (transition_iff.1 transition).1.single hposition accepts (whole accepts).1
    have several := bordered'.length_lt
    have shown := List.length_pos_iff.2 some
    rw [single, List.length_singleton] at several
    omega
  · have unfinished : (problem.table.rules.itemAt rule position).isAccept = false :=
      decide_eq_false accepts
    rw [unfinished] at stands
    exact doomed_complete some stands bordered' (sound.transition hrule accepts transition)

theorem barren_of_doomed {shown : List (Token S)} {lexeme : Lexeme S} (typed : problem.Typed)
    (mem : lexeme ∈ problem.stream.lexemes) (some : shown ≠ [])
    (blocked : problem.Blocked shown lexeme.kind) (doomed : problem.Doomed shown lexeme branch) :
    problem.machine.Barren maxSteps branch := by
  refine Machine.barren_of_invariant ?_ ?_ doomed
  -- A move that goes through leaves the branch doomed, and one that is refused has failed it.
  · intro branch move doomed going proposed
    cases failed : (problem.apply move branch).branch.error with
    | none => exact doomed.advance typed mem some blocked (advances_of_play doomed.clean going proposed failed)
    | some error =>
      refine ⟨clean_apply problem move doomed.clean, fun alive => ?_⟩
      have alive : (problem.apply move branch).branch.error = none := alive
      rw [failed] at alive
      cases alive
  · intro steps branch result doomed ended
    by_contra accepted
    rw [Bool.not_eq_false] at accepted
    obtain ⟨alive, done, _⟩ :=
      accepted_of_ending doomed.clean ended (Option.isNone_iff_eq_none.1 accepted)
    rw [(doomed.going alive).1] at done
    cases done

/-- An item by which the stack has been contracted matches it. -/
theorem matches_of_contract {rule : Rule S} {position : Nat} {children rest : List (Token S)}
    (hrule : rule ∈ problem.table.rules.toList) (hposition : position < rule.rhs.length)
    (action : (problem.table.rules.itemAt rule position).action ≠ .shift)
    (whole : (problem.table.rules.itemAt rule position).action = .accept →
      position + 1 = branch.stack.items.length ∧ branch.cursor = problem.stream.size)
    (hitems : branch.stack.items = children.reverse ++ rest)
    (kinds : children.map Token.kind = rule.rhs) :
    problem.Matches branch (problem.table.rules.itemAt rule position) := by
  have last : position + 1 = rule.rhs.length := by
    have := mt RuleSet.action_itemAt_eq_shift.2 action
    omega
  have some : children ≠ [] := by
    rintro rfl
    exact problem.table.rules.rhs_ne_nil rule hrule kinds.symm
  obtain ⟨shown, top, rfl⟩ : ∃ init last, children = init ++ [last] :=
    (List.eq_nil_or_concat' children).resolve_left some
  refine ⟨⟨top, by rw [hitems, List.reverse_concat]; rfl, ?_⟩, ?_, whole, fun shifts => absurd shifts action⟩
  · have length := congrArg List.length kinds
    rw [List.length_map, List.length_append, List.length_singleton] at length
    refine DecisionTable.mem_items.2 ⟨rule, hrule, position, ?_, rfl⟩
    have here : position = shown.length := by omega
    rw [← kinds, here]
    simp
  · show (rule.rhs.take (position + 1)).reverse <+: _
    rw [last, List.take_length, hitems, ← kinds, ← List.map_reverse, List.map_append]
    exact List.prefix_append _ _

/-- Where no item matches, a move that goes through shifts a token above a
blocked border. -/
theorem doomed_of_advances (regular : problem.Regular before)
    (unmatched : ∀ item, ¬problem.Matches before item) (h : problem.Advances before move after) :
    ∃ lexeme, problem.stream.lexemes[before.cursor]? = some lexeme ∧
      problem.Doomed before.stack.items lexeme after := by
  have sound := regular.sound h.going
  have some := items_ne_nil_of_mem_nextMoves h.clean h.proposed
  obtain ⟨rule, hrule, position, hposition, _, whole, trees, cursor, moved, transition, rfl, stands⟩ :=
    h.inversion
  obtain ⟨rewrites, _⟩ := transition_iff.1 transition
  generalize htrees : before.stack.items = shown at rewrites sound some
  cases rewrites with
  | @shift _ _ token action next =>
    obtain ⟨lexeme, hlexeme, leaf, _⟩ := TokenStream.get?_eq_some next
    refine ⟨lexeme, hlexeme, ?_⟩
    have unfinished : (problem.table.rules.itemAt rule position).isAccept = false := by
      unfold Item.isAccept
      rw [action]
      rfl
    rw [unfinished] at stands
    refine doomed_complete some stands ⟨[token], rfl, ?_⟩ (sound.shift next)
    rw [List.reverse_singleton, List.flatMap_singleton, leaf, Tree.yield_leaf]
    rfl
  | contract action kinds _ =>
    exact absurd (matches_of_contract hrule hposition action whole htrees kinds) (unmatched _)

/-- A branch is not accepted, wherever it goes on from a stack that no item
matches. -/
theorem barren_of_unmatched (typed : problem.Typed) (regular : problem.Regular branch)
    (going : branch.isOver = false) (unmatched : ∀ item, ¬problem.Matches branch item) :
    problem.machine.Barren maxSteps branch := by
  refine Machine.barren_of_moves going (isAccepted_of_failed (error_interrupt going))
    (isAccepted_of_nextMoves_eq_nil regular.clean going) ?_
  intro move proposed
  cases failed : (problem.apply move branch).branch.error with
  | some error =>
    have failed : (problem.apply move branch).branch.error.isSome = true := by
      rw [failed]
      rfl
    exact barren_of_failed problem problem.checkAdjacency failed
  | none =>
    have advances := advances_of_play regular.clean going proposed failed
    obtain ⟨lexeme, hlexeme, doomed⟩ := doomed_of_advances regular unmatched advances
    have some := items_ne_nil_of_mem_nextMoves regular.clean proposed
    exact barren_of_doomed typed (List.mem_of_getElem? hlexeme) some
      (blocked_of_unmatched some unmatched hlexeme) doomed

end Problem

end ShiftReduce
