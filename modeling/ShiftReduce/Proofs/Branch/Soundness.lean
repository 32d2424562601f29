/-
  ShiftReduce.Proofs.Branch.Soundness
  ────────────────────────────────
  **THE TREES ON THE STACK.**

  As long as a branch is not done, its stack holds trees that are built by the
  rules which do not end with an end-marker, and their leaves are the tokens
  shifted so far.  When it is done there is a single tree; what is known of its
  root depends on the way in which it was accepted.

  Main statements: `Sound.transition` (what one move preserves),
  `Upright.advance` and `accepted_of_endsIn` (what is known of every accepted
  result).
-/
import ShiftReduce.Proofs.Branch.Machine
import ShiftReduce.Proofs.Grammar.Adjacency
import ShiftReduce.Proofs.Tree.Parse

namespace ShiftReduce

variable {S : Type} [DecidableEq S] [GrammarSymbol S]

/-! ## §1. While the branch is not done. -/

/-- The rules by which a branch reduces before it is accepted. -/
def RuleSet.inner (rules : RuleSet S) : List (Rule S) :=
  rules.toList.filter fun rule => !rule.isTerminating

omit [DecidableEq S] in
theorem RuleSet.inner_subset (rules : RuleSet S) : rules.inner ⊆ rules.toList :=
  List.filter_sublist.subset

namespace Problem

/-- The trees on the stack, top first, are built by rules, and their leaves are
the tokens before the cursor. -/
structure Sound (problem : Problem S) (trees : List (Token S)) (cursor : Nat) : Prop where
  built : ∀ token ∈ trees, token.erase.BuiltBy problem.table.rules.inner
  yield : (trees.reverse.flatMap fun token => token.erase.yield) =
    problem.stream.lexemes.take cursor

variable {problem : Problem S} {trees : List (Token S)} {cursor : Nat}

theorem Sound.shift {token : Token S} (sound : problem.Sound trees cursor)
    (next : problem.stream.get? cursor = some token) :
    problem.Sound (token :: trees) (cursor + 1) := by
  obtain ⟨lexeme, hlexeme, leaf, _⟩ := TokenStream.get?_eq_some next
  constructor
  · intro other mem
    rcases List.mem_cons.1 mem with rfl | mem
    · rw [leaf]
      exact ParseTree.builtBy_leaf lexeme
    · exact sound.built other mem
  · rw [List.reverse_cons, List.flatMap_append, sound.yield, List.take_add_one, hlexeme,
      List.flatMap_singleton, leaf, Tree.yield_leaf]
    rfl

/-- The node that a reduction makes is made by the rule, from trees that were
on the stack, and has their leaves. -/
theorem Sound.node {rule : Rule S} {children rest : List (Token S)} (nonempty : rule.rhs ≠ [])
    (sound : problem.Sound (children.reverse ++ rest) cursor)
    (kinds : children.map Token.kind = rule.rhs) :
    ParseTree.Applies rule (Token.reduce rule.lhs children).erase ∧
      (∀ child ∈ (Token.reduce rule.lhs children).erase.children,
        ParseTree.BuiltBy problem.table.rules.inner child) ∧
      (rest.reverse.flatMap fun token => token.erase.yield) ++
        (Token.reduce rule.lhs children).erase.yield = problem.stream.lexemes.take cursor := by
  have kinds' : (children.map Token.erase).map ParseTree.kind = rule.rhs := by
    rw [Token.map_kind_erase, kinds]
  have some : children ≠ [] := by
    rintro rfl
    exact nonempty kinds.symm
  refine ⟨?_, ?_, ?_⟩
  · rw [Token.erase_reduce]
    exact ParseTree.applies_ofChildren kinds'
  · intro child mem
    rw [Token.erase_reduce] at mem
    obtain ⟨token, htoken, rfl⟩ := List.mem_map.1 mem
    exact sound.built token (List.mem_append_left _ (List.mem_reverse.2 htoken))
  · rw [Token.yield_reduce _ some, ← sound.yield, List.reverse_append, List.reverse_reverse,
      List.flatMap_append]

/-- A move that does not accept preserves what is known of the stack. -/
theorem Sound.transition {rule : Rule S} {position : Nat} {trees' : List (Token S)} {cursor' : Nat}
    (sound : problem.Sound trees cursor) (hrule : rule ∈ problem.table.rules.toList)
    (going : (problem.table.rules.itemAt rule position).action ≠ .accept)
    (h : problem.Transition (problem.table.rules.itemAt rule position) trees cursor trees' cursor') :
    problem.Sound trees' cursor' := by
  cases h with
  | shift _ next => exact sound.shift next
  | @contract children rest _ action kinds _ _ =>
    -- What neither shifts nor accepts reduces, by a rule without an end-marker at its end.
    have reduces : (problem.table.rules.itemAt rule position).action = .reduce := by
      cases haction : (problem.table.rules.itemAt rule position).action with
      | shift => exact absurd haction action
      | reduce => rfl
      | accept => exact absurd haction going
    have inner : rule ∈ problem.table.rules.inner := by
      refine List.mem_filter.2 ⟨hrule, ?_⟩
      rw [(RuleSet.action_itemAt_eq_reduce.1 reduces).2]
      rfl
    obtain ⟨applies, built, yield⟩ :=
      sound.node (problem.table.rules.rhs_ne_nil rule hrule) kinds
    constructor
    · intro token mem
      rcases List.mem_cons.1 mem with rfl | mem
      · exact .of_applies inner applies built
      · exact sound.built token (List.mem_append_right _ mem)
    · rw [List.reverse_cons, List.flatMap_append, List.flatMap_singleton]
      exact yield

/-! ## §2. Once the branch is done. -/

/-- The tree of a branch that an accepting item has ended: its root is made by
a rule that ends with an end-marker and may sit at the bottom of the stack, and
its leaves are all the tokens. -/
structure AcceptedByRule (problem : Problem S) (tree : ParseTree S) : Prop where
  root : ∃ rule ∈ problem.table.rules.toList, rule.isTerminating = true ∧
    ParseTree.Applies rule tree ∧ problem.table.canFollow none rule.lhs = true
  built : ∀ child ∈ tree.children, ParseTree.BuiltBy problem.table.rules.inner child
  yield : tree.yield = problem.stream.lexemes

/-- The tree of a branch that was accepted without an accepting item: it is of
the start symbol, and nothing but an end-marker comes after its leaves. -/
structure AcceptedAsStart (problem : Problem S) (tree : ParseTree S) : Prop where
  implicit : problem.table.acceptsExplicitly = false
  kind : ParseTree.kind tree = problem.table.start
  built : ParseTree.BuiltBy problem.table.rules.inner tree
  yield : ∃ cursor, problem.SettledAt cursor ∧ tree.yield = problem.stream.lexemes.take cursor

/-- The tree is one that a branch can be accepted with. -/
def Accepted (problem : Problem S) (tree : ParseTree S) : Prop :=
  problem.AcceptedByRule tree ∨ problem.AcceptedAsStart tree

/-- What holds of every branch that has not failed. -/
structure Upright (problem : Problem S) (branch : Branch S) : Prop where
  going : branch.done = false → problem.Sound branch.stack.items branch.cursor
  done : branch.done = true → ∃ token, branch.stack.items = [token] ∧ problem.Accepted token.erase

/-- A branch stays upright when it is completed. -/
theorem upright_complete {branch : Branch S} (stands : branch.Stands trees cursor false)
    (sound : problem.Sound trees cursor) : problem.Upright (problem.complete branch) := by
  rcases stands_complete stands with going | ⟨accepted, implicit, kinds, settled⟩
  · constructor
    · intro _
      rw [going.stack, going.cursor]
      exact sound
    · intro done
      rw [going.done] at done
      cases done
  · constructor
    · intro going
      rw [accepted.done] at going
      cases going
    · intro _
      obtain ⟨token, rfl, kind⟩ := List.map_eq_singleton_iff.1 kinds
      refine ⟨token, by rw [accepted.stack], .inr ⟨implicit, ?_, ?_, cursor, settled, ?_⟩⟩
      · rw [Token.kind_erase, kind]
      · exact sound.built token (List.mem_singleton.2 rfl)
      · have yield := sound.yield
        rw [List.reverse_singleton, List.flatMap_singleton] at yield
        exact yield

theorem upright_start (alive : problem.start.error = none) : problem.Upright problem.start := by
  rcases start_cases problem with ⟨token, next, moved, start, stands⟩ | ⟨_, failed⟩
  · rw [start]
    have blank : problem.Sound [] 0 := ⟨fun _ none => absurd none List.not_mem_nil, rfl⟩
    exact upright_complete stands (blank.shift next)
  · rw [alive] at failed
    cases failed

/-- What an accepting move makes of the stack: the right-hand side of its rule
was all there was. -/
theorem accepted_of_transition {rule : Rule S} {position : Nat} {trees' : List (Token S)}
    {cursor' : Nat}
    (sound : problem.Sound trees cursor) (hrule : rule ∈ problem.table.rules.toList)
    (hposition : position < rule.rhs.length)
    (accepts : (problem.table.rules.itemAt rule position).action = .accept)
    (whole : position + 1 = trees.length ∧ cursor = problem.stream.size)
    (h : problem.Transition (problem.table.rules.itemAt rule position) trees cursor trees' cursor') :
    ∃ token, trees' = [token] ∧ problem.Accepted token.erase := by
  obtain ⟨_, terminating⟩ := RuleSet.action_itemAt_eq_accept.1 accepts
  obtain ⟨rewrites, seated⟩ := transition_iff.1 h
  obtain ⟨depth, rfl⟩ := whole
  obtain ⟨children, rfl, kinds, rfl, rfl⟩ := rewrites.single hposition accepts depth
  have follows := seated (by rw [accepts]; simp) _ _ rfl
  rw [← List.append_nil children.reverse] at sound
  obtain ⟨applies, built, yield⟩ := sound.node (problem.table.rules.rhs_ne_nil rule hrule) kinds
  refine ⟨_, rfl, .inl ⟨⟨rule, hrule, terminating, applies, follows⟩, built, ?_⟩⟩
  rw [TokenStream.size, List.take_length] at yield
  exact yield

/-- Moves keep a branch upright. -/
theorem Upright.advance {before after : Branch S} {move : Move S} (upright : problem.Upright before)
    (h : problem.Advances before move after) : problem.Upright after := by
  have sound := upright.going (Branch.isOver_eq_false_iff.1 h.going).1
  obtain ⟨rule, hrule, position, hposition, _, whole, trees, cursor, moved, transition, rfl, stands⟩ :=
    h.inversion
  by_cases accepts : (problem.table.rules.itemAt rule position).action = .accept
  · have done : (problem.table.rules.itemAt rule position).isAccept = true := decide_eq_true accepts
    rw [done] at stands
    have accepted : (problem.complete moved).Stands trees cursor true :=
      stands_complete_of_done stands
    constructor
    · intro going
      rw [accepted.done] at going
      cases going
    · intro _
      rw [accepted.stack]
      exact accepted_of_transition sound hrule hposition accepts (whole accepts) transition
  · have going : (problem.table.rules.itemAt rule position).isAccept = false :=
      decide_eq_false accepts
    rw [going] at stands
    exact upright_complete stands (sound.transition hrule accepts transition)

/-! ## §3. Whole runs. -/

theorem upright_of_run {maxSteps : Option Nat} {history : List (Move S)} {final : Branch S}
    (run : problem.machine.Run maxSteps 0 problem.start history final) (alive : final.error = none) :
    problem.Upright final :=
  run_induct upright_start (fun _ _ _ upright h => upright.advance h) run alive

/-- A result without a failure consists of one tree, which is one to accept. -/
theorem accepted_of_endsIn {maxSteps : Option Nat} {result : ParseResult S}
    (h : problem.machine.EndsIn maxSteps result) (accepted : result.error = none) :
    ∃ tree, result.forest = [tree] ∧ problem.Accepted tree := by
  obtain ⟨history, final, run, hfinal⟩ := h
  -- The result drains the stack, which is its items since no pop is left to undo.
  have clean : final.stack.popped = [] := run.invariant (fun branch => branch.stack.popped = [])
    (fun branch move clean _ _ => clean_apply problem move clean) (clean_start problem)
  obtain ⟨alive, done, forest⟩ := accepted_of_ending clean hfinal accepted
  obtain ⟨token, items, tree⟩ := (upright_of_run run alive).done done
  exact ⟨token.erase, by rw [forest, items]; rfl, tree⟩

end Problem

end ShiftReduce
