/-
  ShiftReduce.Proofs.Search.EventTree
  ────────────────────────────────
  **THE TREE OF ALL BRANCHES, AND WHAT A SEARCH HAS LEFT OF IT.**

  The branches that go through a state form a tree: a state in which a branch
  ends is a leaf, any other one has a child for each of its moves.  The tree is
  unfolded by plain recursion, with states that are used as they are.  A search
  that has not come to its end has some subtrees left to explore, one for each
  pending history, and has met the forks that lie before them.

  Main statements: `enumerate?_eq` (the enumeration reads the tree off),
  `exists_exploration` (what exploring a branch does to its tree),
  `unexplored_next?` and `exists_nexts`.
-/
import Mathlib.Algebra.GroupWithZero.Nat
import Mathlib.Data.List.Forall2
import ShiftReduce.Proofs.Search.Driver
import ShiftReduce.Proofs.Tree.Nodes

namespace ShiftReduce

variable {S : Type} [GrammarSymbol S] {σ μ α β : Type}

/-! ## §1. Event trees. -/

/-- The branches that go through a state.  A leaf is labelled with the result in
which a branch ends, any other node with what its state would end in; it has
a child for each move that its state proposes. -/
abbrev EventTree (S : Type) [GrammarSymbol S] := Tree (ParseResult S)

namespace EventTree

/-- The numbers of moves at the nodes with two moves or more, in pre-order. -/
def forks (tree : EventTree S) : List Nat :=
  (tree.nodes.map fun node => node.children.length).filter (2 ≤ ·)

theorem forks_node (result : ParseResult S) (children : List (EventTree S)) :
    forks (.node result children) =
      (if 2 ≤ children.length then [children.length] else []) ++ children.flatMap forks := by
  have below : ((children.flatMap Tree.nodes).map fun node => node.children.length).filter (2 ≤ ·) =
      children.flatMap forks := by
    rw [List.map_flatMap, List.filter_flatMap]
    rfl
  rw [forks, Tree.nodes_node, List.map_cons, List.filter_cons, Tree.children_node, below]
  by_cases several : 2 ≤ children.length
  · simp [several]
  · simp [several]

theorem two_le_of_mem_forks {tree : EventTree S} {count : Nat} (h : count ∈ tree.forks) : 2 ≤ count :=
  of_decide_eq_true (List.mem_filter.1 h).2

/-- What the plain enumeration gathers from the tree. -/
def harvest (tree : EventTree S) : Harvest S :=
  ⟨tree.yield, tree.forks.length⟩

end EventTree

/-! ## §2. Unfolding the tree. -/

/-- All elements of a list are mapped, each to what stands at its place. -/
theorem mapM_eq_some_iff {f : α → Option β} {as : List α} {bs : List β} :
    as.mapM f = some bs ↔ List.Forall₂ (fun a b => f a = some b) as bs := by
  induction as generalizing bs with
  | nil => simp [eq_comm]
  | cons a as ih =>
    rw [List.mapM_cons, List.forall₂_cons_left_iff]
    simp only [Option.bind_eq_bind, Option.bind_eq_some_iff, Option.pure_def, Option.some.injEq, ih]
    constructor
    · intro h
      obtain ⟨b, hb, bs, hbs, rfl⟩ := h
      exact ⟨b, bs, hb, hbs, rfl⟩
    · intro h
      obtain ⟨b, bs, hb, hbs, rfl⟩ := h
      exact ⟨b, hb, bs, hbs, rfl⟩

/-- What is gathered from several trees. -/
theorem Harvest.gather_eq (unfold : α → Option (EventTree S)) (elements : List α) :
    gather (fun element => (unfold element).map EventTree.harvest) elements =
      (elements.mapM unfold).map fun trees =>
        ⟨trees.flatMap Tree.yield, (trees.flatMap EventTree.forks).length⟩ := by
  induction elements with
  | nil => rfl
  | cons first rest ih =>
    rw [gather, ih, List.mapM_cons]
    cases unfold first with
    | none => rfl
    | some tree =>
      cases rest.mapM unfold with
      | none => rfl
      | some trees => simp [EventTree.harvest]

namespace Machine

/-- The tree of the branches that go through a state after `steps` moves.  Each
child is unfolded from the state itself, in which its move has been made. -/
def eventTree? (machine : Machine S σ μ) (maxSteps : Option Nat) : Nat → Nat → σ → Option (EventTree S)
  | 0, _, _ => none
  | fuel + 1, steps, state =>
    match machine.ending? maxSteps steps state with
    | some result => some (.node result [])
    | none =>
      let (moves, looked) := machine.moves state
      let after (move : μ) := eventTree? machine maxSteps fuel (steps + 1) (machine.play looked move).1
      (moves.mapM after).map (.node (machine.result state))

variable {machine : Machine S σ μ} {maxSteps : Option Nat}

theorem eventTree?_of_ending {fuel steps : Nat} {state : σ} {result : ParseResult S}
    (h : machine.ending? maxSteps steps state = some result) :
    machine.eventTree? maxSteps (fuel + 1) steps state = some (.node result []) := by
  rw [eventTree?, h]

/-- A state that does not end has the trees after its moves for children. -/
theorem eventTree?_of_going {fuel steps : Nat} {state : σ} {tree : EventTree S}
    (h : machine.ending? maxSteps steps state = none) :
    machine.eventTree? maxSteps (fuel + 1) steps state = some tree ↔
      ∃ children, List.Forall₂ (fun move child =>
          machine.eventTree? maxSteps fuel (steps + 1)
            (machine.play (machine.moves state).2 move).1 = some child)
          (machine.moves state).1 children ∧
        tree = .node (machine.result state) children := by
  rw [eventTree?, h]
  simp only [Option.map_eq_some_iff, mapM_eq_some_iff]
  constructor
  · intro h
    obtain ⟨children, unfolded, rfl⟩ := h
    exact ⟨children, unfolded, rfl⟩
  · intro h
    obtain ⟨children, unfolded, rfl⟩ := h
    exact ⟨children, unfolded, rfl⟩

/-- The plain enumeration lists the leaves of the tree and counts its forks. -/
theorem enumerate?_eq (machine : Machine S σ μ) (maxSteps : Option Nat) (fuel steps : Nat) (state : σ) :
    machine.enumerate? maxSteps fuel steps state =
      (machine.eventTree? maxSteps fuel steps state).map EventTree.harvest := by
  -- By induction on the fuel, which the tree and the enumeration use up at the same rate.
  induction fuel generalizing steps state with
  | zero => rfl
  | succ fuel ih =>
    cases hending : machine.ending? maxSteps steps state with
    | some result =>
      rw [enumerate?_of_ending hending, eventTree?_of_ending hending, Option.map_some,
        EventTree.harvest, Tree.yield_leaf, EventTree.forks_node]
      rfl
    | none =>
      obtain ⟨_, _, some⟩ := ending?_eq_none_iff.1 hending
      rw [enumerate?, eventTree?, hending]
      simp only [ih, Harvest.gather_eq, Option.map_map]
      cases hchildren : (machine.moves state).1.mapM fun move =>
          machine.eventTree? maxSteps fuel (steps + 1) (machine.play (machine.moves state).2 move).1 with
      | none => rfl
      | some children =>
        have length := (mapM_eq_some_iff.1 hchildren).length_eq
        have positive := List.length_pos_iff.2 some
        have inner : children ≠ [] := List.length_pos_iff.1 (by omega)
        -- A node with moves is a fork unless it has a single one.
        have forked : (if 2 ≤ children.length then [children.length] else []).length =
            if (machine.moves state).1.length = 1 then 0 else 1 := by
          by_cases several : 2 ≤ children.length
          · rw [if_pos several, if_neg (by omega)]
            rfl
          · rw [if_neg several, if_pos (by omega)]
            rfl
        simp only [Option.map_some, Function.comp, EventTree.harvest, Tree.yield_node _ inner,
          EventTree.forks_node, List.length_append, forked, Nat.add_comm]

/-! ## §3. What exploring a branch does to its tree. -/

/-- The tree of the branches that go on from a history. -/
def Unfolds (machine : Machine S σ μ) (maxSteps : Option Nat) (history : List μ) (tree : EventTree S) :
    Prop :=
  ∃ fuel, machine.eventTree? maxSteps fuel history.length (machine.replay history) = some tree

/-- Exploring a branch uses its tree up without a fork, or leaves the subtrees
under the first fork of it. -/
def Splits (machine : Machine S σ μ) (maxSteps : Option Nat) (tree : EventTree S) :
    Exploration S μ → Prop
  | .ended _ => tree.forks = []
  | .forked histories => ∃ trees, List.Forall₂ (machine.Unfolds maxSteps) histories trees ∧
      tree.forks = histories.length :: trees.flatMap EventTree.forks ∧
      (trees.map Tree.size).sum < tree.size

/-- The tree of a sole move has the same forks, and one node more. -/
theorem Splits.of_single {result : ParseResult S} {child : EventTree S} {exploration : Exploration S μ}
    (h : machine.Splits maxSteps child exploration) :
    machine.Splits maxSteps (.node result [child]) exploration := by
  have forks : EventTree.forks (.node result [child]) = EventTree.forks child := by
    rw [EventTree.forks_node]
    simp
  have size : Tree.size (.node result [child]) = 1 + Tree.size child := by
    rw [Tree.size_node]
    simp
  cases exploration with
  | ended _ => exact forks.trans h
  | forked histories =>
    obtain ⟨trees, unfolded, hforks, less⟩ := h
    exact ⟨trees, unfolded, forks.trans hforks, by omega⟩

theorem inv_resume {inv : σ → Prop} (lawful : machine.Lawful inv) {state : σ} (kept : inv state)
    (history : List μ) : inv (machine.resume state history) := by
  induction history generalizing state with
  | nil => exact kept
  | cons move rest ih =>
    have played := lawful.play state move kept
    rw [resume]
    split
    · next h =>
      rw [h] at played
      exact played
    · next h =>
      rw [h] at played
      exact ih played

/-- A branch with a finite tree is explored with fuel enough, which splits its tree. -/
theorem exists_exploration {inv : σ → Prop} (lawful : machine.Lawful inv) {history : List μ}
    {tree : EventTree S} (unfolds : machine.Unfolds maxSteps history tree) :
    ∃ exploration, machine.Explores maxSteps history (machine.replay history) exploration ∧
      machine.Splits maxSteps tree exploration := by
  obtain ⟨fuel, unfolded⟩ := unfolds
  -- By induction on the fuel that has unfolded the tree: sole moves lead down to the first fork.
  induction fuel generalizing history tree with
  | zero => cases unfolded
  | succ fuel ih =>
    cases hending : machine.ending? maxSteps history.length (machine.replay history) with
    | some result =>
      rw [eventTree?_of_ending hending] at unfolded
      cases unfolded
      exact ⟨.ended result, ⟨1, explore_of_ending hending⟩, EventTree.forks_node result []⟩
    | none =>
      obtain ⟨children, hchildren, rfl⟩ := (eventTree?_of_going hending).1 unfolded
      obtain ⟨going, _, some⟩ := ending?_eq_none_iff.1 hending
      have kept : inv (machine.replay history) := inv_resume lawful lawful.start history
      -- The state after a move is the one that the longer history leads to.
      have replayed (move : μ) : (machine.play (machine.moves (machine.replay history)).2 move).1 =
          machine.replay (history ++ [move]) := by
        rw [lawful.looked _ move kept some, machine.replay_snoc lawful going]
      have length (move : μ) : (history ++ [move]).length = history.length + 1 := by
        rw [List.length_append, List.length_singleton]
      simp only [replayed] at hchildren
      by_cases hlength : (machine.moves (machine.replay history)).1.length = 1
      · obtain ⟨move, sole⟩ := List.length_eq_one_iff.1 hlength
        rw [sole] at hchildren
        obtain ⟨child, _, hchild, none, rfl⟩ := List.forall₂_cons_left_iff.1 hchildren
        cases none
        rw [← length move] at hchild
        obtain ⟨exploration, ⟨more, explored⟩, splits⟩ := ih hchild
        refine ⟨exploration, ⟨more + 1, ?_⟩, splits.of_single⟩
        rw [explore_of_single hending sole, replayed, explored]
      · have several : 2 ≤ children.length := by
          have positive := List.length_pos_iff.2 some
          have same := hchildren.length_eq
          omega
        refine ⟨_, ⟨1, explore_of_several hending hlength⟩, children, ?_, ?_, ?_⟩
        · rw [List.forall₂_map_left_iff]
          exact hchildren.imp fun move child h => ⟨fuel, by rw [length, h]⟩
        · rw [EventTree.forks_node, if_pos several, List.length_map, hchildren.length_eq]
          rfl
        · rw [Tree.size_node]
          omega

/-- Exploring comes to one thing only. -/
theorem Explores.unique {history : List μ} {state : σ} {one other : Exploration S μ}
    (h : machine.Explores maxSteps history state one)
    (h' : machine.Explores maxSteps history state other) : one = other := by
  obtain ⟨fuel, hone⟩ := h
  obtain ⟨more, hother⟩ := h'
  have one' := explore_mono (Nat.le_max_left fuel more) hone
  have other' := explore_mono (Nat.le_max_right fuel more) hother
  exact Option.some.inj (one'.symm.trans other')

end Machine

namespace Search

/-! ## §4. The forks between two states of a search. -/

/-- Between one state of a search and a later one, forks of these numbers of
moves were met: each of them replaces one branch by as many. -/
structure Forks (before after : Search S μ) (made : List Nat) : Prop where
  forks : after.forks = before.forks + made.length
  balance : after.explored + after.pending.length =
    before.explored + before.pending.length + (made.map (· - 1)).sum

theorem Forks.refl (search : Search S μ) : Forks search search [] :=
  ⟨rfl, rfl⟩

theorem Forks.trans {first second third : Search S μ} {made more : List Nat}
    (one : Forks first second made) (other : Forks second third more) :
    Forks first third (made ++ more) := by
  constructor
  · rw [other.forks, one.forks, List.length_append, Nat.add_assoc]
  · rw [other.balance, one.balance, List.map_append, List.sum_append, Nat.add_assoc]

theorem forks_of_ended {search : Search S μ} {history : List μ} {pending : List (List μ)}
    (h : search.pending = history :: pending) (emitted : List (List (ParseTree S))) :
    Forks search { search with pending, emitted, explored := search.explored + 1 } [] := by
  refine ⟨rfl, ?_⟩
  rw [h, List.length_cons]
  show search.explored + 1 + pending.length = search.explored + (pending.length + 1) + 0
  omega

theorem forks_of_forked {search : Search S μ} {history : List μ} {pending histories : List (List μ)}
    (h : search.pending = history :: pending) (some : 0 < histories.length) :
    Forks search { search with pending := histories ++ pending, forks := search.forks + 1 }
      [histories.length] := by
  refine ⟨rfl, ?_⟩
  rw [h, List.length_cons, List.map_singleton, List.sum_singleton]
  show search.explored + (histories ++ pending).length = _
  rw [List.length_append]
  omega

/-! ## §5. What a search has left to explore. -/

variable [DecidableEq S] {machine : Machine S σ μ} {options : SearchOptions}

/-- The branches left to explore have these trees, the next one first. -/
def Unexplored (machine : Machine S σ μ) (options : SearchOptions) (search : Search S μ)
    (trees : List (EventTree S)) : Prop :=
  List.Forall₂ (machine.Unfolds options.maxSteps) search.pending trees

/-- Handing out a result uses up the forks that lie before what is left then. -/
theorem unexplored_next? {inv : σ → Prop} (lawful : machine.Lawful inv) {fuel : Nat}
    {search after : Search S μ} {trees : List (EventTree S)} {result : Option (ParseResult S)}
    (unexplored : Unexplored machine options search trees)
    (h : next? machine options fuel search = some (result, after)) :
    ∃ made left, Forks search after made ∧ Unexplored machine options after left ∧
      trees.flatMap EventTree.forks = made ++ left.flatMap EventTree.forks := by
  -- By induction on the fuel; each branch explored takes the first tree from the list, and a fork
  -- puts its subtrees there.
  induction fuel generalizing search trees with
  | zero => cases h
  | succ fuel ih =>
    cases hpending : search.pending with
    | nil =>
      rw [next?, hpending] at h
      cases h
      exact ⟨[], trees, .refl _, unexplored, rfl⟩
    | cons history pending =>
      rw [Unexplored, hpending] at unexplored
      obtain ⟨tree, others, unfolds, rest, rfl⟩ := List.forall₂_cons_left_iff.1 unexplored
      obtain ⟨exploration, explores, splits⟩ := Machine.exists_exploration lawful unfolds
      rw [next?_cons hpending] at h
      cases hexplore : machine.explore options.maxSteps fuel history (machine.replay history) with
      | none =>
        rw [hexplore] at h
        cases h
      | some found =>
        rw [hexplore] at h
        cases Machine.Explores.unique explores ⟨fuel, hexplore⟩
        cases exploration with
        | forked histories =>
          obtain ⟨subtrees, unfolded, hforks, _⟩ := splits
          have positive : 0 < histories.length := by
            have := EventTree.two_le_of_mem_forks (hforks ▸ List.mem_cons_self)
            omega
          have unexplored : Unexplored machine options
              { search with pending := histories ++ pending, forks := search.forks + 1 }
              (subtrees ++ others) := List.rel_append unfolded rest
          obtain ⟨made, left, forks, unexplored, same⟩ := ih unexplored h
          refine ⟨_, left, (forks_of_forked hpending positive).trans forks, unexplored, ?_⟩
          rw [List.flatMap_cons, hforks, List.cons_append, ← List.flatMap_append, same]
          rfl
        | ended result =>
          have none : EventTree.forks tree = [] := splits
          rw [List.flatMap_cons, none, List.nil_append]
          dsimp only at h
          split at h
          · have unexplored : Unexplored machine options
                { search with pending, explored := search.explored + 1 } others := rest
            obtain ⟨made, left, forks, unexplored, same⟩ := ih unexplored h
            exact ⟨made, left, (forks_of_ended hpending _).trans forks, unexplored, same⟩
          · cases h
            exact ⟨[], others, forks_of_ended hpending _, rest, rfl⟩

/-- Stopped or not, a search that begins with a finite tree has finite trees left. -/
theorem Reachable.unexplored {inv : σ → Prop} (lawful : machine.Lawful inv) {tree : EventTree S}
    (unfolds : machine.Unfolds options.maxSteps [] tree) {search : Search S μ}
    (reachable : Reachable machine options search) :
    ∃ trees, Unexplored machine options search trees := by
  induction reachable with
  | initial => exact ⟨[tree], .cons unfolds .nil⟩
  | next _ handed ih =>
    obtain ⟨trees, unexplored⟩ := ih
    obtain ⟨_, left, _, unexplored', _⟩ := unexplored_next? lawful unexplored handed
    exact ⟨left, unexplored'⟩
  | stop => exact ⟨[], .nil⟩

/-- A search that has finite trees left has a next result, or none at all. -/
theorem exists_nexts {inv : σ → Prop} (lawful : machine.Lawful inv) {search : Search S μ}
    {trees : List (EventTree S)} (unexplored : Unexplored machine options search trees) :
    ∃ outcome, Nexts machine options search outcome := by
  -- The number of nodes left decreases with each branch that is explored.
  induction hsize : (trees.map Tree.size).sum using Nat.strongRecOn generalizing search trees with
  | ind size ih =>
    cases hpending : search.pending with
    | nil =>
      refine ⟨(none, search), 1, ?_⟩
      rw [next?, hpending]
    | cons history pending =>
      obtain ⟨later, rfl⟩ : ∃ later : Search S μ,
          search = { later with pending := history :: later.pending } :=
        ⟨{ search with pending }, by rw [← hpending]⟩
      obtain ⟨tree, others, unfolds, rest, rfl⟩ := List.forall₂_cons_left_iff.1 unexplored
      obtain ⟨exploration, explores, splits⟩ := Machine.exists_exploration lawful unfolds
      rw [List.map_cons, List.sum_cons] at hsize
      cases exploration with
      | forked histories =>
        obtain ⟨subtrees, unfolded, _, less⟩ := splits
        have left : Unexplored machine options
            { later with pending := histories ++ later.pending, forks := later.forks + 1 }
            (subtrees ++ others) := List.rel_append unfolded rest
        have fewer : ((subtrees ++ others).map Tree.size).sum < size := by
          rw [List.map_append, List.sum_append]
          omega
        obtain ⟨outcome, h⟩ := ih _ fewer left rfl
        exact ⟨outcome, Nexts.of_forked explores h⟩
      | ended result =>
        by_cases skips : Skips options later.emitted result
        · have left : Unexplored machine options { later with explored := later.explored + 1 } others :=
            rest
          have positive := tree.size_pos
          obtain ⟨outcome, h⟩ := ih _ (by omega) left rfl
          exact ⟨outcome, Nexts.of_skipped explores skips h⟩
        · exact ⟨_, Nexts.of_ended explores skips⟩

end Search

end ShiftReduce
