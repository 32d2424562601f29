/-
  ShiftReduce.Proofs.Bare.Results
  ────────────────────────────────
  **TREES, STREAMS AND FAILURES WITH NOTHING BUT THEIR KINDS.**

  What is bare has lost its texts, and its positions are all zero; the shapes,
  the kinds and the links stay.  Streams are alike when bare if they have the
  same kinds.  An inner node of a tree that is built by rules has no text and
  begins where its first child does, so the tree can be told from its leaves and
  from what is left of it when bare.

  Main statements: `TokenStream.get?_bare`, `Token.bare_reduce` and
  `ParseTree.eq_of_bare`.
-/
import ShiftReduce.ParseResult
import ShiftReduce.Proofs.Renaming.Results
import ShiftReduce.Proofs.Tree.Parse

namespace ShiftReduce

variable {S : Type}

/-! ## §1. Trees. -/

/-- The lexeme with nothing but its kind. -/
def Lexeme.bare (lexeme : Lexeme S) : Lexeme S :=
  { kind := lexeme.kind, value := "", position := 0 }

/-- The tree with nothing but the kinds of its nodes. -/
def ParseTree.bare (tree : ParseTree S) : ParseTree S :=
  tree.map Lexeme.bare

/-- The linked lexeme with its kind and its link. -/
def LinkedLexeme.bare (lexeme : LinkedLexeme S) : LinkedLexeme S :=
  { lexeme.toLexeme.bare with next := lexeme.next }

namespace Token

/-- The token with the kinds and the links of its nodes. -/
def bare (token : Token S) : Token S :=
  Tree.map LinkedLexeme.bare token

variable (token : Token S)

@[simp]
theorem bare_bare : token.bare.bare = token.bare :=
  Tree.map_map LinkedLexeme.bare LinkedLexeme.bare token

@[simp]
theorem kind_bare : token.bare.kind = token.kind :=
  congrArg (fun label => label.toLexeme.kind) (Tree.label_map LinkedLexeme.bare token)

@[simp]
theorem position_bare : token.bare.position = 0 :=
  congrArg (fun label => label.toLexeme.position) (Tree.label_map LinkedLexeme.bare token)

@[simp]
theorem next_label_bare : token.bare.label.next = token.label.next := by
  rw [bare, Tree.label_map]
  rfl

/-- The kinds of several tokens. -/
theorem map_kind_bare (tokens : List (Token S)) : (tokens.map bare).map kind = tokens.map kind := by
  rw [List.map_map]
  exact List.map_congr_left fun token _ => token.kind_bare

/-- The kind of the token found, if one was found. -/
theorem kind_found_bare (found : Option (Token S)) : (found.map bare).map kind = found.map kind := by
  rw [Option.map_map]
  exact congrArg (Option.map · found) (funext fun token => token.kind_bare)

/-- If a token was found, its position has become zero. -/
theorem position_found_bare (found : Option (Token S)) :
    (found.map bare).map position = (found.map position).map fun _ => 0 := by
  rw [Option.map_map, Option.map_map]
  exact congrArg (Option.map · found) (funext fun token => token.position_bare)

/-- A reduction makes the node of the bare children. -/
theorem bare_reduce (symbol : S) (children : List (Token S)) :
    (reduce symbol children).bare = reduce symbol (children.map bare) := by
  -- The node begins where its first child does, and links on from where its last one does.
  have position : ((children.map bare).head?.map position).getD 0 = 0 := by
    cases children with
    | nil => rfl
    | cons first rest => exact first.position_bare
  have link : ((children.map bare).getLast?.bind fun token => token.label.next) =
      children.getLast?.bind fun token => token.label.next := by
    rw [List.getLast?_map, Option.bind_map]
    exact congrArg (Option.bind children.getLast?) (funext fun token => token.next_label_bare)
  rw [bare, reduce, Tree.map_node, reduce, position, link]
  rfl

theorem erase_bare : token.bare.erase = ParseTree.bare token.erase := by
  rw [erase, bare, Tree.map_map, ParseTree.bare, erase, Tree.map_map]
  rfl

end Token

/-! ## §2. Streams. -/

namespace TokenStream

/-- The stream with nothing but the kinds of its tokens. -/
def bare (stream : TokenStream S) : TokenStream S :=
  ⟨stream.lexemes.map Lexeme.bare⟩

variable (stream : TokenStream S)

@[simp]
theorem size_bare : stream.bare.size = stream.size :=
  List.length_map Lexeme.bare

theorem get?_bare (index : Nat) : stream.bare.get? index = (stream.get? index).map Token.bare := by
  rw [get?, get?, size_bare, bare, List.getElem?_map, Option.map_map, Option.map_map]
  rfl

/-- Streams of the same kinds are the same when bare. -/
theorem bare_eq_of_kinds {left right : TokenStream S} (same : left.kinds = right.kinds) :
    left.bare = right.bare := by
  have made (stream : TokenStream S) :
      stream.bare = ⟨stream.kinds.map fun kind => { kind, value := "", position := 0 }⟩ := by
    rw [bare, kinds, List.map_map]
    rfl
  rw [made, made, same]

end TokenStream

theorem Token.lookaheadKind?_bare (token : Token S) (stream : TokenStream S) :
    token.bare.lookaheadKind? stream.bare = token.lookaheadKind? stream := by
  unfold Token.lookaheadKind? Token.lookahead?
  rw [token.next_label_bare]
  cases token.label.next with
  | none => rfl
  | some index =>
    rw [Option.bind_some, Option.bind_some, TokenStream.get?_bare, kind_found_bare]

/-! ## §3. Failures and results. -/

section
variable [GrammarSymbol S]

/-- The failure with its cause and its phase, and whether it has a position. -/
def ParseError.bare (error : ParseError S) : ParseError S :=
  { error with position := error.position.map fun _ => 0 }

@[simp]
theorem ParseError.bare_bare (error : ParseError S) : error.bare.bare = error.bare := by
  unfold bare
  dsimp only
  rw [Option.map_map]
  rfl

/-- The result with nothing but the kinds in its trees, and its failure bare. -/
def ParseResult.bare (result : ParseResult S) : ParseResult S :=
  { forest := result.forest.map ParseTree.bare
    error := result.error.map ParseError.bare }

@[simp]
theorem ParseResult.isAccepted_bare (result : ParseResult S) : result.bare.isAccepted = result.isAccepted :=
  Option.isNone_map

end

/-! ## §4. A tree from its leaves. -/

namespace ParseTree

/-- Bare leaves are the leaves of the bare tree. -/
theorem yield_bare (tree : ParseTree S) : tree.bare.yield = tree.yield.map Lexeme.bare :=
  Tree.yield_map Lexeme.bare tree

theorem length_yield_of_bare {tree other : ParseTree S} (same : tree.bare = other.bare) :
    tree.yield.length = other.yield.length := by
  have lengths := congrArg (fun tree => (Tree.yield tree).length) same
  rwa [yield_bare, yield_bare, List.length_map, List.length_map] at lengths

/-- Pieces are the same if they are alike one by one, have the same lengths then, and
make the same list when put together. -/
theorem eq_of_flatMap {α β γ : Type} {outline : α → γ} {pieces : α → List β} {elements others : List α}
    (alike : elements.map outline = others.map outline)
    (lengths : ∀ one other, outline one = outline other → (pieces one).length = (pieces other).length)
    (apart : ∀ one ∈ elements, ∀ other ∈ others, outline one = outline other →
      pieces one = pieces other → one = other)
    (same : elements.flatMap pieces = others.flatMap pieces) : elements = others := by
  -- By induction on the first list; the second one begins alike, so it is split off with it.
  induction elements generalizing others with
  | nil =>
    rw [List.map_nil, eq_comm, List.map_eq_nil_iff] at alike
    exact alike.symm
  | cons one elements ih =>
    cases others with
    | nil => cases alike
    | cons other others =>
      rw [List.map_cons, List.map_cons, List.cons.injEq] at alike
      rw [List.flatMap_cons, List.flatMap_cons] at same
      -- The first pieces have the same length, so the list is split at the same place.
      obtain ⟨first, rest⟩ := List.append_inj same (lengths one other alike.1)
      have heads : one = other := apart one (by simp) other (by simp) alike.1 first
      have tails : elements = others := by
        refine ih alike.2 ?_ rest
        intro one mem other mem'
        exact apart one (List.mem_cons_of_mem _ mem) other (List.mem_cons_of_mem _ mem')
      rw [heads, tails]

/-- Trees that are built by rules are the same if they are alike when bare and have
the same leaves. -/
theorem eq_of_bare {rules : List (Rule S)} {tree other : ParseTree S} (built : BuiltBy rules tree)
    (built' : BuiltBy rules other) (same : tree.bare = other.bare) (leaves : tree.yield = other.yield) :
    tree = other := by
  -- By induction on one tree; the shapes are the same, so the other one follows node by node.
  induction tree using Tree.induct generalizing other with
  | node label children ih =>
    obtain ⟨label', others⟩ := other
    rw [bare, bare, Tree.map_node, Tree.map_node] at same
    injection same with sameLabel sameChildren
    cases children with
    | nil =>
      rw [List.map_nil, eq_comm, List.map_eq_nil_iff] at sameChildren
      subst sameChildren
      rw [Tree.yield_leaf, Tree.yield_leaf, List.cons.injEq] at leaves
      rw [leaves.1]
    | cons child rest =>
      have inner : others ≠ [] := by
        rintro rfl
        cases sameChildren
      rw [Tree.yield_node _ (List.cons_ne_nil child rest), Tree.yield_node _ inner] at leaves
      have children : child :: rest = others := by
        refine eq_of_flatMap sameChildren (fun _ _ => length_yield_of_bare) ?_ leaves
        intro one mem other mem'
        exact ih one mem (built.child mem) (built'.child mem')
      subst children
      -- The label is made from the kind of the node and from its children.
      obtain ⟨rule, _, made, _⟩ := built.root (List.cons_ne_nil child rest)
      obtain ⟨rule', _, made', _⟩ := built'.root (List.cons_ne_nil child rest)
      have kinds : label.bare.kind = label'.bare.kind := congrArg Lexeme.kind sameLabel
      have symbol : label.kind = rule.lhs := congrArg kind made
      have symbol' : label'.kind = rule'.lhs := congrArg kind made'
      rw [made, made', ← symbol, ← symbol', show label.kind = label'.kind from kinds]
      rfl

end ParseTree

end ShiftReduce
