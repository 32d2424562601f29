/-
  ShiftReduce.Token
  ────────────────────────────────
  **TOKENS, THE STREAM THEY COME FROM, AND THE TREES BUILT FROM THEM.**

  A lexer delivers lexemes.  A token is a lexeme that knows where the next one
  stands in the stream, or a node over tokens made by a reduction.  The link
  is a place in the stream, not the next token itself: it is looked up in the
  stream, and finds nothing once there is no stream.  Two tokens are the same
  tree if they agree when the links are left out (`Token.erase`).
-/
import ShiftReduce.Symbol
import ShiftReduce.Tree

namespace ShiftReduce

variable {S : Type}

/-! ## §1. Lexemes and trees. -/

/-- A piece of the input: its kind, its text and its place in the source. -/
structure Lexeme (S : Type) where
  kind : S
  value : String
  position : Nat
  deriving DecidableEq

/-- The place right after the given one.  Places are words of 64 bits: after the last comes the first. -/
def nextPosition (position : Nat) : Nat :=
  (position + 1) % UInt64.size

/-- A parse tree; the lexeme of an inner node has no text of its own. -/
abbrev ParseTree (S : Type) := Tree (Lexeme S)

/-- A lexeme with the place of the next token in the stream, if there is one. -/
structure LinkedLexeme (S : Type) extends Lexeme S where
  next : Option Nat
  deriving DecidableEq

/-- A tree whose nodes know the token that comes after them. -/
abbrev Token (S : Type) := Tree (LinkedLexeme S)

namespace Token

/-- A token of its own, which no other one follows. -/
def single (lexeme : Lexeme S) : Token S :=
  .node { lexeme with next := none } []

/-- What kind of symbol the token stands for. -/
def kind (token : Token S) : S :=
  token.label.kind

/-- Where the token begins in the source. -/
def position (token : Token S) : Nat :=
  token.label.position

/-- The node of kind `kind` over the children: it begins where the first one
begins and is followed by what follows the last one. -/
def reduce (kind : S) (children : List (Token S)) : Token S :=
  .node
    { kind
      value := ""
      position := (children.head?.map position).getD 0
      next := children.getLast?.bind fun token => token.label.next }
    children

@[simp]
theorem kind_reduce (symbol : S) (children : List (Token S)) : (reduce symbol children).kind = symbol := rfl

@[simp]
theorem children_reduce (symbol : S) (children : List (Token S)) :
    (reduce symbol children).children = children := rfl

/-- The parse tree of a token: the same tree without the links. -/
def erase (token : Token S) : ParseTree S :=
  token.map LinkedLexeme.toLexeme

end Token

/-! ## §2. Streams. -/

/-- The lexemes to parse, in order. -/
structure TokenStream (S : Type) where
  lexemes : List (Lexeme S)
  deriving DecidableEq

namespace TokenStream

/-- The stream without tokens. -/
def empty : TokenStream S := ⟨[]⟩

/-- The stream of lexemes of the given kinds, which have the kind's text and
its index as their value and position. -/
def ofKinds [GrammarSymbol S] (kinds : List S) : TokenStream S :=
  ⟨kinds.mapIdx fun index kind => ⟨kind, GrammarSymbol.text kind, index⟩⟩

/-- The number of tokens. -/
def size (stream : TokenStream S) : Nat :=
  stream.lexemes.length

/-- There is no token. -/
def isEmpty (stream : TokenStream S) : Bool :=
  stream.lexemes.isEmpty

/-- The kinds of the tokens, in order. -/
def kinds (stream : TokenStream S) : List S :=
  stream.lexemes.map Lexeme.kind

/-- The token at an index, linked to the next one. -/
def get? (stream : TokenStream S) (index : Nat) : Option (Token S) :=
  stream.lexemes[index]?.map fun lexeme =>
    .node { lexeme with next := if index + 1 < stream.size then some (index + 1) else none } []

theorem get?_eq_none_iff {stream : TokenStream S} {index : Nat} :
    stream.get? index = none ↔ stream.size ≤ index := by
  simp [get?, size]

/-- The tokens, in order. -/
def tokens (stream : TokenStream S) : List (Token S) :=
  (List.range stream.size).filterMap stream.get?

end TokenStream

/-- The token after the given one in the stream. -/
def Token.lookahead? (token : Token S) (stream : TokenStream S) : Option (Token S) :=
  token.label.next.bind stream.get?

/-- The kind of the token after the given one in the stream. -/
def Token.lookaheadKind? (token : Token S) (stream : TokenStream S) : Option S :=
  (token.lookahead? stream).map Token.kind

end ShiftReduce
