/-
  ShiftReduce.Proofs.Renaming.Results
  ────────────────────────────────
  **RENAMED STREAMS, TREES AND FAILURES.**

  Texts, places and phases stay, symbols are replaced, and a set of expected
  symbols becomes the set of their images.  Trees that differ have images that
  differ.

  Main statements: `TokenStream.get?_rename`, `Token.rename_reduce`,
  `ParseTree.rename_injective` and `ErrorKind.expected_rename`.
-/
import ShiftReduce.ParseResult
import ShiftReduce.Proofs.Renaming.Symbols
import ShiftReduce.Proofs.Tree.Nodes
import ShiftReduce.UndoStack

namespace ShiftReduce

variable {S T : Type} [GrammarSymbol S] [GrammarSymbol T] (f : Renaming S T)

/-! ## §1. Trees. -/

/-- The lexeme with its kind renamed. -/
def Lexeme.rename (lexeme : Lexeme S) : Lexeme T :=
  { kind := f lexeme.kind
    value := lexeme.value
    position := lexeme.position }

theorem Lexeme.rename_injective : Function.Injective (Lexeme.rename f) := by
  intro left right same
  obtain ⟨kind, value, position⟩ := left
  obtain ⟨kind', value', position'⟩ := right
  obtain rfl : kind = kind' := f.injective (congrArg Lexeme.kind same)
  obtain rfl : value = value' := congrArg Lexeme.value same
  obtain rfl : position = position' := congrArg Lexeme.position same
  rfl

/-- The tree with the kind of every node renamed. -/
def ParseTree.rename (tree : ParseTree S) : ParseTree T :=
  tree.map (Lexeme.rename f)

theorem ParseTree.rename_injective : Function.Injective (ParseTree.rename f) :=
  Tree.map_injective (Lexeme.rename_injective f)

/-- The linked lexeme with its kind renamed; the link stays. -/
def LinkedLexeme.rename (lexeme : LinkedLexeme S) : LinkedLexeme T :=
  { lexeme.toLexeme.rename f with next := lexeme.next }

namespace Token

/-- The token with the kind of every node renamed. -/
def rename (token : Token S) : Token T :=
  Tree.map (LinkedLexeme.rename f) token

variable (token : Token S)

@[simp]
theorem kind_rename : (token.rename f).kind = f token.kind :=
  congrArg (fun label => label.toLexeme.kind) (Tree.label_map (LinkedLexeme.rename f) token)

@[simp]
theorem position_rename : (token.rename f).position = token.position :=
  congrArg (fun label => label.toLexeme.position) (Tree.label_map (LinkedLexeme.rename f) token)

@[simp]
theorem next_label_rename : (token.rename f).label.next = token.label.next :=
  congrArg LinkedLexeme.next (Tree.label_map (LinkedLexeme.rename f) token)

/-- The kinds of several tokens. -/
theorem map_kind_rename (tokens : List (Token S)) :
    (tokens.map (rename f)).map kind = (tokens.map kind).map f := by
  rw [List.map_map, List.map_map]
  exact List.map_congr_left fun token _ => token.kind_rename f

/-- The kind of the token found, if one was found. -/
theorem kind_found_rename (found : Option (Token S)) :
    (found.map (rename f)).map kind = (found.map kind).map f := by
  rw [Option.map_map, Option.map_map]
  exact congrArg (Option.map · found) (funext fun token => token.kind_rename f)

theorem position_found_rename (found : Option (Token S)) :
    (found.map (rename f)).map position = found.map position := by
  rw [Option.map_map]
  exact congrArg (Option.map · found) (funext fun token => token.position_rename f)

theorem rename_reduce (symbol : S) (children : List (Token S)) :
    (reduce symbol children).rename f = reduce (f symbol) (children.map (rename f)) := by
  rw [rename, reduce, Tree.map_node, reduce, List.head?_map, List.getLast?_map, Option.map_map,
    Option.bind_map]
  have positions : position ∘ rename f = position := funext fun token => token.position_rename f
  have links : (fun token : Token T => token.label.next) ∘ rename f = fun token => token.label.next :=
    funext fun token => token.next_label_rename f
  rw [positions, links]
  rfl

theorem erase_rename : (token.rename f).erase = ParseTree.rename f token.erase := by
  rw [erase, rename, Tree.map_map, ParseTree.rename, erase, Tree.map_map]
  rfl

end Token

/-! ## §2. Streams. -/

namespace TokenStream

/-- The stream with the kind of every token renamed. -/
def rename (stream : TokenStream S) : TokenStream T :=
  ⟨stream.lexemes.map (Lexeme.rename f)⟩

variable (stream : TokenStream S)

@[simp]
theorem size_rename : (stream.rename f).size = stream.size :=
  List.length_map (Lexeme.rename f)

theorem get?_rename (index : Nat) : (stream.rename f).get? index = (stream.get? index).map (Token.rename f) := by
  rw [get?, get?, size_rename, rename, List.getElem?_map, Option.map_map, Option.map_map]
  rfl

end TokenStream

theorem Token.lookaheadKind?_rename (token : Token S) (stream : TokenStream S) :
    (token.rename f).lookaheadKind? (stream.rename f) = (token.lookaheadKind? stream).map f := by
  unfold Token.lookaheadKind? Token.lookahead?
  rw [token.next_label_rename]
  cases token.label.next with
  | none => rfl
  | some index =>
    rw [Option.bind_some, Option.bind_some, TokenStream.get?_rename, Token.kind_found_rename]

/-! ## §3. Stacks. -/

namespace UndoStack

variable {α β : Type} (g : α → β) (stack : UndoStack α)

/-- The stack with every item changed by `g`, the logged ones too. -/
def map : UndoStack β :=
  ⟨stack.items.map g, stack.popped.map g⟩

theorem pop?_map : (stack.map g).pop? = stack.pop?.map fun popped => (g popped.1, popped.2.map g) := by
  obtain ⟨items, popped⟩ := stack
  cases items <;> rfl

@[simp]
theorem commit_map : (stack.map g).commit = (stack.commit.1.map g, stack.commit.2.map g) := by
  simp [map, commit]

@[simp]
theorem rollback_map : (stack.map g).rollback = stack.rollback.map g := by
  simp [map, rollback]

@[simp]
theorem peek?_map : (stack.map g).peek? = stack.peek?.map g := List.head?_map

@[simp]
theorem size_map : (stack.map g).size = stack.size := List.length_map g

@[simp]
theorem toList_map : (stack.map g).toList = stack.toList.map g := List.map_reverse.symm

@[simp]
theorem drain_map : (stack.map g).drain = stack.drain.map g := by
  rw [drain, drain, rollback_map]
  rfl

end UndoStack

/-! ## §4. Failures and results. -/

namespace ErrorKind

/-- The cause with its symbols renamed; the symbols of a stack keep their order. -/
def rename : ErrorKind S → ErrorKind T
  | endOfStream => endOfStream
  | reductionMismatch expected actual => reductionMismatch (expected.rename f) (actual.map f)
  | hintMismatch expected actual => hintMismatch (f expected) (actual.map f)
  | noApplicableRule symbol expected => noApplicableRule (symbol.map f) (expected.rename f)
  | unfinishedParse stack => unfinishedParse (stack.map f)

/-- What was expected is renamed, and then listed in the new order. -/
theorem expected_rename (kind : ErrorKind S) :
    (kind.rename f).expected = (SymbolSet.ofList (kind.expected.map f)).toList := by
  cases kind <;> rfl

theorem actual_rename (kind : ErrorKind S) : (kind.rename f).actual = kind.actual.map f := by
  cases kind <;> rfl

end ErrorKind

/-- The failure with the symbols of its cause renamed. -/
def ParseError.rename (error : ParseError S) : ParseError T :=
  { kind := error.kind.rename f
    phase := error.phase
    position := error.position }

namespace ParseResult

/-- The result with its trees and its failure renamed. -/
def rename (result : ParseResult S) : ParseResult T :=
  { forest := result.forest.map (ParseTree.rename f)
    error := result.error.map (ParseError.rename f) }

@[simp]
theorem isAccepted_rename (result : ParseResult S) : (result.rename f).isAccepted = result.isAccepted :=
  Option.isNone_map

end ParseResult

/-! ## §5. Renaming nothing. -/

theorem ParseTree.rename_refl : ParseTree.rename (Renaming.refl : Renaming S S) = id :=
  Tree.map_id

theorem ErrorKind.rename_refl : ErrorKind.rename (Renaming.refl : Renaming S S) = id := by
  have apply : (Renaming.refl : Renaming S S).toFun = id := rfl
  funext kind
  cases kind <;> simp [ErrorKind.rename, SymbolSet.rename_refl, apply]

theorem ParseError.rename_refl : ParseError.rename (Renaming.refl : Renaming S S) = id := by
  funext error
  rw [ParseError.rename, ErrorKind.rename_refl]
  rfl

theorem ParseResult.rename_refl : ParseResult.rename (Renaming.refl : Renaming S S) = id := by
  funext result
  rw [ParseResult.rename, ParseTree.rename_refl, ParseError.rename_refl, List.map_id, Option.map_id]
  rfl

end ShiftReduce
