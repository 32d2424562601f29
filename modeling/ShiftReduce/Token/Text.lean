/-
  ShiftReduce.Token.Text
  ────────────────────────────────
  **SHOWING PARSE TREES.**

  As text, every node has a line of its own, indented by its depth; a leaf adds
  its value unless that is just the text of its kind.  As JSON, a node is an
  object with its children in it.
-/
import ShiftReduce.Symbol.Named
import ShiftReduce.Text.Quoted
import ShiftReduce.Token

namespace ShiftReduce

/-! ## §1. Indented text. -/

namespace ParseTree

variable {S : Type} [GrammarSymbol S]

/-- The line of a node at the given depth. -/
def lineText (depth : Nat) (node : ParseTree S) : String :=
  let kind := GrammarSymbol.text node.label.kind
  let value :=
    if node.isLeaf && node.label.value ≠ kind then " " ++ quoted node.label.value else ""
  String.ofList (List.replicate (2 * depth) ' ') ++ kind ++ value ++ "\n"

/-- The tree, a line for each node in pre-order. -/
def text (tree : ParseTree S) : String :=
  String.join (tree.walk.map fun entry => lineText entry.1 entry.2)

end ParseTree

/-! ## §2. JSON. -/

namespace ParseTree

mutual

/-- A tree of named symbols as an object. -/
def toJson : ParseTree Symbol → Json
  | .node lexeme children =>
    .object
      [("kind", lexeme.kind.toJson), ("value", .string lexeme.value),
        ("position", .nat lexeme.position), ("children", .array (toJsonAll children))]

/-- The objects of several trees. -/
def toJsonAll : List (ParseTree Symbol) → List Json
  | [] => []
  | tree :: rest => toJson tree :: toJsonAll rest

end

end ParseTree

end ShiftReduce
