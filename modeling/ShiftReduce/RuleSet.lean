/-
  ShiftReduce.RuleSet
  ────────────────────────────────
  **VALIDATED RULE LISTS.**

  A `RuleSet` holds at least one rule, none with an empty right-hand side, in
  strictly ascending order of their numbers.  `RuleSet.ofRules` sorts and
  checks any list; the first rule's left-hand side is the start symbol.

  Main statements: `sorted_sortById` and `ascending_of_repeatedId?` (what passes
  the checks is in strictly ascending order).
-/
import ShiftReduce.Rule
import ShiftReduce.Symbol.Set

namespace ShiftReduce

variable {S : Type}

/-! ## §1. Sorting by number. -/

/-- The rules by ascending number; rules of one number stay in their order. -/
def sortById (rules : List (Rule S)) : List (Rule S) :=
  rules.mergeSort fun a b => a.id ≤ b.id

theorem perm_sortById (rules : List (Rule S)) : (sortById rules).Perm rules :=
  List.mergeSort_perm rules _

theorem sorted_sortById (rules : List (Rule S)) :
    (sortById rules).Pairwise fun a b => a.id ≤ b.id := by
  refine (List.pairwise_mergeSort ?_ ?_ rules).imp of_decide_eq_true
  · intro a b c below above
    exact decide_eq_true (Nat.le_trans (of_decide_eq_true below) (of_decide_eq_true above))
  · intro a b
    rw [Bool.or_eq_true, decide_eq_true_eq, decide_eq_true_eq]
    exact Nat.le_total a.id b.id

/-- Rules that are in order stay as they are. -/
theorem sortById_of_sorted {rules : List (Rule S)} (sorted : rules.Pairwise fun a b => a.id ≤ b.id) :
    sortById rules = rules :=
  List.mergeSort_of_pairwise (sorted.imp decide_eq_true)

/-- The first number that two neighbours share. -/
def repeatedId? : List (Rule S) → Option Nat
  | [] => none
  | [_] => none
  | a :: b :: rest => if a.id = b.id then some b.id else repeatedId? (b :: rest)

theorem ascending_of_repeatedId? {rules : List (Rule S)}
    (sorted : rules.Pairwise fun a b => a.id ≤ b.id) (h : repeatedId? rules = none) :
    rules.Pairwise fun a b => a.id < b.id := by
  induction rules with
  | nil => exact List.Pairwise.nil
  | cons a rest ih =>
    obtain ⟨below, tail⟩ := List.pairwise_cons.1 sorted
    cases rest with
    | nil => simp
    | cons b rest =>
      simp only [repeatedId?] at h
      split at h
      · cases h
      · next ne =>
        have tail' := ih tail h
        refine List.pairwise_cons.2 ⟨fun x hx => ?_, tail'⟩
        have le := below b (by simp)
        rcases List.mem_cons.1 hx with rfl | hx
        · omega
        · have := (List.pairwise_cons.1 tail').1 x hx
          omega

/-! ## §2. Rule sets. -/

/-- The rules of a grammar: at least one, none of them empty, in strictly
ascending order of their numbers. -/
structure RuleSet (S : Type) where
  toList : List (Rule S)
  ne_nil : toList ≠ []
  rhs_ne_nil : ∀ rule ∈ toList, rule.rhs ≠ []
  ascending : toList.Pairwise fun a b => a.id < b.id
  deriving DecidableEq

namespace RuleSet

/-- Sorts the rules by number and checks them: an empty list is refused first,
then the first rule with an empty right-hand side, then the first repeated number. -/
def ofRules (rules : List (Rule S)) : Except GrammarError (RuleSet S) :=
  match hsorted : sortById rules with
  | [] => .error .emptyGrammar
  | first :: rest =>
    match hempty : (first :: rest).find? (·.rhs.isEmpty) with
    | some rule => .error (.emptyRule rule.id)
    | none =>
      match hrepeated : repeatedId? (first :: rest) with
      | some id => .error (.duplicatedRule id)
      | none => .ok
        { toList := first :: rest
          ne_nil := List.cons_ne_nil first rest
          rhs_ne_nil := fun rule mem rhs => by
            have := List.find?_eq_none.1 hempty rule mem
            simp [rhs] at this
          ascending := ascending_of_repeatedId? (hsorted ▸ sorted_sortById rules) hrepeated }

/-- What is accepted is the sorted list. -/
theorem toList_of_ofRules {rules : List (Rule S)} {set : RuleSet S} (h : ofRules rules = .ok set) :
    set.toList = sortById rules := by
  unfold ofRules at h
  split at h
  · cases h
  · next heq =>
    split at h
    · cases h
    · split at h
      · cases h
      · cases h
        exact heq.symm

/-- The start symbol is the left-hand side of the first rule. -/
def start (rules : RuleSet S) : S :=
  (rules.toList.head rules.ne_nil).lhs

/-- The number of rules. -/
def size (rules : RuleSet S) : Nat :=
  rules.toList.length

/-- A rule set without rules; there is none. -/
def isEmpty (rules : RuleSet S) : Bool :=
  rules.toList.isEmpty

/-- The rule with the given number. -/
def get? (rules : RuleSet S) (id : Nat) : Option (Rule S) :=
  rules.toList.find? (·.id = id)

/-- The rules for the given symbol. -/
def rulesOf [DecidableEq S] (rules : RuleSet S) (symbol : S) : List (Rule S) :=
  rules.toList.filter (·.lhs = symbol)

/-- Every symbol that occurs in some rule. -/
def symbols [GrammarSymbol S] (rules : RuleSet S) : SymbolSet S :=
  SymbolSet.ofList (rules.toList.flatMap Rule.symbols)

end RuleSet

end ShiftReduce
