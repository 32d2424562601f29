/-
  ShiftReduce.Proofs.Grammar.Order
  ────────────────────────────────
  **WHAT THE ORDER OF THE RULES DECIDES.**

  Rules are sorted by their numbers before they are checked.  Whatever changes
  rules one by one, and keeps which of their numbers is smaller, can be done
  before or after sorting; and a list in another order is sorted to the same
  numbers, to the same rules if no number is repeated.  So a refusal depends on
  which rules there are, not on how they are listed.

  Main statements: `KeepsOrder.ofRules_map` and `DecisionTable.build_of_perm`.
-/
import ShiftReduce.Proofs.Grammar.Build

namespace ShiftReduce

variable {S T : Type}

/-! ## §1. Why rules are refused. -/

/-- Why rules in the order of their numbers are refused, if they are. -/
def refusal? (rules : List (Rule S)) : Option GrammarError :=
  if rules.isEmpty then some .emptyGrammar
  else
    ((rules.find? (·.rhs.isEmpty)).map fun rule => GrammarError.emptyRule rule.id).or
      ((repeatedId? rules).map GrammarError.duplicatedRule)

namespace RuleSet

variable {rules : List (Rule S)}

theorem ofRules_eq_error {error : GrammarError} (h : refusal? (sortById rules) = some error) :
    ofRules rules = .error error := by
  unfold ofRules
  split
  · next heq =>
    rw [heq] at h
    cases h
    rfl
  · next first rest heq =>
    rw [heq, refusal?, if_neg (by simp)] at h
    split
    · next hempty =>
      rw [hempty] at h
      cases h
      rfl
    · next hempty =>
      rw [hempty] at h
      split
      · next hrepeated =>
        rw [hrepeated] at h
        cases h
        rfl
      · next hrepeated =>
        rw [hrepeated] at h
        cases h

theorem exists_ofRules_of_refusal? (h : refusal? (sortById rules) = none) :
    ∃ set, ofRules rules = .ok set := by
  unfold ofRules
  split
  · next heq =>
    rw [heq] at h
    cases h
  · next first rest heq =>
    rw [heq, refusal?, if_neg (by simp), Option.or_eq_none_iff, Option.map_eq_none_iff,
      Option.map_eq_none_iff] at h
    split
    · next hempty =>
      rw [h.1] at hempty
      cases hempty
    · split
      · next hrepeated =>
        rw [h.2] at hrepeated
        cases hrepeated
      · exact ⟨_, rfl⟩

end RuleSet

/-! ## §2. Changing the rules one by one. -/

/-- The same refusal, with the number of the rule changed. -/
def GrammarError.renumber (g : Nat → Nat) : GrammarError → GrammarError
  | emptyGrammar => emptyGrammar
  | emptyRule id => emptyRule (g id)
  | duplicatedRule id => duplicatedRule (g id)
  | unknownSymbol name => unknownSymbol name

theorem GrammarError.renumber_id (error : GrammarError) : error.renumber id = error := by
  cases error <;> rfl

/-- A change of rules that leaves no right-hand side empty that was not, and
changes the numbers so that the smaller one stays the smaller one. -/
structure KeepsOrder (φ : Rule S → Rule T) (g : Nat → Nat) (rules : List (Rule S)) : Prop where
  id : ∀ rule, (φ rule).id = g rule.id
  empty : ∀ rule, (φ rule).rhs.isEmpty = rule.rhs.isEmpty
  lt : ∀ a ∈ rules, ∀ b ∈ rules, a.id < b.id → g a.id < g b.id

namespace KeepsOrder

variable {φ : Rule S → Rule T} {g : Nat → Nat} {rules others : List (Rule S)} {a b : Rule S}

theorem mono (keeps : KeepsOrder φ g rules) (sub : others ⊆ rules) : KeepsOrder φ g others where
  id := keeps.id
  empty := keeps.empty
  lt a ha b hb := keeps.lt a (sub ha) b (sub hb)

theorem le_iff (keeps : KeepsOrder φ g rules) (ha : a ∈ rules) (hb : b ∈ rules) :
    (φ a).id ≤ (φ b).id ↔ a.id ≤ b.id := by
  rw [keeps.id, keeps.id]
  constructor
  · intro h
    refine Nat.le_of_not_lt fun above => ?_
    exact Nat.not_lt.2 h (keeps.lt b hb a ha above)
  · intro h
    rcases Nat.lt_or_eq_of_le h with below | same
    · exact Nat.le_of_lt (keeps.lt a ha b hb below)
    · exact Nat.le_of_eq (congrArg g same)

theorem eq_iff (keeps : KeepsOrder φ g rules) (ha : a ∈ rules) (hb : b ∈ rules) :
    (φ a).id = (φ b).id ↔ a.id = b.id := by
  rw [Nat.le_antisymm_iff, Nat.le_antisymm_iff, keeps.le_iff ha hb, keeps.le_iff hb ha]

/-- Every rule keeps its place. -/
theorem sortById_map (keeps : KeepsOrder φ g rules) :
    sortById (rules.map φ) = (sortById rules).map φ := by
  refine (List.map_mergeSort fun a ha b hb => ?_).symm
  exact decide_eq_decide.2 (keeps.le_iff ha hb).symm

theorem repeatedId?_map (keeps : KeepsOrder φ g rules) :
    repeatedId? (rules.map φ) = (repeatedId? rules).map g := by
  induction rules with
  | nil => rfl
  | cons first rest ih =>
    have ih := ih (keeps.mono (List.subset_cons_self first rest))
    cases rest with
    | nil => rfl
    | cons second rest =>
      rw [List.map_cons] at ih
      rw [List.map_cons, List.map_cons, repeatedId?, ih, repeatedId?]
      by_cases same : first.id = second.id
      · rw [if_pos same, if_pos ((keeps.eq_iff (by simp) (by simp)).2 same), keeps.id]
        rfl
      · rw [if_neg same, if_neg (mt (keeps.eq_iff (by simp) (by simp)).1 same)]

theorem refusal?_map (keeps : KeepsOrder φ g rules) :
    refusal? (rules.map φ) = (refusal? rules).map (GrammarError.renumber g) := by
  have sameEmpty : ((fun rule : Rule T => rule.rhs.isEmpty) ∘ φ) = fun rule => rule.rhs.isEmpty :=
    funext keeps.empty
  have sameId : ((fun rule : Rule T => GrammarError.emptyRule rule.id) ∘ φ) =
      fun rule => GrammarError.emptyRule (g rule.id) :=
    funext fun rule => congrArg GrammarError.emptyRule (keeps.id rule)
  unfold refusal?
  rw [List.isEmpty_map, List.find?_map, sameEmpty, keeps.repeatedId?_map, Option.map_map, sameId]
  split
  · rfl
  · rw [Option.map_or, Option.map_map, Option.map_map, Option.map_map]
    rfl

/-- Changed rules are refused for the same reason, or make the set of the changed rules. -/
theorem ofRules_map (keeps : KeepsOrder φ g rules) :
    match RuleSet.ofRules rules with
    | .error error => RuleSet.ofRules (rules.map φ) = .error (error.renumber g)
    | .ok set => ∃ image, RuleSet.ofRules (rules.map φ) = .ok image ∧ image.toList = set.toList.map φ := by
  have same := (keeps.mono (perm_sortById rules).subset).refusal?_map
  rw [← keeps.sortById_map] at same
  cases hrefusal : refusal? (sortById rules) with
  | some error =>
    rw [hrefusal] at same
    rw [RuleSet.ofRules_eq_error hrefusal]
    exact RuleSet.ofRules_eq_error same
  | none =>
    rw [hrefusal] at same
    obtain ⟨set, hset⟩ := RuleSet.exists_ofRules_of_refusal? hrefusal
    obtain ⟨image, himage⟩ := RuleSet.exists_ofRules_of_refusal? same
    rw [hset]
    refine ⟨image, himage, ?_⟩
    rw [RuleSet.toList_of_ofRules himage, keeps.sortById_map, RuleSet.toList_of_ofRules hset]

end KeepsOrder

/-! ## §3. Listing the rules in another order. -/

/-- Which number is repeated first depends on the numbers only. -/
theorem repeatedId?_congr {rules others : List (Rule S)} (same : others.map Rule.id = rules.map Rule.id) :
    repeatedId? others = repeatedId? rules := by
  induction rules generalizing others with
  | nil => rw [List.map_eq_nil_iff.1 same]
  | cons first rest ih =>
    obtain ⟨first', rest', rfl, firsts, rests⟩ := List.map_eq_cons_iff.1 same
    have ih := ih rests
    cases rest with
    | nil => rw [List.map_eq_nil_iff.1 rests]; rfl
    | cons second rest =>
      obtain ⟨second', rest', rfl, seconds, _⟩ := List.map_eq_cons_iff.1 rests
      rw [repeatedId?, repeatedId?, firsts, seconds, ih]

/-- Rules in order of their numbers have the same numbers in the same order, if
they are the same rules. -/
theorem map_id_eq_of_perm {rules others : List (Rule S)} (perm : others.Perm rules)
    (sorted' : others.Pairwise fun a b => a.id ≤ b.id) (sorted : rules.Pairwise fun a b => a.id ≤ b.id) :
    others.map Rule.id = rules.map Rule.id := by
  refine (perm.map Rule.id).eq_of_pairwise ?_ (List.pairwise_map.2 sorted') (List.pairwise_map.2 sorted)
  intro a b _ _ le ge
  exact Nat.le_antisymm le ge

variable {rules others : List (Rule S)}

theorem perm_sortById_of_perm (perm : others.Perm rules) : (sortById others).Perm (sortById rules) :=
  (perm_sortById others).trans (perm.trans (perm_sortById rules).symm)

/-- The number that a refusal mentions is the smallest one of its kind. -/
theorem refusal?_sortById_of_perm (perm : others.Perm rules) :
    refusal? (sortById others) = refusal? (sortById rules) := by
  have sorted := perm_sortById_of_perm perm
  have numbers := map_id_eq_of_perm sorted (sorted_sortById others) (sorted_sortById rules)
  -- The first empty rule is the head of those that are empty, which are in order as well.
  have empty : ((sortById others).find? (·.rhs.isEmpty)).map Rule.id =
      ((sortById rules).find? (·.rhs.isEmpty)).map Rule.id := by
    rw [← List.head?_filter, ← List.head?_filter, ← List.head?_map, ← List.head?_map,
      map_id_eq_of_perm (sorted.filter _) ((sorted_sortById others).filter _)
        ((sorted_sortById rules).filter _)]
  have wording : (fun rule : Rule S => GrammarError.emptyRule rule.id) =
      GrammarError.emptyRule ∘ Rule.id := rfl
  unfold refusal?
  rw [repeatedId?_congr numbers, wording, ← Option.map_map, ← Option.map_map, empty, sorted.isEmpty_eq]

/-- Listed in another order, rules are refused for the same reason or make the same set. -/
theorem RuleSet.ofRules_of_perm (perm : others.Perm rules) : ofRules others = ofRules rules := by
  have same := refusal?_sortById_of_perm perm
  cases hrefusal : refusal? (sortById rules) with
  | some error => rw [ofRules_eq_error hrefusal, ofRules_eq_error (same.trans hrefusal)]
  | none =>
    obtain ⟨set, hset⟩ := exists_ofRules_of_refusal? hrefusal
    obtain ⟨set', hset'⟩ := exists_ofRules_of_refusal? (same.trans hrefusal)
    rw [hset, hset']
    refine congrArg Except.ok (ext_toList ?_)
    -- Without a repeated number there is only one way to put the rules in order.
    have sorted := perm_sortById_of_perm perm
    rw [← toList_of_ofRules hset, ← toList_of_ofRules hset'] at sorted
    refine sorted.eq_of_pairwise ?_ set'.ascending set.ascending
    intro a b _ _ less more
    exact absurd more (Nat.lt_asymm less)

theorem DecisionTable.build_of_perm [DecidableEq S] [GrammarSymbol S] (perm : others.Perm rules) :
    build others = build rules := by
  rw [build, build, RuleSet.ofRules_of_perm perm]

end ShiftReduce
