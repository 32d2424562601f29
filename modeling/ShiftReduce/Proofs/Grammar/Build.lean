/-
  ShiftReduce.Proofs.Grammar.Build
  ────────────────────────────────
  **WHICH RULES MAKE A TABLE, AND WHICH ONE COMES FIRST.**

  Rules are sorted by number and checked on the way into a table.  The table
  holds them all, and the rule with the smallest number is the one that the
  start symbol is taken from.

  Main statements: `mem_rules_of_build`, `exists_build_iff`, `build_rules` and `start_of_build`.
-/
import ShiftReduce.DecisionTable
import ShiftReduce.Proofs.Grammar.Chains

namespace ShiftReduce

variable {S : Type}

/-! ## §1. Rules that pass the checks. -/

/-- Numbers that are all different are not repeated by neighbours. -/
theorem repeatedId?_eq_none {rules : List (Rule S)} (h : (rules.map Rule.id).Nodup) :
    repeatedId? rules = none := by
  match rules with
  | [] => rfl
  | [_] => rfl
  | a :: b :: rest =>
    obtain ⟨fresh, others⟩ := List.nodup_cons.1 h
    have different : a.id ≠ b.id := by
      intro same
      exact fresh (same ▸ List.mem_cons_self)
    rw [repeatedId?, if_neg different]
    exact repeatedId?_eq_none others

namespace RuleSet

theorem nodup_ids (rules : RuleSet S) : (rules.toList.map Rule.id).Nodup := by
  refine List.pairwise_map.2 (rules.ascending.imp fun less => ?_)
  exact Nat.ne_of_lt less

/-- The start symbol is taken from the rule with the smallest number. -/
theorem start_eq {rules : RuleSet S} {rule : Rule S} (hrule : rule ∈ rules.toList)
    (smallest : ∀ other ∈ rules.toList, rule.id ≤ other.id) : rules.start = rule.lhs := by
  obtain ⟨toList, ne_nil, _, ascending⟩ := rules
  cases toList with
  | nil => exact absurd rfl ne_nil
  | cons first rest =>
    show first.lhs = rule.lhs
    rcases List.mem_cons.1 hrule with rfl | later
    · rfl
    · have less := (List.pairwise_cons.1 ascending).1 rule later
      have le := smallest first List.mem_cons_self
      omega

/-- Rules are accepted if there is one, none is empty, and their numbers differ. -/
theorem exists_ofRules {rules : List (Rule S)} (some : rules ≠ [])
    (nonempty : ∀ rule ∈ rules, rule.rhs ≠ []) (nodup : (rules.map Rule.id).Nodup) :
    ∃ set, ofRules rules = .ok set := by
  have sorted := perm_sortById rules
  unfold ofRules
  split
  · next none =>
    rw [none] at sorted
    exact absurd sorted.nil_eq.symm some
  · next first rest heq =>
    rw [heq] at sorted
    split
    · next rule found =>
      have empty := List.find?_some found
      exact absurd (List.isEmpty_iff.1 empty)
        (nonempty rule (sorted.mem_iff.1 (List.mem_of_find?_eq_some found)))
    · split
      · next repeated =>
        rw [repeatedId?_eq_none ((sorted.map Rule.id).nodup_iff.2 nodup)] at repeated
        cases repeated
      · exact ⟨_, rfl⟩

theorem ext_toList {left right : RuleSet S} (h : left.toList = right.toList) : left = right := by
  cases left
  cases right
  cases h
  rfl

/-- A rule set is what its own rules make. -/
theorem ofRules_toList (rules : RuleSet S) : ofRules rules.toList = .ok rules := by
  obtain ⟨set, hset⟩ := exists_ofRules rules.ne_nil rules.rhs_ne_nil rules.nodup_ids
  have sorted := rules.ascending.imp Nat.le_of_lt
  rw [hset, ext_toList ((toList_of_ofRules hset).trans (sortById_of_sorted sorted))]

end RuleSet

variable [DecidableEq S] [GrammarSymbol S]

/-! ## §2. Tables that have been built. -/

namespace DecisionTable

variable {rules : List (Rule S)} {table : DecisionTable S}

/-- A table that has been built is the table of the rules in order. -/
theorem exists_of_build (h : build rules = .ok table) :
    ∃ set, RuleSet.ofRules rules = .ok set ∧ table = ofRuleSet set := by
  unfold build at h
  cases hset : RuleSet.ofRules rules with
  | error error =>
    rw [hset] at h
    cases h
  | ok set =>
    rw [hset] at h
    cases h
    exact ⟨set, rfl, rfl⟩

/-- A table is built from its own rules. -/
theorem build_rules (table : DecisionTable S) : build table.rules.toList = .ok table := by
  rw [build, RuleSet.ofRules_toList]
  exact congrArg Except.ok (ext_rules rfl)

/-- A table that has been built holds the rules it has been built from. -/
theorem mem_rules_of_build (h : build rules = .ok table) {rule : Rule S} :
    rule ∈ table.rules.toList ↔ rule ∈ rules := by
  obtain ⟨set, hset, rfl⟩ := exists_of_build h
  show rule ∈ set.toList ↔ _
  rw [RuleSet.toList_of_ofRules hset]
  exact (perm_sortById rules).mem_iff

/-- A table has no cycle of one-symbol rules that its list of rules does not have. -/
theorem acyclic_of_build (h : build rules = .ok table) (acyclic : Acyclic rules) :
    Acyclic table.rules.toList :=
  acyclic.mono fun _ => (mem_rules_of_build h).1

/-- Among the rules there is one that the start symbol is taken from. -/
theorem exists_start_of_build (h : build rules = .ok table) : ∃ rule ∈ rules, rule.lhs = table.start :=
  ⟨_, (mem_rules_of_build h).1 (List.head_mem table.rules.ne_nil), rfl⟩

theorem size_of_build (h : build rules = .ok table) : table.rules.size = rules.length := by
  obtain ⟨set, hset, rfl⟩ := exists_of_build h
  show set.toList.length = _
  rw [RuleSet.toList_of_ofRules hset]
  exact (perm_sortById rules).length_eq

/-- A table can be built if and only if there is a rule, none is empty, and their
numbers differ. -/
theorem exists_build_iff :
    (∃ table, build rules = .ok table) ↔
      rules ≠ [] ∧ (∀ rule ∈ rules, rule.rhs ≠ []) ∧ (rules.map Rule.id).Nodup := by
  constructor
  · intro h
    obtain ⟨table, built⟩ := h
    obtain ⟨set, hset, _⟩ := exists_of_build built
    have sorted := perm_sortById rules
    rw [← RuleSet.toList_of_ofRules hset] at sorted
    refine ⟨?_, fun rule hrule => set.rhs_ne_nil rule (sorted.mem_iff.2 hrule), ?_⟩
    · intro none
      rw [none] at sorted
      exact set.ne_nil sorted.eq_nil
    · exact (sorted.map Rule.id).nodup_iff.1 set.nodup_ids
  · intro h
    obtain ⟨some, nonempty, nodup⟩ := h
    obtain ⟨set, hset⟩ := RuleSet.exists_ofRules some nonempty nodup
    exact ⟨ofRuleSet set, by rw [build, hset]; rfl⟩

theorem start_of_build (h : build rules = .ok table) {rule : Rule S} (hrule : rule ∈ rules)
    (smallest : ∀ other ∈ rules, rule.id ≤ other.id) : table.start = rule.lhs := by
  refine RuleSet.start_eq ((mem_rules_of_build h).2 hrule) fun other hother => ?_
  exact smallest other ((mem_rules_of_build h).1 hother)

end DecisionTable

end ShiftReduce
