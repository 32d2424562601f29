/-
  ShiftReduce.Proofs.Search.Verdict
  ────────────────────────────────
  **WHAT A VERDICT SAYS OF THE RESULTS.**

  A verdict depends on the first trees of the accepted results, listed without
  repetition, and on the failures if there is none.  Skipping repeated forests
  in the search changes neither.

  Main statements: `ofResults_eq`, `nodup_treesOf` and `decides_ofResults`, and
  `ofResults_reported`.
-/
import Mathlib.Data.List.Induction
import ShiftReduce.Proofs.Search.Driver

namespace ShiftReduce

variable {S : Type} [GrammarSymbol S]

/-! ## §1. What a verdict says. -/

namespace Verdict

/-- What a verdict says, in terms of the trees that were found. -/
structure Decides (verdict : Verdict S) (found : ParseTree S → Prop) : Prop where
  rejected : (∃ errors, verdict = .rejected errors) ↔ ∀ tree, ¬found tree
  accepted : ∀ tree, verdict = .accepted tree ↔ ∀ other, found other ↔ other = tree
  ambiguous : (∃ trees, verdict = .ambiguous trees) ↔
    ∃ tree other, tree ≠ other ∧ found tree ∧ found other
  listed : ∀ trees, verdict = .ambiguous trees → trees.Nodup ∧ ∀ tree, tree ∈ trees ↔ found tree

theorem decides_rejected {errors : List (ParseError S)} {found : ParseTree S → Prop}
    (none : ∀ tree, ¬found tree) : (rejected errors : Verdict S).Decides found where
  rejected := ⟨fun _ => none, fun _ => ⟨errors, rfl⟩⟩
  accepted := by
    intro tree
    constructor
    · intro h
      cases h
    · intro only
      exact absurd ((only tree).2 rfl) (none tree)
  ambiguous := by
    constructor
    · intro h
      obtain ⟨_, h⟩ := h
      cases h
    · intro h
      obtain ⟨tree, _, _, htree, _⟩ := h
      exact absurd htree (none tree)
  listed := by
    intro trees h
    cases h

theorem decides_accepted {tree : ParseTree S} {found : ParseTree S → Prop}
    (only : ∀ other, found other ↔ other = tree) : (accepted tree : Verdict S).Decides found where
  rejected := by
    constructor
    · intro h
      obtain ⟨_, h⟩ := h
      cases h
    · intro none
      exact absurd ((only tree).2 rfl) (none tree)
  accepted := by
    intro other
    constructor
    · intro h
      cases h
      exact only
    · intro only'
      rw [(only' tree).1 ((only tree).2 rfl)]
  ambiguous := by
    constructor
    · intro h
      obtain ⟨_, h⟩ := h
      cases h
    · intro h
      obtain ⟨first, second, different, hfirst, hsecond⟩ := h
      exact absurd (((only first).1 hfirst).trans ((only second).1 hsecond).symm) different
  listed := by
    intro trees h
    cases h

theorem decides_ambiguous {first second : ParseTree S} {others : List (ParseTree S)}
    {found : ParseTree S → Prop} (nodup : (first :: second :: others).Nodup)
    (listed : ∀ tree, tree ∈ first :: second :: others ↔ found tree) :
    (ambiguous (first :: second :: others) : Verdict S).Decides found := by
  have hfirst : found first := (listed first).1 (by simp)
  have hsecond : found second := (listed second).1 (by simp)
  have different : first ≠ second := by
    intro same
    exact (List.nodup_cons.1 nodup).1 (same ▸ List.mem_cons_self)
  constructor
  · constructor
    · intro h
      obtain ⟨_, h⟩ := h
      cases h
    · intro none
      exact absurd hfirst (none first)
  · intro tree
    constructor
    · intro h
      cases h
    · intro only
      exact absurd (((only first).1 hfirst).trans ((only second).1 hsecond).symm) different
  · exact ⟨fun _ => ⟨first, second, different, hfirst, hsecond⟩, fun _ => ⟨_, rfl⟩⟩
  · intro trees h
    cases h
    exact ⟨nodup, listed⟩

variable [DecidableEq S]

/-! ## §2. The trees of some results. -/

/-- The tree that a result counts with, if it has no failure. -/
def firstTree? (result : ParseResult S) : Option (ParseTree S) :=
  match result.error with
  | none => result.forest.head?
  | some _ => none

omit [DecidableEq S] in
theorem firstTree?_eq_some {result : ParseResult S} {tree : ParseTree S} :
    firstTree? result = some tree ↔ result.error = none ∧ result.forest.head? = some tree := by
  unfold firstTree?
  cases result.error with
  | none => simp
  | some error => simp

section
variable {α : Type} [DecidableEq α]

omit [GrammarSymbol S] [DecidableEq S]

/-- An element added at the end is kept if it has not occurred before. -/
theorem eraseDups_concat (elements : List α) (last : α) :
    (elements ++ [last]).eraseDups =
      if last ∈ elements.eraseDups then elements.eraseDups else elements.eraseDups ++ [last] := by
  rw [List.eraseDups_append]
  by_cases known : last ∈ elements
  · have nothing : [last].removeAll elements = [] := by
      unfold List.removeAll
      exact List.filter_cons_of_neg (by simp [known])
    rw [nothing, if_pos (List.mem_eraseDups.2 known), List.eraseDups_nil, List.append_nil]
  · have kept : [last].removeAll elements = [last] := by
      unfold List.removeAll
      exact List.filter_cons_of_pos (by simp [known])
    rw [kept, if_neg (fun mem => known (List.mem_eraseDups.1 mem)), List.eraseDups_cons, List.filter_nil,
      List.eraseDups_nil]

/-- A map that keeps some elements apart keeps which of them are repetitions. -/
theorem eraseDups_map_of_apart {β : Type} [DecidableEq β] {g : α → β} {elements : List α}
    (apart : ∀ one ∈ elements, ∀ other ∈ elements, g one = g other → one = other) :
    (elements.map g).eraseDups = elements.eraseDups.map g := by
  induction elements using List.reverseRecOn with
  | nil => rfl
  | append_singleton elements last ih =>
    have before : ∀ element ∈ elements.eraseDups, element ∈ elements ++ [last] := by
      intro element mem
      exact List.mem_append_left _ (List.mem_eraseDups.1 mem)
    have known : g last ∈ elements.eraseDups.map g ↔ last ∈ elements.eraseDups := by
      constructor
      · intro mem
        obtain ⟨element, hmem, same⟩ := List.mem_map.1 mem
        rw [← apart element (before element hmem) last List.mem_concat_self same]
        exact hmem
      · exact fun mem => List.mem_map.2 ⟨last, mem, rfl⟩
    have earlier := ih fun one mem other mem' =>
      apart one (List.mem_append_left _ mem) other (List.mem_append_left _ mem')
    rw [List.map_append, List.map_singleton, eraseDups_concat, eraseDups_concat, earlier]
    by_cases mem : last ∈ elements.eraseDups
    · rw [if_pos (known.2 mem), if_pos mem]
    · rw [if_neg (mt known.1 mem), if_neg mem, List.map_append, List.map_singleton]

theorem nodup_eraseDups (elements : List α) : elements.eraseDups.Nodup := by
  induction elements using List.reverseRecOn with
  | nil => exact List.nodup_nil
  | append_singleton elements last ih =>
    rw [eraseDups_concat]
    split
    · exact ih
    · next fresh =>
      refine List.nodup_append.2 ⟨ih, by simp, ?_⟩
      intro element mem other hother same
      rw [List.mem_singleton.1 hother] at same
      exact fresh (same ▸ mem)

end

/-- The tree of one more result is added if it is new. -/
theorem treesOf_concat (results : List (ParseResult S)) (result : ParseResult S) :
    treesOf (results ++ [result]) =
      match firstTree? result with
      | none => treesOf results
      | some tree => if tree ∈ treesOf results then treesOf results else treesOf results ++ [tree] := by
  unfold treesOf
  rw [List.foldl_append, List.foldl_cons, List.foldl_nil]
  obtain ⟨forest, error⟩ := result
  cases error with
  | some error => rfl
  | none =>
    cases forest with
    | nil => rfl
    | cons tree rest => rfl

/-- The trees are the first trees of the results without a failure, each of them
where it occurs first. -/
theorem treesOf_eq_eraseDups (results : List (ParseResult S)) :
    treesOf results = (results.filterMap firstTree?).eraseDups := by
  -- The induction adds results at the end, as the trees are collected.
  induction results using List.reverseRecOn with
  | nil => rfl
  | append_singleton results result ih =>
    rw [treesOf_concat, ih, List.filterMap_append]
    cases hfirst : firstTree? result with
    | none => simp [hfirst]
    | some tree =>
      rw [List.filterMap_cons_some hfirst, List.filterMap_nil, eraseDups_concat]

/-- The trees are those of the accepted results. -/
theorem mem_treesOf {results : List (ParseResult S)} {tree : ParseTree S} :
    tree ∈ treesOf results ↔
      ∃ result ∈ results, result.error = none ∧ result.forest.head? = some tree := by
  rw [treesOf_eq_eraseDups, List.mem_eraseDups, List.mem_filterMap]
  simp only [firstTree?_eq_some]

/-- No tree is listed twice. -/
theorem nodup_treesOf (results : List (ParseResult S)) : (treesOf results).Nodup := by
  rw [treesOf_eq_eraseDups]
  exact nodup_eraseDups _

/-- What a verdict says, by the number of different trees: none, one or several. -/
theorem ofResults_eq (results : List (ParseResult S)) :
    ofResults results =
      match (results.filterMap firstTree?).eraseDups with
      | [] => .rejected (results.filterMap ParseResult.error)
      | [tree] => .accepted tree
      | trees => .ambiguous trees := by
  unfold ofResults
  rw [treesOf_eq_eraseDups]
  rfl

/-- The verdict on some results decides with which trees they were accepted. -/
theorem decides_ofResults {results : List (ParseResult S)} {found : ParseTree S → Prop}
    (h : ∀ tree, tree ∈ treesOf results ↔ found tree) : (ofResults results).Decides found := by
  have nodup := nodup_treesOf results
  unfold ofResults
  match htrees : treesOf results with
  | [] =>
    refine decides_rejected fun tree htree => ?_
    have := (h tree).2 htree
    rw [htrees] at this
    exact absurd this List.not_mem_nil
  | [tree] =>
    refine decides_accepted fun other => ?_
    rw [← h other, htrees, List.mem_singleton]
  | first :: second :: others =>
    rw [htrees] at nodup
    refine decides_ambiguous nodup fun tree => ?_
    rw [← h tree, htrees]

end Verdict

/-! ## §3. Results that are skipped. -/

namespace Search

variable [DecidableEq S] {options : SearchOptions}

/-- Without deduplication nothing is skipped. -/
theorem reported_eq_self (h : options.deduplicate = false) (emitted : List (List (ParseTree S)))
    (results : List (ParseResult S)) : reported options emitted results = results := by
  induction results generalizing emitted with
  | nil => rfl
  | cons result rest ih =>
    have kept : ¬Skips options emitted result := by
      intro skips
      rw [skips.1] at h
      cases h
    rw [reported, if_neg kept, ih]

theorem mem_of_mem_reported {emitted : List (List (ParseTree S))} {results : List (ParseResult S)}
    {result : ParseResult S} (h : result ∈ reported options emitted results) : result ∈ results := by
  induction results generalizing emitted with
  | nil => exact h
  | cons first rest ih =>
    rw [reported] at h
    split at h
    · exact List.mem_cons_of_mem _ (ih h)
    · rcases List.mem_cons.1 h with rfl | h
      · exact List.mem_cons_self
      · exact List.mem_cons_of_mem _ (ih h)

/-- The forest of every accepted result is handed out, unless it has been before. -/
theorem exists_mem_reported (emitted : List (List (ParseTree S))) {results : List (ParseResult S)}
    {result : ParseResult S} (h : result ∈ results) (accepted : result.error = none) :
    result.forest ∈ emitted ∨
      ∃ other ∈ reported options emitted results,
        other.error = none ∧ other.forest = result.forest := by
  induction results generalizing emitted with
  | nil => exact absurd h List.not_mem_nil
  | cons first rest ih =>
    rw [reported]
    split
    · next skips =>
      rcases List.mem_cons.1 h with rfl | h
      · exact .inl skips.2.2
      · exact ih emitted h
    · next kept =>
      rcases List.mem_cons.1 h with rfl | h
      · exact .inr ⟨result, List.mem_cons_self, accepted, rfl⟩
      · rcases ih (emittedWith options emitted first) h with before | ⟨other, hother, found⟩
        · unfold emittedWith at before
          -- If it has been noted by `first`, then `first` itself is the other result.
          split at before
          · next noted =>
            rw [Bool.and_eq_true, ParseResult.isAccepted, Option.isNone_iff_eq_none] at noted
            rcases List.mem_append.1 before with before | same
            · exact .inl before
            · exact .inr ⟨first, List.mem_cons_self, noted.2, (List.mem_singleton.1 same).symm⟩
          · exact .inl before
        · exact .inr ⟨other, List.mem_cons_of_mem _ hother, found⟩

/-- Skipping repetitions does not change which trees are found, nor which is
found first. -/
theorem treesOf_reported (results : List (ParseResult S)) :
    Verdict.treesOf (reported options [] results) = Verdict.treesOf results := by
  -- What has been handed out and what has been seen need not be the same results, but
  -- they have the same trees.
  have general (emitted : List (List (ParseTree S))) (handed seen rest : List (ParseResult S))
      (same : Verdict.treesOf handed = Verdict.treesOf seen)
      (noted : ∀ forest ∈ emitted, ∀ tree, forest.head? = some tree → tree ∈ Verdict.treesOf handed) :
      Verdict.treesOf (handed ++ reported options emitted rest) = Verdict.treesOf (seen ++ rest) := by
    induction rest generalizing emitted handed seen with
    | nil => rw [reported, List.append_nil, List.append_nil, same]
    | cons result rest ih =>
      rw [reported, List.append_cons seen]
      split
      · next skips =>
        -- The tree of a result that is skipped has been found before.
        refine ih emitted handed (seen ++ [result]) ?_ noted
        rw [Verdict.treesOf_concat, same]
        cases hfirst : Verdict.firstTree? result with
        | none => rfl
        | some tree =>
          have known := noted result.forest skips.2.2 tree (Verdict.firstTree?_eq_some.1 hfirst).2
          rw [same] at known
          exact (if_pos known).symm
      · rw [List.append_cons handed]
        refine ih _ (handed ++ [result]) (seen ++ [result]) ?_ fun forest mem tree head => ?_
        · rw [Verdict.treesOf_concat, Verdict.treesOf_concat, same]
        · have before (h : forest ∈ emitted) : tree ∈ Verdict.treesOf (handed ++ [result]) := by
            obtain ⟨other, hother, found⟩ := Verdict.mem_treesOf.1 (noted forest h tree head)
            exact Verdict.mem_treesOf.2 ⟨other, List.mem_append_left _ hother, found⟩
          unfold emittedWith at mem
          split at mem
          · next kept =>
            rw [Bool.and_eq_true, ParseResult.isAccepted, Option.isNone_iff_eq_none] at kept
            rcases List.mem_append.1 mem with old | now
            · exact before old
            · rw [List.mem_singleton.1 now] at head
              exact Verdict.mem_treesOf.2 ⟨result, List.mem_concat_self, kept.2, head⟩
          · exact before mem
  exact general [] [] [] results rfl fun forest none => absurd none List.not_mem_nil

/-- Results with a failure are never skipped. -/
theorem failed_reported (options : SearchOptions) (emitted : List (List (ParseTree S)))
    (results : List (ParseResult S)) :
    (reported options emitted results).filter (fun result => !result.isAccepted) =
      results.filter fun result => !result.isAccepted := by
  induction results generalizing emitted with
  | nil => rfl
  | cons result rest ih =>
    rw [reported]
    split
    · next skips =>
      rw [List.filter_cons_of_neg (by simp [skips.2.1])]
      exact ih emitted
    · rw [List.filter_cons, List.filter_cons, ih]

omit [DecidableEq S] in
/-- The failures are those of the results that are not accepted. -/
theorem filterMap_error (results : List (ParseResult S)) :
    results.filterMap ParseResult.error =
      (results.filter fun result => !result.isAccepted).filterMap ParseResult.error := by
  rw [List.filterMap_filter]
  congr 1
  funext result
  unfold ParseResult.isAccepted
  cases result.error with
  | none => rfl
  | some error => rfl

/-- The verdict is the same whether or not repetitions are skipped. -/
theorem ofResults_reported (results : List (ParseResult S)) :
    Verdict.ofResults (reported options [] results) = Verdict.ofResults results := by
  unfold Verdict.ofResults Verdict.errorsOf
  rw [treesOf_reported, filterMap_error, failed_reported, ← filterMap_error]

end Search

end ShiftReduce
