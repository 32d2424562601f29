/-
  ShiftReduce.Proofs.Deduplication
  ────────────────────────────────
  **LEAVING OUT REPETITIONS LEAVES OUT NOTHING ELSE.**

  A search can skip accepted results whose forest it has handed out before.
  What it then hands out is the list of all results less those that are
  accepted with the forest of an earlier accepted result, and it explores the
  same branches.  The verdict drops repeated trees by itself, so it is the same
  either way.

  Main statements: `reported_eq_withoutRepetitions` and `deduplication_exact`.
-/
import ShiftReduce.Proofs.Search.Pruning
import ShiftReduce.Proofs.Search.Verdict
import ShiftReduce.Symbol.Named

namespace ShiftReduce

variable {S : Type} [DecidableEq S] [GrammarSymbol S]

/-! ## §1. Results without repetitions. -/

/-- The result is accepted with the forest of an earlier accepted result. -/
def Repeats (earlier : List (ParseResult S)) (result : ParseResult S) : Prop :=
  result.isAccepted = true ∧
    ∃ other ∈ earlier, other.isAccepted = true ∧ other.forest = result.forest

instance (earlier : List (ParseResult S)) (result : ParseResult S) : Decidable (Repeats earlier result) :=
  inferInstanceAs (Decidable (_ ∧ _))

/-- The results, in order, less each one that repeats one before it. -/
def withoutRepetitions (results : List (ParseResult S)) : List (ParseResult S) :=
  (results.zipIdx.filter fun entry => ¬Repeats (results.take entry.2) entry.1).map Prod.fst

namespace Search

variable {options : SearchOptions}

omit [DecidableEq S] in
/-- The forests handed out so far are those of the accepted results so far,
whether or not the last of them has been skipped. -/
theorem mem_emittedWith {emitted : List (List (ParseTree S))} {earlier : List (ParseResult S)}
    (deduplicates : options.deduplicate = true)
    (noted : ∀ forest, forest ∈ emitted ↔
      ∃ other ∈ earlier, other.isAccepted = true ∧ other.forest = forest)
    (result : ParseResult S) (forest : List (ParseTree S)) :
    forest ∈ emittedWith options emitted result ↔
      ∃ other ∈ earlier ++ [result], other.isAccepted = true ∧ other.forest = forest := by
  simp only [List.mem_append, List.mem_singleton, or_and_right, exists_or, exists_eq_left, ← noted]
  unfold emittedWith
  by_cases accepted : result.isAccepted = true
  · rw [if_pos (by rw [deduplicates, accepted]; rfl), List.mem_append, List.mem_singleton, eq_comm]
    simp [accepted]
  · rw [if_neg (by simp [accepted])]
    simp [accepted]

omit [DecidableEq S] in
theorem mem_emittedWith_of_skips {emitted : List (List (ParseTree S))} {result : ParseResult S}
    (skips : Skips options emitted result) (forest : List (ParseTree S)) :
    forest ∈ emittedWith options emitted result ↔ forest ∈ emitted := by
  obtain ⟨deduplicates, accepted, known⟩ := skips
  unfold emittedWith
  rw [if_pos (by rw [deduplicates, accepted]; rfl), List.mem_append, List.mem_singleton]
  constructor
  · intro h
    rcases h with mem | rfl
    · exact mem
    · exact known
  · exact .inl

/-- A search that deduplicates hands out all results less the repetitions. -/
theorem reported_eq_withoutRepetitions (deduplicates : options.deduplicate = true)
    (results : List (ParseResult S)) : reported options [] results = withoutRepetitions results := by
  have general (earlier rest : List (ParseResult S)) (emitted : List (List (ParseTree S)))
      (noted : ∀ forest, forest ∈ emitted ↔
        ∃ other ∈ earlier, other.isAccepted = true ∧ other.forest = forest) :
      reported options emitted rest =
        ((rest.zipIdx earlier.length).filter fun entry =>
          ¬Repeats ((earlier ++ rest).take entry.2) entry.1).map Prod.fst := by
    induction rest generalizing earlier emitted with
    | nil => rfl
    | cons result rest ih =>
      have before : (earlier ++ result :: rest).take earlier.length = earlier := List.take_left
      have skips_iff : Skips options emitted result ↔ Repeats earlier result := by
        unfold Skips Repeats
        rw [noted result.forest]
        exact ⟨fun h => h.2, fun h => ⟨deduplicates, h⟩⟩
      have length : earlier.length + 1 = (earlier ++ [result]).length := by
        rw [List.length_append, List.length_singleton]
      have whole : earlier ++ result :: rest = (earlier ++ [result]) ++ rest := by
        rw [List.append_assoc, List.singleton_append]
      rw [reported, List.zipIdx_cons, List.filter_cons]
      dsimp only
      rw [before]
      by_cases skips : Skips options emitted result
      · -- A result that is skipped adds no forest to those of the accepted results.
        have noted' : ∀ forest, forest ∈ emitted ↔
            ∃ other ∈ earlier ++ [result], other.isAccepted = true ∧ other.forest = forest := by
          intro forest
          rw [← mem_emittedWith deduplicates noted, mem_emittedWith_of_skips skips]
        rw [if_pos skips, if_neg (by simp [skips_iff.1 skips]), length, whole]
        exact ih (earlier ++ [result]) emitted noted'
      · rw [if_neg skips, if_pos (by simp [mt skips_iff.2 skips]), List.map_cons, length, whole]
        congr 1
        exact ih (earlier ++ [result]) _ (mem_emittedWith deduplicates noted result)
  exact general [] results [] (by simp)

/-- The forests of the accepted results handed out are all different, and differ
from those handed out before. -/
theorem nodup_reported (deduplicates : options.deduplicate = true)
    (emitted : List (List (ParseTree S))) (results : List (ParseResult S)) :
    ((acceptedOf (reported options emitted results)).map ParseResult.forest).Nodup ∧
      ∀ result ∈ acceptedOf (reported options emitted results), result.forest ∉ emitted := by
  induction results generalizing emitted with
  | nil => exact ⟨List.nodup_nil, fun _ none => absurd none List.not_mem_nil⟩
  | cons result rest ih =>
    rw [reported]
    by_cases skips : Skips options emitted result
    · rw [if_pos skips]
      exact ih emitted
    · rw [if_neg skips]
      obtain ⟨nodup, fresh⟩ := ih (emittedWith options emitted result)
      unfold acceptedOf
      by_cases accepted : result.isAccepted = true
      · have noted : emittedWith options emitted result = emitted ++ [result.forest] := by
          unfold emittedWith
          rw [if_pos (by rw [deduplicates, accepted]; rfl)]
        rw [List.filter_cons_of_pos accepted, List.map_cons, List.nodup_cons]
        refine ⟨⟨fun mem => ?_, nodup⟩, fun other mem => ?_⟩
        · obtain ⟨other, hother, same⟩ := List.mem_map.1 mem
          refine fresh other hother ?_
          rw [noted, same]
          exact List.mem_append_right _ List.mem_cons_self
        · rcases List.mem_cons.1 mem with rfl | mem
          · exact fun known => skips ⟨deduplicates, accepted, known⟩
          · intro known
            refine fresh other mem ?_
            rw [noted]
            exact List.mem_append_left _ known
      · have same : emittedWith options emitted result = emitted := by
          unfold emittedWith
          rw [if_neg (by simp [accepted])]
        rw [List.filter_cons_of_neg accepted]
        rw [same] at nodup fresh ⊢
        exact ⟨nodup, fresh⟩

end Search

/-! ## §2. Searches with and without deduplication. -/

/-- Whatever the table, the stream and the bound on the moves: if the search
ends, with or without deduplication, it ends either way.  With deduplication it
hands out the results that it hands out without, less the repetitions; accepted
forests are then all different and failed results all kept.  The branches
explored, the forks and the verdict are the same.  The verdict on any results is
by the different first trees of those without a failure. -/
theorem deduplication_exact (table : DecisionTable S) (stream : TokenStream S) (maxSteps : Option Nat) :
    (∀ deduplicate results final,
      Search.Collects (Problem.machine ⟨table, stream⟩) { deduplicate, maxSteps } .initial results
        final →
      ∃ all whole brief enough,
        Search.Collects (Problem.machine ⟨table, stream⟩) { deduplicate := false, maxSteps } .initial
          all whole ∧
        Search.Collects (Problem.machine ⟨table, stream⟩) { deduplicate := true, maxSteps } .initial
          (withoutRepetitions all) brief ∧
        ((acceptedOf (withoutRepetitions all)).map ParseResult.forest).Nodup ∧
        ((withoutRepetitions all).filter fun result => !result.isAccepted) =
          (all.filter fun result => !result.isAccepted) ∧
        brief.explored = whole.explored ∧ brief.forks = whole.forks ∧
        ∀ deduplicate fuel, enough ≤ fuel →
          Search.verdict? (Problem.machine ⟨table, stream⟩) { deduplicate, maxSteps } fuel .initial =
            some (Verdict.ofResults all)) ∧
    ∀ results : List (ParseResult S),
      Verdict.ofResults results =
        match (results.filterMap Verdict.firstTree?).eraseDups with
        | [] => .rejected (results.filterMap ParseResult.error)
        | [tree] => .accepted tree
        | trees => .ambiguous trees := by
  have lawful := Problem.machine_lawful (⟨table, stream⟩ : Problem S)
  refine ⟨fun deduplicate results final h => ?_, Verdict.ofResults_eq⟩
  obtain ⟨_, harvest, enumerated, _, _⟩ := Search.exists_enumerate_of_collects lawful h
  -- Either search goes through the one enumeration, which knows nothing of deduplication.
  have collects (deduplicate : Bool) :
      Search.Collects (Problem.machine ⟨table, stream⟩) { deduplicate, maxSteps } .initial
        (Search.reported { deduplicate, maxSteps } [] harvest.results)
        ((Search.stop .initial).past { deduplicate, maxSteps } harvest) :=
    Search.collects_initial lawful enumerated
  have whole := collects false
  have brief := collects true
  rw [Search.reported_eq_self rfl] at whole
  rw [Search.reported_eq_withoutRepetitions rfl] at brief
  let deduplicating : SearchOptions := { deduplicate := true, maxSteps }
  have nodup := (Search.nodup_reported (rfl : deduplicating.deduplicate = true) [] harvest.results).1
  have failed := Search.failed_reported deduplicating [] harvest.results
  rw [Search.reported_eq_withoutRepetitions rfl] at nodup failed
  have verdict (deduplicate : Bool) : ∃ enough, ∀ fuel, enough ≤ fuel →
      Search.verdict? (Problem.machine ⟨table, stream⟩) { deduplicate, maxSteps } fuel .initial =
        some (Verdict.ofResults harvest.results) := by
    obtain ⟨enough, collected⟩ := collects deduplicate
    refine ⟨enough, fun fuel more => ?_⟩
    rw [Search.verdict?, Search.collect?_mono more collected, Option.map_some,
      Search.ofResults_reported]
  obtain ⟨enough, plain⟩ := verdict false
  obtain ⟨enough', deduplicated⟩ := verdict true
  refine ⟨harvest.results, _, _, max enough enough', whole, brief, nodup, failed, rfl, rfl, ?_⟩
  intro deduplicate fuel more
  cases deduplicate with
  | false => exact plain fuel (Nat.le_trans (Nat.le_max_left _ _) more)
  | true => exact deduplicated fuel (Nat.le_trans (Nat.le_max_right _ _) more)

/-! ## §3. A result repeated after a failure. -/

/-- The rules `S => A c`, `S => B d`, `A => a` twice, and `B => a` between them. -/
def twinRules : List (Rule Symbol) :=
  [⟨0, .nonTerminal "S", [.nonTerminal "A", .terminal "c"]⟩,
    ⟨1, .nonTerminal "S", [.nonTerminal "B", .terminal "d"]⟩,
    ⟨2, .nonTerminal "A", [.terminal "a"]⟩, ⟨3, .nonTerminal "B", [.terminal "a"]⟩,
    ⟨4, .nonTerminal "A", [.terminal "a"]⟩]

/-- The table of these rules. -/
def twinTable : DecisionTable Symbol :=
  .ofRuleSet ⟨twinRules, by decide, by decide, by decide⟩

/-- The tokens `a c`. -/
def twinStream : TokenStream Symbol :=
  .ofKinds [.terminal "a", .terminal "c"]

/-- Over `a c` both rules for `A` lead to the same tree, with a failure between
them.  Deduplication leaves out the second one only. -/
theorem deduplication_exact_twin :
    ∃ all whole brief,
      Search.Collects (Problem.machine ⟨twinTable, twinStream⟩) { deduplicate := false } .initial
        all whole ∧
      all.map ParseResult.isAccepted = [true, false, true] ∧
      Search.Collects (Problem.machine ⟨twinTable, twinStream⟩) { deduplicate := true } .initial
        (withoutRepetitions all) brief ∧
      (withoutRepetitions all).map ParseResult.isAccepted = [true, false] ∧
      brief.explored = whole.explored ∧ brief.forks = whole.forks := by
  have run : ((Search.collect? (Problem.machine ⟨twinTable, twinStream⟩) {} 12 .initial).map
      fun collected => (collected.1.map ParseResult.isAccepted,
        (withoutRepetitions collected.1).map ParseResult.isAccepted)) =
          some ([true, false, true], [true, false]) := by
    decide +kernel
  obtain ⟨⟨results, final⟩, collected, shown⟩ := Option.map_eq_some_iff.1 run
  obtain ⟨accepted, accepted'⟩ := Prod.mk.inj shown
  obtain ⟨agree, _⟩ := deduplication_exact twinTable twinStream none
  obtain ⟨all, whole, brief, _, hwhole, hbrief, _, _, explored, forks, _⟩ :=
    agree false results final ⟨12, collected⟩
  obtain ⟨rfl, rfl⟩ := hwhole.unique ⟨12, collected⟩
  exact ⟨all, whole, brief, hwhole, accepted, hbrief, accepted', explored, forks⟩

end ShiftReduce
