/-
  ShiftReduce.Proofs.Grammar.Traversal
  ────────────────────────────────
  **THE LEFT CORNERS, ONE SYMBOL AFTER THE OTHER.**

  Left corners can be collected with a stack of symbols still to look at: the
  top one is taken off, and each first symbol of a rule for it that has not been
  found before is noted and put on the stack.  The symbol that the traversal
  starts from counts as found only when a rule opens with it.

  After the first one, a symbol is put on the stack only when it is found, which
  takes a rule that opens with it and happens once.  So the stack is empty after as
  many looks as there are rules, and one more.

  Main statement: `run?_ofSymbol` (the traversal ends, with the left corners).
-/
import Mathlib.Data.List.Perm.Subperm
import ShiftReduce.Proofs.Grammar.LeftCorners

namespace ShiftReduce

open Relation

variable {S : Type}

/-! ## §1. The sizes of sets. -/

/-- An insertion of something new makes the list longer by one. -/
theorem length_insertAscending [GrammarSymbol S] {corner : S} {symbols : List S} (new : corner ∉ symbols) :
    (insertAscending corner symbols).length = symbols.length + 1 := by
  induction symbols with
  | nil => rfl
  | cons other rest ih =>
    simp only [insertAscending]
    split
    · rfl
    · next same =>
      obtain rfl := Std.LawfulEqOrd.eq_of_compare same
      exact absurd List.mem_cons_self new
    · rw [List.length_cons, ih fun mem => new (List.mem_cons_of_mem _ mem), List.length_cons]

/-- No symbol stands in a set twice. -/
theorem SymbolSet.nodup_toList [GrammarSymbol S] (set : SymbolSet S) : set.toList.Nodup := by
  refine set.ascending.imp ?_
  intro a b lt same
  have eq : compare b b = .eq := Std.ReflCmp.compare_self
  rw [same, eq] at lt
  cases lt

/-! ## §2. The traversal. -/

/-- What the rules for a symbol open it with, rule by rule. -/
def RuleSet.openings [DecidableEq S] (rules : RuleSet S) (symbol : S) : List S :=
  (rules.rulesOf symbol).filterMap fun rule => rule.rhs.head?

theorem RuleSet.mem_openings [DecidableEq S] {rules : RuleSet S} {symbol corner : S} :
    corner ∈ rules.openings symbol ↔ Opens rules.toList symbol corner := by
  simp only [openings, rulesOf, List.mem_filterMap, List.mem_filter, decide_eq_true_eq, Opens,
    and_assoc]

/-- A traversal under way: the symbols found so far, and the stack of those to
look at. -/
structure Traversal (S : Type) [Ord S] where
  found : SymbolSet S
  waiting : List S

namespace Traversal

section
variable [DecidableEq S] [GrammarSymbol S]

/-- Nothing is found yet, and the symbol is the only one to look at. -/
def ofSymbol (symbol : S) : Traversal S := ⟨∅, [symbol]⟩

/-- Notes a symbol; one that is new goes on the stack. -/
def note (traversal : Traversal S) (corner : S) : Traversal S :=
  if corner ∈ traversal.found then traversal
  else { found := traversal.found.insert corner, waiting := corner :: traversal.waiting }

/-- Takes symbols off the stack until it is empty, `fuel - 1` of them at most;
`none` if that is not enough. -/
def run? (rules : RuleSet S) : Nat → Traversal S → Option (SymbolSet S)
  | 0, _ => none
  | _ + 1, ⟨found, []⟩ => some found
  | fuel + 1, ⟨found, symbol :: waiting⟩ =>
    run? rules fuel ((rules.openings symbol).foldl note ⟨found, waiting⟩)

end

/-! ## §3. Noting symbols. -/

section
variable [DecidableEq S] [GrammarSymbol S]
variable {rules : RuleSet S} {traversal : Traversal S} {symbol corner : S} {corners : List S}

theorem mem_found_note :
    symbol ∈ (traversal.note corner).found ↔ symbol ∈ traversal.found ∨ symbol = corner := by
  unfold note
  split
  · next mem =>
    constructor
    · exact .inl
    · rintro (h | rfl)
      · exact h
      · exact mem
  · rw [SymbolSet.mem_insert]
    exact Or.comm

theorem mem_waiting_note :
    symbol ∈ (traversal.note corner).waiting ↔
      symbol ∈ traversal.waiting ∨ (symbol = corner ∧ symbol ∉ traversal.found) := by
  unfold note
  split
  · next mem =>
    constructor
    · exact .inl
    · rintro (h | ⟨rfl, new⟩)
      · exact h
      · exact absurd mem new
  · next new =>
    rw [List.mem_cons]
    constructor
    · rintro (rfl | h)
      · exact .inr ⟨rfl, new⟩
      · exact .inl h
    · rintro (h | ⟨rfl, -⟩)
      · exact .inr h
      · exact .inl rfl

theorem mem_found_foldl_note :
    symbol ∈ (corners.foldl note traversal).found ↔ symbol ∈ traversal.found ∨ symbol ∈ corners := by
  induction corners generalizing traversal with
  | nil => simp
  | cons corner corners ih => rw [List.foldl_cons, ih, mem_found_note, List.mem_cons, or_assoc]

/-- What waits after noting has waited before, or is new. -/
theorem mem_waiting_foldl_note :
    symbol ∈ (corners.foldl note traversal).waiting ↔
      symbol ∈ traversal.waiting ∨ (symbol ∈ corners ∧ symbol ∉ traversal.found) := by
  induction corners generalizing traversal with
  | nil => simp
  | cons corner corners ih =>
    rw [List.foldl_cons, ih, mem_waiting_note, mem_found_note, List.mem_cons]
    by_cases same : symbol = corner
    · simp [same]
    · simp [same]

/-- Whatever is found more waits in addition. -/
theorem length_waiting_foldl_note (corners : List S) (traversal : Traversal S) :
    (corners.foldl note traversal).waiting.length + traversal.found.toList.length =
      traversal.waiting.length + (corners.foldl note traversal).found.toList.length := by
  -- One note adds to both lengths, or to neither of them.
  induction corners generalizing traversal with
  | nil => rfl
  | cons corner corners ih =>
    have step : (traversal.note corner).waiting.length + traversal.found.toList.length =
        traversal.waiting.length + (traversal.note corner).found.toList.length := by
      unfold note
      split
      · rfl
      · next new =>
        rw [show (traversal.found.insert corner).toList = insertAscending corner traversal.found.toList
          from rfl, length_insertAscending new, List.length_cons]
        omega
    rw [List.foldl_cons]
    have := ih (traversal.note corner)
    omega

end

/-! ## §4. What a traversal has covered. -/

section
variable [GrammarSymbol S]

/-- All that is found is led to from `origin` by openings, and whatever of that
has been looked at has all its openings found. -/
structure Covers (rules : RuleSet S) (origin : S) (traversal : Traversal S) : Prop where
  led : ∀ corner ∈ traversal.found, TransGen (Opens rules.toList) origin corner
  waits : ∀ symbol ∈ traversal.waiting, symbol = origin ∨ symbol ∈ traversal.found
  looked : ∀ symbol, symbol = origin ∨ symbol ∈ traversal.found →
    symbol ∈ traversal.waiting ∨ ∀ corner, Opens rules.toList symbol corner → corner ∈ traversal.found

theorem covers_ofSymbol {rules : RuleSet S} {origin : S} : Covers rules origin (ofSymbol origin) where
  led _ mem := absurd mem SymbolSet.not_mem_empty
  waits _ mem := .inl (List.mem_singleton.1 mem)
  looked _ h := by
    rcases h with same | mem
    · exact .inl (List.mem_singleton.2 same)
    · exact absurd mem SymbolSet.not_mem_empty

/-- No more is found than there are rules: every symbol found opens one of them. -/
theorem Covers.length_found_le {rules : RuleSet S} {origin : S} {traversal : Traversal S}
    (covers : Covers rules origin traversal) :
    traversal.found.toList.length ≤ rules.size := by
  have opening (corner : S) (mem : corner ∈ traversal.found.toList) :
      corner ∈ rules.toList.filterMap fun rule => rule.rhs.head? := by
    obtain ⟨_, -, rule, hrule, -, hhead⟩ := TransGen.tail'_iff.1 (covers.led corner mem)
    exact List.mem_filterMap.2 ⟨rule, hrule, hhead⟩
  calc traversal.found.toList.length
      ≤ (rules.toList.filterMap fun rule => rule.rhs.head?).length :=
        (List.subperm_of_subset traversal.found.nodup_toList opening).length_le
    _ ≤ rules.size := List.length_filterMap_le _ _

end

section
variable [DecidableEq S] [GrammarSymbol S]
variable {rules : RuleSet S} {traversal : Traversal S} {origin symbol : S}

/-- A look at the top of the stack keeps what is covered. -/
theorem Covers.look {found : SymbolSet S} {waiting : List S}
    (covers : Covers rules origin ⟨found, symbol :: waiting⟩) :
    Covers rules origin ((rules.openings symbol).foldl note ⟨found, waiting⟩) where
  led corner mem := by
    rcases mem_found_foldl_note.1 mem with mem | mem
    · exact covers.led corner mem
    · have opens := RuleSet.mem_openings.1 mem
      rcases covers.waits symbol List.mem_cons_self with rfl | found
      · exact .single opens
      · exact (covers.led symbol found).tail opens
  waits other mem := by
    rcases mem_waiting_foldl_note.1 mem with mem | ⟨mem, -⟩
    · exact (covers.waits other (List.mem_cons_of_mem _ mem)).imp id
        fun found => mem_found_foldl_note.2 (.inl found)
    · exact .inr (mem_found_foldl_note.2 (.inr mem))
  looked other h := by
    by_cases same : other = symbol
    · -- The symbol just looked at has had its openings noted.
      exact .inr fun corner opens =>
        mem_found_foldl_note.2 (.inr (RuleSet.mem_openings.2 (same ▸ opens)))
    · -- Any other one has been looked at before, waits still, or has just been found.
      have before : (other = origin ∨ other ∈ found) ∨ (other ∈ rules.openings symbol ∧ other ∉ found) := by
        rcases h with h | h
        · exact .inl (.inl h)
        · rcases mem_found_foldl_note.1 h with h | h
          · exact .inl (.inr h)
          · by_cases old : other ∈ found
            · exact .inl (.inr old)
            · exact .inr ⟨h, old⟩
      rcases before with old | new
      · rcases covers.looked other old with mem | opened
        · exact .inl (mem_waiting_foldl_note.2 (.inl ((List.mem_cons.1 mem).resolve_left same)))
        · exact .inr fun corner opens => mem_found_foldl_note.2 (.inl (opened corner opens))
      · exact .inl (mem_waiting_foldl_note.2 (.inr new))

/-- Once nothing waits, the left corners are found. -/
theorem Covers.found_eq {found : SymbolSet S} (covers : Covers rules origin ⟨found, []⟩) :
    found = rules.leftCorners origin := by
  have closed (symbol : S) (h : symbol = origin ∨ symbol ∈ found) (corner : S)
      (opens : Opens rules.toList symbol corner) : corner ∈ found :=
    (covers.looked symbol h).resolve_left List.not_mem_nil corner opens
  ext corner
  rw [RuleSet.mem_leftCorners]
  constructor
  · exact covers.led corner
  · -- All symbols on the way to the corner have been looked at, one after the other.
    intro path
    induction path with
    | single opens => exact closed origin (.inl rfl) _ opens
    | tail _ opens ih => exact closed _ (.inr ih) _ opens

/-! ## §5. Whole traversals. -/

/-- A traversal with enough fuel ends.  What waits and the rules that have not
given a symbol yet bound the looks together. -/
theorem run?_of_covers {fuel : Nat} (covers : Covers rules origin traversal)
    (enough : traversal.waiting.length + rules.size < fuel + traversal.found.toList.length) :
    run? rules fuel traversal = some (rules.leftCorners origin) := by
  -- By induction on the fuel.  With none left, more would have been found than there are rules.
  induction fuel generalizing traversal with
  | zero =>
    have := covers.length_found_le
    omega
  | succ fuel ih =>
    obtain ⟨found, waiting⟩ := traversal
    cases waiting with
    | nil => rw [run?, covers.found_eq]
    | cons symbol waiting =>
      rw [run?]
      -- The look uses up one symbol, and puts as many on the stack as it finds.
      refine ih covers.look ?_
      have := length_waiting_foldl_note (rules.openings symbol) ⟨found, waiting⟩
      simp only [List.length_cons] at enough this ⊢
      omega

/-- The traversal from a symbol ends, and what it has found are the left corners
of the symbol. -/
theorem run?_ofSymbol {fuel : Nat} (enough : rules.size + 2 ≤ fuel) (symbol : S) :
    run? rules fuel (ofSymbol symbol) = some (rules.leftCorners symbol) := by
  refine run?_of_covers covers_ofSymbol ?_
  show 1 + rules.size < fuel + 0
  omega

end

end Traversal

end ShiftReduce
