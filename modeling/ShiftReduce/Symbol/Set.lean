/-
  ShiftReduce.Symbol.Set
  ────────────────────────────────
  **FINITE SETS OF SYMBOLS, IN ORDER.**

  A `SymbolSet` is a strictly ascending list, so that a set has one
  representation only (`SymbolSet.ext`) and is enumerated the same way wherever
  it is shown.

  Main statements: membership after `insert`, `ofList` and `filter`, and
  `SymbolSet.ext`: two sets with the same members are equal.
-/
import ShiftReduce.Symbol

namespace ShiftReduce

variable {S : Type}

/-! ## §1. Insertion into an ascending list. -/

/-- Every element is below all the elements after it. -/
def Ascending [Ord S] (symbols : List S) : Prop :=
  symbols.Pairwise fun a b => compare a b = .lt

/-- Puts `a` before the first larger element, unless it is there already. -/
def insertAscending [Ord S] (a : S) : List S → List S
  | [] => [a]
  | b :: rest =>
    match compare a b with
    | .lt => a :: b :: rest
    | .eq => b :: rest
    | .gt => b :: insertAscending a rest

theorem mem_insertAscending [GrammarSymbol S] {a x : S} {symbols : List S} :
    x ∈ insertAscending a symbols ↔ x = a ∨ x ∈ symbols := by
  induction symbols with
  | nil => simp [insertAscending]
  | cons b rest ih =>
    simp only [insertAscending]
    split
    · simp
    · next h =>
      obtain rfl := Std.LawfulEqOrd.eq_of_compare h
      simp
    · simp only [List.mem_cons, ih]
      grind

theorem ascending_insertAscending [GrammarSymbol S] {a : S} {symbols : List S}
    (h : Ascending symbols) : Ascending (insertAscending a symbols) := by
  induction symbols with
  | nil => simp [insertAscending, Ascending]
  | cons b rest ih =>
    obtain ⟨below, tail⟩ := List.pairwise_cons.1 h
    simp only [insertAscending]
    split
    · next lt =>
      refine List.pairwise_cons.2 ⟨fun x hx => ?_, h⟩
      rcases List.mem_cons.1 hx with rfl | hx
      · exact lt
      · exact Std.TransCmp.lt_trans lt (below x hx)
    · exact h
    · next gt =>
      refine List.pairwise_cons.2 ⟨fun x hx => ?_, ih tail⟩
      rcases mem_insertAscending.1 hx with rfl | hx
      · exact Std.OrientedCmp.lt_of_gt gt
      · exact below x hx

/-- An ascending list is determined by its members. -/
theorem Ascending.eq_of_mem_iff [GrammarSymbol S] {xs ys : List S}
    (hx : Ascending xs) (hy : Ascending ys) (h : ∀ a, a ∈ xs ↔ a ∈ ys) : xs = ys := by
  induction xs generalizing ys with
  | nil =>
    cases ys with
    | nil => rfl
    | cons y ys => exact absurd ((h y).2 (by simp)) (by simp)
  | cons x xs ih =>
    cases ys with
    | nil => exact absurd ((h x).1 (by simp)) (by simp)
    | cons y ys =>
      obtain ⟨xlt, xtail⟩ := List.pairwise_cons.1 hx
      obtain ⟨ylt, ytail⟩ := List.pairwise_cons.1 hy
      have irrefl (a : S) : compare a a ≠ .lt := by
        have e : compare a a = .eq := Std.ReflCmp.compare_self
        rw [e]
        decide
      have xy : x = y := by
        rcases List.mem_cons.1 ((h x).1 (by simp)) with e | mx
        · exact e
        · rcases List.mem_cons.1 ((h y).2 (by simp)) with e | my
          · exact e.symm
          · exact absurd (Std.TransCmp.lt_trans (xlt y my) (ylt x mx)) (irrefl x)
      subst xy
      congr 1
      refine ih xtail ytail fun a => ⟨fun ha => ?_, fun ha => ?_⟩
      · rcases List.mem_cons.1 ((h a).1 (List.mem_cons_of_mem _ ha)) with rfl | ha'
        · exact absurd (xlt a ha) (irrefl a)
        · exact ha'
      · rcases List.mem_cons.1 ((h a).2 (List.mem_cons_of_mem _ ha)) with rfl | ha'
        · exact absurd (ylt a ha) (irrefl a)
        · exact ha'

/-! ## §2. The sets. -/

/-- A finite set of symbols, kept as a strictly ascending list. -/
structure SymbolSet (S : Type) [Ord S] where
  /-- The members, in ascending order. -/
  toList : List S
  ascending : Ascending toList
  deriving DecidableEq

namespace SymbolSet

section
variable [GrammarSymbol S]

instance : Membership S (SymbolSet S) where
  mem set a := a ∈ set.toList

theorem mem_def {a : S} {set : SymbolSet S} : a ∈ set ↔ a ∈ set.toList := Iff.rfl

instance [DecidableEq S] (a : S) (set : SymbolSet S) : Decidable (a ∈ set) :=
  inferInstanceAs (Decidable (a ∈ set.toList))

/-- The set without members. -/
def empty : SymbolSet S := ⟨[], List.Pairwise.nil⟩

instance : EmptyCollection (SymbolSet S) := ⟨empty⟩

/-- The set with `a` as a further member. -/
def insert (set : SymbolSet S) (a : S) : SymbolSet S :=
  ⟨insertAscending a set.toList, ascending_insertAscending set.ascending⟩

/-- The set of the elements of a list, in whatever order and however often they occur there. -/
def ofList (symbols : List S) : SymbolSet S :=
  symbols.foldr (fun a set => set.insert a) empty

/-- The members of which `keep` holds. -/
def filter (set : SymbolSet S) (keep : S → Bool) : SymbolSet S :=
  ⟨set.toList.filter keep, List.Pairwise.filter keep set.ascending⟩

/-! ## §3. Membership. -/

@[ext]
theorem ext {left right : SymbolSet S} (h : ∀ a, a ∈ left ↔ a ∈ right) : left = right := by
  cases left with
  | mk xs hx =>
    cases right with
    | mk ys hy =>
      have : xs = ys := Ascending.eq_of_mem_iff hx hy h
      subst this
      rfl

@[simp]
theorem not_mem_empty {a : S} : a ∉ (∅ : SymbolSet S) := List.not_mem_nil

@[simp]
theorem mem_insert {a x : S} {set : SymbolSet S} : x ∈ set.insert a ↔ x = a ∨ x ∈ set :=
  mem_insertAscending

@[simp]
theorem mem_ofList {x : S} {symbols : List S} : x ∈ ofList symbols ↔ x ∈ symbols := by
  induction symbols with
  | nil => exact Iff.rfl
  | cons a rest ih =>
    rw [show ofList (a :: rest) = (ofList rest).insert a from rfl, mem_insert, ih, List.mem_cons]

@[simp]
theorem mem_filter {x : S} {set : SymbolSet S} {keep : S → Bool} :
    x ∈ set.filter keep ↔ x ∈ set ∧ keep x = true :=
  List.mem_filter

/-- Listing a set and collecting the list gives the set back. -/
@[simp]
theorem ofList_toList (set : SymbolSet S) : ofList set.toList = set := by
  ext a
  rw [mem_ofList, mem_def]

end

end SymbolSet

end ShiftReduce
