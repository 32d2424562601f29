/-
  ShiftReduce.Proofs.Renaming.Symbols
  ────────────────────────────────
  **RENAMING SYMBOLS.**

  A renaming is a bijection between two types of symbols that keeps terminals
  and end-markers what they are.  It need not keep the order, so a set of
  symbols and its image list their members in different orders.

  Main statements: the operations on sets commute with renaming
  (`rename_insert`, `rename_ofList`, `rename_filter`), and membership is kept
  (`apply_mem_rename`).
-/
import Mathlib.Data.List.Basic
import Mathlib.Data.Option.Basic
import ShiftReduce.Symbol.Set

namespace ShiftReduce

variable {S T : Type} [GrammarSymbol S] [GrammarSymbol T]

/-! ## §1. Renamings. -/

/-- A bijection between symbols that tells no terminal from its image and no
end-marker from its image.  The order of the symbols is free to change. -/
structure Renaming (S T : Type) [GrammarSymbol S] [GrammarSymbol T] where
  /-- The new symbol for an old one. -/
  toFun : S → T
  bijective : Function.Bijective toFun
  isTerminal_toFun : ∀ symbol, GrammarSymbol.isTerminal (toFun symbol) = GrammarSymbol.isTerminal symbol
  isEndMarker_toFun : ∀ symbol, GrammarSymbol.isEndMarker (toFun symbol) = GrammarSymbol.isEndMarker symbol

namespace Renaming

instance : CoeFun (Renaming S T) fun _ => S → T := ⟨toFun⟩

variable (f : Renaming S T)

/-- Every symbol stays what it is. -/
def refl : Renaming S S where
  toFun := id
  bijective := Function.bijective_id
  isTerminal_toFun _ := rfl
  isEndMarker_toFun _ := rfl

theorem injective : Function.Injective f := f.bijective.injective

@[simp]
theorem apply_eq_apply {a b : S} : f a = f b ↔ a = b := f.injective.eq_iff

@[simp]
theorem isTerminal_apply (symbol : S) :
    GrammarSymbol.isTerminal (f symbol) = GrammarSymbol.isTerminal symbol :=
  f.isTerminal_toFun symbol

@[simp]
theorem isEndMarker_apply (symbol : S) :
    GrammarSymbol.isEndMarker (f symbol) = GrammarSymbol.isEndMarker symbol :=
  f.isEndMarker_toFun symbol

@[simp]
theorem apply_mem_map {symbol : S} {symbols : List S} : f symbol ∈ symbols.map f ↔ symbol ∈ symbols :=
  List.mem_map_of_injective f.injective

@[simp]
theorem map_eq_some_apply {found : Option S} {symbol : S} :
    found.map f = some (f symbol) ↔ found = some symbol :=
  (Option.map_injective f.injective).eq_iff' rfl

end Renaming

/-! ## §2. Sets of renamed symbols. -/

namespace SymbolSet

variable (f : Renaming S T)

/-- The set of the images of the members. -/
def rename (set : SymbolSet S) : SymbolSet T :=
  ofList (set.toList.map f)

theorem rename_refl : rename (Renaming.refl : Renaming S S) = id := by
  funext set
  have same : set.toList.map (Renaming.refl : Renaming S S) = set.toList := List.map_id set.toList
  rw [rename, same, ofList_toList, id]

theorem mem_rename {set : SymbolSet S} {image : T} :
    image ∈ set.rename f ↔ ∃ symbol ∈ set, f symbol = image := by
  rw [rename, mem_ofList, List.mem_map]
  rfl

@[simp]
theorem apply_mem_rename {set : SymbolSet S} {symbol : S} : f symbol ∈ set.rename f ↔ symbol ∈ set := by
  rw [rename, mem_ofList, f.apply_mem_map, mem_def]

/-- Two lists with the same members make the same set. -/
theorem ofList_congr {left right : List S} (h : ∀ symbol, symbol ∈ left ↔ symbol ∈ right) :
    ofList left = ofList right := by
  ext symbol
  rw [mem_ofList, mem_ofList, h]

@[simp]
theorem rename_ofList (symbols : List S) : (ofList symbols).rename f = ofList (symbols.map f) := by
  ext image
  simp only [mem_rename, mem_ofList, List.mem_map]

@[simp]
theorem rename_insert (set : SymbolSet S) (symbol : S) :
    (set.insert symbol).rename f = (set.rename f).insert (f symbol) := by
  ext image
  simp only [mem_rename, mem_insert, or_and_right, exists_or, exists_eq_left, @eq_comm _ image]

/-- Members can be left out before or after renaming. -/
theorem rename_filter (set : SymbolSet S) {keep : S → Bool} {keep' : T → Bool}
    (same : ∀ symbol, keep' (f symbol) = keep symbol) :
    (set.filter keep).rename f = (set.rename f).filter keep' := by
  ext image
  rw [mem_filter, mem_rename, mem_rename]
  constructor
  · intro h
    obtain ⟨symbol, mem, rfl⟩ := h
    obtain ⟨mem, kept⟩ := mem_filter.1 mem
    exact ⟨⟨symbol, mem, rfl⟩, (same symbol).trans kept⟩
  · intro h
    obtain ⟨⟨symbol, mem, rfl⟩, kept⟩ := h
    exact ⟨symbol, mem_filter.2 ⟨mem, (same symbol).symm.trans kept⟩, rfl⟩

theorem mem_toList_rename {set : SymbolSet S} {image : T} :
    image ∈ (set.rename f).toList ↔ image ∈ set.toList.map f :=
  mem_ofList

/-- Lists that agree up to their order make the same set when they are put together. -/
theorem ofList_flatMap_map {α β : Type} {g : α → β} {lists : α → List S} {lists' : β → List T}
    (same : ∀ element image, image ∈ lists' (g element) ↔ image ∈ (lists element).map f)
    (elements : List α) :
    ofList ((elements.map g).flatMap lists') = (ofList (elements.flatMap lists)).rename f := by
  rw [rename_ofList, List.flatMap_map, List.map_flatMap]
  refine ofList_congr fun image => ?_
  simp only [List.mem_flatMap, same]

end SymbolSet

end ShiftReduce
