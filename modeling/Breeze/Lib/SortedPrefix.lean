import Mathlib.Data.List.Sort

/-! The first elements of a list in sorted order, kept while elements arrive one after another. -/

namespace Breeze.Lib.SortedPrefix

open List

section Insertion

variable {α : Type} {r : α → α → Prop} [DecidableRel r]

lemma take_orderedInsert (x : α) (l : List α) (n : ℕ) :
    (l.orderedInsert r x).take n = ((l.take n).orderedInsert r x).take n := by
  induction l generalizing n with
  | nil => simp
  | cons y l ih =>
    cases n with
    | zero => rfl
    | succ n =>
      rw [orderedInsert_cons, take_succ_cons, orderedInsert_cons]
      split_ifs
      · cases n with
        | zero => rfl
        | succ n => simp [take_take]
      · rw [take_succ_cons, take_succ_cons, ih]

end Insertion

variable {α : Type} (le : α → α → Bool)

def first (n : ℕ) (l : List (α × ℕ)) : List (α × ℕ) := (l.mergeSort (zipIdxLE le)).take n

def Numbered (l : List (α × ℕ)) : Prop := ∀ a ∈ l, ∀ b ∈ l, a.2 = b.2 → a = b

lemma numbered_zipIdx (l : List α) : Numbered l.zipIdx := by
  rintro ⟨a, i⟩ ha ⟨b, j⟩ hb (rfl : i = j)
  rw [mk_mem_zipIdx_iff_getElem?] at ha hb
  rw [Option.some.inj (ha.symm.trans hb)]

variable {le} {l l' : List (α × ℕ)} {n : ℕ} {x : α × ℕ}

lemma zipIdxLE_antisymm {a b : α × ℕ} (hab : zipIdxLE le a b = true) (hba : zipIdxLE le b a = true) : a.2 = b.2 := by
  rw [zipIdxLE] at hab hba
  split_ifs at hab hba
  exact le_antisymm (of_decide_eq_true hab) (of_decide_eq_true hba)

section Sorting

variable (htrans : ∀ a b c, le a b = true → le b c = true → le a c = true) (htotal : ∀ a b, (le a b || le b a) = true)
include htrans htotal

lemma mergeSort_concat (h : Numbered (l ++ [x])) :
    (l ++ [x]).mergeSort (zipIdxLE le) = (l.mergeSort (zipIdxLE le)).orderedInsert (zipIdxLE le · · = true) x := by
  have htrans' := zipIdxLE_trans htrans
  have htotal' := zipIdxLE_total htotal
  have : Std.Total (zipIdxLE le · · = true) := ⟨fun a b => Bool.or_eq_true_iff.mp (htotal' a b)⟩
  have : IsTrans _ (zipIdxLE le · · = true) := ⟨htrans'⟩
  have hperm := (mergeSort_perm (l ++ [x]) (zipIdxLE le)).trans (perm_append_singleton x l)
  have hinsert := (perm_orderedInsert (zipIdxLE le · · = true) x _).trans ((mergeSort_perm l (zipIdxLE le)).cons x)
  refine Perm.eq_of_pairwise (fun a b ha hb hab hba => ?_) (pairwise_mergeSort htrans' htotal' _)
    ((pairwise_mergeSort htrans' htotal' _).orderedInsert x _) (hperm.trans hinsert.symm)
  apply h a _ b _ (zipIdxLE_antisymm hab hba)
  · exact (mergeSort_perm _ _).subset ha
  · exact (perm_append_singleton x l).symm.subset (hinsert.subset hb)

lemma first_concat (h : first le n l = first le n l') (hl : Numbered (l ++ [x])) (hl' : Numbered (l' ++ [x])) :
    first le n (l ++ [x]) = first le n (l' ++ [x]) := by
  rw [first, first] at h ⊢
  rw [mergeSort_concat htrans htotal hl, mergeSort_concat htrans htotal hl', take_orderedInsert, h, ← take_orderedInsert]

lemma first_first (l : List (α × ℕ)) : first le n (first le n l) = first le n l := by
  have hsorted := (pairwise_mergeSort (zipIdxLE_trans htrans) (zipIdxLE_total htotal) l).take (i := n)
  simp only [first, mergeSort_of_pairwise hsorted, take_take, min_self]

end Sorting

end Breeze.Lib.SortedPrefix
