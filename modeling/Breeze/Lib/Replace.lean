import Mathlib.Data.List.Infix

/-! Replacing every occurrence of a pattern, from left to right. -/

namespace Breeze.Lib.Replace

variable {α : Type} [DecidableEq α]

-- skips what is left of an occurrence, then looks for the next one
def replaceFrom (old new : List α) : ℕ → List α → List α
  | _, [] => []
  | k + 1, _ :: s => replaceFrom old new k s
  | 0, a :: s =>
    if old.isPrefixOf (a :: s) then new ++ replaceFrom old new (old.length - 1) s
    else a :: replaceFrom old new 0 s

/-- Go's `bytes.ReplaceAll` and `strings.ReplaceAll` for a pattern that is not empty. -/
def replaceAll (old new s : List α) : List α := replaceFrom old new 0 s

def trimSuffix (suffix s : List α) : List α := if suffix <:+ s then s.take (s.length - suffix.length) else s

lemma replaceFrom_self {old : List α} (h : old ≠ []) (k : ℕ) (s : List α) : replaceFrom old old k s = s.drop k := by
  induction s generalizing k with
  | nil => simp [replaceFrom]
  | cons a s ih =>
    cases k with
    | succ k => rw [replaceFrom, ih, List.drop_succ_cons]
    | zero =>
      rw [replaceFrom]
      split_ifs with hp
      · obtain ⟨t, ht⟩ := List.isPrefixOf_iff_prefix.mp hp
        obtain ⟨b, u, rfl⟩ := List.exists_cons_of_ne_nil h
        rw [List.cons_append, List.cons.injEq] at ht
        rw [ih, List.length_cons, Nat.add_sub_cancel, ← ht.2, List.drop_left, List.drop_zero, List.cons_append, ht.1]
      · rw [ih, List.drop_zero, List.drop_zero]

theorem replaceAll_self {old : List α} (h : old ≠ []) (s : List α) : replaceAll old old s = s := replaceFrom_self h 0 s

lemma trimSuffix_append (s suffix : List α) : trimSuffix suffix (s ++ suffix) = s := by
  rw [trimSuffix, if_pos (List.suffix_append s suffix), List.length_append, Nat.add_sub_cancel, List.take_left]

end Breeze.Lib.Replace
