import Mathlib.Data.List.Basic

/-! Texts without the white space at their ends, and texts cut at separators. -/

namespace Breeze.Lib.Whitespace

open List

def trimBy (isSpace : Char → Bool) (s : List Char) : List Char :=
  ((s.dropWhile isSpace).reverse.dropWhile isSpace).reverse

def isUnicodeSpace (c : Char) : Bool :=
  let n := c.toNat
  (9 ≤ n && n ≤ 13) || n == 0x20 || n == 0xA0 || n == 0x1680 || (0x2000 ≤ n && n ≤ 0x200A) || n == 0x2028 || n == 0x2029 ||
    n == 0x202F || n == 0x205F || n == 0x3000

def isEcmaSpace (c : Char) : Bool := isUnicodeSpace c || c.toNat == 0xFEFF

lemma visible_not_space {c : Char} (hlow : 33 ≤ c.toNat) (hhigh : c.toNat ≤ 126) : isEcmaSpace c = false := by
  simp only [isEcmaSpace, isUnicodeSpace, Bool.or_eq_false_iff, Bool.and_eq_false_iff, decide_eq_false_iff_not, beq_eq_false_iff_ne]
  omega

variable {α : Type} {s : List Char} {sep : Char}

lemma dropWhile_eq_self {p : α → Bool} {s : List α} (h : ∀ c ∈ s, p c = false) : s.dropWhile p = s := by
  cases s with
  | nil => rfl
  | cons c s => rw [dropWhile_cons, h c mem_cons_self, if_neg Bool.false_ne_true]

lemma trimBy_eq_self {isSpace : Char → Bool} (h : ∀ c ∈ s, isSpace c = false) : trimBy isSpace s = s := by
  have hreverse : s.reverse.dropWhile isSpace = s.reverse :=
    dropWhile_eq_self fun c hc => h c (List.mem_reverse.mp hc)
  rw [trimBy, dropWhile_eq_self h, hreverse, reverse_reverse]

lemma splitOnP_pieces {p : Char → Bool} {piece : List Char} (h : piece ∈ s.splitOnP p) : ∀ c ∈ piece, p c = false ∧ c ∈ s := by
  induction s generalizing piece with
  | nil =>
    rw [splitOnP_nil, mem_singleton] at h
    rw [h]
    exact fun c hc => absurd hc not_mem_nil
  | cons x s ih =>
    rw [splitOnP_cons_eq_if_modifyHead] at h
    split_ifs at h with hx
    · intro c hc
      rcases List.mem_cons.mp h with rfl | hmem
      · exact absurd hc not_mem_nil
      · exact ⟨(ih hmem c hc).1, mem_cons_of_mem _ (ih hmem c hc).2⟩
    · cases hsplit : s.splitOnP p with
      | nil => exact absurd hsplit (splitOnP_ne_nil p s)
      | cons head rest =>
        rw [hsplit] at ih
        rw [hsplit, modifyHead_cons] at h
        intro c hc
        rcases List.mem_cons.mp h with rfl | hmem
        · rcases List.mem_cons.mp hc with rfl | hc
          · exact ⟨(Bool.not_eq_true _).mp hx, mem_cons_self⟩
          · exact ⟨(ih mem_cons_self c hc).1, mem_cons_of_mem _ (ih mem_cons_self c hc).2⟩
        · have hrest := ih (mem_cons_of_mem _ hmem) c hc
          exact ⟨hrest.1, mem_cons_of_mem _ hrest.2⟩

lemma mem_intercalate {sep c : α} {pieces : List (List α)} (h : c ∈ [sep].intercalate pieces) :
    c = sep ∨ ∃ piece ∈ pieces, c ∈ piece := by
  induction pieces with
  | nil => exact absurd h not_mem_nil
  | cons piece pieces ih =>
    cases pieces with
    | nil =>
      rw [intercalate_singleton] at h
      exact Or.inr ⟨piece, mem_cons_self, h⟩
    | cons next pieces =>
      rw [intercalate_cons_cons, append_assoc, mem_append, singleton_append, mem_cons] at h
      rcases h with h | h | h
      · exact Or.inr ⟨piece, mem_cons_self, h⟩
      · exact Or.inl h
      · rcases ih h with h | ⟨other, hother, h⟩
        · exact Or.inl h
        · exact Or.inr ⟨other, mem_cons_of_mem _ hother, h⟩

lemma not_mem_of_splitOn {piece : List Char} (h : s.splitOn sep = [piece]) : sep ∉ s ∧ piece = s := by
  by_cases hmem : sep ∈ s
  · obtain ⟨before, after, rfl, hnot⟩ := eq_append_cons_of_mem hmem
    have hcut : (before ++ sep :: after).splitOn sep = before :: after.splitOn sep := by
      apply splitOnP_append_cons_of_forall_mem
      · intro c hc
        rw [beq_eq_false_iff_ne]
        rintro rfl
        exact hnot hc
      · exact beq_self_eq_true sep
    rw [hcut] at h
    exact absurd (List.cons.inj h).2 (splitOnP_ne_nil _ _)
  · rw [splitOn_eq_singleton hmem] at h
    exact ⟨hmem, (List.cons.inj h).1.symm⟩

end Breeze.Lib.Whitespace
