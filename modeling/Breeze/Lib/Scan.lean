import Mathlib.Order.Bounds.Basic
import Mathlib.Data.List.Basic

/-! Scanning an increasing list finds its least hit. -/

namespace Breeze.Lib.Scan

variable {α β : Type} [LinearOrder α] {l : List α} {f : α → Option β} {p : α → Bool} {a : α} {b : β}

lemma least_of_findSome? (hl : l.Pairwise (· < ·)) (h : l.findSome? f = some b) :
    ∃ a, IsLeast {x | x ∈ l ∧ (f x).isSome} a ∧ f a = some b := by
  induction l with
  | nil => cases h
  | cons x l ih =>
    rw [List.pairwise_cons] at hl
    rw [List.findSome?_cons] at h
    cases hx : f x with
    | some c =>
      rw [hx] at h
      refine ⟨x, ⟨⟨List.mem_cons_self, by rw [hx]; rfl⟩, ?_⟩, hx.trans h⟩
      rintro y ⟨hy, -⟩
      rcases List.mem_cons.mp hy with rfl | hy
      · exact le_rfl
      · exact (hl.1 y hy).le
    | none =>
      rw [hx] at h
      obtain ⟨a, ⟨⟨ha, hsome⟩, hleast⟩, heq⟩ := ih hl.2 h
      refine ⟨a, ⟨⟨List.mem_cons_of_mem x ha, hsome⟩, ?_⟩, heq⟩
      rintro y ⟨hy, hfy⟩
      rcases List.mem_cons.mp hy with rfl | hy
      · rw [hx] at hfy
        cases hfy
      · exact hleast ⟨hy, hfy⟩

lemma least_of_find? (hl : l.Pairwise (· < ·)) (h : l.find? p = some a) : IsLeast {x | x ∈ l ∧ p x = true} a := by
  rw [List.find?_eq_findSome?_guard] at h
  obtain ⟨x, hx, heq⟩ := least_of_findSome? hl h
  obtain ⟨rfl, -⟩ := Option.guard_eq_some_iff.mp heq
  simpa using hx

end Breeze.Lib.Scan
