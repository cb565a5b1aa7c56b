import Mathlib.Data.List.Sort

/-! Neighbours in a sequence of distinct times, and what is left of them in a slice of it. -/

namespace Breeze.Lib.Consecutive

open List

variable {α : Type*}

def consecutive (l : List α) : List (α × α) := l.zip l.tail

def withPrevious (l : List α) : List (Option α × α) := (none :: l.map some).zip l

@[simp] lemma consecutive_nil : consecutive ([] : List α) = [] := rfl

@[simp] lemma consecutive_singleton (a : α) : consecutive [a] = [] := rfl

@[simp] lemma consecutive_cons_cons (a b : α) (l : List α) :
    consecutive (a :: b :: l) = (a, b) :: consecutive (b :: l) := rfl

@[simp] lemma withPrevious_nil : withPrevious ([] : List α) = [] := rfl

lemma withPrevious_cons (a : α) (l : List α) :
    withPrevious (a :: l) = (none, a) :: (consecutive (a :: l)).map fun p => (some p.1, p.2) := by
  have h : ∀ l : List α, ∀ a, ((a :: l).map some).zip l = (consecutive (a :: l)).map fun p => (some p.1, p.2) := by
    intro l
    induction l with
    | nil => intro a; rfl
    | cons b l ih => intro a; simpa using ih b
  exact congrArg _ (h l a)

lemma consecutive_append (l : List α) (a : α) (l' : List α) :
    consecutive (l ++ a :: l') = consecutive (l ++ [a]) ++ consecutive (a :: l') := by
  induction l with
  | nil => simp
  | cons b l ih =>
    cases l with
    | nil => simp
    | cons c l => simpa using ih

lemma consecutive_split {l : List α} {a b : α} (h : (a, b) ∈ consecutive l) : ∃ l₁ l₂, l = l₁ ++ a :: b :: l₂ := by
  induction l with
  | nil => cases h
  | cons x l ih =>
    cases l with
    | nil => cases h
    | cons y l =>
      rw [consecutive_cons_cons, mem_cons] at h
      obtain hxy | h := h
      · cases hxy
        exact ⟨[], l, rfl⟩
      · obtain ⟨l₁, l₂, hl⟩ := ih h
        exact ⟨x :: l₁, l₂, by rw [hl, cons_append]⟩

section Times

variable (t : α → ℤ)

abbrev Increasing (l : List α) : Prop := l.Pairwise fun a b => t a < t b

def within (u v : ℤ) (a : α) : Bool := decide (u ≤ t a) && decide (t a < v)

variable {t} {l : List α}

lemma Increasing.filter {p : α → Bool} (h : Increasing t l) : Increasing t (l.filter p) :=
  List.Pairwise.filter p h

lemma past_within {a b : α} {u v : ℤ} (hl : Increasing t (b :: l)) (ha : within t u v a = true) (hab : t a < t b)
    (hb : within t u v b = false) : (b :: l).filter (within t u v) = [] := by
  rw [filter_eq_nil_iff]
  intro c hc
  have hbc : t b ≤ t c := by
    obtain rfl | hc := List.mem_cons.mp hc
    · exact le_refl _
    · exact ((List.pairwise_cons.mp hl).1 c hc).le
  simp only [within, Bool.and_eq_true, decide_eq_true_eq, Bool.and_eq_false_iff, decide_eq_false_iff_not] at ha hb ⊢
  omega

lemma consecutive_within (h : Increasing t l) (u v : ℤ) :
    consecutive (l.filter (within t u v)) =
      (consecutive l).filter fun p => within t u v p.1 && within t u v p.2 := by
  induction l with
  | nil => rfl
  | cons a l ih =>
    cases l with
    | nil => cases h' : within t u v a <;> simp [h']
    | cons b l =>
      obtain ⟨ha, hl⟩ := List.pairwise_cons.mp h
      have hab : t a < t b := ha b mem_cons_self
      rw [consecutive_cons_cons, filter_cons (x := (a, b)), ← ih hl]
      cases hina : within t u v a with
      | false => simp [filter_cons, hina]
      | true =>
        cases hinb : within t u v b with
        | false =>
          -- everything from `b` on is past the slice
          rw [filter_cons_of_pos hina, past_within hl hina hab hinb]
          simp
        | true =>
          rw [filter_cons_of_pos hina, filter_cons_of_pos hinb]
          simp

lemma consecutive_mem {a b : α} (h : Increasing t l) (hab : (a, b) ∈ consecutive l) :
    a ∈ l ∧ b ∈ l ∧ t a < t b ∧ ∀ c ∈ l, t c ≤ t a ∨ t b ≤ t c := by
  induction l with
  | nil => cases hab
  | cons x l ih =>
    cases l with
    | nil => cases hab
    | cons y l =>
      obtain ⟨hx, hl⟩ := List.pairwise_cons.mp h
      rw [consecutive_cons_cons, mem_cons] at hab
      obtain hxy | hab := hab
      · cases hxy
        refine ⟨by simp, by simp, hx _ mem_cons_self, fun c hc => ?_⟩
        obtain rfl | hc := List.mem_cons.mp hc
        · exact .inl (le_refl _)
        · obtain rfl | hc := List.mem_cons.mp hc
          · exact .inr (le_refl _)
          · exact .inr ((List.pairwise_cons.mp hl).1 c hc).le
      · obtain ⟨ha, hb, hlt, hbetween⟩ := ih hl hab
        refine ⟨mem_cons_of_mem _ ha, mem_cons_of_mem _ hb, hlt, fun c hc => ?_⟩
        obtain rfl | hc := List.mem_cons.mp hc
        · exact .inl (hx a ha).le
        · exact hbetween c hc

lemma exists_before {b c : α} (h : Increasing t l) (hb : b ∈ l) (hc : c ∈ l) (hcb : t c < t b) :
    ∃ a, (a, b) ∈ consecutive l := by
  induction l generalizing c with
  | nil => cases hb
  | cons x l ih =>
    obtain ⟨hx, hl⟩ := List.pairwise_cons.mp h
    cases l with
    | nil =>
      rw [mem_singleton] at hb hc
      subst hb hc
      exact absurd hcb (lt_irrefl _)
    | cons y l =>
      obtain rfl | hb := List.mem_cons.mp hb
      · obtain rfl | hc := List.mem_cons.mp hc
        · exact absurd hcb (lt_irrefl _)
        · exact absurd hcb (hx c hc).not_gt
      · rw [consecutive_cons_cons]
        obtain rfl | hy := List.mem_cons.mp hb
        · exact ⟨x, mem_cons_self⟩
        · obtain ⟨a, ha⟩ := ih hl hb mem_cons_self ((List.pairwise_cons.mp hl).1 b hy)
          exact ⟨a, mem_cons_of_mem _ ha⟩

lemma exists_crossing {a b : α} {u : ℤ} (h : Increasing t l) (ha : a ∈ l) (hb : b ∈ l) (hau : t a < u) (hub : u ≤ t b) :
    ∃ c d, (c, d) ∈ consecutive l ∧ t c < u ∧ u ≤ t d := by
  induction l generalizing a with
  | nil => cases ha
  | cons x l ih =>
    obtain ⟨hx, hl⟩ := List.pairwise_cons.mp h
    cases l with
    | nil =>
      rw [mem_singleton] at ha hb
      subst ha hb
      omega
    | cons y l =>
      have hxu : t x < u := by
        obtain rfl | ha := List.mem_cons.mp ha
        · exact hau
        · exact (hx a ha).trans hau
      rw [consecutive_cons_cons]
      by_cases hyu : t y < u
      · have hb' : b ∈ y :: l := by
          obtain rfl | hb := List.mem_cons.mp hb
          · omega
          · exact hb
        obtain ⟨c, d, hcd, hc, hd⟩ := ih hl mem_cons_self hb' hyu
        exact ⟨c, d, mem_cons_of_mem _ hcd, hc, hd⟩
      · exact ⟨x, y, mem_cons_self, hxu, not_lt.mp hyu⟩

lemma Increasing.ext {l₁ l₂ : List α} (h₁ : Increasing t l₁) (h₂ : Increasing t l₂) (h : ∀ a, a ∈ l₁ ↔ a ∈ l₂) :
    l₁ = l₂ := by
  have hnodup : ∀ {l : List α}, Increasing t l → l.Nodup := fun h => h.imp fun hab => fun he => by
    rw [he] at hab
    exact lt_irrefl _ hab
  refine List.Perm.eq_of_pairwise (fun a b _ _ hab hba => absurd hba hab.not_gt) h₁ h₂ ?_
  exact (perm_ext_iff_of_nodup (hnodup h₁) (hnodup h₂)).mpr h

end Times

end Breeze.Lib.Consecutive
