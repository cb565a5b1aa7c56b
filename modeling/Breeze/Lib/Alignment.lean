import Mathlib.Tactic

/-! Patterns one of whose elements absorbs any run of items while every other one takes a single item. -/

namespace Breeze.Lib.Alignment

variable {β α : Type} {run : β} {fits : β → α → Prop} {p : β} {ps qs : List β} {xs : List α}

inductive Aligned (run : β) (fits : β → α → Prop) : List β → List α → Prop
  | nil : Aligned run fits [] []
  | absorb {ps : List β} {xs : List α} (ys : List α) (h : Aligned run fits ps xs) : Aligned run fits (run :: ps) (ys ++ xs)
  | single {p : β} {x : α} {ps : List β} {xs : List α} (hp : p ≠ run) (hfits : fits p x) (h : Aligned run fits ps xs) :
    Aligned run fits (p :: ps) (x :: xs)

lemma aligned_nil : Aligned run fits [] xs ↔ xs = [] := by
  constructor
  · rintro ⟨⟩
    rfl
  · rintro rfl
    exact .nil

lemma aligned_run : Aligned run fits (run :: ps) xs ↔ ∃ i ≤ xs.length, Aligned run fits ps (xs.drop i) := by
  constructor
  · intro h
    cases h with
    | absorb ys h => exact ⟨ys.length, by simp, by simpa using h⟩
    | single hp => exact absurd rfl hp
  · rintro ⟨i, -, h⟩
    have habsorb := Aligned.absorb (xs.take i) h
    rwa [List.take_append_drop] at habsorb

lemma aligned_cons (hp : p ≠ run) : Aligned run fits (p :: ps) xs ↔ ∃ x ys, xs = x :: ys ∧ fits p x ∧ Aligned run fits ps ys := by
  constructor
  · intro h
    cases h with
    | absorb => exact absurd rfl hp
    | single _ hfits h => exact ⟨_, _, rfl, hfits, h⟩
  · rintro ⟨x, ys, rfl, hfits, h⟩
    exact .single hp hfits h

lemma Aligned.push (h : Aligned run fits (run :: ps) xs) (ys : List α) : Aligned run fits (run :: ps) (ys ++ xs) := by
  cases h with
  | absorb zs h =>
    rw [← List.append_assoc]
    exact .absorb _ h
  | single hp => exact absurd rfl hp

lemma aligned_run_run : Aligned run fits (run :: run :: ps) xs ↔ Aligned run fits (run :: ps) xs := by
  constructor
  · intro h
    cases h with
    | absorb ys h => exact h.push ys
    | single hp => exact absurd rfl hp
  · exact fun h => .absorb [] h

lemma aligned_dropWhile [BEq β] [LawfulBEq β] :
    Aligned run fits (run :: ps.dropWhile (· == run)) xs ↔ Aligned run fits (run :: ps) xs := by
  induction ps with
  | nil => rfl
  | cons p ps ih =>
    by_cases hp : p = run
    · subst hp
      rw [List.dropWhile_cons_of_pos (by simp), ih, aligned_run_run]
    · rw [List.dropWhile_cons_of_neg (by simpa using hp)]

lemma aligned_last_run : Aligned run fits [run] xs := by
  have h : Aligned run fits [run] (xs ++ []) := .absorb xs .nil
  rwa [List.append_nil] at h

lemma Aligned.append {ys : List α} (h : Aligned run fits ps xs) (h' : Aligned run fits qs ys) :
    Aligned run fits (ps ++ qs) (xs ++ ys) := by
  induction h with
  | nil => exact h'
  | absorb zs h ih =>
    rw [List.append_assoc]
    exact .absorb zs ih
  | single hp hfits h ih => exact .single hp hfits ih

lemma Aligned.split (h : Aligned run fits (ps ++ qs) xs) :
    ∃ ys zs, xs = ys ++ zs ∧ Aligned run fits ps ys ∧ Aligned run fits qs zs := by
  induction ps generalizing xs with
  | nil => exact ⟨[], xs, rfl, .nil, h⟩
  | cons p ps ih =>
    generalize hps : p :: ps ++ qs = pattern at h
    cases h with
    | nil => cases hps
    | absorb ws h =>
      obtain ⟨rfl, rfl⟩ := List.cons.inj hps
      obtain ⟨ys, zs, rfl, hys, hzs⟩ := ih h
      exact ⟨ws ++ ys, zs, by simp, .absorb ws hys, hzs⟩
    | single hp hfits h =>
      obtain ⟨rfl, rfl⟩ := List.cons.inj hps
      obtain ⟨ys, zs, rfl, hys, hzs⟩ := ih h
      exact ⟨_ :: ys, zs, rfl, .single hp hfits hys, hzs⟩

lemma aligned_between (hxs : xs ≠ []) : Aligned run fits (run :: (ps ++ [run])) xs ↔
    ∃ k, 0 < k ∧ k ≤ xs.length ∧ Aligned run fits (run :: ps) (xs.take k) := by
  constructor
  · intro h
    rw [← List.cons_append] at h
    obtain ⟨ys, zs, rfl, hys, -⟩ := h.split
    cases ys with
    | nil =>
      rw [List.nil_append] at hxs ⊢
      have hpos := List.length_pos_iff.mpr hxs
      refine ⟨zs.length, hpos, le_rfl, ?_⟩
      rw [List.take_length]
      have hpush := hys.push zs
      rwa [List.append_nil] at hpush
    | cons y ys =>
      refine ⟨(y :: ys).length, by simp, by simp, ?_⟩
      rwa [List.take_left]
  · rintro ⟨k, -, -, h⟩
    have hlast : Aligned run fits [run] (xs.drop k) := aligned_last_run
    have happend := h.append hlast
    rwa [List.take_append_drop, List.cons_append] at happend

lemma aligned_run_single (hp : p ≠ run) : Aligned run fits [run, p] xs ↔ ∃ ys x, xs = ys ++ [x] ∧ fits p x := by
  constructor
  · intro h
    cases h with
    | absorb ys h =>
      obtain ⟨x, zs, rfl, hfits, hzs⟩ := (aligned_cons hp).mp h
      rw [aligned_nil] at hzs
      subst hzs
      exact ⟨ys, x, rfl, hfits⟩
    | single hrun => exact absurd rfl hrun
  · rintro ⟨ys, x, rfl, hfits⟩
    exact .absorb ys (.single hp hfits .nil)

end Breeze.Lib.Alignment
