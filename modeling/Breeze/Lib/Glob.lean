import Mathlib.Tactic

/-! Patterns of single-character terms and stars, and their language. After a star the leftmost fit of the
terms up to the next star is as good as any other. -/

namespace Breeze.Lib.Glob

inductive Term (α : Type) where
  | star
  | any
  | char (c : α)
  | cls (negated : Bool) (ranges : List (α × α))

variable {α : Type} [LinearOrder α]

def Term.accepts : Term α → α → Bool
  | .star, _ => false
  | .any, _ => true
  | .char c, x => c == x
  | .cls negated ranges, x => (ranges.any fun r => decide (r.1 ≤ x) && decide (x ≤ r.2)) != negated

def Matches : List (Term α) → List α → Prop
  | [], n => n = []
  | .star :: ts, n => ∃ k ≤ n.length, Matches ts (n.drop k)
  | t :: ts, n => ∃ c m, n = c :: m ∧ t.accepts c = true ∧ Matches ts m

def StarFree (ts : List (Term α)) : Prop := ∀ t ∈ ts, t ≠ .star

def consume : List (Term α) → List α → Option (List α)
  | [], s => some s
  | _ :: _, [] => none
  | t :: ts, c :: s => if t.accepts c then consume ts s else none

lemma matches_cons {t : Term α} (ht : t ≠ .star) (ts : List (Term α)) (n : List α) :
    Matches (t :: ts) n ↔ ∃ c m, n = c :: m ∧ t.accepts c = true ∧ Matches ts m := by
  cases t with
  | star => exact absurd rfl ht
  | any | char c | cls negated ranges => rfl

lemma matches_star (ts : List (Term α)) (n : List α) :
    Matches (.star :: ts) n ↔ ∃ k ≤ n.length, Matches ts (n.drop k) := Iff.rfl

variable {ts us : List (Term α)} {n : List α}

lemma matches_of_matches_nil (hne : ts ≠ []) (h : Matches ts []) (n : List α) : Matches ts n := by
  cases ts with
  | nil => exact absurd rfl hne
  | cons t ts =>
    by_cases ht : t = .star
    · subst ht
      obtain ⟨k, -, h⟩ := h
      rw [List.drop_nil] at h
      exact ⟨n.length, le_rfl, by rwa [List.drop_length]⟩
    · obtain ⟨c, m, hnil, -⟩ := (matches_cons ht ts []).mp h
      cases hnil

lemma consume_drop {s rest : List α} (h : consume ts s = some rest) : rest = s.drop ts.length := by
  induction ts generalizing s with
  | nil => exact (Option.some.inj h).symm
  | cons t ts ih =>
    cases s with
    | nil => cases h
    | cons c s =>
      rw [consume] at h
      split_ifs at h
      exact ih h

lemma matches_append (hts : StarFree ts) (us : List (Term α)) (n : List α) :
    Matches (ts ++ us) n ↔ ∃ rest, consume ts n = some rest ∧ Matches us rest := by
  induction ts generalizing n with
  | nil =>
    constructor
    · exact fun h => ⟨n, rfl, h⟩
    · rintro ⟨rest, hrest, h⟩
      cases hrest
      exact h
  | cons t ts ih =>
    have hts' : StarFree ts := fun u hu => hts u (List.mem_cons_of_mem _ hu)
    rw [List.cons_append, matches_cons (hts t List.mem_cons_self)]
    constructor
    · rintro ⟨c, m, rfl, hc, h⟩
      rw [ih hts'] at h
      rwa [consume, if_pos hc]
    · rintro ⟨rest, hrest, h⟩
      cases n with
      | nil => cases hrest
      | cons c m =>
        rw [consume] at hrest
        split_ifs at hrest with hc
        exact ⟨c, m, rfl, hc, (ih hts' m).mpr ⟨rest, hrest, h⟩⟩

def Open (us : List (Term α)) : Prop := us = [] ∨ ∃ vs, us = .star :: vs

lemma matches_star_drop {j k : ℕ} (hjk : j ≤ k) (h : Matches (.star :: ts) (n.drop k)) : Matches (.star :: ts) (n.drop j) := by
  obtain ⟨i, hi, h⟩ := h
  rw [List.drop_drop] at h
  rw [List.length_drop] at hi
  rcases le_or_gt k n.length with hk | hk
  · refine ⟨k - j + i, ?_, ?_⟩
    · rw [List.length_drop]
      omega
    · rw [List.drop_drop, show j + (k - j + i) = k + i by omega]
      exact h
  · refine ⟨n.length - j, by rw [List.length_drop], ?_⟩
    rw [List.drop_drop]
    rw [List.drop_eq_nil_of_le (by omega)] at h ⊢
    exact h

lemma matches_stars (k : ℕ) (ts : List (Term α)) (n : List α) :
    Matches (List.replicate (k + 1) .star ++ ts) n ↔ Matches (.star :: ts) n := by
  induction k generalizing n with
  | zero => rfl
  | succ k ih =>
    rw [List.replicate_succ, List.cons_append, matches_star]
    constructor
    · rintro ⟨j, hj, h⟩
      rw [ih] at h
      exact matches_star_drop (Nat.zero_le j) h
    · intro h
      exact ⟨0, Nat.zero_le _, (ih _).mpr h⟩

def Fits (ts us : List (Term α)) (s rest : List α) : Prop :=
  consume ts s = some rest ∧ (us = [] → rest = [])

lemma matches_of_fits (hts : StarFree ts) {rest : List α} (h : Fits ts us n rest) : Matches (ts ++ us) n ↔ Matches us rest := by
  rw [matches_append hts]
  constructor
  · rintro ⟨rest', hrest', hmatch⟩
    rw [h.1] at hrest'
    cases hrest'
    exact hmatch
  · exact fun hmatch => ⟨rest, h.1, hmatch⟩

lemma not_matches_of_not_fits (hts : StarFree ts) (h : ∀ rest, ¬ Fits ts us n rest) : ¬ Matches (ts ++ us) n := by
  rw [matches_append hts]
  rintro ⟨rest, hrest, hmatch⟩
  refine h rest ⟨hrest, ?_⟩
  rintro rfl
  exact hmatch

lemma matches_star_of_first (hts : StarFree ts) (hus : Open us) {rest : List α} {k : ℕ}
    (hk : k ≤ n.length) (hfits : Fits ts us (n.drop k) rest) (hfirst : ∀ j < k, ∀ rest, ¬ Fits ts us (n.drop j) rest) :
    Matches (.star :: (ts ++ us)) n ↔ Matches us rest := by
  constructor
  · rintro ⟨j, hj, hmatch⟩
    rcases hus with rfl | ⟨vs, rfl⟩
    · rw [hfits.2 rfl]
      rfl
    · rw [matches_append hts] at hmatch
      obtain ⟨rest', hrest', hmatch⟩ := hmatch
      have hkj : k ≤ j := by
        by_contra hlt
        exact hfirst j (not_le.mp hlt) rest' ⟨hrest', nofun⟩
      have hdrop := consume_drop hfits.1
      have hdrop' := consume_drop hrest'
      rw [List.drop_drop] at hdrop hdrop'
      rw [hdrop]
      rw [hdrop'] at hmatch
      exact matches_star_drop (by omega) hmatch
  · intro hmatch
    exact ⟨k, hk, (matches_of_fits hts hfits).mpr hmatch⟩

lemma not_matches_star (hts : StarFree ts)
    (hnone : ∀ k ≤ n.length, ∀ rest, ¬ Fits ts us (n.drop k) rest) : ¬ Matches (.star :: (ts ++ us)) n := by
  rintro ⟨k, hk, hmatch⟩
  exact not_matches_of_not_fits hts (hnone k hk) hmatch

end Breeze.Lib.Glob
