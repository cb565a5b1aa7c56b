import Breeze.Maintenance.Windows

/-! When a wall clock passes a given reading, and when the conversion back to an instant finds that moment. -/

namespace Breeze.Maintenance.Crossing

open Windows

section Seconds

variable (offset : Int → Int)

/-- Within a day of the reading `b` the zone has the offset `p` before `change` and `q` from then on. -/
structure OneChange (b change p q : Int) : Prop where
  after : b - 86400 < change
  before : change ≤ b + 86400
  offsets : ∀ s, b - 86400 ≤ s → s ≤ b + 86400 → offset s = if s < change then p else q

def Bounded : Prop := ∀ s, -86400 ≤ offset s ∧ offset s ≤ 86400

variable {offset} {b change p q : Int}

def crossing (b change p q : Int) : Int :=
  if b < change + p then b - p else if change + q ≤ b then b - q else change

section

variable (h : OneChange offset b change p q)

include h

lemma OneChange.bounds (hb : Bounded offset) :
    -86400 ≤ p ∧ p ≤ 86400 ∧ -86400 ≤ q ∧ q ≤ 86400 := by
  have hp := h.offsets (b - 86400) (by omega) (by omega)
  have hq := h.offsets (b + 86400) (by omega) (by omega)
  rw [if_pos h.after] at hp
  rw [if_neg (by have := h.before; omega)] at hq
  have h₁ := hb (b - 86400)
  have h₂ := hb (b + 86400)
  omega

lemma OneChange.offset_before {s : Int} (hs : s < change)
    (hnear : b - 86400 ≤ s) : offset s = p := by
  rw [h.offsets s hnear (by have := h.before; omega), if_pos hs]

lemma OneChange.offset_after {s : Int} (hs : change ≤ s)
    (hnear : s ≤ b + 86400) : offset s = q := by
  rw [h.offsets s (by have := h.after; omega) hnear, if_neg (by omega)]

end

end Seconds

section Conversion

variable {offset : Int → Int} {b change p q : Int}

@[simp] lemma wallClock_seconds (s : Int) : maintenanceWallClock (1000 * s) (some offset) = 1000 * (s + offset s) := by
  have hdiv : 1000 * s / 1000 = s := by omega
  simp only [maintenanceWallClock, hdiv]
  omega

@[simp] lemma zoneOffset_seconds (s : Int) : zoneOffsetMs (1000 * s) (some offset) = 1000 * offset s := by
  rw [zoneOffsetMs, wallClock_seconds]
  omega

section

variable (h : OneChange offset b change p q)

include h

lemma zoneOffset_before (hgap : p < q) {t : Int}
    (ht : t < 1000 * change) (hnear : 1000 * (b - 86400) ≤ t) : zoneOffsetMs t (some offset) ≠ 1000 * q := by
  have hoffset := h.offset_before (s := t / 1000) (by omega) (by omega)
  simp only [zoneOffsetMs, maintenanceWallClock, hoffset]
  omega

lemma bisect_from_change (hgap : p < q) {lo : Int}
    (hlo : lo < 1000 * change) (hnear : 1000 * (b - 86400) ≤ lo) :
    bisectOffset (some offset) (1000 * q) lo (1000 * change) = 1000 * change := by
  generalize hn : (1000 * change - lo).toNat = n
  induction n using Nat.strong_induction_on generalizing lo with
  | _ n ih =>
    rw [bisectOffset]
    dsimp only
    split_ifs with hwide hflip
    · exact absurd hflip (zoneOffset_before h hgap (by omega) (by omega))
    · exact ih _ (by omega) (by omega) (by omega) rfl
    · rfl

lemma bisect_finds_change (hgap : p < q) (j : ℕ) (u : Int)
    {l r : Int} (hlr : r - l = 2 ^ j * u) (hdvd : u ∣ change - l) (hl : l < change) (hr : change ≤ r)
    (hnear : b - 86400 ≤ l) (hnear' : r ≤ b + 86400) :
    bisectOffset (some offset) (1000 * q) (1000 * l) (1000 * r) = 1000 * change := by
  obtain ⟨k, hk⟩ := hdvd
  induction j generalizing l r k with
  | zero =>
    -- the change is the right end: it is a positive multiple of the width away from the left end
    have hu : 0 < u := by
      rw [pow_zero, one_mul] at hlr
      omega
    have hkpos : 0 < k := by
      by_contra hk'
      have := mul_nonpos_of_nonneg_of_nonpos hu.le (not_lt.mp hk')
      omega
    have hend : r = change := by
      have := le_mul_of_one_le_right hu.le hkpos
      rw [pow_zero, one_mul] at hlr
      omega
    rw [hend]
    exact bisect_from_change h hgap (by omega) (by omega)
  | succ j ih =>
    have hhalf : r - l = 2 * (2 ^ j * u) := by rw [hlr, pow_succ]; ring
    have hmid : (1000 * l + 1000 * r) / 2 = 1000 * (l + 2 ^ j * u) := by omega
    rw [bisectOffset, if_pos (by omega)]
    simp only [hmid, zoneOffset_seconds]
    by_cases hflip : change ≤ l + 2 ^ j * u
    · rw [if_pos (by rw [h.offset_after hflip (by omega)])]
      exact ih (by omega) hl hflip hnear (by omega) k hk
    · rw [if_neg (by rw [h.offset_before (not_le.mp hflip) (by omega)]; omega)]
      refine ih (by omega) (not_le.mp hflip) hr (by omega) hnear' (k - 2 ^ j) ?_
      rw [mul_sub, ← hk]
      ring

lemma wallClockToInstant_skipped (hb : Bounded offset)
    (hlow : change + p ≤ b) (hhigh : b < change + q) :
    wallClockToInstant (1000 * b) (some offset) =
      bisectOffset (some offset) (1000 * q) (1000 * (b - q)) (1000 * (b - p)) := by
  obtain ⟨hp, hp', hq, hq'⟩ := h.bounds hb
  have hfirst : 1000 * b - 1000 * offset b = 1000 * (b - offset b) := by ring
  have hsecond : 1000 * b - 1000 * offset (b - offset b) = 1000 * (b - offset (b - offset b)) := by ring
  have htest : ∀ x y : Int, 1000 * x = 1000 * b - 1000 * (b - y) ↔ x = y := fun x y => by omega
  have hafter : offset (b - p) = q := h.offset_after (by omega) (by omega)
  have hbefore : offset (b - q) = p := h.offset_before (by omega) (by omega)
  simp only [wallClockToInstant, zoneOffset_seconds, hfirst, hsecond, htest]
  by_cases hnow : b < change
  · rw [h.offset_before hnow (by omega), hafter, hbefore, if_neg (by omega), if_neg (by omega),
      max_eq_left (by omega), min_eq_right (by omega), zoneOffset_seconds, hafter]
  · rw [h.offset_after (not_lt.mp hnow) (by omega), hbefore, hafter, if_neg (by omega), if_neg (by omega),
      max_eq_right (by omega), min_eq_left (by omega), zoneOffset_seconds, hafter]

lemma wallClockToInstant_crossing (hb : Bounded offset)
    (honce : ¬ (change + q ≤ b ∧ b < change + p))
    (hgap : change + p ≤ b → b < change + q → ∃ (j : ℕ) (u : Int), q - p = 2 ^ j * u ∧ u ∣ change + q - b) :
    wallClockToInstant (1000 * b) (some offset) = 1000 * crossing b change p q := by
  obtain ⟨hp, hp', hq, hq'⟩ := h.bounds hb
  have hfirst : 1000 * b - 1000 * offset b = 1000 * (b - offset b) := by ring
  have hsecond : 1000 * b - 1000 * offset (b - offset b) = 1000 * (b - offset (b - offset b)) := by ring
  have htest : ∀ x y : Int, 1000 * x = 1000 * b - 1000 * (b - y) ↔ x = y := fun x y => by omega
  by_cases hearly : b < change + p
  · have hback : offset (b - p) = p := h.offset_before (by omega) (by omega)
    simp only [wallClockToInstant, zoneOffset_seconds, hfirst, hsecond, htest, crossing]
    rw [if_pos hearly]
    by_cases hnow : b < change
    · rw [h.offset_before hnow (by omega), if_pos hback]
    · have hq' : offset (b - q) = p := h.offset_before (by omega) (by omega)
      rw [h.offset_after (not_lt.mp hnow) (by omega), hq']
      split_ifs with hpq
      · rw [hpq]
      · rfl
  · by_cases hlate : change + q ≤ b
    · have hback : offset (b - q) = q := h.offset_after (by omega) (by omega)
      simp only [wallClockToInstant, zoneOffset_seconds, hfirst, hsecond, htest, crossing]
      rw [if_neg hearly, if_pos hlate]
      by_cases hnow : b < change
      · have hp' : offset (b - p) = q := h.offset_after (by omega) (by omega)
        rw [h.offset_before hnow (by omega), hp']
        split_ifs with hpq
        · rw [hpq]
        · rfl
      · rw [h.offset_after (not_lt.mp hnow) (by omega), if_pos hback]
    · obtain ⟨j, u, hwidth, hdvd⟩ := hgap (by omega) (by omega)
      rw [wallClockToInstant_skipped h hb (by omega) (by omega), crossing, if_neg hearly, if_neg hlate]
      exact bisect_finds_change h (by omega) j u (by omega) (by rwa [show change - (b - q) = change + q - b by ring])
        (by omega) (by omega) (by omega) (by omega)

end

end Conversion

section Crossed

end Crossed

end Breeze.Maintenance.Crossing
