import Breeze.Maintenance.Agreement

/-! The conversion from a reading of the wall clock back to an instant, in a zone whose changes are far apart. -/

namespace Breeze.Maintenance.Inversion

open Windows Crossing

section Zones

variable (offset : Int → Int)

structure Spaced : Prop where
  bounded : Bounded offset
  apart : ∀ s t, s < t → offset (s - 1) ≠ offset s → offset (t - 1) ≠ offset t → s + 172800 ≤ t
  size : ∀ t, -10800 ≤ offset t - offset (t - 1) ∧ offset t - offset (t - 1) ≤ 10800

def Shows (w x : Int) : Prop := maintenanceWallClock (1000 * x) (some offset) = 1000 * w

def Skips (w t : Int) : Prop := t + offset (t - 1) ≤ w ∧ w < t + offset t

def Repeats (w t : Int) : Prop := t + offset t ≤ w ∧ w < t + offset (t - 1)

variable {offset} {w : Int}

lemma offset_eq_of_unchanged {l r : Int} (hlr : l ≤ r) (h : ∀ t, l < t → t ≤ r → offset (t - 1) = offset t) :
    offset l = offset r := by
  induction r, hlr using Int.leInduction with
  | base => rfl
  | succ r hlr ih =>
    have hstep := h (r + 1) (by omega) le_rfl
    rw [add_sub_cancel_right] at hstep
    rw [ih fun t hl hr => h t hl (by omega), hstep]

lemma Spaced.oneChange (h : Spaced offset) (w : Int) :
    ∃ change, OneChange offset w change (offset (change - 1)) (offset change) := by
  by_cases hsome : ∃ t, w - 86400 < t ∧ t ≤ w + 86400 ∧ offset (t - 1) ≠ offset t
  · obtain ⟨t, hlow, hhigh, hchange⟩ := hsome
    -- no second change falls within the two days around the reading
    have hsole : ∀ s, w - 86400 < s → s ≤ w + 86400 → s ≠ t → offset (s - 1) = offset s := by
      intro s hs hs' hne
      by_contra hother
      obtain hlt | hlt := lt_or_gt_of_ne hne
      · have := h.apart s t hlt hother hchange
        omega
      · have := h.apart t s hlt hchange hother
        omega
    refine ⟨t, hlow, hhigh, fun s hs hs' => ?_⟩
    split_ifs with hbefore
    · exact offset_eq_of_unchanged (by omega) fun u hu hu' => hsole u (by omega) (by omega) (by omega)
    · exact (offset_eq_of_unchanged (not_lt.mp hbefore) fun u hu hu' => hsole u (by omega) (by omega) (by omega)).symm
  · have hnone : ∀ t, w - 86400 < t → t ≤ w + 86400 → offset (t - 1) = offset t := by
      intro t hlow hhigh
      by_contra hchange
      exact hsome ⟨t, hlow, hhigh, hchange⟩
    refine ⟨w, by omega, by omega, fun s hs hs' => ?_⟩
    split_ifs with hbefore
    · exact offset_eq_of_unchanged (by omega) fun u hu hu' => hnone u (by omega) (by omega)
    · exact (offset_eq_of_unchanged (not_lt.mp hbefore) fun u hu hu' => hnone u (by omega) (by omega)).symm

variable {change p q : Int}

section

variable (h : OneChange offset w change p q) (hb : Bounded offset)

include h hb

lemma eq_change {t : Int} (hne : offset (t - 1) ≠ offset t)
    (hlow : min (t + offset (t - 1)) (t + offset t) ≤ w) (hhigh : w < max (t + offset (t - 1)) (t + offset t)) :
    t = change := by
  have h₁ := hb t
  have h₂ := hb (t - 1)
  have hafter := h.offsets t (by omega) (by omega)
  have hbefore := h.offsets (t - 1) (by omega) (by omega)
  rw [hafter, hbefore] at hne
  split_ifs at hne <;> omega

lemma Skips.eq_change {t : Int} (ht : Skips offset w t) :
    t = change := by
  obtain ⟨hlow, hhigh⟩ := ht
  exact Inversion.eq_change h hb (by omega) (by omega) (by omega)

lemma Repeats.eq_change {t : Int} (ht : Repeats offset w t) :
    t = change := by
  obtain ⟨hlow, hhigh⟩ := ht
  exact Inversion.eq_change h hb (by omega) (by omega) (by omega)

lemma shows_iff (x : Int) :
    Shows offset w x ↔ x = w - p ∧ w < change + p ∨ x = w - q ∧ change + q ≤ w := by
  obtain ⟨hp, hp', hq, hq'⟩ := h.bounds hb
  have hx := hb x
  rw [Shows, wallClock_seconds]
  constructor
  · intro hreads
    have hnear := h.offsets x (by omega) (by omega)
    split_ifs at hnear <;> omega
  · rintro (⟨rfl, hlt⟩ | ⟨rfl, hle⟩)
    · rw [h.offset_before (by omega) (by omega)]
      omega
    · rw [h.offset_after (by omega) (by omega)]
      omega

end

end Zones

section Search

variable {offset : Int → Int} {w change p q : Int}

def wholeMiddles (change lo hi : Int) : Bool :=
  if hi - lo > 1 then
    if 1000 * change ≤ (lo + hi) / 2 then
      (lo + hi) / 2 % 1000 == 0 && wholeMiddles change lo ((lo + hi) / 2)
    else wholeMiddles change ((lo + hi) / 2) hi
  else true
termination_by (hi - lo).toNat
decreasing_by all_goals omega

lemma lt_bisect (zone : Zone) (after : Int) {lo hi : Int} (h : lo < hi) : lo < bisectOffset zone after lo hi := by
  fun_induction bisectOffset zone after lo hi with
  | case1 lo hi hwide mid hflip ih => exact ih (by omega)
  | case2 lo hi hwide mid hflip ih =>
    have := ih (by omega)
    omega
  | case3 lo hi hnarrow => exact h

section

variable (h : OneChange offset w change p q)

include h

lemma zoneOffset_after {t : Int} (ht : 1000 * change ≤ t)
    (hnear : t ≤ 1000 * (w + 86400)) : zoneOffsetMs t (some offset) = 1000 * q ↔ t % 1000 = 0 := by
  have hoffset := h.offset_after (s := t / 1000) (by omega) (by omega)
  simp only [zoneOffsetMs, maintenanceWallClock, hoffset]
  omega

lemma bisect_eq_change_iff (hgap : p < q) {lo hi : Int} (hlo : lo < 1000 * change)
    (hhi : 1000 * change ≤ hi) (hnear : 1000 * (w - 86400) ≤ lo) (hnear' : hi ≤ 1000 * (w + 86400)) :
    bisectOffset (some offset) (1000 * q) lo hi = 1000 * change ↔ wholeMiddles change lo hi = true := by
  fun_induction wholeMiddles change lo hi with
  | case1 lo hi hwide hpast ih =>
    have hflip := zoneOffset_after h hpast (by omega)
    rw [bisectOffset, if_pos hwide]
    simp only [Bool.and_eq_true, beq_iff_eq]
    by_cases hwhole : (lo + hi) / 2 % 1000 = 0
    · rw [if_pos (hflip.mpr hwhole), ih hlo hpast hnear (by omega)]
      simp [hwhole]
    · -- the offset reads short there, and the search goes on to the right of the change
      have hbeyond := lt_bisect (some offset) (1000 * q) (show (lo + hi) / 2 < hi by omega)
      rw [if_neg (mt hflip.mp hwhole)]
      refine iff_of_false (by omega) fun hboth => hwhole hboth.1
  | case2 lo hi hwide hpast ih =>
    rw [bisectOffset, if_pos hwide]
    dsimp only
    rw [if_neg (zoneOffset_before h hgap (not_le.mp hpast) (by omega))]
    exact ih (by omega) hhi (by omega) hnear'
  | case3 lo hi hnarrow =>
    rw [bisectOffset, if_neg hnarrow]
    exact iff_of_true (by omega) rfl

lemma wallClockToInstant_repeated (hb : Bounded offset)
    (hlow : change + q ≤ w) (hhigh : w < change + p) :
    wallClockToInstant (1000 * w) (some offset) = 1000 * (if w < change then w - p else w - q) := by
  obtain ⟨hp, hp', hq, hq'⟩ := h.bounds hb
  have hfirst : 1000 * w - 1000 * offset w = 1000 * (w - offset w) := by ring
  have htest : ∀ x y : Int, 1000 * x = 1000 * w - 1000 * (w - y) ↔ x = y := fun x y => by omega
  simp only [wallClockToInstant, zoneOffset_seconds, hfirst, htest]
  by_cases hnow : w < change
  · have hback : offset (w - p) = p := h.offset_before (by omega) (by omega)
    rw [h.offset_before hnow (by omega), if_pos hback, if_pos hnow]
  · have hback : offset (w - q) = q := h.offset_after (by omega) (by omega)
    rw [h.offset_after (not_lt.mp hnow) (by omega), if_pos hback, if_neg hnow]

end

end Search

section Conversion

variable (offset : Int → Int) (w : Int)

/-- The conversion names the one instant that shows the reading, the earlier of two, or the change that skips it. -/
structure Inverts : Prop where
  once : ∀ x, (∀ y, Shows offset w y ↔ y = x) → wallClockToInstant (1000 * w) (some offset) = 1000 * x
  twice : ∀ x y, x < y → (∀ z, Shows offset w z ↔ z = x ∨ z = y) → wallClockToInstant (1000 * w) (some offset) = 1000 * x
  skipped : ∀ t, (∀ x, ¬ Shows offset w x) → Skips offset w t → wallClockToInstant (1000 * w) (some offset) = 1000 * t

def Sorted : Prop :=
  (∃ x, ∀ y, Shows offset w y ↔ y = x) ∨ (∃ x y, x < y ∧ ∀ z, Shows offset w z ↔ z = x ∨ z = y) ∨
    (∀ x, ¬ Shows offset w x) ∧ ∃ t, Skips offset w t

/-- A reading that comes twice, taken for UTC, is before the clock is set back; the search for one that is skipped
sees the change in whole seconds only. -/
structure Invertible : Prop where
  repeated : ∀ t, Repeats offset w t → w < t
  skipped : ∀ t, Skips offset w t → wholeMiddles t (1000 * (w - offset t)) (1000 * (w - offset (t - 1))) = true

variable {offset w} {change : Int}

section

variable (hb : Bounded offset) (h : OneChange offset w change (offset (change - 1)) (offset change))

include hb h

lemma inverts_read
    (hrepeat : ¬ Repeats offset w change) (hskip : ¬ Skips offset w change) :
    Sorted offset w ∧ (Inverts offset w ↔ Invertible offset w) := by
  have hfound := wallClockToInstant_crossing h hb hrepeat fun h₁ h₂ => absurd ⟨h₁, h₂⟩ hskip
  have hone : ∀ y, Shows offset w y ↔ y = crossing w change (offset (change - 1)) (offset change) := by
    intro y
    simp only [Repeats, Skips] at hrepeat hskip
    rw [shows_iff h hb, crossing]
    split_ifs <;> omega
  refine ⟨.inl ⟨_, hone⟩, iff_of_true ⟨?_, ?_, ?_⟩ ⟨?_, ?_⟩⟩
  · intro x hx
    rw [hfound, (hx _).mp ((hone _).mpr rfl)]
  · intro x y hxy hboth
    have hx := (hone x).mp ((hboth x).mpr (.inl rfl))
    have hy := (hone y).mp ((hboth y).mpr (.inr rfl))
    omega
  · intro t hnone
    exact absurd ((hone _).mpr rfl) (hnone _)
  · intro t ht
    exact absurd (ht.eq_change h hb ▸ ht) hrepeat
  · intro t ht
    exact absurd (ht.eq_change h hb ▸ ht) hskip

lemma inverts_repeated
    (hrepeat : Repeats offset w change) : Sorted offset w ∧ (Inverts offset w ↔ Invertible offset w) := by
  obtain ⟨hlow, hhigh⟩ := hrepeat
  have hfound := wallClockToInstant_repeated h hb hlow hhigh
  have htwo : ∀ z, Shows offset w z ↔ z = w - offset (change - 1) ∨ z = w - offset change := by
    intro z
    rw [shows_iff h hb]
    omega
  refine ⟨.inr (.inl ⟨_, _, by omega, htwo⟩), ?_, ?_⟩
  · intro hinverts
    have hearlier := hinverts.twice _ _ (by omega) htwo
    refine ⟨fun t ht => ?_, fun t ht => ?_⟩
    · rw [ht.eq_change h hb]
      rw [hfound] at hearlier
      split_ifs at hearlier with hnow <;> omega
    · obtain ⟨hlow', hhigh'⟩ := ht.eq_change h hb ▸ ht
      omega
  · intro hinvertible
    have hnow := hinvertible.repeated change ⟨hlow, hhigh⟩
    rw [if_pos hnow] at hfound
    refine ⟨fun x hx => ?_, fun x y hxy hboth => ?_, fun t hnone => ?_⟩
    · have h₁ := (hx _).mp ((htwo _).mpr (.inl rfl))
      have h₂ := (hx _).mp ((htwo _).mpr (.inr rfl))
      omega
    · have hx := (htwo x).mp ((hboth x).mpr (.inl rfl))
      have hy := (htwo y).mp ((hboth y).mpr (.inr rfl))
      omega
    · exact absurd ((htwo _).mpr (.inl rfl)) (hnone _)

lemma inverts_skipped
    (hskip : Skips offset w change) : Sorted offset w ∧ (Inverts offset w ↔ Invertible offset w) := by
  obtain ⟨hlow, hhigh⟩ := hskip
  obtain ⟨hp, hp', hq, hq'⟩ := h.bounds hb
  have hfound := wallClockToInstant_skipped h hb hlow hhigh
  have hsearch := bisect_eq_change_iff h (by omega) (show 1000 * (w - offset change) < 1000 * change by omega)
    (show 1000 * change ≤ 1000 * (w - offset (change - 1)) by omega) (by omega) (by omega)
  have hnone : ∀ x, ¬ Shows offset w x := by
    intro x
    rw [shows_iff h hb]
    omega
  refine ⟨.inr (.inr ⟨hnone, change, hlow, hhigh⟩), ?_, ?_⟩
  · intro hinverts
    refine ⟨fun t ht => ?_, fun t ht => ?_⟩
    · obtain ⟨hlow', hhigh'⟩ := ht.eq_change h hb ▸ ht
      omega
    · rw [ht.eq_change h hb, ← hsearch, ← hfound]
      exact hinverts.skipped change hnone ⟨hlow, hhigh⟩
  · intro hinvertible
    refine ⟨fun x hx => absurd ((hx x).mpr rfl) (hnone x), fun x y _ hboth => absurd ((hboth x).mpr (.inl rfl)) (hnone x), ?_⟩
    intro t _ ht
    rw [ht.eq_change h hb, hfound, hsearch]
    exact hinvertible.skipped change ⟨hlow, hhigh⟩

end

theorem wall_clock_inverts (offset : Int → Int) (hspaced : Spaced offset) (w : Int) :
    Sorted offset w ∧ (Inverts offset w ↔ Invertible offset w) := by
  obtain ⟨change, hchange⟩ := hspaced.oneChange w
  by_cases hrepeat : Repeats offset w change
  · exact inverts_repeated hspaced.bounded hchange hrepeat
  · by_cases hskip : Skips offset w change
    · exact inverts_skipped hspaced.bounded hchange hskip
    · exact inverts_read hspaced.bounded hchange hrepeat hskip

end Conversion

section Places

open Agreement

lemma spaced_of_step {change p q : Int} (hp : -86400 ≤ p ∧ p ≤ 86400) (hq : -86400 ≤ q ∧ q ≤ 86400)
    (hsize : -10800 ≤ q - p ∧ q - p ≤ 10800) : Spaced fun s => if s < change then p else q := by
  refine ⟨fun s => ?_, fun s t hst hs ht => ?_, fun t => ?_⟩
  · split_ifs
    · exact hp
    · exact hq
  · split_ifs at hs ht <;> omega
  · split_ifs <;> omega

lemma newYork_spaced : Spaced newYork := spaced_of_step (by decide) (by decide) (by decide)

lemma berlin_spaced : Spaced berlin := spaced_of_step (by decide) (by decide) (by decide)

theorem wall_clock_inverts_newYork : Skips newYork 1772937000 1772953200 ∧ Inverts newYork 1772937000 := by
  refine ⟨⟨by decide, by decide⟩, ((wall_clock_inverts newYork newYork_spaced 1772937000).2).mpr ⟨fun t ht => ?_, fun t ht => ?_⟩⟩
  · obtain ⟨hlow, hhigh⟩ := ht
    simp only [newYork] at hlow hhigh
    split_ifs at hlow hhigh <;> omega
  · obtain rfl : t = 1772953200 := by
      obtain ⟨hlow, hhigh⟩ := ht
      simp only [newYork] at hlow hhigh
      split_ifs at hlow hhigh <;> omega
    decide +kernel

/-- 02:30 comes twice in Berlin and the second is named; 02:10 is skipped in New York and the search runs past the change. -/
theorem wall_clock_missed : (Spaced berlin ∧ ¬ Inverts berlin 1792895400) ∧ Spaced newYork ∧ ¬ Inverts newYork 1772935800 := by
  refine ⟨⟨berlin_spaced, fun h => ?_⟩, newYork_spaced, fun h => ?_⟩
  · have hchange : OneChange berlin 1792895400 1792890000 7200 3600 := ⟨by decide, by decide, fun _ _ _ => rfl⟩
    have hearlier := h.twice 1792888200 1792891800 (by decide) fun z => by
      rw [shows_iff hchange berlin_spaced.bounded]
      omega
    exact absurd hearlier (by decide +kernel)
  · have hchange : OneChange newYork 1772935800 1772953200 (-18000) (-14400) := ⟨by decide, by decide, fun _ _ _ => rfl⟩
    have hfound := h.skipped 1772953200 (fun x => by rw [shows_iff hchange newYork_spaced.bounded]; omega) ⟨by decide, by decide⟩
    exact absurd hfound (by decide +kernel)

end Places

end Breeze.Maintenance.Inversion
