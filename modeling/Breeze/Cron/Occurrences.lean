import Breeze.Lib.CivilMonths
import Breeze.Lib.Scan
import Breeze.Cron.Fields

/-! Wall-clock minutes on the calendar, and the search for the next one that a pattern's fields match. -/

namespace Breeze.Cron.Occurrences

open Breeze.Lib.CivilMonths Breeze.Lib.Scan Fields

def minutesPerDay : ℤ := 1440

def wallClock (minute : ℤ) : WallClock :=
  let day := minute / minutesPerDay
  let month := monthOf day
  { minute := (minute % 60).toNat
    hour := (minute / 60 % 24).toNat
    dayOfMonth := (day - monthStart month + 1).toNat
    month := (month % 12 + 1).toNat
    dayOfWeek := ((day + 4) % 7).toNat }

def dayHit (fields : CronFields) (clock : WallClock) : Bool :=
  fields.months.contains clock.month &&
    let domHit := fields.daysOfMonth.contains clock.dayOfMonth
    let dowHit := fields.daysOfWeek.contains clock.dayOfWeek
    if fields.domRestricted && fields.dowRestricted then domHit || dowHit else domHit && dowHit

def firstInDay (fields : CronFields) (cursor : ℤ) : Option ℤ :=
  let clock := wallClock cursor
  let midnight := cursor / minutesPerDay * minutesPerDay
  ((List.range 24).drop clock.hour).findSome? fun hour =>
    if fields.hours.contains hour then
      (((List.range 60).drop (if hour = clock.hour then clock.minute else 0)).find? fields.minutes.contains).map
        fun minute : ℕ => midnight + hour * 60 + minute
    else none

def maxTime : ℤ := 8640000000000000

def isDate (minute : ℤ) : Bool := decide (-maxTime ≤ minute * 60000 ∧ minute * 60000 ≤ maxTime)

def searchDays (fields : CronFields) : ℕ → ℤ → Option ℤ
  | 0, _ => none
  | days + 1, cursor =>
    match if isDate cursor && dayHit fields (wallClock cursor) then firstInDay fields cursor else none with
    | some minute => some minute
    | none => searchDays fields days ((cursor / minutesPerDay + 1) * minutesPerDay)

def yearOf (t : ℤ) : ℤ := monthOf (t / minutesPerDay) / 12 + 1970

/-- `new Date(Date.UTC(…))` of the parts of a minute, in milliseconds, with `none` for the invalid date.
`Date.UTC` reads the years 0 to 99 as 1900 to 1999. -/
def utcDate (t : ℤ) : Option ℤ :=
  let day := t / minutesPerDay
  let month := monthOf day
  let utcMonth := if 0 ≤ yearOf t ∧ yearOf t ≤ 99 then month + 1900 * 12 else month
  let minute := (monthStart utcMonth + (day - monthStart month)) * minutesPerDay + t % minutesPerDay
  if isDate minute then some (minute * 60000) else none

def nextCronOccurrence (fields : CronFields) (fromMs : ℤ) : Option (Option ℤ) :=
  let cursor := fromMs / 60000 + 1
  if isDate cursor then (searchDays fields 400 cursor).map utcDate else none

def Matches (fields : CronFields) (clock : WallClock) : Prop :=
  clock.minute ∈ fields.minutes ∧ clock.hour ∈ fields.hours ∧ dayHit fields clock = true

instance (fields : CronFields) (clock : WallClock) : Decidable (Matches fields clock) :=
  inferInstanceAs (Decidable (_ ∧ _ ∧ _))

variable {fields : CronFields}

lemma wallClock_of_parts (day : ℤ) {hour minute : ℕ} (hhour : hour < 24) (hminute : minute < 60) :
    wallClock (day * minutesPerDay + hour * 60 + minute) =
      { wallClock (day * minutesPerDay) with hour := hour, minute := minute } := by
  have hday : (day * minutesPerDay + hour * 60 + minute) / minutesPerDay = day := by
    simp only [minutesPerDay]
    omega
  have hday' : day * minutesPerDay / minutesPerDay = day := by
    simp only [minutesPerDay]
    omega
  simp only [wallClock, hday, hday', WallClock.mk.injEq, and_true]
  simp only [minutesPerDay]
  omega

lemma wallClock_eq (t : ℤ) : wallClock t =
    { wallClock (t / minutesPerDay * minutesPerDay) with hour := (t / 60 % 24).toNat, minute := (t % 60).toNat } := by
  have ht : t = t / minutesPerDay * minutesPerDay + (t / 60 % 24).toNat * 60 + (t % 60).toNat := by
    simp only [minutesPerDay]
    omega
  conv_lhs => rw [ht]
  exact wallClock_of_parts _ (by omega) (by omega)

lemma hour_lt (t : ℤ) : (wallClock t).hour < 24 := by
  simp only [wallClock]
  omega

lemma minute_lt (t : ℤ) : (wallClock t).minute < 60 := by
  simp only [wallClock]
  omega

variable {t cursor : ℤ}

lemma dayHit_congr {u : ℤ} (h : t / minutesPerDay = u / minutesPerDay) :
    dayHit fields (wallClock t) = dayHit fields (wallClock u) := by
  rw [wallClock_eq t, wallClock_eq u, h]
  rfl

def slots (fields : CronFields) (cursor : ℤ) : Set ℤ :=
  {t | cursor ≤ t ∧ t / minutesPerDay = cursor / minutesPerDay ∧ (wallClock t).hour ∈ fields.hours ∧
    (wallClock t).minute ∈ fields.minutes}

lemma eq_of_parts (t : ℤ) :
    t = t / minutesPerDay * minutesPerDay + (wallClock t).hour * 60 + (wallClock t).minute := by
  simp only [wallClock, minutesPerDay]
  omega

lemma mem_range_drop {n k x : ℕ} : x ∈ (List.range n).drop k ↔ k ≤ x ∧ x < n := by
  rw [List.range_eq_range', List.drop_range', List.mem_range'_1]
  omega

def minutesFrom (fields : CronFields) (cursor : ℤ) (hour : ℕ) : Option ℤ :=
  if fields.hours.contains hour then
    (((List.range 60).drop (if hour = (wallClock cursor).hour then (wallClock cursor).minute else 0)).find?
      fields.minutes.contains).map fun minute : ℕ => cursor / minutesPerDay * minutesPerDay + hour * 60 + minute
  else none

lemma slot_hour (h : t ∈ slots fields cursor) : (wallClock cursor).hour ≤ (wallClock t).hour ∧
    ((wallClock t).hour = (wallClock cursor).hour → (wallClock cursor).minute ≤ (wallClock t).minute) := by
  obtain ⟨hle, hday, -, -⟩ := h
  have ht := eq_of_parts t
  have hc := eq_of_parts cursor
  have htm := minute_lt t
  have hcm := minute_lt cursor
  rw [hday] at ht
  omega

lemma minutesFrom_isSome (h : t ∈ slots fields cursor) :
    (minutesFrom fields cursor (wallClock t).hour).isSome = true := by
  obtain ⟨-, hfrom⟩ := slot_hour h
  obtain ⟨-, -, hhour, hminute⟩ := h
  rw [minutesFrom, if_pos (List.contains_iff_mem.mpr hhour), Option.isSome_map, List.find?_isSome]
  refine ⟨(wallClock t).minute, mem_range_drop.mpr ⟨?_, minute_lt t⟩, List.contains_iff_mem.mpr hminute⟩
  split
  · exact hfrom ‹_›
  · exact Nat.zero_le _

lemma least_of_firstInDay (h : firstInDay fields cursor = some t) : IsLeast (slots fields cursor) t := by
  obtain ⟨hour, ⟨⟨hmem, -⟩, hfirst⟩, hfound⟩ := least_of_findSome? (f := minutesFrom fields cursor) List.pairwise_lt_range.drop h
  have hhour := mem_range_drop.mp hmem
  rw [minutesFrom] at hfound
  split at hfound
  case isFalse => cases hfound
  case isTrue hhas =>
    obtain ⟨minute, hscan, rfl⟩ := Option.map_eq_some_iff.mp hfound
    obtain ⟨⟨hrange, hcontains⟩, hleast⟩ := least_of_find? List.pairwise_lt_range.drop hscan
    have hminute := mem_range_drop.mp hrange
    have hclock := wallClock_of_parts (cursor / minutesPerDay) hhour.2 hminute.2
    have hc := eq_of_parts cursor
    have hcm := minute_lt cursor
    constructor
    · refine ⟨?_, ?_, ?_, ?_⟩
      · split at hminute <;> omega
      · simp only [minutesPerDay]
        omega
      · rw [hclock]
        exact List.contains_iff_mem.mp hhas
      · rw [hclock]
        exact List.contains_iff_mem.mp hcontains
    · intro u hu
      obtain ⟨hle, hfrom⟩ := slot_hour hu
      have hfirst' := hfirst ⟨mem_range_drop.mpr ⟨hle, hour_lt u⟩, minutesFrom_isSome hu⟩
      obtain ⟨-, hday, -, hum⟩ := hu
      have hparts := eq_of_parts u
      have hlt := minute_lt u
      rw [hday] at hparts
      rcases Nat.lt_or_eq_of_le hfirst' with hlater | hsame
      · omega
      · have hbound : minute ≤ (wallClock u).minute := by
          apply hleast
          refine ⟨mem_range_drop.mpr ⟨?_, hlt⟩, List.contains_iff_mem.mpr hum⟩
          split
          · exact hfrom (by omega)
          · exact Nat.zero_le _
        omega

lemma slots_eq_empty (h : firstInDay fields cursor = none) : slots fields cursor = ∅ := by
  rw [Set.eq_empty_iff_forall_notMem]
  intro t ht
  have hnone := List.findSome?_eq_none_iff.mp h (wallClock t).hour
    (mem_range_drop.mpr ⟨(slot_hour ht).1, hour_lt t⟩)
  have hsome := minutesFrom_isSome ht
  rw [minutesFrom, hnone] at hsome
  cases hsome

def window (fields : CronFields) (days : ℕ) (cursor : ℤ) : Set ℤ :=
  {t | cursor ≤ t ∧ t / minutesPerDay < cursor / minutesPerDay + days ∧ Matches fields (wallClock t)}

def midnightAfter (cursor : ℤ) : ℤ := (cursor / minutesPerDay + 1) * minutesPerDay

lemma lt_midnightAfter (cursor : ℤ) : cursor < midnightAfter cursor := by
  simp only [midnightAfter, minutesPerDay]
  omega

lemma mem_window_succ {days : ℕ} : t ∈ window fields (days + 1) cursor ↔
    (dayHit fields (wallClock cursor) = true ∧ t ∈ slots fields cursor) ∨ t ∈ window fields days (midnightAfter cursor) := by
  have hnext : midnightAfter cursor / minutesPerDay = cursor / minutesPerDay + 1 :=
    Int.mul_ediv_cancel _ (by decide)
  constructor
  · rintro ⟨hle, hlt, hmatch⟩
    rcases lt_or_ge t (midnightAfter cursor) with hbefore | hafter
    · have hday : t / minutesPerDay = cursor / minutesPerDay := by
        simp only [midnightAfter, minutesPerDay] at hbefore ⊢
        omega
      exact Or.inl ⟨dayHit_congr hday ▸ hmatch.2.2, hle, hday, hmatch.2.1, hmatch.1⟩
    · exact Or.inr ⟨hafter, by rw [hnext]; omega, hmatch⟩
  · rintro (⟨hhit, hle, hday, hhour, hminute⟩ | ⟨hle, hlt, hmatch⟩)
    · exact ⟨hle, by omega, hminute, hhour, dayHit_congr hday ▸ hhit⟩
    · rw [hnext] at hlt
      exact ⟨(lt_midnightAfter cursor).le.trans hle, by omega, hmatch⟩

lemma lt_of_mem_window_midnightAfter {days : ℕ} {u : ℤ} (ht : t ∈ slots fields cursor)
    (hu : u ∈ window fields days (midnightAfter cursor)) : t < u := by
  refine lt_of_lt_of_le ?_ hu.1
  have hday := ht.2.1
  simp only [midnightAfter, minutesPerDay] at hday ⊢
  omega

lemma isDate_of_le {u : ℤ} (hu : isDate u = true) (hle : t ≤ u) (hlow : -maxTime ≤ t * 60000) : isDate t = true := by
  have := of_decide_eq_true hu
  exact decide_eq_true (by omega)

lemma searchDays_spec (fields : CronFields) (days : ℕ) (hlow : -maxTime ≤ cursor * 60000) :
    match searchDays fields days cursor with
    | some t => isDate cursor = true ∧ IsLeast (window fields days cursor) t
    | none => ∀ t ∈ window fields days cursor, isDate t = false := by
  induction days generalizing cursor with
  | zero =>
    rintro t ⟨hle, hlt, -⟩
    simp only [minutesPerDay] at hlt
    omega
  | succ days ih =>
    have hlow' : -maxTime ≤ midnightAfter cursor * 60000 := by
      have := lt_midnightAfter cursor
      omega
    have hrest := ih hlow'
    rw [searchDays]
    change match (match if isDate cursor && dayHit fields (wallClock cursor) then firstInDay fields cursor else none with
      | some minute => some minute
      | none => searchDays fields days (midnightAfter cursor)) with
    | some t => isDate cursor = true ∧ IsLeast (window fields (days + 1) cursor) t
    | none => ∀ t ∈ window fields (days + 1) cursor, isDate t = false
    cases hfound : (if isDate cursor && dayHit fields (wallClock cursor) then firstInDay fields cursor else none) with
    | some t =>
      split_ifs at hfound with hhit
      obtain ⟨hmem, hleast⟩ := least_of_firstInDay hfound
      obtain ⟨hdate, hday⟩ := Bool.and_eq_true_iff.mp hhit
      refine ⟨hdate, mem_window_succ.mpr (Or.inl ⟨hday, hmem⟩), fun u hu => ?_⟩
      rcases mem_window_succ.mp hu with ⟨-, hslot⟩ | hlater
      · exact hleast hslot
      · exact (lt_of_mem_window_midnightAfter hmem hlater).le
    | none =>
      have hslots : isDate cursor = true → dayHit fields (wallClock cursor) = true → slots fields cursor = ∅ := by
        intro hdate hhit
        rw [if_pos (Bool.and_eq_true_iff.mpr ⟨hdate, hhit⟩)] at hfound
        exact slots_eq_empty hfound
      cases hsearch : searchDays fields days (midnightAfter cursor) with
      | some t =>
        rw [hsearch] at hrest
        obtain ⟨hdate, hmem, hleast⟩ := hrest
        have hcursor := isDate_of_le hdate (lt_midnightAfter cursor).le hlow
        refine ⟨hcursor, mem_window_succ.mpr (Or.inr hmem), fun u hu => ?_⟩
        rcases mem_window_succ.mp hu with ⟨hhit, hslot⟩ | hlater
        · rw [hslots hcursor hhit] at hslot
          exact hslot.elim
        · exact hleast hlater
      | none =>
        rw [hsearch] at hrest
        intro u hu
        rcases mem_window_succ.mp hu with ⟨hhit, hslot⟩ | hlater
        · rw [← Bool.not_eq_true]
          intro hdate
          rw [hslots (isDate_of_le hdate hslot.1 hlow) hhit] at hslot
          exact hslot
        · exact hrest u hlater

lemma utcDate_eq (hyear : ¬ (0 ≤ yearOf t ∧ yearOf t ≤ 99)) :
    utcDate t = if isDate t then some (t * 60000) else none := by
  have hminute : (monthStart (monthOf (t / minutesPerDay)) + (t / minutesPerDay - monthStart (monthOf (t / minutesPerDay)))) *
      minutesPerDay + t % minutesPerDay = t := by
    rw [add_sub_cancel]
    exact Int.ediv_mul_add_emod t minutesPerDay
  simp only [utcDate]
  rw [if_neg hyear, hminute]

def yearHundred : ℤ := monthStart (12 * (100 - 1970)) * minutesPerDay

lemma utcDate_of_le (hle : yearHundred ≤ t) : utcDate t = if isDate t then some (t * 60000) else none := by
  have hday : monthStart (12 * (100 - 1970)) ≤ t / minutesPerDay := by
    rw [Int.le_ediv_iff_mul_le (by decide)]
    exact hle
  have hmonth : 12 * (100 - 1970) < monthOf (t / minutesPerDay) + 1 :=
    monthStart_strictMono.lt_iff_lt.mp (hday.trans_lt (monthOf_spec _).2)
  apply utcDate_eq
  simp only [yearOf]
  omega

lemma nextCronOccurrence_spec (fields : CronFields) {fromMs : ℤ} (hlow : -maxTime ≤ fromMs) :
    (∃ t, IsLeast (window fields 400 (fromMs / 60000 + 1)) t ∧ nextCronOccurrence fields fromMs = some (utcDate t)) ∨
      (∀ t ∈ window fields 400 (fromMs / 60000 + 1), isDate t = false) ∧ nextCronOccurrence fields fromMs = none := by
  have hcursor : -maxTime ≤ (fromMs / 60000 + 1) * 60000 := by omega
  have hspec := searchDays_spec fields 400 hcursor
  simp only [nextCronOccurrence]
  cases hsearch : searchDays fields 400 (fromMs / 60000 + 1) with
  | some t =>
    rw [hsearch] at hspec
    exact Or.inl ⟨t, hspec.2, by rw [if_pos hspec.1]; rfl⟩
  | none =>
    rw [hsearch] at hspec
    exact Or.inr ⟨hspec, by simp⟩

lemma enumerates_iff (hyear : yearHundred < t) (ht : isDate t = true) :
    (∃ fromMs, yearHundred * 60000 ≤ fromMs ∧ nextCronOccurrence fields fromMs = some (some (t * 60000))) ↔
      Matches fields (wallClock t) := by
  constructor
  · rintro ⟨fromMs, hfrom, h⟩
    have hlow : -maxTime ≤ fromMs := le_trans (by decide) hfrom
    rcases nextCronOccurrence_spec fields hlow with ⟨u, hleast, hu⟩ | ⟨-, hnone⟩
    · obtain ⟨⟨hle, -, hmatch⟩, -⟩ := hleast
      rw [hu, utcDate_of_le (by omega)] at h
      split_ifs at h
      · obtain rfl : u = t := by simpa using h
        exact hmatch
      · cases h
    · rw [hnone] at h
      cases h
  · intro h
    refine ⟨(t - 1) * 60000, by omega, ?_⟩
    have hcursor : (t - 1) * 60000 / 60000 + 1 = t := by omega
    have hmem : t ∈ window fields 400 t := ⟨le_rfl, by omega, h⟩
    have hlow : -maxTime ≤ (t - 1) * 60000 := le_trans (by decide) (show yearHundred * 60000 ≤ (t - 1) * 60000 by omega)
    rcases nextCronOccurrence_spec fields hlow with ⟨u, hleast, hu⟩ | ⟨hlate, -⟩
    · rw [hcursor] at hleast
      rw [hu, hleast.unique ⟨hmem, fun v hv => hv.1⟩, utcDate_of_le hyear.le, if_pos ht]
    · rw [hcursor] at hlate
      rw [hlate t hmem] at ht
      cases ht

def longestMonth : ℕ → ℕ
  | 2 => 29
  | 4 | 6 | 9 | 11 => 30
  | _ => 31

structure RealDay (month dayOfMonth dayOfWeek : ℕ) : Prop where
  month_pos : 1 ≤ month
  month_le : month ≤ 12
  day_pos : 1 ≤ dayOfMonth
  day_le : dayOfMonth ≤ longestMonth month
  week : dayOfWeek < 7

lemma monthStart_length (y : ℤ) {k : ℕ} (hk : k < 12) :
    monthStart (12 * y + k + 1) = monthStart (12 * y + k) + longestMonth (k + 1) - if k = 1 then 1 - leapDays y else 0 := by
  rw [monthStart_year y hk]
  by_cases hlast : k = 11
  · have hnext : 12 * y + (k : ℤ) + 1 = 12 * (y + 1) + (0 : ℕ) := by omega
    rw [hnext, monthStart_year _ (by omega), yearStart_succ, hlast]
    simp only [daysBefore, longestMonth]
    omega
  · have hnext : 12 * y + (k : ℤ) + 1 = 12 * y + (k + 1 : ℕ) := by omega
    rw [hnext, monthStart_year _ (by omega)]
    by_cases hfebruary : k = 1
    · subst hfebruary
      simp only [daysBefore, longestMonth, if_true]
      omega
    · rw [if_neg hfebruary]
      interval_cases k <;> simp only [daysBefore, longestMonth] <;> omega

lemma realDay (t : ℤ) : RealDay (wallClock t).month (wallClock t).dayOfMonth (wallClock t).dayOfWeek := by
  obtain ⟨hstart, hend⟩ := monthOf_spec (t / minutesPerDay)
  obtain ⟨y, k, hk, hmonth⟩ := exists_month (monthOf (t / minutesPerDay))
  have hlength := monthStart_length y hk
  have hleap := leapDays_bounds y
  have hk' : ((12 * y + k) % 12 + 1 : ℤ).toNat = k + 1 := by omega
  simp only [wallClock, hmonth] at hstart hend ⊢
  constructor
  · omega
  · omega
  · omega
  · rw [hk']
    split_ifs at hlength <;> omega
  · omega

lemma exists_clock {month dayOfMonth dayOfWeek hour minute : ℕ} (h : RealDay month dayOfMonth dayOfWeek)
    (hhour : hour < 24) (hminute : minute < 60) :
    ∃ t, wallClock t = ⟨minute, hour, dayOfMonth, month, dayOfWeek⟩ := by
  obtain ⟨hm, hm', hd, hd', hw⟩ := h
  obtain ⟨k, rfl⟩ : ∃ k, month = k + 1 := ⟨month - 1, by omega⟩
  have hk : k < 12 := by omega
  -- four years are 1461 days, five more than whole weeks
  obtain ⟨n, hn, hweek⟩ : ∃ n : ℕ, n < 7 ∧
      (730 + 1461 * n + daysBefore 1 k + dayOfMonth - 1 + 4 : ℤ) % 7 = dayOfWeek :=
    ⟨((3 * (dayOfWeek - (733 + daysBefore 1 k + dayOfMonth))) % 7 : ℤ).toNat, by omega, by omega⟩
  have hyear : yearStart (2 + 4 * n) = 730 + 1461 * n := by
    simp only [yearStart]
    omega
  have hleap : leapDays (2 + 4 * n) = 1 := by
    simp only [leapDays, yearStart]
    omega
  have hfirst := monthStart_year (2 + 4 * n) hk
  rw [hyear, hleap] at hfirst
  have hnext := monthStart_length (2 + 4 * n) hk
  rw [hleap, sub_self, ite_self, sub_zero] at hnext
  have hmonth : monthOf (monthStart (12 * (2 + 4 * n) + k) + dayOfMonth - 1) = 12 * (2 + 4 * n) + k :=
    monthOf_eq (by omega) (by omega)
  refine ⟨(monthStart (12 * (2 + 4 * n) + k) + dayOfMonth - 1) * minutesPerDay + hour * 60 + minute, ?_⟩
  rw [wallClock_of_parts _ hhour hminute]
  have hday : ∀ day : ℤ, day * minutesPerDay / minutesPerDay = day := by
    intro day
    simp only [minutesPerDay]
    omega
  simp only [wallClock, hday, hmonth, WallClock.mk.injEq, true_and]
  omega

end Breeze.Cron.Occurrences
