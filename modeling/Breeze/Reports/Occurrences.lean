import Breeze.Reports.Schedule

/-! The minutes at which a report is scheduled: what reportSchedule.ts finds as the latest and the next of them. -/

namespace Breeze.Reports.Occurrences

open Breeze.Lib.CivilMonths Breeze.Lib.Decimal Schedule

section Model

variable (number : Text → Option ℚ)

/-- `none` has `NaN` for its day. -/
def nextOccurrence (now : WallClock) (cadence : ScheduleCadence) (cfg : ScheduleConfig) : Option Parts :=
  let time := parseTime cfg.time
  let today := (now.y, now.m, now.d)
  match cadence with
  | .daily =>
    let day := if keyOf (dayParts today time) ≤ now.key then shiftDays today 1 else today
    some (dayParts day time)
  | .weekly => do
    let target ← dayIndex cfg.day
    let day := shiftDays today ((target - now.weekday + 7) % 7)
    let day := if keyOf (dayParts day time) ≤ now.key then shiftDays day 7 else day
    some (dayParts day time)
  | .monthly =>
    let parts := monthParts number cfg
    some (if keyOf (parts now.y now.m) ≤ now.key then
      if now.m + 1 = 13 then parts (now.y + 1) 1 else parts now.y (now.m + 1)
    else parts now.y now.m)

def timeText (time : ℤ × ℤ) : Text :=
  padStart 2 (Nat.toDigits 10 time.1.toNat) ++ ':' :: padStart 2 (Nat.toDigits 10 time.2.toNat)

/-- `string` is `String` of a number. -/
def normalizeScheduleConfig (string : ℚ → Text) (cadence : ScheduleCadence) (cfg : ScheduleConfig) : ScheduleConfig :=
  let time := some (timeText (parseTime cfg.time))
  match cadence with
  | .daily => ⟨time, none, none⟩
  | .weekly => ⟨time, (dayIndex cfg.day).bind fun index => dayNames[index.toNat]?, none⟩
  | .monthly => ⟨time, none, some (string (wantedDate number cfg.date))⟩

def weekdayOf (day : Option Text) : ℤ :=
  let name := (day.getD "monday".toList).map Char.toLower
  if name ∈ dayNames then dayNames.idxOf name else 1

/-- The minute `w` of the wall clock is one at which the report is scheduled. -/
def Scheduled (cadence : ScheduleCadence) (cfg : ScheduleConfig) (w : ℤ) : Prop :=
  let wc := wallClock w
  (wc.hh, wc.mm) = parseTime cfg.time ∧
    match cadence with
    | .daily => True
    | .weekly => wc.weekday = weekdayOf cfg.day
    | .monthly => (wc.d : ℚ) = min (wantedDate number cfg.date) (daysInMonth wc.y wc.m)

def Whole (date : Option Text) : Prop := ∀ q, date.bind number = some q → ∃ z : ℤ, q = z

/-- The day of the week is none of the names that every object inherits. -/
def Plain (cadence : ScheduleCadence) (cfg : ScheduleConfig) : Prop :=
  cadence = .weekly → (cfg.day.getD "monday".toList).map Char.toLower ∉ inherited

end Model

section Sequences

variable {f : ℤ → ℤ} (hf : StrictMono f) {i w : ℤ} (hprev : f (i - 1) ≤ w) (hnext : w < f (i + 1))

include hf hprev hnext

lemma greatest_le : IsGreatest {v | (∃ j, v = f j) ∧ v ≤ w} (if w < f i then f (i - 1) else f i) := by
  split_ifs with h
  · refine ⟨⟨⟨_, rfl⟩, hprev⟩, ?_⟩
    rintro v ⟨⟨j, rfl⟩, hj⟩
    have := hf.lt_iff_lt.mp (hj.trans_lt h)
    exact hf.monotone (by omega)
  · refine ⟨⟨⟨_, rfl⟩, not_lt.mp h⟩, ?_⟩
    rintro v ⟨⟨j, rfl⟩, hj⟩
    have := hf.lt_iff_lt.mp (hj.trans_lt hnext)
    exact hf.monotone (by omega)

lemma least_gt : IsLeast {v | (∃ j, v = f j) ∧ w < v} (if f i ≤ w then f (i + 1) else f i) := by
  split_ifs with h
  · refine ⟨⟨⟨_, rfl⟩, hnext⟩, ?_⟩
    rintro v ⟨⟨j, rfl⟩, hj⟩
    have := hf.lt_iff_lt.mp (h.trans_lt hj)
    exact hf.monotone (by omega)
  · refine ⟨⟨⟨_, rfl⟩, not_le.mp h⟩, ?_⟩
    rintro v ⟨⟨j, rfl⟩, hj⟩
    have := hf.lt_iff_lt.mp (hprev.trans_lt hj)
    exact hf.monotone (by omega)

end Sequences

section Calendar

section Months

variable {α : Type} (g : ℤ → ℤ → α) (w : ℤ)

lemma month_index : (wallClock w).m = monthOf (w / 1440) % 12 + 1 := rfl

lemma year_index : (wallClock w).y = monthOf (w / 1440) / 12 + 1970 := rfl

lemma prevMonth : (if (wallClock w).m - 1 = 0 then g ((wallClock w).y - 1) 12 else g (wallClock w).y ((wallClock w).m - 1)) =
    g ((monthOf (w / 1440) - 1) / 12 + 1970) ((monthOf (w / 1440) - 1) % 12 + 1) := by
  rw [month_index, year_index]
  split_ifs <;> exact congrArg₂ g (by omega) (by omega)

lemma nextMonth : (if (wallClock w).m + 1 = 13 then g ((wallClock w).y + 1) 1 else g (wallClock w).y ((wallClock w).m + 1)) =
    g ((monthOf (w / 1440) + 1) / 12 + 1970) ((monthOf (w / 1440) + 1) % 12 + 1) := by
  rw [month_index, year_index]
  split_ifs <;> exact congrArg₂ g (by omega) (by omega)

end Months

lemma dateUTC_civil (day : ℤ) : dateUTC (civil day).1 (civil day).2.1 (civil day).2.2 = day := by
  have hmonth : 12 * (monthOf day / 12 + 1970 - 1970) + (monthOf day % 12 + 1 - 1) = monthOf day := by omega
  simp only [dateUTC, civil, hmonth]
  ring

lemma shiftDays_civil (day days : ℤ) : shiftDays (civil day) days = civil (day + days) := by
  rw [shiftDays, dateUTC_civil]

lemma daysInMonth_eq (p : ℤ) : daysInMonth (p / 12 + 1970) (p % 12 + 1) = monthStart (p + 1) - monthStart p := by
  have hmonth : 12 * (p / 12 + 1970 - 1970) + (p % 12 + 1 + 1 - 1) = p + 1 := by omega
  have hstep := monthStart_step p
  have hof : monthOf (monthStart (p + 1) + (0 - 1)) = p := monthOf_eq (by omega) (by omega)
  rw [daysInMonth, dateUTC, hmonth, civil, hof]
  ring

lemma civil_date (day : ℤ) : 1 ≤ (civil day).2.2 ∧ (civil day).2.2 < 100 := by
  have hspec := monthOf_spec day
  have hstart := monthStart_near (monthOf day)
  have hend := monthStart_near (monthOf day + 1)
  simp only [civil]
  omega

lemma clock_bounds (w : ℤ) : w = w / 1440 * 1440 + w / 60 % 24 * 60 + w % 60 ∧ 0 ≤ w / 60 % 24 ∧ w / 60 % 24 < 24 ∧
    0 ≤ w % 60 ∧ w % 60 < 60 := by omega

lemma key_strictMono : StrictMono fun w => (wallClock w).key := by
  intro v w h
  have hv := civil_date (v / 1440)
  have hw := civil_date (w / 1440)
  have hv' := clock_bounds v
  have hw' := clock_bounds w
  have hmonth : monthOf (v / 1440) ≤ monthOf (w / 1440) := by
    have hspec := monthOf_spec (v / 1440)
    have hspec' := monthOf_spec (w / 1440)
    by_contra hlt
    have := monthStart_strictMono.monotone (by omega : monthOf (w / 1440) + 1 ≤ monthOf (v / 1440))
    omega
  simp only [civil] at hv hw
  simp only [WallClock.key, WallClock.parts, keyOf, wallClock, civil]
  norm_cast
  generalize v / 60 % 24 = vh at *
  generalize w / 60 % 24 = wh at *
  rcases hmonth.lt_or_eq with hlt | heq
  · omega
  · rw [heq] at hv ⊢
    omega

variable {time : ℤ × ℤ} (htime : 0 ≤ time.1 ∧ time.1 < 24 ∧ 0 ≤ time.2 ∧ time.2 < 60)

def minuteAt (time : ℤ × ℤ) (day : ℤ) : ℤ := day * 1440 + (time.1 * 60 + time.2)

include htime

lemma wallClock_minuteAt (day : ℤ) : wallClock (minuteAt time day) =
    ⟨(civil day).1, (civil day).2.1, (civil day).2.2, time.1, time.2, (day + 4) % 7⟩ := by
  have hday : minuteAt time day / 1440 = day := by simp only [minuteAt]; omega
  have hhour : minuteAt time day / 60 % 24 = time.1 := by simp only [minuteAt]; omega
  have hminute : minuteAt time day % 60 = time.2 := by simp only [minuteAt]; omega
  rw [wallClock, hday, hhour, hminute]

lemma parts_minuteAt (day : ℤ) : (wallClock (minuteAt time day)).parts = dayParts (civil day) time := by
  rw [wallClock_minuteAt htime]
  rfl

lemma key_minuteAt (day : ℤ) : (wallClock (minuteAt time day)).key = keyOf (dayParts (civil day) time) :=
  congrArg keyOf (parts_minuteAt htime day)

lemma minuteAt_eq {w : ℤ} (h : ((wallClock w).hh, (wallClock w).mm) = time) : w = minuteAt time (w / 1440) := by
  subst h
  simp only [minuteAt, wallClock]
  omega

end Calendar

section Slots

/-- The day of the occurrence with the number `i`. -/
def slot (cadence : ScheduleCadence) (target wanted i : ℤ) : ℤ :=
  match cadence with
  | .daily => i
  | .weekly => 7 * i + target - 4
  | .monthly => monthStart i + min wanted (monthStart (i + 1) - monthStart i) - 1

lemma parseTime_range (time : Option Text) :
    0 ≤ (parseTime time).1 ∧ (parseTime time).1 < 24 ∧ 0 ≤ (parseTime time).2 ∧ (parseTime time).2 < 60 := by
  unfold parseTime
  split
  · dsimp only
    split_ifs with h
    · dsimp only
      omega
    · decide
  · decide

lemma weekdayOf_range (day : Option Text) : 0 ≤ weekdayOf day ∧ weekdayOf day < 7 := by
  simp only [weekdayOf]
  split_ifs with h
  · have := List.idxOf_lt_length_iff.mpr h
    exact ⟨by omega, by exact_mod_cast this⟩
  · decide

lemma dayIndex_eq (day : Option Text) : dayIndex day =
    if (day.getD "monday".toList).map Char.toLower ∈ inherited then none else some (weekdayOf day) := by
  have hapart : ∀ name ∈ dayNames, name ∉ inherited := by decide
  simp only [dayIndex, weekdayOf]
  by_cases hname : (day.getD "monday".toList).map Char.toLower ∈ dayNames
  · rw [if_pos hname, if_neg (hapart _ hname), if_pos hname]
  · simp only [if_neg hname]

variable {number : Text → Option ℚ} {cadence : ScheduleCadence} {cfg : ScheduleConfig} {wanted : ℤ} (hpos : 1 ≤ wanted)

lemma dayIndex_plain (h : Plain .weekly cfg) : dayIndex cfg.day = some (weekdayOf cfg.day) := by
  rw [dayIndex_eq, if_neg (h rfl)]

lemma wantedDate_int {date : Option Text} (h : Whole number date) :
    ∃ z : ℤ, wantedDate number date = z ∧ 1 ≤ z ∧ z ≤ 31 := by
  have hn : ∃ z : ℤ, (date.bind number).getD 0 = z := by
    cases hq : date.bind number with
    | none => exact ⟨0, by simp⟩
    | some q => exact h q hq
  obtain ⟨z, hz⟩ := hn
  refine ⟨max 1 (min 31 (if z = 0 then 1 else z)), ?_, by omega, by omega⟩
  rw [wantedDate, hz]
  push_cast
  simp

include hpos

lemma slot_strictMono (cadence : ScheduleCadence) (target : ℤ) : StrictMono (slot cadence target wanted) := by
  refine strictMono_int_of_lt_succ fun i => ?_
  have hstep := monthStart_step i
  have hstep' := monthStart_step (i + 1)
  cases cadence <;> simp only [slot] <;> omega

lemma civil_slot (target i : ℤ) : civil (slot .monthly target wanted i) =
    (i / 12 + 1970, i % 12 + 1, min wanted (monthStart (i + 1) - monthStart i)) := by
  have hstep := monthStart_step i
  have hmonth : monthOf (slot .monthly target wanted i) = i := monthOf_eq (by simp only [slot]; omega) (by simp only [slot]; omega)
  rw [civil, hmonth]
  simp only [slot, Prod.mk.injEq, true_and]
  omega

def occursAt (cadence : ScheduleCadence) (cfg : ScheduleConfig) (wanted i : ℤ) : ℤ :=
  minuteAt (parseTime cfg.time) (slot cadence (weekdayOf cfg.day) wanted i)

lemma occursAt_strictMono (cadence : ScheduleCadence) (cfg : ScheduleConfig) : StrictMono (occursAt cadence cfg wanted) := by
  intro i j hij
  have := slot_strictMono hpos cadence (weekdayOf cfg.day) hij
  simp only [occursAt, minuteAt]
  omega

variable (hwanted : wantedDate number cfg.date = wanted)

include hwanted

lemma scheduled_iff (w : ℤ) : Scheduled number cadence cfg w ↔ ∃ i, w = occursAt cadence cfg wanted i := by
  have htime := parseTime_range cfg.time
  have hweekday := weekdayOf_range cfg.day
  constructor
  · rintro ⟨hclock, hday⟩
    have hw := minuteAt_eq htime hclock
    suffices h : ∃ i, w / 1440 = slot cadence (weekdayOf cfg.day) wanted i from
      h.imp fun i hi => by rw [occursAt, ← hi]; exact hw
    cases cadence with
    | daily => exact ⟨w / 1440, rfl⟩
    | weekly =>
      refine ⟨(w / 1440 + 4) / 7, ?_⟩
      simp only [wallClock] at hday
      simp only [slot]
      omega
    | monthly =>
      refine ⟨monthOf (w / 1440), ?_⟩
      simp only [wallClock, civil, daysInMonth_eq, hwanted] at hday
      norm_cast at hday
      simp only [slot]
      omega
  · rintro ⟨i, rfl⟩
    simp only [Scheduled, occursAt, wallClock_minuteAt htime, true_and]
    cases cadence with
    | daily => trivial
    | weekly =>
      simp only [slot]
      omega
    | monthly =>
      simp only [civil_slot hpos, daysInMonth_eq, hwanted]
      push_cast
      rfl

lemma monthParts_eq (i : ℤ) :
    monthParts number cfg (i / 12 + 1970) (i % 12 + 1) = (wallClock (occursAt .monthly cfg wanted i)).parts := by
  rw [occursAt, parts_minuteAt (parseTime_range cfg.time), monthParts, dayParts, civil_slot hpos, hwanted, daysInMonth_eq]
  push_cast
  rfl

/-- The day `n` lies between the occurrences before and after the one with the number `i`. -/
def Near (cadence : ScheduleCadence) (target wanted n i : ℤ) : Prop :=
  slot cadence target wanted (i - 1) < n ∧ n < slot cadence target wanted (i + 1)

omit hwanted in
lemma near_month (target n : ℤ) : Near .monthly target wanted n (monthOf n) := by
  have hmonth := monthOf_spec n
  have hstep := monthStart_step (monthOf n + 1)
  simp only [Near, slot, sub_add_cancel]
  omega

omit hpos hwanted in
lemma Near.minutes {w i : ℤ} (h : Near cadence (weekdayOf cfg.day) wanted (w / 1440) i) :
    occursAt cadence cfg wanted (i - 1) ≤ w ∧ w < occursAt cadence cfg wanted (i + 1) := by
  have htime := parseTime_range cfg.time
  simp only [Near, occursAt, minuteAt] at h ⊢
  omega

omit hpos hwanted in
lemma today_eq (w : ℤ) : ((wallClock w).y, (wallClock w).m, (wallClock w).d) = civil (w / 1440) := rfl

lemma last_eq (hplain : Plain cadence cfg) (w : ℤ) : ∃ i, Near cadence (weekdayOf cfg.day) wanted (w / 1440) i ∧
    lastOccurrenceKey number (wallClock w) cadence cfg =
      some (if (wallClock w).key < (wallClock (occursAt cadence cfg wanted i)).key then
        (wallClock (occursAt cadence cfg wanted (i - 1))).key else (wallClock (occursAt cadence cfg wanted i)).key) := by
  have htime := parseTime_range cfg.time
  simp only [lastOccurrenceKey, today_eq]
  cases cadence with
  | daily =>
    refine ⟨w / 1440, by simp only [Near, slot]; omega, ?_⟩
    simp only [occursAt, key_minuteAt htime, shiftDays_civil, slot]
    split_ifs <;> rfl
  | weekly =>
    have hweekday := weekdayOf_range cfg.day
    have hday : w / 1440 + -(((wallClock w).weekday - weekdayOf cfg.day + 7) % 7) =
        7 * ((w / 1440 + 4 - weekdayOf cfg.day) / 7) + weekdayOf cfg.day - 4 := by
      simp only [wallClock]
      omega
    refine ⟨(w / 1440 + 4 - weekdayOf cfg.day) / 7, by simp only [Near, slot]; omega, ?_⟩
    have hback : ∀ i, 7 * (i - 1) + weekdayOf cfg.day - 4 = 7 * i + weekdayOf cfg.day - 4 + -7 := fun i => by ring
    rw [dayIndex_plain hplain]
    simp only [Option.bind_eq_bind, Option.bind_some, occursAt, key_minuteAt htime, shiftDays_civil, slot, hday, hback]
    split_ifs <;> rfl
  | monthly =>
    refine ⟨monthOf (w / 1440), near_month hpos _ _, ?_⟩
    have hthis : monthParts number cfg (wallClock w).y (wallClock w).m = _ := monthParts_eq hpos hwanted (monthOf (w / 1440))
    simp only [prevMonth (monthParts number cfg), monthParts_eq hpos hwanted, hthis]
    exact congrArg some (apply_ite keyOf _ _ _)

lemma next_eq (hplain : Plain cadence cfg) (w : ℤ) : ∃ i, Near cadence (weekdayOf cfg.day) wanted (w / 1440) i ∧
    nextOccurrence number (wallClock w) cadence cfg =
      some (if (wallClock (occursAt cadence cfg wanted i)).key ≤ (wallClock w).key then
        (wallClock (occursAt cadence cfg wanted (i + 1))).parts else (wallClock (occursAt cadence cfg wanted i)).parts) := by
  have htime := parseTime_range cfg.time
  simp only [nextOccurrence, today_eq]
  cases cadence with
  | daily =>
    refine ⟨w / 1440, by simp only [Near, slot]; omega, ?_⟩
    simp only [occursAt, key_minuteAt htime, parts_minuteAt htime, shiftDays_civil, slot]
    split_ifs <;> rfl
  | weekly =>
    have hweekday := weekdayOf_range cfg.day
    have hday : w / 1440 + (weekdayOf cfg.day - (wallClock w).weekday + 7) % 7 =
        7 * ((w / 1440 + 10 - weekdayOf cfg.day) / 7) + weekdayOf cfg.day - 4 := by
      simp only [wallClock]
      omega
    refine ⟨(w / 1440 + 10 - weekdayOf cfg.day) / 7, by simp only [Near, slot]; omega, ?_⟩
    have hon : ∀ i, 7 * (i + 1) + weekdayOf cfg.day - 4 = 7 * i + weekdayOf cfg.day - 4 + 7 := fun i => by ring
    rw [dayIndex_plain hplain]
    simp only [Option.bind_eq_bind, Option.bind_some, occursAt, key_minuteAt htime, parts_minuteAt htime, shiftDays_civil, slot, hday,
      hon]
    split_ifs <;> rfl
  | monthly =>
    refine ⟨monthOf (w / 1440), near_month hpos _ _, ?_⟩
    have hthis : monthParts number cfg (wallClock w).y (wallClock w).m = _ := monthParts_eq hpos hwanted (monthOf (w / 1440))
    simp only [nextMonth (monthParts number cfg), monthParts_eq hpos hwanted, hthis]
    rfl

end Slots

section Exactness

/-- The latest occurrence and the next are found. -/
def Found (number : Text → Option ℚ) (cadence : ScheduleCadence) (cfg : ScheduleConfig) (w : ℤ) : Prop :=
  ∃ key next, lastOccurrenceKey number (wallClock w) cadence cfg = some key ∧
    nextOccurrence number (wallClock w) cadence cfg = some (wallClock next).parts ∧
    IsGreatest {k | ∃ v, Scheduled number cadence cfg v ∧ k = (wallClock v).key ∧ k ≤ (wallClock w).key} key ∧
    IsLeast {v | Scheduled number cadence cfg v ∧ w < v} next

variable {number : Text → Option ℚ} {cadence : ScheduleCadence} {cfg other : ScheduleConfig}

lemma found_iff (hdate : Whole number cfg.date) (w : ℤ) : Found number cadence cfg w ↔ Plain cadence cfg := by
  constructor
  · rintro ⟨key, next, hlast, -⟩ rfl hname
    rw [lastOccurrenceKey, dayIndex_eq, if_pos hname] at hlast
    cases hlast
  · intro hplain
    obtain ⟨wanted, hwanted, hpos, -⟩ := wantedDate_int hdate
    have hscheduled : ∀ v, Scheduled number cadence cfg v ↔ _ := scheduled_iff hpos hwanted
    have hmono := occursAt_strictMono hpos cadence cfg
    obtain ⟨i, hi, hlast⟩ := last_eq hpos hwanted hplain w
    obtain ⟨j, hj, hnext⟩ := next_eq hpos hwanted hplain w
    have hgreatest := greatest_le hmono hi.minutes.1 hi.minutes.2
    have hleast := least_gt hmono hj.minutes.1 hj.minutes.2
    rw [if_congr key_strictMono.lt_iff_lt rfl rfl, ← apply_ite fun t => (wallClock t).key] at hlast
    rw [if_congr key_strictMono.le_iff_le rfl rfl, ← apply_ite fun t => (wallClock t).parts] at hnext
    simp only [← hscheduled] at hgreatest hleast
    refine ⟨_, _, hlast, hnext, ⟨⟨_, hgreatest.1.1, rfl, key_strictMono.monotone hgreatest.1.2⟩, ?_⟩, hleast⟩
    rintro k ⟨v, hv, rfl, hle⟩
    exact key_strictMono.monotone (hgreatest.2 ⟨hv, key_strictMono.le_iff_le.mp hle⟩)

/-- The years that `Date.UTC` takes as they are. -/
def InRange (w : ℤ) : Prop := 1000 ≤ (wallClock w).y ∧ (wallClock w).y ≤ 9999

instance (w : ℤ) : Decidable (InRange w) := inferInstanceAs (Decidable (_ ∧ _))

/-- What a cadence reads of a config. -/
def SameSchedule (number : Text → Option ℚ) (cadence : ScheduleCadence) (cfg other : ScheduleConfig) : Prop :=
  parseTime cfg.time = parseTime other.time ∧
    match cadence with
    | .daily => True
    | .weekly => weekdayOf cfg.day = weekdayOf other.day
    | .monthly => wantedDate number cfg.date = wantedDate number other.date

lemma timeText_injective {time time' : ℤ × ℤ} (h : 0 ≤ time.1 ∧ time.1 < 24 ∧ 0 ≤ time.2 ∧ time.2 < 60)
    (h' : 0 ≤ time'.1 ∧ time'.1 < 24 ∧ 0 ≤ time'.2 ∧ time'.2 < 60) (heq : timeText time = timeText time') : time = time' := by
  have hpad : ∀ n : ℤ, 0 ≤ n → n < 60 → padStart 2 (Nat.toDigits 10 n.toNat) = padded 2 n.toNat := fun n _ _ =>
    padStart_toDigits two_pos (by omega)
  rw [timeText, timeText, hpad _ h.1 (by omega), hpad _ h.2.2.1 h.2.2.2, hpad _ h'.1 (by omega), hpad _ h'.2.2.1 h'.2.2.2] at heq
  obtain ⟨hhours, hrest⟩ := List.append_inj heq (by simp)
  have hh := padded_injective (by omega) (by omega) hhours
  have hm := padded_injective (by omega) (by omega) (List.cons.inj hrest).2
  exact Prod.ext (by omega) (by omega)

section Kernel

variable (hdate : Whole number cfg.date) (hdate' : Whole number other.date) (hplain : Plain cadence cfg) (hplain' : Plain cadence other)

include hdate hdate' hplain hplain'

lemma scheduled_of_agree {w : ℤ} (hagree : lastOccurrenceKey number (wallClock w) cadence cfg =
      lastOccurrenceKey number (wallClock w) cadence other) (h : Scheduled number cadence cfg w) :
    Scheduled number cadence other w := by
  obtain ⟨key, -, hkey, -, ⟨⟨-, -, -, hle⟩, hmax⟩, -⟩ := (found_iff hdate w).mpr hplain
  obtain ⟨key', -, hkey', -, ⟨⟨v, hv, rfl, -⟩, -⟩, -⟩ := (found_iff hdate' w).mpr hplain'
  rw [hkey, hkey', Option.some_inj] at hagree
  subst hagree
  obtain rfl : v = w := key_strictMono.injective (le_antisymm hle (hmax ⟨w, h, rfl, le_rfl⟩))
  exact hv

lemma same_of_agree (hagree : ∀ w, InRange w → lastOccurrenceKey number (wallClock w) cadence cfg =
      lastOccurrenceKey number (wallClock w) cadence other) : SameSchedule number cadence cfg other := by
  obtain ⟨wanted, hwanted, hpos, hle⟩ := wantedDate_int hdate
  have htime := parseTime_range cfg.time
  have hweekday := weekdayOf_range cfg.day
  -- an occurrence in January 2000
  obtain ⟨i, hmonth⟩ : ∃ i, monthOf (slot cadence (weekdayOf cfg.day) wanted i) = 360 := by
    have hfirst : monthStart 360 = 10957 := by decide
    have hsecond : monthStart (360 + 1) = 10988 := by decide
    suffices h : ∃ i, monthStart 360 ≤ slot cadence (weekdayOf cfg.day) wanted i ∧
        slot cadence (weekdayOf cfg.day) wanted i < monthStart (360 + 1) from h.imp fun i hi => monthOf_eq hi.1 hi.2
    cases cadence with
    | daily => exact ⟨10960, by simp only [slot]; omega⟩
    | weekly => exact ⟨1566, by simp only [slot]; omega⟩
    | monthly => exact ⟨360, by simp only [slot]; omega⟩
  have hclock : wallClock (occursAt cadence cfg wanted i) = _ := wallClock_minuteAt htime _
  simp only [civil, hmonth] at hclock
  have hrange : InRange (occursAt cadence cfg wanted i) := by simp [InRange, hclock]
  have hscheduled : Scheduled number cadence cfg (occursAt cadence cfg wanted i) := (scheduled_iff hpos hwanted _).mpr ⟨i, rfl⟩
  have hother := scheduled_of_agree hdate hdate' hplain hplain' (hagree _ hrange) hscheduled
  refine ⟨hscheduled.1.symm.trans hother.1, ?_⟩
  cases cadence with
  | daily => trivial
  | weekly => exact hscheduled.2.symm.trans hother.2
  | monthly =>
    obtain ⟨wanted', hwanted', -, hle'⟩ := wantedDate_int hdate'
    have heq := hscheduled.2.symm.trans hother.2
    have hdays : daysInMonth (360 / 12 + 1970) (360 % 12 + 1) = 31 := by decide
    rw [hclock, hdays, hwanted, hwanted'] at heq
    norm_cast at heq
    rw [hwanted, hwanted', ← min_eq_left hle, ← min_eq_left hle', heq]

lemma normalize_eq_iff {string : ℚ → Text} (hstring : ∀ z z' : ℤ, string z = string z' → z = z') :
    normalizeScheduleConfig number string cadence cfg = normalizeScheduleConfig number string cadence other ↔
      SameSchedule number cadence cfg other := by
  have htime : timeText (parseTime cfg.time) = timeText (parseTime other.time) ↔ parseTime cfg.time = parseTime other.time :=
    ⟨timeText_injective (parseTime_range _) (parseTime_range _), congrArg timeText⟩
  cases cadence with
  | daily => simp [normalizeScheduleConfig, SameSchedule, htime]
  | weekly =>
    have hday := weekdayOf_range cfg.day
    have hday' := weekdayOf_range other.day
    have hnames : dayNames[(weekdayOf cfg.day).toNat]? = dayNames[(weekdayOf other.day).toNat]? ↔
        weekdayOf cfg.day = weekdayOf other.day := by
      have hlt : (weekdayOf cfg.day).toNat < dayNames.length := (Int.toNat_lt hday.1).mpr hday.2
      rw [List.getElem?_inj hlt (by decide)]
      omega
    simp [normalizeScheduleConfig, SameSchedule, htime, dayIndex_plain hplain, dayIndex_plain hplain', hnames]
  | monthly =>
    obtain ⟨z, hz, -⟩ := wantedDate_int hdate
    obtain ⟨z', hz', -⟩ := wantedDate_int hdate'
    have hstrings : string z = string z' ↔ (z : ℚ) = z' := ⟨fun h => congrArg _ (hstring z z' h), congrArg string⟩
    simp [normalizeScheduleConfig, SameSchedule, htime, hz, hz', hstrings]

omit hdate hdate' in
lemma agree_of_same (h : SameSchedule number cadence cfg other) (w : ℤ) :
    lastOccurrenceKey number (wallClock w) cadence cfg = lastOccurrenceKey number (wallClock w) cadence other := by
  obtain ⟨htime, hday⟩ := h
  cases cadence with
  | daily => simp only [lastOccurrenceKey, htime]
  | weekly =>
    change weekdayOf cfg.day = weekdayOf other.day at hday
    simp only [lastOccurrenceKey, htime, dayIndex_plain hplain, dayIndex_plain hplain', hday]
  | monthly =>
    change wantedDate number cfg.date = wantedDate number other.date at hday
    have hparts : monthParts number cfg = monthParts number other := by
      funext y m
      simp only [monthParts, htime, hday]
    simp only [lastOccurrenceKey, hparts]

end Kernel

theorem schedule_exact_iff (number : Text → Option ℚ) (string : ℚ → Text) (cadence : ScheduleCadence) (cfg : ScheduleConfig)
    (hstring : ∀ z z' : ℤ, string z = string z' → z = z') (hdate : Whole number cfg.date) :
    (∀ w, InRange w → (Found number cadence cfg w ↔ Plain cadence cfg)) ∧
    ∀ other, Whole number other.date → Plain cadence cfg → Plain cadence other →
      (normalizeScheduleConfig number string cadence cfg = normalizeScheduleConfig number string cadence other ↔
        ∀ w, InRange w → lastOccurrenceKey number (wallClock w) cadence cfg = lastOccurrenceKey number (wallClock w) cadence other) := by
  refine ⟨fun w _ => found_iff hdate w, fun other hdate' hplain hplain' => ?_⟩
  rw [normalize_eq_iff hdate hdate' hplain hplain' hstring]
  exact ⟨fun h w _ => agree_of_same hplain hplain' h w, same_of_agree hdate hdate' hplain hplain'⟩

/-- Half past seven on Tuesdays, and on the day named `constructor`. -/
def weeklyOn (day : String) : ScheduleConfig := ⟨some "7:30".toList, some day.toList, none⟩

theorem schedule_exact_iff_tuesday : InRange 29000000 ∧ Found (fun _ => none) .weekly (weeklyOn "Tuesday") 29000000 := by
  have hrange : InRange 29000000 := by decide +kernel
  have hstring : ∀ z z' : ℤ, List.replicate (Encodable.encode (z : ℚ)) 'x' = List.replicate (Encodable.encode (z' : ℚ)) 'x' → z = z' :=
    fun z z' h => by simpa using congrArg List.length h
  have hexact := schedule_exact_iff (fun _ => none) (fun q => List.replicate (Encodable.encode q) 'x') .weekly (weeklyOn "Tuesday")
    hstring nofun
  exact ⟨hrange, (hexact.1 _ hrange).mpr fun _ => by decide⟩

theorem inherited_day_not_found : InRange 29000000 ∧ ¬ Found (fun _ => none) .weekly (weeklyOn "constructor") 29000000 := by
  refine ⟨by decide +kernel, ?_⟩
  rintro ⟨key, next, hlast, -⟩
  have hnone : lastOccurrenceKey (fun _ => none) (wallClock 29000000) .weekly (weeklyOn "constructor") = none := by decide +kernel
  rw [hnone] at hlast
  cases hlast

end Exactness

end Breeze.Reports.Occurrences
