import Breeze.Cron.Items
import Breeze.Cron.Occurrences

/-! When the matcher fires exactly at the minutes that the parser shows. -/

namespace Breeze.Cron.Agreement

open Breeze.Lib.Decimal Breeze.Lib.Whitespace Fields Items Occurrences

structure Readings where
  minutes : List Item
  hours : List Item
  daysOfMonth : List Item
  months : List Item
  daysOfWeek : List Item
  domRestricted : Bool
  dowRestricted : Bool

def readPattern (pattern : Text) : Option Readings :=
  match cronWords pattern with
  | [minute, hour, dayOfMonth, month, dayOfWeek] => do
    let minutes ← readField .minute minute
    let hours ← readField .hour hour
    let daysOfMonth ← readField .dayOfMonth dayOfMonth
    let months ← readField .month month
    let daysOfWeek ← readField .dayOfWeek dayOfWeek
    some ⟨minutes, hours, daysOfMonth, months, daysOfWeek, dayOfMonth ≠ ['*'], dayOfWeek ≠ ['*']⟩
  | _ => none

def shown (f : Field) (items : List Item) (value : ℕ) : Bool := items.any fun item => item.shows f value

def fired (f : Field) (items : List Item) (value : ℕ) : Bool := items.any fun item => item.fires f.min f.max value

def shownWeekday (items : List Item) (day : ℕ) : Bool := shown .dayOfWeek items day || day == 0 && shown .dayOfWeek items 7

def firedWeekday (items : List Item) (day : ℕ) : Bool :=
  fired .dayOfWeek items day || items.any fun item => item.fires 1 7 (if day = 0 then 7 else day)

def Readings.bothDays (r : Readings) (dayOfMonth dayOfWeek : Bool) : Bool :=
  if r.domRestricted && r.dowRestricted then dayOfMonth || dayOfWeek else dayOfMonth && dayOfWeek

def Readings.showsDay (r : Readings) (month dayOfMonth dayOfWeek : ℕ) : Bool :=
  shown .month r.months month && r.bothDays (shown .dayOfMonth r.daysOfMonth dayOfMonth) (shownWeekday r.daysOfWeek dayOfWeek)

def Readings.firesDay (r : Readings) (month dayOfMonth dayOfWeek : ℕ) : Bool :=
  fired .month r.months month && r.bothDays (fired .dayOfMonth r.daysOfMonth dayOfMonth) (firedWeekday r.daysOfWeek dayOfWeek)

structure Readings.Agree (r : Readings) : Prop where
  days : ∀ month dayOfMonth dayOfWeek, RealDay month dayOfMonth dayOfWeek →
    r.firesDay month dayOfMonth dayOfWeek = r.showsDay month dayOfMonth dayOfWeek
  times : (∃ month dayOfMonth dayOfWeek, RealDay month dayOfMonth dayOfWeek ∧
      r.showsDay month dayOfMonth dayOfWeek = true) →
    (∀ hour < 24, fired .hour r.hours hour = shown .hour r.hours hour) ∧
      ∀ minute < 60, fired .minute r.minutes minute = shown .minute r.minutes minute

structure Reads (pattern : Text) (fields : CronFields) (r : Readings) : Prop where
  parsed : parseFiveFieldCron pattern = some fields
  read : readPattern pattern = some r
  shows : ∀ t, Matches fields (wallClock t) ↔ shown .minute r.minutes (wallClock t).minute = true ∧
    shown .hour r.hours (wallClock t).hour = true ∧
      r.showsDay (wallClock t).month (wallClock t).dayOfMonth (wallClock t).dayOfWeek = true
  fires : ∀ t, isCronDue pattern (wallClock t) = true ↔ fired .minute r.minutes (wallClock t).minute = true ∧
    fired .hour r.hours (wallClock t).hour = true ∧
      r.firesDay (wallClock t).month (wallClock t).dayOfMonth (wallClock t).dayOfWeek = true
  hours : (∃ hour < 24, fired .hour r.hours hour = true) ∧ ∃ hour < 24, shown .hour r.hours hour = true
  minutes : (∃ minute < 60, fired .minute r.minutes minute = true) ∧ ∃ minute < 60, shown .minute r.minutes minute = true

lemma cronWords_not_space (pattern word : Text) (h : word ∈ cronWords pattern) : ∀ c ∈ word, isEcmaSpace c = false := by
  rw [cronWords] at h
  split_ifs at h with hempty
  · rw [List.mem_singleton.mp h]
    exact fun c hc => absurd hc List.not_mem_nil
  · exact fun c hc => (splitOnP_pieces (List.mem_of_mem_filter h) c hc).1

variable {items : List Item} {values : List ℕ} {dayOfMonth month dayOfWeek : ℕ}

lemma exists_value {f : Field} {field : Text} (h : readField f field = some items) (hnames : f.names = []) :
    (∃ value ≤ f.max, fired f items value = true) ∧ ∃ value ≤ f.max, shown f items value = true := by
  obtain ⟨hne, hread⟩ := readField_read h
  obtain ⟨item, hitem⟩ := List.exists_mem_of_ne_nil items hne
  have hitem' := hread item hitem
  obtain ⟨range, hreach, hle, hmax⟩ := hitem'.reach_some hnames
  constructor
  · refine ⟨range.1, hle.trans hmax, List.any_eq_true.mpr ⟨item, hitem, ?_⟩⟩
    rw [Item.fires, hreach]
    exact stepped_low _ hle
  · exact ⟨(item.span f).1, hitem'.span_le.trans hitem'.span_max,
      List.any_eq_true.mpr ⟨item, hitem, stepped_low _ hitem'.span_le⟩⟩

lemma contains_eq {b : ℕ → Bool} (h : ∀ value, value ∈ values ↔ b value = true) (value : ℕ) :
    values.contains value = b value := by
  rw [Bool.eq_iff_iff, List.contains_iff_mem, h]

lemma contains_weekday (h : ∀ value, value ∈ values ↔ shown .dayOfWeek items value = true) {day : ℕ} (hday : day < 7) :
    (values.map fun value => if value = 7 then 0 else value).contains day = shownWeekday items day := by
  rw [Bool.eq_iff_iff, List.contains_iff_mem, shownWeekday, Bool.or_eq_true, Bool.and_eq_true, beq_iff_eq, ← h, ← h,
    List.mem_map]
  constructor
  · rintro ⟨value, hmem, heq⟩
    split_ifs at heq with hseven
    · exact Or.inr ⟨heq.symm, hseven ▸ hmem⟩
    · exact Or.inl (heq ▸ hmem)
  · rintro (hmem | ⟨rfl, hmem⟩)
    · exact ⟨day, hmem, if_neg (by omega)⟩
    · exact ⟨7, hmem, if_pos rfl⟩

lemma isCronDue_eq {pattern minute hour dayOfMonth month dayOfWeek : Text} {r : Readings}
    (hwords : cronWords pattern = [minute, hour, dayOfMonth, month, dayOfWeek])
    (hminutes : readField .minute minute = some r.minutes) (hhours : readField .hour hour = some r.hours)
    (hdaysOfMonth : readField .dayOfMonth dayOfMonth = some r.daysOfMonth)
    (hmonths : readField .month month = some r.months) (hdaysOfWeek : readField .dayOfWeek dayOfWeek = some r.daysOfWeek)
    (hdom : r.domRestricted = decide (dayOfMonth ≠ ['*'])) (hdow : r.dowRestricted = decide (dayOfWeek ≠ ['*']))
    {clock : WallClock} (hhour : clock.hour < 24) (hminute : clock.minute < 60)
    (hday : RealDay clock.month clock.dayOfMonth clock.dayOfWeek) :
    isCronDue pattern clock = (fired .minute r.minutes clock.minute && fired .hour r.hours clock.hour &&
      r.firesDay clock.month clock.dayOfMonth clock.dayOfWeek) := by
  have hspace := cronWords_not_space pattern
  simp only [hwords, List.forall_mem_cons] at hspace
  obtain ⟨hs₁, hs₂, hs₃, hs₄, hs₅, -⟩ := hspace
  obtain ⟨hm, hm', hd, hd', hw⟩ := hday
  have hd31 : clock.dayOfMonth ≤ 31 := by
    refine hd'.trans ?_
    unfold longestMonth
    split <;> omega
  have hminute' := matchesCronField_eq hminutes hs₁ clock.minute 0 59 (Nat.zero_le _) (Nat.le_of_lt_succ hminute)
  have hhour' := matchesCronField_eq hhours hs₂ clock.hour 0 23 (Nat.zero_le _) (Nat.le_of_lt_succ hhour)
  have hdom' := matchesCronField_eq hdaysOfMonth hs₃ clock.dayOfMonth 1 31 hd hd31
  have hmonth' := matchesCronField_eq hmonths hs₄ clock.month 1 12 hm hm'
  have hsunday := matchesCronField_eq hdaysOfWeek hs₅ clock.dayOfWeek 0 7 (Nat.zero_le _) (by omega)
  have hmonday := matchesCronField_eq hdaysOfWeek hs₅ (if clock.dayOfWeek = 0 then 7 else clock.dayOfWeek) 1 7
    (by split_ifs <;> omega) (by split_ifs <;> omega)
  push_cast at hminute' hhour' hdom' hmonth' hsunday hmonday
  simp only [isCronDue, hwords, hminute', hhour', hdom', hmonth', hsunday, hmonday, fired, firedWeekday, Readings.firesDay,
    Readings.bothDays, hdom, hdow, Field.min, Field.max, Bool.and_assoc]
  by_cases hstar : dayOfMonth = ['*']
  · simp [hstar]
  · by_cases hstar' : dayOfWeek = ['*'] <;> simp [hstar, hstar']

lemma exists_reads {pattern : Text} (hvalid : isStructurallyValidCron pattern = true)
    (hfive : (cronWords pattern).length = 5) : ∃ fields r, Reads pattern fields r := by
  rw [isStructurallyValidCron] at hvalid
  obtain ⟨minute, hour, dayOfMonth, month, dayOfWeek, hlist⟩ : ∃ a b c d e, [a, b, c, d, e] = cronWords pattern := by
    simpa [List.length_eq_succ_iff] using hfive
  have hwords := hlist.symm
  rw [hwords] at hvalid
  simp only [Bool.and_eq_true] at hvalid
  obtain ⟨⟨⟨⟨hminute, hhour⟩, hdom⟩, hmonth⟩, hdow⟩ := hvalid
  obtain ⟨minutes, hminutes⟩ := exists_readField hminute
  obtain ⟨hours, hhours⟩ := exists_readField hhour
  obtain ⟨daysOfMonth, hdaysOfMonth⟩ := exists_readField hdom
  obtain ⟨months, hmonths⟩ := exists_readField hmonth
  obtain ⟨daysOfWeek, hdaysOfWeek⟩ := exists_readField hdow
  obtain ⟨minuteSet, hminuteSet, hmemMinute⟩ := expandCronField_eq hminutes
  obtain ⟨hourSet, hhourSet, hmemHour⟩ := expandCronField_eq hhours
  obtain ⟨domSet, hdomSet, hmemDom⟩ := expandCronField_eq hdaysOfMonth
  obtain ⟨monthSet, hmonthSet, hmemMonth⟩ := expandCronField_eq hmonths
  obtain ⟨dowSet, hdowSet, hmemDow⟩ := expandCronField_eq hdaysOfWeek
  refine ⟨⟨minuteSet, hourSet, domSet, monthSet, dowSet.map fun day => if day = 7 then 0 else day,
    dayOfMonth ≠ ['*'], dayOfWeek ≠ ['*']⟩,
    ⟨minutes, hours, daysOfMonth, months, daysOfWeek, dayOfMonth ≠ ['*'], dayOfWeek ≠ ['*']⟩, ?_⟩
  constructor
  · simp [parseFiveFieldCron, hwords, hminuteSet, hhourSet, hdomSet, hmonthSet, hdowSet]
  · simp [readPattern, hwords, hminutes, hhours, hdaysOfMonth, hmonths, hdaysOfWeek]
  · intro t
    simp only [Matches, dayHit, contains_eq hmemMonth, contains_eq hmemDom, contains_weekday hmemDow (realDay t).week,
      hmemMinute, hmemHour]
    rfl
  · intro t
    rw [isCronDue_eq (r := ⟨minutes, hours, daysOfMonth, months, daysOfWeek, dayOfMonth ≠ ['*'], dayOfWeek ≠ ['*']⟩) hwords hminutes hhours hdaysOfMonth hmonths hdaysOfWeek rfl rfl (hour_lt t) (minute_lt t) (realDay t),
      Bool.and_eq_true, Bool.and_eq_true, and_assoc]
  · obtain ⟨⟨value, hle, hfires⟩, value', hle', hshows⟩ := exists_value hhours rfl
    exact ⟨⟨value, Nat.lt_succ_of_le hle, hfires⟩, value', Nat.lt_succ_of_le hle', hshows⟩
  · obtain ⟨⟨value, hle, hfires⟩, value', hle', hshows⟩ := exists_value hminutes rfl
    exact ⟨⟨value, Nat.lt_succ_of_le hle, hfires⟩, value', Nat.lt_succ_of_le hle', hshows⟩

variable {pattern : Text} {fields : CronFields} {r : Readings}

section Agree

variable (h : Reads pattern fields r) (hdue : ∀ t, isCronDue pattern (wallClock t) = true ↔ Matches fields (wallClock t))
  (hday : RealDay month dayOfMonth dayOfWeek)

include h hdue hday

lemma Reads.clock_agree {hour minute : ℕ} (hhour : hour < 24) (hminute : minute < 60) :
    fired .minute r.minutes minute = true ∧ fired .hour r.hours hour = true ∧ r.firesDay month dayOfMonth dayOfWeek = true ↔
      shown .minute r.minutes minute = true ∧ shown .hour r.hours hour = true ∧ r.showsDay month dayOfMonth dayOfWeek = true := by
  obtain ⟨t, ht⟩ := exists_clock hday hhour hminute
  have hclock := (h.fires t).symm.trans ((hdue t).trans (h.shows t))
  rwa [ht] at hclock

lemma Reads.days_agree : r.firesDay month dayOfMonth dayOfWeek = r.showsDay month dayOfMonth dayOfWeek := by
  obtain ⟨⟨hour, hhour, hfired⟩, hour', hhour', hshown⟩ := h.hours
  obtain ⟨⟨minute, hminute, hfired'⟩, minute', hminute', hshown'⟩ := h.minutes
  rw [Bool.eq_iff_iff]
  exact ⟨fun hfires => ((h.clock_agree hdue hday hhour hminute).mp ⟨hfired', hfired, hfires⟩).2.2,
    fun hshows => ((h.clock_agree hdue hday hhour' hminute').mpr ⟨hshown', hshown, hshows⟩).2.2⟩

lemma Reads.times_agree (hshows : r.showsDay month dayOfMonth dayOfWeek = true) :
    (∀ hour < 24, fired .hour r.hours hour = shown .hour r.hours hour) ∧
      ∀ minute < 60, fired .minute r.minutes minute = shown .minute r.minutes minute := by
  obtain ⟨⟨hour, hhour, hfired⟩, hour', hhour', hshown⟩ := h.hours
  obtain ⟨⟨minute, hminute, hfired'⟩, minute', hminute', hshown'⟩ := h.minutes
  have hfires := (h.days_agree hdue hday).trans hshows
  constructor
  · intro value hvalue
    rw [Bool.eq_iff_iff]
    exact ⟨fun hh => ((h.clock_agree hdue hday hvalue hminute).mp ⟨hfired', hh, hfires⟩).2.1,
      fun hh => ((h.clock_agree hdue hday hvalue hminute').mpr ⟨hshown', hh, hshows⟩).2.1⟩
  · intro value hvalue
    rw [Bool.eq_iff_iff]
    exact ⟨fun hm => ((h.clock_agree hdue hday hhour hvalue).mp ⟨hm, hfired, hfires⟩).1,
      fun hm => ((h.clock_agree hdue hday hhour' hvalue).mpr ⟨hm, hshown, hshows⟩).1⟩

end Agree

lemma Reads.due_iff (h : Reads pattern fields r) (hagree : r.Agree) (t : ℤ) :
    isCronDue pattern (wallClock t) = true ↔ Matches fields (wallClock t) := by
  rw [h.fires, h.shows, hagree.days _ _ _ (realDay t)]
  by_cases hday : r.showsDay (wallClock t).month (wallClock t).dayOfMonth (wallClock t).dayOfWeek = true
  · obtain ⟨hhours, hminutes⟩ := hagree.times ⟨_, _, _, realDay t, hday⟩
    rw [hminutes _ (minute_lt t), hhours _ (hour_lt t)]
  · exact ⟨fun h => absurd h.2.2 hday, fun h => absurd h.2.2 hday⟩

theorem due_as_shown_iff {pattern : Text} (hvalid : isStructurallyValidCron pattern = true)
    (hfive : (cronWords pattern).length = 5) :
    ∃ fields r, parseFiveFieldCron pattern = some fields ∧ readPattern pattern = some r ∧
      (∀ t, yearHundred < t → isDate t = true →
        ((∃ fromMs, yearHundred * 60000 ≤ fromMs ∧ nextCronOccurrence fields fromMs = some (some (t * 60000))) ↔
          Matches fields (wallClock t))) ∧
      ((∀ t, isCronDue pattern (wallClock t) = true ↔ Matches fields (wallClock t)) ↔ r.Agree) := by
  obtain ⟨fields, r, h⟩ := exists_reads hvalid hfive
  refine ⟨fields, r, h.parsed, h.read, fun t => enumerates_iff, fun hdue => ⟨?_, ?_⟩, fun hagree t => h.due_iff hagree t⟩
  · exact fun month dayOfMonth dayOfWeek hday => h.days_agree hdue hday
  · rintro ⟨month, dayOfMonth, dayOfWeek, hday, hshows⟩
    exact h.times_agree hdue hday hshows

theorem weekdays_due_as_shown : ∃ fields r, parseFiveFieldCron "0 9 * * 1-5".toList = some fields ∧
    readPattern "0 9 * * 1-5".toList = some r ∧
      (∀ t, yearHundred < t → isDate t = true →
        ((∃ fromMs, yearHundred * 60000 ≤ fromMs ∧ nextCronOccurrence fields fromMs = some (some (t * 60000))) ↔
          Matches fields (wallClock t))) ∧
      ((∀ t, isCronDue "0 9 * * 1-5".toList (wallClock t) = true ↔ Matches fields (wallClock t)) ↔ r.Agree) :=
  due_as_shown_iff (by decide +kernel) (by decide +kernel)

/-- At nine on Monday, 16 November 2026, a pattern for Mondays is shown and not due. -/
theorem monday_not_due :
    isStructurallyValidCron "0 9 * * mon".toList = true ∧ (cronWords "0 9 * * mon".toList).length = 5 ∧
    wallClock 29913660 = ⟨0, 9, 16, 11, 1⟩ ∧
    (parseFiveFieldCron "0 9 * * mon".toList).any (fun fields => Matches fields (wallClock 29913660)) = true ∧
    isCronDue "0 9 * * mon".toList (wallClock 29913660) = false := by
  decide +kernel

end Breeze.Cron.Agreement
