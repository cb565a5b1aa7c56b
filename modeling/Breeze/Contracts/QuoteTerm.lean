import Mathlib.Data.List.ReduceOption
import Breeze.Contracts.PeriodBilling
import Breeze.Contracts.QuoteToContract

/-! How many periods an accepted term is billed for. The end date rolls over where the period starts
are clamped, so a start day that the last month lacks costs one more period. -/

namespace Breeze.Contracts.QuoteTerm

open Breeze.Lib.Decimal ContractMath ContractService CalendarDay PeriodGrid BillingCursor List
open CursorRefinement PeriodBilling QuoteToContract

lemma nextDay_iterate (y : ℤ) (m d j : ℕ) (h : d + j ≤ monthLength (isLeap y) m) :
    nextDay^[j] (y, m, d) = (y, m, d + j) := by
  induction j with
  | zero => rfl
  | succ j ih =>
    rw [Function.iterate_succ_apply', ih (by omega), nextDay, if_pos (by omega)]
    rfl

def monthFirst (M : ℕ) : ℤ × ℕ × ℕ := ((M / 12 : ℕ), M % 12 + 1, 1)

def lastDay (M : ℕ) : ℕ := monthLength (isLeap (M / 12 : ℕ)) (M % 12 + 1)

lemma lastDay_ge (M : ℕ) : 28 ≤ lastDay M := monthLength_ge _ _

lemma lastDay_eq {M : ℕ} (h : 12000 ≤ M) : lastDay M = daysInMonth ((M / 12 : ℕ) : ℤ) (M % 12 + 1) := by
  rw [lastDay, daysInMonth, utcYear, if_neg (by omega)]

lemma nextDay_lastDay (M : ℕ) : nextDay (((M / 12 : ℕ) : ℤ), M % 12 + 1, lastDay M) = monthFirst (M + 1) := by
  have hl : ¬ lastDay M < monthLength (isLeap (M / 12 : ℕ)) (M % 12 + 1) := lt_irrefl _
  rw [nextDay, if_neg hl, monthFirst]
  split
  · have h₁ : (M + 1) / 12 = M / 12 := by omega
    have h₂ : (M + 1) % 12 = M % 12 + 1 := by omega
    rw [h₁, h₂]
  · have h₁ : (M + 1) / 12 = M / 12 + 1 := by omega
    have h₂ : (M + 1) % 12 = 0 := by omega
    rw [h₁, h₂]
    rfl

lemma monthFirst_iterate {M j : ℕ} (h : j < lastDay M) :
    nextDay^[j] (monthFirst M) = (((M / 12 : ℕ) : ℤ), M % 12 + 1, j + 1) := by
  rw [monthFirst, nextDay_iterate _ _ _ _ (by unfold lastDay at h; omega), Nat.add_comm 1 j]

variable {d : ℕ} {group : List QuoteLineForContract} {cadence : Cadence}

lemma monthFirst_rollover {M : ℕ} (h : lastDay M < d) (hd : d ≤ 31) :
    nextDay^[d - 1] (monthFirst M) = ((((M + 1) / 12 : ℕ) : ℤ), (M + 1) % 12 + 1, d - lastDay M) := by
  have hge := lastDay_ge M
  have hge' := lastDay_ge (M + 1)
  have hsplit : d - 1 = (d - 1 - lastDay M) + ((lastDay M - 1) + 1) := by omega
  have hlast : nextDay^[lastDay M - 1] (monthFirst M) = (((M / 12 : ℕ) : ℤ), M % 12 + 1, lastDay M) := by
    rw [monthFirst_iterate (by omega)]
    congr 2
    omega
  rw [hsplit, Function.iterate_add_apply, Function.iterate_succ_apply', hlast, nextDay_lastDay,
    monthFirst_iterate (by omega)]
  congr 2
  omega

def rolledText (s : StartDay) (n : ℕ) : Text :=
  let M := monthNumber s.toDay n
  if s.d ≤ lastDay M then isoText (M / 12) (M % 12 + 1) s.d
  else isoText ((M + 1) / 12) ((M + 1) % 12 + 1) (s.d - lastDay M)

lemma makeDay_eq {M : ℕ} {y month1 : ℤ} (hy : y + (month1 - 1) / 12 = (M / 12 : ℕ))
    (hm : (month1 - 1) % 12 = (M % 12 : ℕ)) (hd : 1 ≤ d) : makeDay y month1 d = nextDay^[d - 1] (monthFirst M) := by
  have hday : (d : ℤ) - 1 = Int.ofNat (d - 1) := by
    rw [Int.ofNat_eq_natCast]
    omega
  unfold makeDay
  rw [hday, hy, hm]
  rfl

lemma isDigit_digitChar_mod (n : ℕ) : (n % 10).digitChar.isDigit = true :=
  isDigit_of_mem_padded (w := 1) (n := n) (List.mem_singleton.mpr rfl)

lemma isDateText_iso (s : Day) : isDateText s.iso = true := by
  simp only [Day.iso, isoText, padded, nil_append, cons_append, isDateText,
    isDigit_digitChar_mod, beq_self_eq_true, Bool.and_self]

lemma isoDate_take {y m : ℕ} (hy : y < 10000) (hl : 1000 ≤ y) (hm : m < 100) (hd : d < 100) :
    (isoDate ((y : ℤ), m, d)).take 10 = isoText y m d := by
  have hyear : isoYear (y : ℤ) = padded 4 y := by
    rw [isoYear, if_pos ⟨by omega, by omega⟩]
    exact padStart_toDigits (by omega) (by omega)
  rw [isoDate, hyear, padStart_toDigits (by omega) (by omega), padStart_toDigits (by omega) (by omega)]
  apply take_of_length_le
  simp

lemma addMonthsToDate_iso (s : StartDay) {n : ℕ} (hn : 1 ≤ n) (hu : monthNumber s.toDay n + 1 < 120000) :
    addMonthsToDate s.iso n = .ok (rolledText s n) := by
  have hs := s.y_ge
  have hd := s.d_pos
  have hd31 := s.d_le_31
  have hm := s.m_pos
  have hm' := s.m_le
  have hM₀ : 12000 ≤ monthNumber s.toDay 0 := by unfold monthNumber; omega
  have hM : 12000 ≤ monthNumber s.toDay n := by unfold monthNumber; omega
  have hy₀ : monthNumber s.toDay 0 / 12 = s.y := by unfold monthNumber; omega
  have hm₀ : monthNumber s.toDay 0 % 12 + 1 = s.m := by unfold monthNumber; omega
  have hbase : makeDay (utcYear s.y) s.m s.d = ((s.y : ℤ), s.m, s.d) := by
    have hlast : s.d ≤ lastDay (monthNumber s.toDay 0) := by
      rw [lastDay_eq hM₀, hy₀, hm₀]
      exact s.d_le
    rw [utcYear, if_neg (by omega), makeDay_eq (M := monthNumber s.toDay 0) (by omega) (by omega) hd,
      monthFirst_iterate (by omega), hy₀, hm₀]
    congr 2
    omega
  have hmoved : makeDay s.y (s.m + n) s.d = nextDay^[s.d - 1] (monthFirst (monthNumber s.toDay n)) :=
    makeDay_eq (by unfold monthNumber; omega) (by unfold monthNumber; omega) hd
  rw [addMonthsToDate, isDateText_iso, if_neg (by simp), if_neg (by omega), Day.parts_iso]
  dsimp only
  rw [hbase]
  dsimp only
  rw [hmoved, rolledText]
  generalize monthNumber s.toDay n = M at hu hM
  by_cases hle : s.d ≤ lastDay M
  · rw [if_pos hle, monthFirst_iterate (by omega), isoDate_take (by omega) (by omega) (by omega) (by omega)]
    congr 2
    omega
  · have := lastDay_ge M
    rw [if_neg hle, monthFirst_rollover (by omega) hd31,
      isoDate_take (by omega) (by omega) (by omega) (by omega)]

def termPeriods (s : StartDay) (n q : ℕ) : ℕ :=
  if s.d ≤ lastDay (monthNumber s.toDay (n * q)) then q else q + 1

variable {s : StartDay} {n q N : ℕ}

lemma startOf_term (hN : Horizon s n N) (hq : q ≤ N) (hd : s.d ≤ lastDay (monthNumber s.toDay (n * q))) :
    startOf s n q = rolledText s (n * q) := by
  have hs := s.y_ge
  have hM : 12000 ≤ monthNumber s.toDay (n * q) := by unfold monthNumber; omega
  rw [startOf_eq, rolledText, monthText_eq_isoText s.toDay hM (hN.mono hq).year, clampedDay, ← lastDay_eq hM,
    min_eq_left hd]
  exact (if_pos hd).symm

lemma rolledText_between (hN : Horizon s n N) (hq : q + 1 ≤ N)
    (hd : ¬ s.d ≤ lastDay (monthNumber s.toDay (n * q))) :
    startOf s n q < rolledText s (n * q) ∧ rolledText s (n * q) ≤ startOf s n (q + 1) := by
  have hs := s.y_ge
  have hd31 := s.d_le_31
  have hpos := hN.interval_pos
  have hyear := (hN.mono hq).year
  have hnext : monthNumber s.toDay (n * (q + 1)) = monthNumber s.toDay (n * q) + n := by
    unfold monthNumber
    rw [Nat.mul_succ n q]
    omega
  have hM : 12000 ≤ monthNumber s.toDay (n * q) := by unfold monthNumber; omega
  rw [startOf_eq, startOf_eq, hnext, rolledText]
  rw [hnext] at hyear
  generalize monthNumber s.toDay (n * q) = M at *
  have hge := lastDay_ge M
  have hge' : 28 ≤ daysInMonth (((M + n) / 12 : ℕ) : ℤ) ((M + n) % 12 + 1) := monthLength_ge _ _
  have hc := clampedDay_le s.toDay (M / 12) (M % 12 + 1)
  have hc' := clampedDay_le s.toDay ((M + n) / 12) ((M + n) % 12 + 1)
  have hc'' : 28 ≤ clampedDay s.d ((M + n) / 12) ((M + n) % 12 + 1) := le_min (by omega) hge'
  rw [if_neg hd, monthText_eq_isoText s.toDay hM (by omega), monthText_eq_isoText s.toDay (by omega) hyear, ← not_lt,
    isoText_lt_iff (by omega) (by omega) (by omega) (by omega) (by omega) (by omega),
    isoText_lt_iff (by omega) (by omega) (by omega) (by omega) (by omega) (by omega)]
  constructor
  · omega
  · omega

lemma ended_term_iff (hN : Horizon s n N) (hq : termPeriods s n q ≤ N) {k : ℕ} (hk : k ≤ termPeriods s n q) :
    rolledText s (n * q) ≤ startOf s n k ↔ termPeriods s n q ≤ k := by
  unfold termPeriods at *
  split at hq
  · rename_i hd
    rw [if_pos hd] at hk ⊢
    rw [← startOf_term hN hq hd, hN.startOf_le_iff hq (by omega)]
  · rename_i hd
    rw [if_neg hd] at hk ⊢
    obtain ⟨hlt, hle⟩ := rolledText_between hN hq hd
    constructor
    · intro h
      have := (hN.startOf_lt_iff (by omega) (by omega)).mp (hlt.trans_le h)
      omega
    · intro h
      exact hle.trans ((hN.startOf_le_iff hq (by omega)).mpr h)

lemma termEnd_eq (hne : group ≠ []) {t : ℕ} (hterm : ∀ l ∈ group, l.termMonths = some t) (startDate : Text) :
    termEnd group startDate = (addMonthsToDate startDate t).map some := by
  have hrep : group.filterMap QuoteLineForContract.termMonths = List.replicate group.length t := by
    clear hne
    induction group with
    | nil => rfl
    | cons l group ih =>
      rw [filterMap_cons_some (hterm l mem_cons_self), length_cons, replicate_succ,
        ih (fun x hx => hterm x (mem_cons_of_mem l hx))]
  rw [termEnd, hrep, replicate_dedup (mt List.length_eq_zero_iff.mp hne)]

lemma termEnd_ok (s : StartDay) (hterms : ∀ l ∈ group, ∀ t ∈ l.termMonths, 1 ≤ t) : ∃ e, termEnd group s.iso = .ok e := by
  unfold termEnd
  split
  · rename_i t ht
    have hmem : t ∈ group.filterMap QuoteLineForContract.termMonths := by
      rw [← mem_dedup, ht]
      exact List.mem_singleton.mpr rfl
    obtain ⟨l, hl, hlt⟩ := List.mem_filterMap.mp hmem
    have hpos := hterms l hl t hlt
    rw [addMonthsToDate, isDateText_iso, if_neg (by simp), if_neg (by omega)]
    exact ⟨_, rfl⟩
  · exact ⟨_, rfl⟩

section

variable (quote : QuoteForContract) (lines : List QuoteLineForContract) (s : StartDay) (createdBy : Option String)
  (hterms : ∀ l ∈ lines, ∀ t ∈ l.termMonths, 1 ≤ t)

include hterms

lemma cadenceSpec_ok (cadence : Cadence) :
    ∃ spec, cadenceSpec quote lines s.iso createdBy cadence = .ok spec := by
  have hgroup : ∀ l ∈ cadenceGroup lines cadence, ∀ t ∈ l.termMonths, 1 ≤ t :=
    fun l hl => hterms l (mem_of_mem_filter hl)
  obtain ⟨e, he⟩ := termEnd_ok s hgroup
  unfold cadenceSpec
  dsimp only
  split
  · exact ⟨_, rfl⟩
  · rw [he]
    exact ⟨_, rfl⟩

lemma mem_build {spec : NewContractSpec} (hc : cadence ∈ CADENCES)
    (hspec : cadenceSpec quote lines s.iso createdBy cadence = .ok (some spec)) :
    ∃ specs, buildContractSpecsFromQuote quote lines s.iso createdBy = .ok specs ∧ spec ∈ specs := by
  obtain ⟨monthly, hm⟩ := cadenceSpec_ok quote lines s createdBy hterms ⟨.monthly, 1, "Monthly"⟩
  obtain ⟨annual, ha⟩ := cadenceSpec_ok quote lines s createdBy hterms ⟨.annual, 12, "Annual"⟩
  refine ⟨[monthly, annual].reduceOption, ?_, ?_⟩
  · rw [buildContractSpecsFromQuote, CADENCES, mapM_cons, hm, mapM_cons, ha, mapM_nil]
    rfl
  · rw [reduceOption_mem_iff]
    rcases List.mem_cons.mp hc with rfl | hc
    · rw [hspec] at hm
      simp [Except.ok.inj hm]
    · rw [List.mem_singleton.mp hc, ha] at hspec
      simp [Except.ok.inj hspec]

end

variable {spec : NewContractSpec} {rows : List ContractLine} {runs : List BillingRun}

def quoteTerms (s : StartDay) (n q : ℕ) : Terms where
  start := s
  intervalMonths := n
  billingTiming := .advance
  endDate := some (rolledText s (n * q))

def billsTerm (s : StartDay) (n q : ℕ) (rows : List ContractLine) (r : BillingRun) : Bool :=
  payable (draftLedger (quoteTerms s n q) rows) r && decide (startOf s n (termPeriods s n q - 1) ≤ r.today)

lemma covers_runs (hN : Horizon s n N) (hq : termPeriods s n q ≤ N) {db : Ledger}
    {c : Cursor} (h : Refines (quoteTerms s n q) N db c) (hl : db.lines = rows) (hc : c.Covers (termPeriods s n q))
    (hr : ∀ r ∈ runs, r.today < startOf s n N) :
    ∃ c' : Cursor, Refines (quoteTerms s n q) N (run db (runs.map .generate)) c' ∧
      c'.Covers (termPeriods s n q) ∧
      min (termPeriods s n q) (c.claimed.length + (runs.filter (billsTerm s n q rows)).length) ≤
        c'.claimed.length := by
  induction runs generalizing db c with
  | nil => exact ⟨c, h, hc, min_le_right _ _⟩
  | cons r runs ih =>
    have hended : ∀ k ≤ termPeriods s n q, (quoteTerms s n q).ended k = true ↔ termPeriods s n q ≤ k := by
      intro k hk
      rw [Terms.ended, quoteTerms, isExpired, decide_eq_true_eq]
      exact ended_term_iff hN hq hk
    have hstep := h.bill hN (hr r mem_cons_self)
    obtain ⟨c', hc', hcov, hlen⟩ := ih hstep ((step_frame db (.generate r)).lines.trans hl) (hc.bill hended)
      (fun x hx => hr x (mem_cons_of_mem r hx))
    refine ⟨c', hc', hcov, ?_⟩
    have hmono := c.bill_length_le (quoteTerms s n q).ended ((quoteTerms s n q).due r.today) (payable db r)
    by_cases hb : billsTerm s n q rows r = true
    · have hpay : payable db r = true := by
        have hp := (Bool.and_eq_true_iff.mp hb).1
        rwa [payable, draftLedger, ← hl] at hp
      have hdue : ∀ k < termPeriods s n q, (quoteTerms s n q).due r.today k = true := by
        intro k hk
        have hlag : (quoteTerms s n q).lag = 0 := rfl
        refine decide_eq_true (le_trans ?_ (of_decide_eq_true (Bool.and_eq_true_iff.mp hb).2))
        exact (hN.startOf_le_iff (by omega) (by omega)).mpr (by omega)
      have hgrow := hc.bill_length hended hdue hpay
      rw [filter_cons_of_pos hb, length_cons]
      omega
    · rw [filter_cons_of_neg hb]
      omega

lemma cadenceSpec_term (quote : QuoteForContract) {lines : List QuoteLineForContract} (createdBy : Option String) (hgroup : cadenceGroup lines cadence ≠ []) {t : ℕ} (ht : 1 ≤ t)
    (hu : monthNumber s.toDay t + 1 < 120000) (hterm : ∀ l ∈ cadenceGroup lines cadence, l.termMonths = some t) :
    ∃ spec, cadenceSpec quote lines s.iso createdBy cadence = .ok (some spec) ∧ spec.startDate = s.iso ∧
      spec.intervalMonths = cadence.intervalMonths ∧ spec.billingTiming = .advance ∧
      spec.endDate = some (rolledText s t) ∧ spec.lines.length = (cadenceGroup lines cadence).length := by
  unfold cadenceSpec
  dsimp only
  rw [if_neg hgroup, termEnd_eq hgroup hterm, addMonthsToDate_iso s ht hu]
  exact ⟨_, rfl, rfl, rfl, rfl, rfl, length_mapIdx⟩

def billedFromStart (spec : NewContractSpec) (rows : List ContractLine) (runs : List BillingRun) : Ledger :=
  run (createContractWithLines spec rows) (.activate spec.startDate :: runs.map .generate)

lemma billedFromStart_covers (hN : Horizon s n N) (hqN : termPeriods s n q ≤ N) (hq : 0 < q)
    (hstart : spec.startDate = s.iso) (hint : spec.intervalMonths = n)
    (htiming : spec.billingTiming = .advance) (hend : spec.endDate = some (rolledText s (n * q)))
    (hrows : rows ≠ [])
    (hr : ∀ r ∈ runs, r.today < startOf s n N) :
    ∃ c : Cursor, Refines (quoteTerms s n q) N (billedFromStart spec rows runs) c ∧
      c.Covers (termPeriods s n q) ∧
      min (termPeriods s n q) (runs.filter (billsTerm s n q rows)).length ≤ c.claimed.length := by
  have hpos : 0 < termPeriods s n q := by
    unfold termPeriods
    split <;> omega
  have hdraft : Refines (quoteTerms s n q) N (createContractWithLines spec rows) draftCursor :=
    ⟨⟨hstart, hint, htiming, hend⟩, rfl, rfl, rfl, by simp [draftCursor], by simp [draftCursor]⟩
  have hzero : startOf s n 0 = s.iso := startOf_zero s n
  have hlt : s.iso < startOf s n N := hzero ▸ (hN.startOf_lt_iff (by omega) le_rfl).mpr (by omega)
  have hidx : (quoteTerms s n q).indexAt s.iso = 0 := by
    have := hN.index_start (j := 0) (by omega)
    rwa [hzero] at this
  have hact := activate_refines hN (by omega) hdraft (Or.inl rfl) hrows hlt
  rw [hidx] at hact
  have hcov : (draftCursor.start 0).Covers (termPeriods s n q) := ⟨draft_start_consecutive 0, Or.inl ⟨rfl, hpos⟩⟩
  obtain ⟨c, hc, hcc, hlen⟩ := covers_runs hN hqN hact ((step_frame _ _).lines.trans (rfl : _ = rows)) hcov hr
  refine ⟨c, ?_, hcc, ?_⟩
  · rw [billedFromStart, run_cons, hstart]
    exact hc
  · exact le_of_eq_of_le (by simp [draftCursor, Cursor.start]) hlen

theorem accepted_term_periods (s : StartDay) (quote : QuoteForContract) (lines : List QuoteLineForContract)
    (createdBy : Option String) (cadence : Cadence) (hcad : cadence ∈ CADENCES) (q : ℕ) (hq : 0 < q)
    (hgroup : cadenceGroup lines cadence ≠ [])
    (hterm : ∀ l ∈ cadenceGroup lines cadence, l.termMonths = some (cadence.intervalMonths * q))
    (hterms : ∀ l ∈ lines, ∀ t ∈ l.termMonths, 1 ≤ t) (N : ℕ) (hN : Horizon s cadence.intervalMonths N)
    (hqN : q < N) :
    ∃ specs spec endDate, buildContractSpecsFromQuote quote lines s.iso createdBy = .ok specs ∧ spec ∈ specs ∧
      spec.intervalMonths = cadence.intervalMonths ∧ spec.endDate = some endDate ∧
      (s.d ≤ lastDay (monthNumber s.toDay (cadence.intervalMonths * q)) →
        termPeriods s cadence.intervalMonths q = q ∧
        (computePeriod s.iso cadence.intervalMonths (q - 1)).periodEnd = endDate) ∧
      (¬ s.d ≤ lastDay (monthNumber s.toDay (cadence.intervalMonths * q)) →
        termPeriods s cadence.intervalMonths q = q + 1) ∧
      ∀ rows : List ContractLine, rows.length = spec.lines.length → ∀ runs : List BillingRun,
        (∀ r ∈ runs, r.today < startOf s cadence.intervalMonths N) →
        ∃ m ≤ termPeriods s cadence.intervalMonths q,
          (billedFromStart spec rows runs).periods =
            (List.range m).map (computePeriod s.iso cadence.intervalMonths) ∧
          ((billedFromStart spec rows runs).contract.status = .expired ↔
            m = termPeriods s cadence.intervalMonths q) ∧
          (termPeriods s cadence.intervalMonths q ≤
            (runs.filter (billsTerm s cadence.intervalMonths q rows)).length →
              m = termPeriods s cadence.intervalMonths q) := by
  generalize hn : cadence.intervalMonths = n at *
  have hnpos := hN.interval_pos
  have hyear : monthNumber s.toDay (n * q) + 1 < 120000 := by
    have hmul : n * q + n ≤ n * N := by
      rw [← Nat.mul_succ]
      exact Nat.mul_le_mul_left n hqN
    have := hN.year
    unfold monthNumber at *
    omega
  have hle : termPeriods s n q ≤ N := by
    unfold termPeriods
    split <;> omega
  obtain ⟨spec, hspec, hstart, hint, htiming, hend, hlen⟩ := cadenceSpec_term (s := s) quote createdBy hgroup
    (Nat.mul_pos hnpos hq) hyear hterm
  obtain ⟨specs, hbuild, hmem⟩ := mem_build quote lines s createdBy hterms hcad hspec
  refine ⟨specs, spec, _, hbuild, hmem, hint.trans hn, hend, ?_, fun hd => if_neg hd, ?_⟩
  · intro hd
    refine ⟨if_pos hd, ?_⟩
    rw [periodEnd_eq, Nat.sub_add_cancel hq]
    exact startOf_term hN hqN.le hd
  · intro rows hrows runs hr
    have hrows' : rows ≠ [] := by
      rintro rfl
      exact hgroup (List.length_eq_zero_iff.mp (hlen.symm.trans hrows.symm))
    obtain ⟨c, hc, hcov, hcount⟩ := billedFromStart_covers hN hle hq hstart (hint.trans hn) htiming hend hrows' hr
    refine ⟨c.claimed.length, ?_, ?_, ?_, ?_⟩
    · rcases hcov.phase with ⟨_, hlt⟩ | ⟨_, heq⟩
      · exact hlt.le
      · exact heq.le
    · rw [hc.periods, range_eq_range', ← hcov.consecutive.claimed]
      rfl
    · rw [hc.status]
      rcases hcov.phase with ⟨hs, hlt⟩ | ⟨hs, heq⟩
      · exact ⟨fun hh => by simp [hs] at hh, fun hh => absurd hh hlt.ne⟩
      · exact ⟨fun _ => heq, fun _ => hs⟩
    · intro henough
      rw [min_eq_left henough] at hcount
      rcases hcov.phase with ⟨_, hlt⟩ | ⟨_, heq⟩
      · omega
      · exact heq

def quote : QuoteForContract := ⟨"org", "partner", "Q-1", "USD", none⟩

def monthlyLine (termMonths : ℕ) : QuoteLineForContract where
  sourceQuoteLineId := "line"
  recurrence := .monthly
  customerVisible := true
  name := some "Managed services"
  description := none
  unitPrice := "100.00"
  quantity := "1"
  taxable := true
  termMonths := some termMonths
  contractLineType := none
  deviceRoles := none
  deviceGroupId := none
  siteId := none
  siteName := none
  includedQuantity := none
  overageMode := none
  overageUnitPrice := none

def endOfJanuary : StartDay := .of 2026 1 31 (by decide)

theorem accepted_term_periods_january : ∃ specs spec,
    buildContractSpecsFromQuote quote [monthlyLine 2] endOfJanuary.iso none = .ok specs ∧ spec ∈ specs ∧
      ∃ m ≤ 2, (billedFromStart spec [flatLine] [{ today := "2026-01-31".toList }]).periods =
        (List.range m).map (computePeriod endOfJanuary.iso 1) := by
  have hgroup : cadenceGroup [monthlyLine 2] ⟨.monthly, 1, "Monthly"⟩ = [monthlyLine 2] := rfl
  obtain ⟨specs, spec, endDate, hb, hm, _, _, _, _, hruns⟩ := accepted_term_periods endOfJanuary quote
    [monthlyLine 2] none ⟨.monthly, 1, "Monthly"⟩ mem_cons_self 2 (by decide) (by simp [hgroup])
    (by rw [hgroup, forall_mem_singleton]; rfl) (by simp [monthlyLine]) 12 ⟨by decide, by decide, by decide⟩ (by decide)
  have hspecs : specs.map (fun x => x.lines.length) = [1] := by
    have hl : (buildContractSpecsFromQuote quote [monthlyLine 2] endOfJanuary.iso none).toOption.map
        (List.map fun x => x.lines.length) = some [1] := by decide +kernel
    rw [hb] at hl
    exact Option.some.inj hl
  have hlen : spec.lines.length = 1 := by
    have := mem_map_of_mem (f := fun x => x.lines.length) hm
    rw [hspecs] at this
    exact List.mem_singleton.mp this
  obtain ⟨m, hm', hp, _⟩ := hruns [flatLine] hlen.symm [{ today := "2026-01-31".toList }]
    (by rw [forall_mem_singleton]; decide +kernel)
  exact ⟨specs, spec, hb, hm, m, hm', hp⟩

/-- A term of one month from the end of January is billed for two months. -/
theorem accepted_term_extra_period :
    (buildContractSpecsFromQuote quote [monthlyLine 1] endOfJanuary.iso none).toOption.map
      (List.map fun spec =>
        let db := billedFromStart spec [flatLine]
          [{ today := "2026-01-31".toList }, { today := "2026-02-28".toList }]
        (spec.endDate, db.periods.length, db.contract.status)) =
      some [(some "2026-03-03".toList, 2, .expired)] := by
  decide +kernel

end Breeze.Contracts.QuoteTerm
