import Breeze.Contracts.BillingCursor
import Breeze.Contracts.PeriodGrid

/-! The contract rows refine the billing cursor as long as the dates stay within the horizon. -/

namespace Breeze.Contracts.CursorRefinement

open Breeze.Lib.Decimal ContractMath ContractService CalendarDay PeriodGrid BillingCursor

structure Terms where
  start : StartDay
  intervalMonths : ℕ
  billingTiming : BillingTiming
  endDate : Option Text

namespace Terms

variable (T : Terms)

def startOf (k : ℕ) : Text := PeriodGrid.startOf T.start T.intervalMonths k

def period (k : ℕ) : Period := computePeriod T.start.iso T.intervalMonths k

def indexAt (asOf : Text) : ℕ := periodIndexFor T.start.iso T.intervalMonths asOf

def lag : ℕ := match T.billingTiming with
  | .advance => 0
  | .arrears => 1

def billingDate (k : ℕ) : Text := T.startOf (k + T.lag)

def ended (k : ℕ) : Bool := isExpired T.endDate (T.startOf k)

def due (today : Text) (k : ℕ) : Bool := decide (T.billingDate k ≤ today)

abbrev Horizon (N : ℕ) : Prop := PeriodGrid.Horizon T.start T.intervalMonths N

lemma period_start (k : ℕ) : (T.period k).periodStart = T.startOf k := rfl

lemma nextBillingDate_eq (k : ℕ) :
    nextBillingDate T.start.iso T.intervalMonths T.billingTiming k = T.billingDate k := by
  unfold billingDate lag nextBillingDate
  cases T.billingTiming with
  | advance => rfl
  | arrears => exact periodEnd_eq _ _ _

end Terms

structure Matches (T : Terms) (c : Contract) : Prop where
  startDate : c.startDate = T.start.iso
  intervalMonths : c.intervalMonths = T.intervalMonths
  billingTiming : c.billingTiming = T.billingTiming
  endDate : c.endDate = T.endDate

structure Refines (T : Terms) (N : ℕ) (db : Ledger) (c : Cursor) : Prop where
  terms : Matches T db.contract
  status : db.contract.status = c.status
  next : db.contract.nextBillingAt = c.next.map T.billingDate
  periods : db.periods = c.claimed.map T.period
  next_le : ∀ k ∈ c.next, k + T.lag ≤ N
  claimed_le : ∀ k ∈ c.claimed, k + T.lag ≤ N

def payable (db : Ledger) (run : BillingRun) : Bool :=
  !db.lines.isEmpty && (lineProblem db.lines run.hasGroup).isNone && run.draft.toBool &&
    run.afterClaim.toBool

variable {T : Terms} {N : ℕ} {db : Ledger} {c : Cursor}

variable {k : ℕ}

section

variable (h : Refines T N db c)

include h

lemma Refines.dueIndex_eq (hN : T.Horizon N) (hk : k + T.lag < N) :
    dueIndex db.contract (T.billingDate k) = k := by
  have hi : periodIndexFor T.start.iso T.intervalMonths (T.billingDate k) = k + T.lag :=
    Horizon.index_start hN hk
  unfold dueIndex
  rw [h.terms.startDate, h.terms.intervalMonths, h.terms.billingTiming, hi]
  unfold Terms.lag
  cases T.billingTiming <;> rfl

lemma Refines.start (hN : T.Horizon N) {asOf : Text}
    (ha : asOf < T.startOf N) (hpos : 0 < N) :
    Refines T N { db with contract := { db.contract with
      status := .active, nextBillingAt := some (nextBillingDate db.contract.startDate
        db.contract.intervalMonths db.contract.billingTiming
        (periodIndexFor db.contract.startDate db.contract.intervalMonths asOf)) } }
      (c.start (T.indexAt asOf)) where
  terms := ⟨h.terms.startDate, h.terms.intervalMonths, h.terms.billingTiming, h.terms.endDate⟩
  status := rfl
  next := by
    change some _ = some _
    rw [h.terms.startDate, h.terms.intervalMonths, h.terms.billingTiming, T.nextBillingDate_eq]
    rfl
  periods := h.periods
  next_le := by
    intro k hk
    obtain rfl : T.indexAt asOf = k := Option.some.inj hk
    have hi : T.indexAt asOf < N := (Horizon.index_spec hN ha hpos).1
    have hl : T.lag ≤ 1 := by unfold Terms.lag; split <;> omega
    omega
  claimed_le := h.claimed_le

lemma Refines.stop :
    Refines T N { db with contract := { db.contract with
      status := .paused, nextBillingAt := none } } c.stop where
  terms := ⟨h.terms.startDate, h.terms.intervalMonths, h.terms.billingTiming, h.terms.endDate⟩
  status := rfl
  next := rfl
  periods := h.periods
  next_le := by simp [Cursor.stop]
  claimed_le := h.claimed_le

lemma Refines.expire : Refines T N (expire db) c.finish where
  terms := ⟨h.terms.startDate, h.terms.intervalMonths, h.terms.billingTiming, h.terms.endDate⟩
  status := rfl
  next := rfl
  periods := h.periods
  next_le := by simp [Cursor.finish]
  claimed_le := h.claimed_le

lemma Refines.claimPeriod_eq (hN : T.Horizon N) (hk : k + T.lag ≤ N) :
    claimPeriod db.periods (T.period k) =
      if k ∈ c.claimed then none else some ((c.claimed ++ [k]).map T.period) := by
  have hmem : (T.period k).periodStart ∈ db.periods.map Period.periodStart ↔ k ∈ c.claimed := by
    rw [h.periods, List.map_map, List.mem_map]
    constructor
    · rintro ⟨j, hj, he⟩
      have hjN := h.claimed_le j hj
      rwa [← Horizon.startOf_injective hN (by omega) (by omega) he]
    · exact fun hj => ⟨k, hj, rfl⟩
  unfold claimPeriod
  by_cases hc : k ∈ c.claimed
  · rw [if_pos (hmem.mpr hc), if_pos hc]
  · rw [if_neg (fun hm => hc (hmem.mp hm)), if_neg hc, h.periods, List.map_append]
    rfl

lemma Refines.advance (hk : k + 1 + T.lag ≤ N) :
    Refines T N (advancePointer { db with periods := (c.claimed ++ [k]).map T.period } k)
      (c.claim T.ended k) := by
  have hcl : ∀ j ∈ c.claimed ++ [k], j + T.lag ≤ N := by
    intro j hj
    rcases List.mem_append.mp hj with hj | hj
    · exact h.claimed_le j hj
    · rw [List.mem_singleton.mp hj]
      omega
  have hterms := h.terms
  have hended : isExpired db.contract.endDate
      (computePeriod db.contract.startDate db.contract.intervalMonths (k + 1)).periodStart =
      T.ended (k + 1) := by
    rw [hterms.endDate, hterms.startDate, hterms.intervalMonths]
    rfl
  unfold advancePointer Cursor.claim
  dsimp only
  rw [hended]
  by_cases he : T.ended (k + 1) = true
  · rw [if_pos he, if_pos he]
    exact ⟨⟨hterms.startDate, hterms.intervalMonths, hterms.billingTiming, hterms.endDate⟩, rfl, rfl, rfl,
      by simp, hcl⟩
  · rw [if_neg he, if_neg he]
    refine ⟨⟨hterms.startDate, hterms.intervalMonths, hterms.billingTiming, hterms.endDate⟩,
      h.status, ?_, rfl, ?_, hcl⟩
    · change some _ = some _
      rw [hterms.startDate, hterms.intervalMonths, hterms.billingTiming]
      unfold Terms.billingDate Terms.lag
      cases T.billingTiming with
      | advance => rfl
      | arrears => exact congrArg some (periodEnd_eq _ _ _)
    · intro j hj
      obtain rfl : k + 1 = j := Option.some.inj hj
      exact hk

lemma Refines.ended_eq (k : ℕ) :
    isExpired db.contract.endDate
      (computePeriod db.contract.startDate db.contract.intervalMonths k).periodStart = T.ended k := by
  rw [h.terms.endDate, h.terms.startDate, h.terms.intervalMonths]
  rfl

lemma Refines.period_eq (k : ℕ) :
    computePeriod db.contract.startDate db.contract.intervalMonths k = T.period k := by
  rw [h.terms.startDate, h.terms.intervalMonths]
  rfl

end

variable {run : BillingRun}

section

variable (h : Refines T N db c)

include h

lemma Refines.billPeriod_payable (hN : T.Horizon N) (hk : k + T.lag ≤ N) (hp : payable db run = true) (he : T.ended k = false) :
    ∃ invoiceId, billPeriod db run k = .ok (if k ∈ c.claimed then (skip .alreadyBilled, db) else
      ({ generated := true, invoiceId := some invoiceId, autoIssue := db.contract.autoIssue },
        advancePointer { db with periods := (c.claimed ++ [k]).map T.period } k)) := by
  simp only [payable, Bool.and_eq_true, Bool.not_eq_true', Option.isNone_iff_eq_none] at hp
  obtain ⟨⟨⟨hl, hline⟩, hd⟩, ha⟩ := hp
  have hl' : db.lines ≠ [] := by
    intro hnil
    simp [hnil] at hl
  cases hdraft : run.draft with
  | error e => simp [hdraft, Except.toBool] at hd
  | ok invoiceId =>
    cases hafter : run.afterClaim with
    | error e => simp [hafter, Except.toBool] at ha
    | ok u =>
      refine ⟨invoiceId, ?_⟩
      unfold billPeriod
      dsimp only
      rw [h.ended_eq, he, if_neg (by simp), if_neg hl', hline, hdraft, h.period_eq, h.claimPeriod_eq hN hk,
        hafter]
      by_cases hc : k ∈ c.claimed
      · simp only [if_pos hc]
        rfl
      · simp only [if_neg hc]
        rfl

lemma Refines.billPeriod_unpayable
    (hp : ¬ payable db run = true) (he : T.ended k = false) : commit db ((billPeriod db run k).map Prod.snd) = db := by
  unfold billPeriod
  dsimp only
  rw [h.ended_eq, he, if_neg (by simp)]
  by_cases hl : db.lines = []
  · rw [if_pos hl]
    rfl
  · rw [if_neg hl]
    cases hline : lineProblem db.lines run.hasGroup with
    | some e => rfl
    | none =>
      cases hdraft : run.draft with
      | error e => rfl
      | ok invoiceId =>
        cases hafter : run.afterClaim with
        | error e =>
          dsimp only
          cases claimPeriod db.periods
            (computePeriod db.contract.startDate db.contract.intervalMonths k) <;> rfl
        | ok u =>
          refine absurd ?_ hp
          simp [payable, hline, hdraft, hafter, hl, Except.toBool]

lemma Refines.billPeriod_ended (he : T.ended k = true) :
    billPeriod db run k = .ok (skip .expired, ContractService.expire db) := by
  unfold billPeriod
  dsimp only
  rw [h.ended_eq, he, if_pos rfl]

lemma Refines.lag_lt (hN : T.Horizon N) {today : Text} (ha : today < T.startOf N)
    (hk : c.next = some k) (hd : T.due today k = true) : k + T.lag < N :=
  (Horizon.startOf_lt_iff hN (h.next_le k hk) le_rfl).mp ((of_decide_eq_true hd).trans_lt ha)

lemma Refines.generate_due (hN : T.Horizon N)
    (ha : run.today < T.startOf N) (hs : c.status = .active) (hk : c.next = some k)
    (hd : T.due run.today k = true) : generateDueInvoice db run = billPeriod db run k := by
  have hnext : db.contract.nextBillingAt = some (T.billingDate k) := by rw [h.next, hk]; rfl
  unfold generateDueInvoice
  rw [h.status, hs, hnext]
  dsimp only
  rw [if_neg (not_lt.mpr (of_decide_eq_true hd)), h.dueIndex_eq hN (h.lag_lt hN ha hk hd)]

lemma Refines.generate_idle
    (hd : ∀ k, c.status = .active → c.next = some k → T.due run.today k = false) :
    generateDueInvoice db run = .ok (skip .notDue, db) := by
  unfold generateDueInvoice
  rw [h.status, h.next]
  cases hs : c.status <;> cases hk : c.next <;> try rfl
  case active.some k =>
    have hlt := of_decide_eq_false (hd k hs hk)
    exact if_pos (not_le.mp hlt)

lemma Refines.bill (hN : T.Horizon N) (ha : run.today < T.startOf N) :
    Refines T N (step db (.generate run)) (c.bill T.ended (T.due run.today) (payable db run)) := by
  by_cases hidle : ∀ k, c.status = .active → c.next = some k → T.due run.today k = false
  · have hb : c.bill T.ended (T.due run.today) (payable db run) = c := by
      rcases c.bill_cases T.ended (T.due run.today) (payable db run) with
        hb | ⟨k, hs, hk, hd, _⟩ | ⟨k, hs, hk, hd, _⟩
      · exact hb
      · simp [hidle k hs hk] at hd
      · simp [hidle k hs hk] at hd
    rw [hb, step, h.generate_idle hidle]
    exact h
  · push Not at hidle
    obtain ⟨k, hs, hk, hd⟩ := hidle
    replace hd := Bool.eq_true_of_not_eq_false hd
    have hkN := h.lag_lt hN ha hk hd
    rw [step, h.generate_due hN ha hs hk hd]
    unfold Cursor.bill
    rw [hs, hk]
    dsimp only
    rw [if_pos hd]
    by_cases he : T.ended k = true
    · rw [h.billPeriod_ended he, if_pos he]
      exact h.expire
    · rw [if_neg he]
      by_cases hp : payable db run = true
      · obtain ⟨invoiceId, hb⟩ := h.billPeriod_payable hN hkN.le hp (by simpa using he)
        rw [hb]
        by_cases hc : k ∈ c.claimed
        · rw [if_pos hc, if_neg (by simp [hc])]
          exact h
        · rw [if_neg hc, if_pos ⟨hp, hc⟩]
          exact h.advance (by omega)
      · rw [h.billPeriod_unpayable hp (by simpa using he), if_neg (by simp [hp])]
        exact h

end

end Breeze.Contracts.CursorRefinement
