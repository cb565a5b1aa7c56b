import Breeze.Contracts.Renewal

/-! When the daily job keeps an auto-renewing contract active. The renewal pass moves the end date
past the period that is due; the billing pass then asks about the period after it. -/

namespace Breeze.Contracts.RenewalExpiry

open Breeze.Lib.Decimal ContractMath ContractService CalendarDay PeriodGrid BillingCursor
open CursorRefinement PeriodBilling Renewal

structure Renewing (T : Terms) (N termMonths : ℕ) (lines : List ContractLine) (db : Ledger) (c : Cursor) :
    Prop where
  refines : Refines T N db c
  autoRenew : db.contract.autoRenew = true
  term : db.contract.renewalTermMonths = some termMonths
  eligible : db.orgEligible = true
  lines : db.lines = lines

def movedTerms (T : Terms) (endDate : Text) : Terms := { T with endDate := some endDate }

def movedLedger (db : Ledger) (endDate : Text) (notices : List (Text × NoticeKind)) : Ledger :=
  { db with contract := { db.contract with endDate := some endDate }, notices := notices }

def renewedEnd (T : Terms) (endDate : Text) (termMonths k : ℕ) : Text :=
  (extendTermPastDue endDate (duePeriodStartFor T.billingTiming (T.billingDate k) T.intervalMonths) termMonths).1

variable {T : Terms} {N termMonths k : ℕ} {endDate : Text} {lines : List ContractLine} {db : Ledger}
  {c : Cursor}

lemma Renewing.move (h : Renewing T N termMonths lines db c) (newEnd : Text) (notices : List (Text × NoticeKind)) :
    Renewing (movedTerms T newEnd) N termMonths lines (movedLedger db newEnd notices) c where
  refines := ⟨⟨h.refines.terms.startDate, h.refines.terms.intervalMonths, h.refines.terms.billingTiming, rfl⟩,
    h.refines.status, h.refines.next, h.refines.periods, h.refines.next_le, h.refines.claimed_le⟩
  autoRenew := h.autoRenew
  term := h.term
  eligible := h.eligible
  lines := h.lines

lemma extendTerm_eq (termMonths : ℕ) (db : Ledger) (today : Text) {nextBillingAt : Text} (hend : db.contract.endDate = some endDate)
    (hnext : db.contract.nextBillingAt = some nextBillingAt) :
    ∃ notices, (extendTerm today endDate termMonths db).getD db = movedLedger db
      (if nextBillingAt ≤ today then (extendTermPastDue endDate (duePeriodStartFor db.contract.billingTiming
        nextBillingAt db.contract.intervalMonths) termMonths).1 else endDate) notices := by
  have hself : movedLedger db endDate db.notices = db := by rw [movedLedger, ← hend]
  unfold extendTerm
  split
  · rename_i hn
    simp [hnext] at hn
  · rename_i p hn
    obtain rfl : p = nextBillingAt := Option.some.inj (hn.symm.trans hnext)
    by_cases hdue : p ≤ today
    · rw [if_pos hdue, if_pos hdue]
      dsimp only
      split
      · exact ⟨_, rfl⟩
      · rename_i hr
        refine ⟨db.notices, ?_⟩
        rw [show (extendTermPastDue _ _ _).1 = endDate from
          extendTermLoop_not_renewed (Bool.eq_false_iff.mpr hr), hself]
        rfl
    · rw [if_neg hdue, if_neg hdue]
      exact ⟨db.notices, hself.symm⟩

lemma Renewing.renewal_eq (h : Renewing T N termMonths lines db c) (hend : T.endDate = some endDate)
    (hs : c.status = .active) (hk : c.next = some k) (today : Text) :
    ∃ notices, (runContractRenewalSweep today db).ledger = movedLedger db
      (if T.billingDate k ≤ today then renewedEnd T endDate termMonths k else endDate) notices := by
  have hend' : db.contract.endDate = some endDate := h.refines.terms.endDate.trans hend
  have hnext : db.contract.nextBillingAt = some (T.billingDate k) := by rw [h.refines.next, hk]; rfl
  rw [runContractRenewalSweep, if_pos ⟨h.refines.status.trans hs, h.autoRenew, h.eligible⟩, hend', h.term]
  dsimp only
  generalize (advanceNotice today endDate db).getD db.notices = notices
  obtain ⟨notices', he⟩ := extendTerm_eq termMonths { db with notices := notices } today hend' hnext
  refine ⟨notices', he.trans ?_⟩
  rw [renewedEnd, ← h.refines.terms.billingTiming, ← h.refines.terms.intervalMonths]
  rfl

lemma Renewing.sweep (h : Renewing T N termMonths lines db c) (hN : T.Horizon N) (hend : T.endDate = some endDate)
    (hs : c.status = .active) (hk : c.next = some k) {r : BillingRun} (ha : r.today < T.startOf N) {newEnd : Text}
    (hnew : (if T.billingDate k ≤ r.today then renewedEnd T endDate termMonths k else endDate) = newEnd) :
    Renewing (movedTerms T newEnd) N termMonths lines (billingSweep db r)
      (c.bill (movedTerms T newEnd).ended (T.due r.today) (payable db r)) := by
  obtain ⟨notices, hr⟩ := h.renewal_eq hend hs hk r.today
  rw [hnew] at hr
  have hm := h.move newEnd notices
  have hframe := step_frame (runContractRenewalSweep r.today db).ledger (.generate r)
  rw [billingSweep]
  rw [hr] at hframe ⊢
  rw [billing_eq_step hm.eligible]
  exact ⟨hm.refines.bill hN ha, hframe.autoRenew.trans hm.autoRenew,
    hframe.renewalTermMonths.trans hm.term, hframe.orgEligible.trans hm.eligible, hframe.lines.trans hm.lines⟩

lemma duePeriodStart_le (hN : T.Horizon N) (hk : k + T.lag ≤ N) :
    duePeriodStartFor T.billingTiming (T.billingDate k) T.intervalMonths ≤ T.startOf k := by
  unfold Terms.billingDate Terms.lag at *
  cases ht : T.billingTiming with
  | advance => exact le_rfl
  | arrears =>
    rw [ht] at hk
    have hy := (hN.mono hk).year
    have hs := T.start.y_ge
    have hmul : T.intervalMonths * (k + 1) = T.intervalMonths * k + T.intervalMonths := Nat.mul_succ _ _
    have hM : monthNumber T.start.toDay (T.intervalMonths * (k + 1)) - T.intervalMonths =
        monthNumber T.start.toDay (T.intervalMonths * k) := by
      unfold monthNumber
      omega
    have hle := addMonthsClamped_sub_le T.start.toDay (j := T.intervalMonths)
      (M := monthNumber T.start.toDay (T.intervalMonths * (k + 1))) (by unfold monthNumber; omega) hy
    rw [hM] at hle
    rwa [Terms.startOf, Terms.startOf, startOf_eq, startOf_eq]

def pointerAfter (T : Terms) (db : Ledger) (claimed : List ℕ) : List BillingRun → ℕ → ℕ
  | [], k => k
  | r :: runs, k =>
    pointerAfter T db claimed runs
      (if T.due r.today k = true ∧ payable db r = true ∧ k ∉ claimed then k + 1 else k)

lemma le_pointerAfter (T : Terms) (db : Ledger) (claimed : List ℕ) (runs : List BillingRun) (k : ℕ) :
    k ≤ pointerAfter T db claimed runs k := by
  induction runs generalizing k with
  | nil => exact le_rfl
  | cons r runs ih =>
    rw [pointerAfter]
    split
    · exact (Nat.le_succ k).trans (ih _)
    · exact ih k

variable {runs : List BillingRun} {db' : Ledger}

lemma pointerAfter_le (hN : T.Horizon N) (db : Ledger) (claimed : List ℕ)
    (hr : ∀ r ∈ runs, r.today < T.startOf N) (hk : k + T.lag ≤ N) : pointerAfter T db claimed runs k + T.lag ≤ N := by
  induction runs generalizing k with
  | nil => exact hk
  | cons r runs ih =>
    have hrest : ∀ q ∈ runs, q.today < T.startOf N := fun q hq => hr q (List.mem_cons_of_mem r hq)
    rw [pointerAfter]
    split
    · rename_i hd
      have hlt : k + T.lag < N := (Horizon.startOf_lt_iff hN hk le_rfl).mp
        ((of_decide_eq_true hd.1).trans_lt (hr r List.mem_cons_self))
      exact ih hrest (by omega)
    · exact ih hrest hk

lemma pointerAfter_claimed (T : Terms) (db : Ledger) (claimed : List ℕ) {j : ℕ} (runs : List BillingRun)
    (hk : j < k) : pointerAfter T db (claimed ++ [j]) runs k = pointerAfter T db claimed runs k := by
  induction runs generalizing k with
  | nil => rfl
  | cons r runs ih =>
    have hmem : k ∉ claimed ++ [j] ↔ k ∉ claimed := by
      rw [List.mem_append, List.mem_singleton, not_or]
      exact and_iff_left hk.ne'
    simp only [pointerAfter, hmem]
    split
    · exact ih (by omega)
    · exact ih hk

lemma pointerAfter_congr (T : Terms) {db : Ledger} (h : db.lines = db'.lines) (claimed : List ℕ)
    (runs : List BillingRun) (k : ℕ) : pointerAfter T db claimed runs k = pointerAfter T db' claimed runs k := by
  induction runs generalizing k with
  | nil => rfl
  | cons r runs ih => rw [pointerAfter, pointerAfter, ih, payable, payable, h]

lemma movedTerms_self (h : T.endDate = some endDate) : movedTerms T endDate = T := by
  rw [movedTerms, ← h]

lemma ended_iff (h : T.endDate = some endDate) (k : ℕ) : T.ended k = true ↔ endDate ≤ T.startOf k := by
  rw [Terms.ended, h, isExpired, decide_eq_true_eq]

lemma startOf_pointerAfter_ge (hN : T.Horizon N) (db : Ledger) (claimed : List ℕ)
    (hr : ∀ r ∈ runs, r.today < T.startOf N) (hk : k + T.lag ≤ N) :
    T.startOf k ≤ T.startOf (pointerAfter T db claimed runs k) := by
  have hle := pointerAfter_le hN db claimed hr hk
  exact (Horizon.startOf_le_iff hN (by omega) (by omega)).mpr (le_pointerAfter T db claimed runs k)

lemma Renewing.after_claim (h : Renewing T N termMonths lines db (c.claim T.ended k)) (hs : c.status = .active)
    (hend : T.endDate = some endDate) :
    (endDate ≤ T.startOf (k + 1) ∧ db.contract.status ≠ .active) ∨
      (T.startOf (k + 1) < endDate ∧ c.claim T.ended k = ⟨c.claimed ++ [k], some (k + 1), .active⟩) := by
  by_cases he : T.ended (k + 1) = true
  · refine Or.inl ⟨(ended_iff hend _).mp he, ?_⟩
    rw [h.refines.status, Cursor.claim, if_pos he]
    exact ContractStatus.noConfusion
  · refine Or.inr ⟨not_le.mp fun hle => he ((ended_iff hend _).mpr hle), ?_⟩
    rw [Cursor.claim, if_neg he, hs]

lemma pointerAfter_moved (T : Terms) (db : Ledger) (claimed : List ℕ) (newEnd : Text) (runs : List BillingRun)
    (k : ℕ) : pointerAfter (movedTerms T newEnd) db claimed runs k = pointerAfter T db claimed runs k := by
  induction runs generalizing k with
  | nil => rfl
  | cons r runs ih => exact ih _

section Active

variable (h : Renewing T N termMonths lines db c) (hN : T.Horizon N) (hs : c.status = .active) (hk : c.next = some k)

include h hN hs hk

lemma Renewing.sweep_iff {newEnd : Text} {r : BillingRun} (hr : ∀ q ∈ r :: runs, q.today < T.startOf N)
    (hsw : Renewing (movedTerms T newEnd) N termMonths lines (billingSweep db r)
      (c.bill (movedTerms T newEnd).ended (T.due r.today) (payable db r)))
    (hdue : newEnd ≤ T.startOf k → T.billingDate k ≤ r.today)
    (hruns : ∀ {c' k'}, Renewing (movedTerms T newEnd) N termMonths lines (billingSweep db r) c' → c'.status = .active →
      c'.next = some k' → T.startOf k' < newEnd → ((dailyRuns (billingSweep db r) runs).contract.status = .active ↔
        T.startOf (pointerAfter T (billingSweep db r) c'.claimed runs k') < newEnd)) :
    (dailyRuns db (r :: runs)).contract.status = .active ↔ T.startOf (pointerAfter T db c.claimed (r :: runs) k) < newEnd := by
  have hrest : ∀ q ∈ runs, q.today < T.startOf N := fun q hq => hr q (List.mem_cons_of_mem r hq)
  have hend : (movedTerms T newEnd).endDate = some newEnd := rfl
  have hlines : (billingSweep db r).lines = db.lines := hsw.lines.trans h.lines.symm
  have hgone : ∀ j, newEnd ≤ T.startOf j → T.startOf j ≤ T.startOf (pointerAfter T db c.claimed (r :: runs) k) →
      (billingSweep db r).contract.status ≠ .active → ((dailyRuns db (r :: runs)).contract.status = .active ↔
        T.startOf (pointerAfter T db c.claimed (r :: runs) k) < newEnd) := by
    intro j hj hmono hexp
    rw [dailyRuns, List.foldl_cons, ← dailyRuns, dailyRuns_inactive hexp]
    exact ⟨fun ha => absurd ha hexp, fun ha => absurd (hj.trans hmono) (not_le.mpr ha)⟩
  by_cases he : T.startOf k < newEnd
  · rw [Cursor.bill_of_active hs hk (Bool.eq_false_iff.mpr fun h => absurd he (not_lt.mpr ((ended_iff hend _).mp h)))] at hsw
    by_cases hb : T.due r.today k = true ∧ payable db r = true ∧ k ∉ c.claimed
    · rw [if_pos hb] at hsw
      have hpt : pointerAfter T db c.claimed (r :: runs) k = pointerAfter T db c.claimed runs (k + 1) := by
        rw [pointerAfter, if_pos hb]
      rcases hsw.after_claim hs hend with ⟨hge, hexp⟩ | ⟨hlt', hc⟩
      · have hk1 := h.refines.lag_lt hN (hr r List.mem_cons_self) hk hb.1
        exact hgone (k + 1) hge (hpt ▸ startOf_pointerAfter_ge hN db c.claimed hrest (by omega)) hexp
      · rw [hc] at hsw
        rw [dailyRuns, List.foldl_cons, ← dailyRuns, hruns hsw rfl rfl hlt', pointerAfter_congr T hlines,
          pointerAfter_claimed _ _ _ _ (Nat.lt_succ_self k), hpt]
    · rw [if_neg hb] at hsw
      rw [dailyRuns, List.foldl_cons, ← dailyRuns, hruns hsw hs hk he, pointerAfter_congr T hlines, pointerAfter, if_neg hb]
  · have hended : (movedTerms T newEnd).ended k = true := (ended_iff hend k).mpr (not_lt.mp he)
    refine hgone k (not_lt.mp he) (startOf_pointerAfter_ge hN db c.claimed hr (h.refines.next_le k hk)) ?_
    rw [hsw.refines.status, Cursor.bill, hs, hk]
    dsimp only
    rw [if_pos (show T.due r.today k = true from decide_eq_true (hdue (not_lt.mp he))), if_pos hended]
    exact ContractStatus.noConfusion

lemma Renewing.active_iff (hend : T.endDate = some endDate) (hlt : T.startOf k < endDate)
    (hr : ∀ r ∈ runs, r.today < T.startOf N) : (dailyRuns db runs).contract.status = .active ↔
      T.startOf (pointerAfter T db c.claimed runs k) < endDate := by
  induction runs generalizing db c k with
  | nil => exact ⟨fun _ => hlt, fun _ => h.refines.status.trans hs⟩
  | cons r runs ih =>
    have hsw := h.sweep hN hend hs hk (hr r List.mem_cons_self)
      (by rw [renewedEnd, extendTermPastDue_of_lt ((duePeriodStart_le hN (h.refines.next_le k hk)).trans_lt hlt), ite_self])
    refine h.sweep_iff hN hs hk hr hsw (fun hge => absurd hlt (not_lt.mpr hge)) fun h' hs' hk' hlt' => ?_
    rw [movedTerms_self hend] at h'
    exact ih h' hs' hk' hlt' fun q hq => hr q (List.mem_cons_of_mem r hq)

lemma Renewing.active_iff_of_due (hend : T.endDate = some endDate) {r : BillingRun} (hr : ∀ q ∈ r :: runs, q.today < T.startOf N)
    (hdue : T.billingDate k ≤ r.today) : (dailyRuns db (r :: runs)).contract.status = .active ↔
      T.startOf (pointerAfter T db c.claimed (r :: runs) k) < renewedEnd T endDate termMonths k := by
  have hsw := h.sweep hN hend hs hk (hr r List.mem_cons_self) (if_pos hdue)
  refine h.sweep_iff hN hs hk hr hsw (fun _ => hdue) fun h' hs' hk' hlt' => ?_
  rw [h'.active_iff hN hs' hk' rfl hlt' fun q hq => hr q (List.mem_cons_of_mem r hq), pointerAfter_moved]
  rfl

end Active

theorem auto_renewing_active_iff (T : Terms) (N : ℕ) (hN : T.Horizon N) (termMonths : ℕ) (endDate : Text)
    (hend : T.endDate = some endDate) (db : Ledger) (c : Cursor) (k : ℕ) (h : Refines T N db c)
    (hs : c.status = .active) (hk : c.next = some k) (hauto : db.contract.autoRenew = true)
    (hterm : db.contract.renewalTermMonths = some termMonths) (horg : db.orgEligible = true)
    (runs : List BillingRun) (hr : ∀ r ∈ runs, r.today < T.startOf N) :
    (∀ n, (dailyRuns db (runs.take n)).contract.status = .active) ↔
      (∀ r ∈ runs, r.today < T.billingDate k) ∨
        T.startOf (pointerAfter T db c.claimed runs k) < renewedEnd T endDate termMonths k := by
  rw [active_after_every_run]
  have hren : Renewing T N termMonths db.lines db c := ⟨h, hauto, hterm, horg, rfl⟩
  clear h hauto hterm horg
  induction runs generalizing db with
  | nil => exact ⟨fun _ => Or.inl (by simp), fun _ => hren.refines.status.trans hs⟩
  | cons r runs ih =>
    by_cases hdue : T.billingDate k ≤ r.today
    · rw [hren.active_iff_of_due hN hs hk hend hr hdue]
      exact ⟨Or.inr, fun hor => hor.resolve_left fun hall => absurd hdue (not_le.mpr (hall r List.mem_cons_self))⟩
    · have hsw := hren.sweep hN hend hs hk (hr r List.mem_cons_self) (if_neg hdue)
      have hd : T.due r.today k = false := decide_eq_false hdue
      rw [movedTerms_self hend, Cursor.bill_of_not_due hs hk hd] at hsw
      have hlines : (billingSweep db r).lines = db.lines := hsw.lines
      have hih := ih (billingSweep db r) (fun q hq => hr q (List.mem_cons_of_mem r hq)) (by rwa [hlines])
      rw [pointerAfter_congr T hlines] at hih
      rw [pointerAfter, if_neg (fun hh => by simp [hd] at hh), List.forall_mem_cons, and_iff_right (not_le.mp hdue)]
      exact hih

def yearlyTerms (endDate : Text) : Terms where
  start := newYear
  intervalMonths := 12
  billingTiming := .advance
  endDate := some endDate

def renewingLedger (endDate : Text) : Ledger where
  contract := { draftContract (yearlyTerms endDate) with
    status := .active, nextBillingAt := some ((yearlyTerms endDate).billingDate 0)
    autoRenew := true, renewalTermMonths := some 12 }
  lines := [flatLine]
  periods := []

lemma renewingLedger_refines (endDate : Text) :
    Refines (yearlyTerms endDate) 10 (renewingLedger endDate) ⟨[], some 0, .active⟩ where
  terms := ⟨rfl, rfl, rfl, rfl⟩
  status := rfl
  next := rfl
  periods := rfl
  next_le := by simp [Terms.lag, yearlyTerms]
  claimed_le := by simp

theorem auto_renewing_active_two_years :
    (dailyRuns (renewingLedger "2028-01-01".toList) [{ today := "2026-01-01".toList }]).contract.status =
      .active := by
  refine (auto_renewing_active_iff (yearlyTerms "2028-01-01".toList) 10 ⟨by decide, by decide, by decide⟩ 12
    "2028-01-01".toList rfl _ ⟨[], some 0, .active⟩ 0 (renewingLedger_refines _) rfl rfl rfl rfl rfl [{ today := "2026-01-01".toList }] ?_).mpr
    (Or.inr (by decide +kernel)) 1
  rw [List.forall_mem_singleton]
  decide +kernel

/-- A one-year contract that renews by a year is expired by the run that bills its first year. -/
theorem auto_renewing_expires :
    (dailyRuns (renewingLedger "2027-01-01".toList) [{ today := "2026-01-01".toList }]).contract.status =
      .expired := by
  decide +kernel

end Breeze.Contracts.RenewalExpiry
