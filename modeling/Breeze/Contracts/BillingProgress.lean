import Breeze.Contracts.PeriodBilling

/-! When a due contract makes progress. A contract that is resumed in a period it has already
billed in advance points at that period again and stays due. -/

namespace Breeze.Contracts.BillingProgress

open Breeze.Lib.Decimal ContractMath ContractService CalendarDay PeriodGrid BillingCursor
open CursorRefinement PeriodBilling

def Progress (db : Ledger) (r : BillingRun) : Prop :=
  ∀ p, db.contract.status = .active → db.contract.nextBillingAt = some p → p ≤ r.today →
    ∃ res db', generateDueInvoice db r = .ok (res, db') ∧ res.skipped ≠ some .alreadyBilled ∧
      ((∃ period, period.periodStart ∉ db.periods.map Period.periodStart ∧
          db'.periods = db.periods ++ [period] ∧
          (db'.contract.status = .expired ∨ ∃ q ∈ db'.contract.nextBillingAt, p < q)) ∨
        db'.contract.status = .expired ∨ ∃ q ∈ db'.contract.nextBillingAt, p < q ∧ r.today < q)

def Fresh (db : Ledger) : Call → Prop
  | .activate asOf | .resume asOf =>
    db.contract.status = .paused → db.contract.billingTiming = .advance →
      (computePeriod db.contract.startDate db.contract.intervalMonths
        (periodIndexFor db.contract.startDate db.contract.intervalMonths asOf)).periodStart ∉
          db.periods.map Period.periodStart
  | _ => True

def AllFresh : Ledger → List Call → Prop
  | _, [] => True
  | db, call :: calls => Fresh db call ∧ AllFresh (step db call) calls

def Billable (lines : List ContractLine) (r : BillingRun) : Prop :=
  lineProblem lines r.hasGroup = none ∧ r.draft.toBool = true ∧ r.afterClaim.toBool = true

structure Inv (T : Terms) (N : ℕ) (clock : Text) (db : Ledger) (c : Cursor) : Prop where
  refines : Refines T N db c
  ahead : c.Ahead
  claimed_le : ∀ j ∈ c.claimed, T.billingDate j ≤ clock
  draft : c.status = .draft → c.claimed = []

variable {T : Terms} {N : ℕ} {clock : Text} {db : Ledger} {c : Cursor}

lemma Inv.mono (h : Inv T N clock db c) {later : Text} (hl : clock ≤ later) : Inv T N later db c where
  refines := h.refines
  ahead := h.ahead
  claimed_le := fun j hj => (h.claimed_le j hj).trans hl
  draft := h.draft

variable {asOf : Text} {r : BillingRun}

section

variable (h : Inv T N clock db c) (hN : T.Horizon N) (hc : clock ≤ asOf) (ha : asOf < T.startOf N) (hf : T.billingTiming = .advance → T.indexAt asOf ∉ c.claimed)

include h hN hc ha hf

lemma Inv.fresh_index : ∀ j ∈ c.claimed, j < T.indexAt asOf := by
  intro j hj
  have hle : T.startOf (j + T.lag) ≤ asOf := (h.claimed_le j hj).trans hc
  have hi : j + T.lag ≤ T.indexAt asOf := Horizon.index_ge hN ha hle (h.refines.claimed_le j hj)
  cases ht : T.billingTiming with
  | advance =>
    have hne : j ≠ T.indexAt asOf := fun he => hf ht (he ▸ hj)
    omega
  | arrears =>
    have hlag : T.lag = 1 := by rw [Terms.lag, ht]
    omega

lemma Inv.start {db' : Ledger}
    (hr : Refines T N db' (c.start (T.indexAt asOf))) : Inv T N asOf db' (c.start (T.indexAt asOf)) where
  refines := hr
  ahead := fun _ => ⟨_, rfl, h.fresh_index hN hc ha hf⟩
  claimed_le := fun j hj => (h.claimed_le j hj).trans hc
  draft := fun hd => by simp [Cursor.start] at hd

end

lemma Inv.bill (h : Inv T N clock db c) (hN : T.Horizon N) (hc : clock ≤ r.today) (ha : r.today < T.startOf N) :
    Inv T N r.today (step db (.generate r)) (c.bill T.ended (T.due r.today) (payable db r)) where
  refines := h.refines.bill hN ha
  ahead := h.ahead.bill
  claimed_le := by
    have hold : ∀ j ∈ c.claimed, T.billingDate j ≤ r.today := fun j hj => (h.claimed_le j hj).trans hc
    rcases c.bill_cases T.ended (T.due r.today) (payable db r) with
      hb | ⟨k, _, _, _, _, hb⟩ | ⟨k, _, _, hd, _, _, _, hb⟩
    · rwa [hb]
    · rw [hb]
      exact hold
    · rw [hb, Cursor.claim_claimed]
      intro j hj
      rcases List.mem_append.mp hj with hj | hj
      · exact hold j hj
      · rw [List.mem_singleton.mp hj]
        exact of_decide_eq_true hd
  draft := by
    rcases c.bill_cases T.ended (T.due r.today) (payable db r) with
      hb | ⟨k, _, _, _, _, hb⟩ | ⟨k, hs, _, _, _, _, _, hb⟩
    · rw [hb]
      exact h.draft
    · rw [hb]
      intro hf
      simp [Cursor.finish] at hf
    · rw [hb]
      unfold Cursor.claim
      split
      · intro hf
        simp at hf
      · intro hf
        simp [hs] at hf

lemma claimed_index_iff (h : Refines T N db c) (hN : T.Horizon N) (hpos : 0 < N) (ha : asOf < T.startOf N) :
    (computePeriod db.contract.startDate db.contract.intervalMonths
      (periodIndexFor db.contract.startDate db.contract.intervalMonths asOf)).periodStart ∈
        db.periods.map Period.periodStart ↔ T.indexAt asOf ∈ c.claimed := by
  have hi : T.indexAt asOf < N := (Horizon.index_spec hN ha hpos).1
  rw [h.terms.startDate, h.terms.intervalMonths, h.periods, List.map_map, List.mem_map]
  change (∃ j, j ∈ c.claimed ∧ T.startOf j = T.startOf (T.indexAt asOf)) ↔ _
  constructor
  · rintro ⟨j, hj, he⟩
    have hjN := h.claimed_le j hj
    rwa [← Horizon.startOf_injective hN (by omega) (by omega) he]
  · exact fun hm => ⟨_, hm, rfl⟩

section

variable (h : Inv T N clock db c) (hN : T.Horizon N)

include h hN

lemma Inv.step (hpos : 0 < N) (hl : db.lines ≠ []) {call : Call}
    (hc : ∀ d ∈ call.date, clock ≤ d) (ha : ∀ d ∈ call.date, d < T.startOf N) (hf : Fresh db call) :
    ∃ c', Inv T N (call.date.getD clock) (step db call) c' := by
  have hstatus := h.refines.status
  cases call with
  | pause =>
    by_cases hs : db.contract.status = .active
    · refine ⟨c.stop, ?_, ?_, h.claimed_le, ?_⟩
      · rw [ContractService.step, pauseContract, if_neg (not_not.mpr hs)]
        exact h.refines.stop
      · intro hf
        simp [Cursor.stop] at hf
      · intro hf
        simp [Cursor.stop] at hf
    · refine ⟨c, ?_⟩
      rw [ContractService.step, pauseContract, if_pos hs]
      exact h
  | generate r => exact ⟨_, h.bill hN (hc _ rfl) (ha _ rfl)⟩
  | activate asOf =>
    by_cases hs : db.contract.status ≠ .draft ∧ db.contract.status ≠ .paused
    · refine ⟨c, ?_⟩
      rw [ContractService.step, activateContract, if_pos hs]
      exact h.mono (hc _ rfl)
    · have hs' : c.status = .draft ∨ c.status = .paused := by
        rw [not_and_or, not_not, not_not, hstatus] at hs
        exact hs
      refine ⟨_, h.start hN (hc _ rfl) (ha _ rfl) ?_
        (activate_refines hN hpos h.refines hs' hl (ha _ rfl))⟩
      intro ht hm
      rcases hs' with hd | hp
      · rw [h.draft hd] at hm
        simp at hm
      · exact hf (hstatus.trans hp) (h.refines.terms.billingTiming.trans ht)
          ((claimed_index_iff h.refines hN hpos (ha _ rfl)).mpr hm)
  | resume asOf =>
    by_cases hs : db.contract.status ≠ .paused
    · refine ⟨c, ?_⟩
      rw [ContractService.step, resumeContract, if_pos hs]
      exact h.mono (hc _ rfl)
    · rw [not_not] at hs
      refine ⟨_, h.start hN (hc _ rfl) (ha _ rfl) ?_ ?_⟩
      · intro ht hm
        exact hf hs (h.refines.terms.billingTiming.trans ht)
          ((claimed_index_iff h.refines hN hpos (ha _ rfl)).mpr hm)
      · rw [ContractService.step, resumeContract, if_neg (not_not.mpr hs)]
        exact h.refines.start hN (ha _ rfl) hpos

lemma Inv.run (hpos : 0 < N) (hl : db.lines ≠ []) {calls : List Call}
    (hsorted : (calls.filterMap Call.date).Pairwise (· ≤ ·))
    (hc : ∀ d ∈ calls.filterMap Call.date, clock ≤ d ∧ d < T.startOf N) (hf : AllFresh db calls)
    {today : Text} (ht : clock ≤ today) (hle : ∀ d ∈ calls.filterMap Call.date, d ≤ today) :
    ∃ c', Inv T N today (run db calls) c' := by
  induction calls generalizing db c clock with
  | nil => exact ⟨c, h.mono ht⟩
  | cons call calls ih =>
    have hdate : ∀ d ∈ call.date, d ∈ (call :: calls).filterMap Call.date :=
      fun d hd => List.mem_filterMap.mpr ⟨call, List.mem_cons_self, hd⟩
    have hrest : ∀ d ∈ calls.filterMap Call.date, d ∈ (call :: calls).filterMap Call.date := by
      intro d hd
      obtain ⟨x, hx, he⟩ := List.mem_filterMap.mp hd
      exact List.mem_filterMap.mpr ⟨x, List.mem_cons_of_mem _ hx, he⟩
    obtain ⟨c', hc'⟩ := h.step hN hpos hl (fun d hd => (hc d (hdate d hd)).1)
      (fun d hd => (hc d (hdate d hd)).2) hf.1
    rw [run_cons]
    refine ih hc' (by rwa [(step_frame db call).lines]) ?_ ?_ hf.2 ?_ (fun d hd => hle d (hrest d hd))
    · rw [List.filterMap_cons] at hsorted
      split at hsorted
      · exact hsorted
      · exact hsorted.of_cons
    · intro d hd
      refine ⟨?_, (hc d (hrest d hd)).2⟩
      cases hcd : call.date with
      | none => exact (hc d (hrest d hd)).1
      | some e =>
        rw [List.filterMap_cons, hcd] at hsorted
        exact List.rel_of_pairwise_cons hsorted hd
    · cases hcd : call.date with
      | none => exact ht
      | some e => exact hle e (hdate e hcd)

lemma Inv.progress
    (ha : r.today < T.startOf N) (hp : payable db r = true) : Progress db r := by
  intro p hs hnext hdue
  rw [h.refines.status] at hs
  obtain ⟨k, hk, hahead⟩ := h.ahead hs
  have hpk : p = T.billingDate k := by
    rw [h.refines.next, hk] at hnext
    exact (Option.some.inj hnext).symm
  have hd : T.due r.today k = true := decide_eq_true (hpk ▸ hdue)
  have hkN := h.refines.lag_lt hN ha hk hd
  have hfresh : k ∉ c.claimed := fun hm => (hahead k hm).false
  rw [h.refines.generate_due hN ha hs hk hd]
  by_cases he : T.ended k = true
  · exact ⟨_, _, h.refines.billPeriod_ended he, by simp [skip], Or.inr (Or.inl rfl)⟩
  · obtain ⟨invoiceId, hb⟩ := h.refines.billPeriod_payable hN hkN.le hp (by simpa using he)
    rw [if_neg hfresh] at hb
    have hadv := h.refines.advance (k := k) (by omega)
    refine ⟨_, _, hb, by simp, Or.inl ⟨T.period k, ?_, ?_, ?_⟩⟩
    · have hclaim := h.refines.claimPeriod_eq hN hkN.le
      rw [if_neg hfresh] at hclaim
      unfold claimPeriod at hclaim
      split at hclaim
      · cases hclaim
      · assumption
    · rw [hadv.periods, Cursor.claim_claimed, h.refines.periods, List.map_append]
      rfl
    · rw [hadv.status, hadv.next, hpk]
      by_cases hlast : T.ended (k + 1) = true
      · exact Or.inl (by rw [Cursor.claim, if_pos hlast])
      · refine Or.inr ⟨T.billingDate (k + 1), by rw [Cursor.claim, if_neg hlast]; rfl, ?_⟩
        exact (Horizon.startOf_lt_iff hN (by omega) (by omega)).mpr (by omega)

end

lemma nil_le (d : Text) : ([] : Text) ≤ d := le_of_not_gt (List.not_lt_nil d)

theorem billing_never_wedges (T : Terms) (N : ℕ) (hpos : 0 < N) (hN : T.Horizon N) (lines : List ContractLine)
    (hl : lines ≠ []) (calls : List Call) (r : BillingRun)
    (hsorted : ((calls ++ [Call.generate r]).filterMap Call.date).Pairwise (· ≤ ·))
    (hdates : ∀ d ∈ (calls ++ [Call.generate r]).filterMap Call.date, d < T.startOf N)
    (hfresh : AllFresh (draftLedger T lines) calls) (hb : Billable lines r) :
    Progress (run (draftLedger T lines) calls) r := by
  rw [List.filterMap_append] at hsorted hdates
  have hinit : Inv T N [] (draftLedger T lines) draftCursor :=
    ⟨draft_refines T N lines, fun hd => by simp [draftCursor] at hd, by simp [draftCursor], fun _ => rfl⟩
  have hlast : r.today ∈ [Call.generate r].filterMap Call.date := List.mem_singleton.mpr rfl
  have hle : ∀ d ∈ calls.filterMap Call.date, d ≤ r.today :=
    fun d hd => (List.pairwise_append.mp hsorted).2.2 d hd _ hlast
  obtain ⟨c, hc⟩ := hinit.run hN hpos hl (List.pairwise_append.mp hsorted).1
    (fun d hd => ⟨nil_le d, hdates d (List.mem_append_left _ hd)⟩) hfresh (nil_le _) hle
  refine hc.progress hN (hdates _ (List.mem_append_right _ hlast)) ?_
  have hlines : (run (draftLedger T lines) calls).lines = lines := run_lines (draftLedger T lines) calls
  simp [payable, hlines, hl, hb.1, hb.2.1, hb.2.2]

def januaryTerms : Terms where
  start := newYear
  intervalMonths := 1
  billingTiming := .advance
  endDate := none

theorem billing_never_wedges_january :
    Progress (run (draftLedger januaryTerms [flatLine]) [.activate "2026-01-01".toList,
      .generate { today := "2026-01-01".toList }, .pause, .resume "2026-02-15".toList])
      { today := "2026-02-15".toList } := by
  refine billing_never_wedges januaryTerms 12 (by decide) ⟨by decide, by decide, by decide⟩ [flatLine]
    (by simp) _ _ (by decide +kernel) (by decide +kernel) ?_ ⟨rfl, rfl, rfl⟩
  refine ⟨?_, trivial, trivial, ?_, trivial⟩ <;> unfold Fresh <;> decide +kernel

/-- Billed on the first, paused and resumed on the fifteenth: the contract stays due. -/
theorem resumed_in_billed_period_wedges :
    ¬ Progress (run (draftLedger januaryTerms [flatLine]) [.activate "2026-01-01".toList,
      .generate { today := "2026-01-01".toList }, .pause, .resume "2026-01-15".toList])
      { today := "2026-01-15".toList } := by
  intro h
  obtain ⟨res, db', hg, hne, _⟩ := h "2026-01-01".toList (by decide +kernel) (by decide +kernel) (by decide +kernel)
  have hskip : (generateDueInvoice (run (draftLedger januaryTerms [flatLine])
      [.activate "2026-01-01".toList, .generate { today := "2026-01-01".toList }, .pause,
        .resume "2026-01-15".toList]) { today := "2026-01-15".toList }).toOption.map (fun x => x.1.skipped) =
      some (some .alreadyBilled) := by decide +kernel
  rw [hg] at hskip
  exact hne (Option.some.inj hskip)

end Breeze.Contracts.BillingProgress
