import Breeze.Contracts.CursorRefinement

/-! A contract without an end date claims consecutive periods from the one it was activated in. -/

namespace Breeze.Contracts.PeriodBilling

open Breeze.Lib.Decimal ContractMath ContractService CalendarDay PeriodGrid BillingCursor
open CursorRefinement

def draftContract (T : Terms) : Contract where
  startDate := T.start.iso
  endDate := T.endDate
  intervalMonths := T.intervalMonths
  billingTiming := T.billingTiming
  status := .draft
  nextBillingAt := none

def draftLedger (T : Terms) (lines : List ContractLine) : Ledger where
  contract := draftContract T
  lines := lines
  periods := []

def draftCursor : Cursor := ⟨[], none, .draft⟩

lemma draft_refines (T : Terms) (N : ℕ) (lines : List ContractLine) :
    Refines T N (draftLedger T lines) draftCursor where
  terms := ⟨rfl, rfl, rfl, rfl⟩
  status := rfl
  next := rfl
  periods := rfl
  next_le := by simp [draftCursor]
  claimed_le := by simp [draftCursor]

lemma draft_start_consecutive (a : ℕ) : (draftCursor.start a).Consecutive a := ⟨rfl, fun _ => rfl⟩

structure Frame (db db' : Ledger) : Prop where
  lines : db'.lines = db.lines
  autoRenew : db'.contract.autoRenew = db.contract.autoRenew
  renewalTermMonths : db'.contract.renewalTermMonths = db.contract.renewalTermMonths
  orgEligible : db'.orgEligible = db.orgEligible

lemma advancePointer_frame (db : Ledger) (periods : List Period) (idx : ℕ) :
    Frame db (advancePointer { db with periods := periods } idx) := by
  unfold advancePointer
  dsimp only
  split <;> exact ⟨rfl, rfl, rfl, rfl⟩

lemma billPeriod_frame (db : Ledger) (run : BillingRun) (idx : ℕ) :
    Frame db (commit db ((billPeriod db run idx).map Prod.snd)) := by
  have hself : Frame db db := ⟨rfl, rfl, rfl, rfl⟩
  rw [billPeriod]
  split
  · exact ⟨rfl, rfl, rfl, rfl⟩
  split
  · exact hself
  cases lineProblem db.lines run.hasGroup with
  | some e => exact hself
  | none =>
    cases run.draft with
    | error e => exact hself
    | ok invoiceId =>
      dsimp only [bind, Except.bind]
      cases claimPeriod db.periods _ with
      | none => exact hself
      | some periods =>
        cases run.afterClaim with
        | error e => exact hself
        | ok u => exact advancePointer_frame db periods idx

lemma step_frame (db : Ledger) (call : Call) : Frame db (step db call) := by
  have hself : Frame db db := ⟨rfl, rfl, rfl, rfl⟩
  cases call with
  | activate asOf =>
    rw [step, activateContract]
    dsimp only
    split
    · exact hself
    · split
      · exact hself
      · exact ⟨rfl, rfl, rfl, rfl⟩
  | pause =>
    rw [step, pauseContract]
    split
    · exact hself
    · exact ⟨rfl, rfl, rfl, rfl⟩
  | resume asOf =>
    rw [step, resumeContract]
    dsimp only
    split
    · exact hself
    · exact ⟨rfl, rfl, rfl, rfl⟩
  | generate run =>
    rw [step, generateDueInvoice]
    split
    · split
      · exact hself
      · exact billPeriod_frame db run _
    · exact hself

lemma run_lines (db : Ledger) (calls : List Call) : (run db calls).lines = db.lines := by
  induction calls generalizing db with
  | nil => rfl
  | cons call calls ih => rw [run_cons, ih, (step_frame db call).lines]

variable {T : Terms} {N : ℕ}

variable {db : Ledger} {c : Cursor} {asOf : Text} {runs : List BillingRun}

lemma activate_refines (hN : T.Horizon N) (hpos : 0 < N)
    (h : Refines T N db c) (hs : c.status = .draft ∨ c.status = .paused) (hl : db.lines ≠ []) (ha : asOf < T.startOf N) :
    Refines T N (step db (.activate asOf)) (c.start (T.indexAt asOf)) := by
  have hs' : ¬(db.contract.status ≠ .draft ∧ db.contract.status ≠ .paused) := by
    rintro ⟨hd, hp⟩
    rcases hs with hs | hs
    · exact hd (h.status.trans hs)
    · exact hp (h.status.trans hs)
  rw [step, activateContract, if_neg hs', if_neg hl]
  exact h.start hN ha hpos

lemma generate_runs {a : ℕ} (hN : T.Horizon N) (h : Refines T N db c)
    (hc : c.Consecutive a) (hr : ∀ r ∈ runs, r.today < T.startOf N) :
    ∃ c' : Cursor, Refines T N (run db (runs.map .generate)) c' ∧ c'.Consecutive a := by
  induction runs generalizing db c with
  | nil => exact ⟨c, h, hc⟩
  | cons r runs ih =>
    rw [List.map_cons, run_cons]
    exact ih (h.bill hN (hr r List.mem_cons_self)) hc.bill (fun q hq => hr q (List.mem_cons_of_mem r hq))

lemma generate_active (hend : T.endDate = none) (hN : T.Horizon N) (h : Refines T N db c) (hs : c.status = .active)
    (hr : ∀ r ∈ runs, r.today < T.startOf N) : (run db (runs.map .generate)).contract.status = .active := by
  have hended : ∀ k, T.ended k = false := by
    intro k
    simp [Terms.ended, hend, isExpired]
  induction runs generalizing db c with
  | nil => rw [List.map_nil, run_nil, h.status, hs]
  | cons r runs ih =>
    rw [List.map_cons, run_cons]
    refine ih (h.bill hN (hr r List.mem_cons_self)) ?_ (fun q hq => hr q (List.mem_cons_of_mem r hq))
    rcases c.bill_cases T.ended (T.due r.today) (payable db r) with
      hb | ⟨k, _, _, _, he, _⟩ | ⟨k, _, _, _, _, _, _, hb⟩
    · rw [hb, hs]
    · simp [hended] at he
    · rw [hb, Cursor.claim, hended, if_neg (by simp), hs]

lemma range_map_chain (T : Terms) (a m : ℕ) :
    ((List.range' a m).map T.period).IsChain (fun p q => p.periodEnd = q.periodStart) := by
  rw [List.isChain_map]
  induction m generalizing a with
  | zero => exact List.IsChain.nil
  | succ m ih =>
    cases m with
    | zero => exact List.IsChain.singleton _
    | succ m =>
      rw [List.range'_succ, List.range'_succ]
      refine List.IsChain.cons_cons ((periodEnd_eq _ _ _).trans (T.period_start (a + 1)).symm) ?_
      have hh := ih (a + 1)
      rwa [List.range'_succ] at hh

theorem claimed_periods_consecutive (T : Terms) (hend : T.endDate = none) (N : ℕ) (hpos : 0 < N)
    (hN : T.Horizon N) (lines : List ContractLine) (hl : lines ≠ []) (asOf : Text)
    (ha : asOf < T.startOf N) (runs : List BillingRun) (hr : ∀ r ∈ runs, r.today < T.startOf N) :
    ∃ m, (run (draftLedger T lines) (.activate asOf :: runs.map .generate)).periods =
        (List.range' (T.indexAt asOf) m).map T.period ∧
      ((List.range' (T.indexAt asOf) m).map T.period).Nodup ∧
      ((List.range' (T.indexAt asOf) m).map T.period).IsChain (fun p q => p.periodEnd = q.periodStart) ∧
      (run (draftLedger T lines) (.activate asOf :: runs.map .generate)).contract.nextBillingAt =
        some (match T.billingTiming with
          | .advance => (T.period (T.indexAt asOf + m)).periodStart
          | .arrears => (T.period (T.indexAt asOf + m)).periodEnd) := by
  have hstart := activate_refines hN hpos (draft_refines T N lines) (Or.inl rfl) hl ha
  obtain ⟨c, hc, hi⟩ := generate_runs hN hstart (draft_start_consecutive _) hr
  have hactive := generate_active hend hN hstart rfl hr
  rw [run_cons]
  generalize run (step (draftLedger T lines) (.activate asOf)) (runs.map .generate) = db at hc hactive ⊢
  refine ⟨c.claimed.length, ?_, ?_, range_map_chain T (T.indexAt asOf) c.claimed.length, ?_⟩
  · rw [hc.periods, ← hi.claimed]
  · rw [← hi.claimed]
    apply hi.nodup.map_on
    intro j hj k hk he
    have hjN := hc.claimed_le j hj
    have hkN := hc.claimed_le k hk
    exact Horizon.startOf_injective hN (by omega) (by omega) (congrArg Period.periodStart he)
  · rw [hc.next, hi.next (hc.status.symm.trans hactive)]
    have hb := T.nextBillingDate_eq (T.indexAt asOf + c.claimed.length)
    change some (T.billingDate _) = _
    rw [← hb]
    unfold nextBillingDate
    cases T.billingTiming <;> rfl

def flatLine : ContractLine := { id := "line", lineType := .flat, description := "managed services" }

def newYear : StartDay := .of 2026 1 1 (by decide)

def leapTerms : Terms where
  start := .of 2024 1 31 (by decide)
  intervalMonths := 1
  billingTiming := .arrears
  endDate := none

theorem claimed_periods_consecutive_leap :
    ∃ m, (run (draftLedger leapTerms [flatLine]) [.activate "2024-02-10".toList,
        .generate { today := "2024-03-01".toList }, .generate { today := "2024-04-30".toList }]).periods =
      (List.range' (leapTerms.indexAt "2024-02-10".toList) m).map leapTerms.period := by
  obtain ⟨m, hm, _⟩ := claimed_periods_consecutive leapTerms rfl 12 (by decide) ⟨by decide, by decide, by decide⟩ [flatLine]
    (by simp) "2024-02-10".toList (by decide +kernel)
    [{ today := "2024-03-01".toList }, { today := "2024-04-30".toList }]
    (by simp only [List.forall_mem_cons, List.not_mem_nil, false_implies, implies_true, and_true]
        exact ⟨by decide +kernel, by decide +kernel⟩)
  exact ⟨m, hm⟩

def guardTerms : Terms where
  start := .of 1000 1 1 (by decide)
  intervalMonths := 1
  billingTiming := .arrears
  endDate := none

lemma guardTerms_horizon : guardTerms.Horizon (runawayGuard + 2) := ⟨by decide, le_rfl, by decide⟩

lemma guardTerms_index (h : guardTerms.startOf (runawayGuard + 1) ≤ asOf) : guardTerms.indexAt asOf = runawayGuard + 1 := by
  apply periodIndexFor_eq le_rfl
  · intro j _ hj
    exact ((Horizon.startOf_le_iff guardTerms_horizon (by omega) (by omega)).mpr hj).trans h
  · exact Or.inr rfl

def guardActivated : Ledger where
  contract := { draftContract guardTerms with
    status := .active, nextBillingAt := some (guardTerms.startOf (runawayGuard + 2)) }
  lines := [flatLine]
  periods := []

lemma guardTerms_activate :
    step (draftLedger guardTerms [flatLine]) (.activate "9999-01-01".toList) = guardActivated := by
  have hi : periodIndexFor guardTerms.start.iso guardTerms.intervalMonths "9999-01-01".toList =
      runawayGuard + 1 := guardTerms_index (by decide +kernel)
  have hn := guardTerms.nextBillingDate_eq (runawayGuard + 1)
  simp only [step, activateContract, draftLedger, draftContract, ne_eq, not_true_eq_false, false_and,
    if_false, reduceCtorEq, hi, hn, List.cons_ne_nil]
  rfl

lemma first_claim {today pointer : Text} {i : ℕ} (hs : db.contract.status = .active)
    (hnext : db.contract.nextBillingAt = some pointer) (ht : ¬ today < pointer)
    (hend : db.contract.endDate = none) (hl : db.lines = [flatLine]) (hp : db.periods = [])
    (hb : db.contract.billingTiming = .arrears)
    (hi : periodIndexFor db.contract.startDate db.contract.intervalMonths pointer = i + 1) :
    (step db (.generate { today := today })).periods =
      [computePeriod db.contract.startDate db.contract.intervalMonths i] := by
  have hd : dueIndex db.contract pointer = i := by rw [dueIndex, hi, hb]; rfl
  have hline : lineProblem [flatLine] (fun _ => true) = none := rfl
  have hclaim : ∀ p, claimPeriod [] p = some [p] := fun p => rfl
  rw [step, generateDueInvoice, hs, hnext]
  dsimp only
  rw [if_neg ht, hd]
  simp only [billPeriod, hend, isExpired, hl, hline, hp, hclaim, Bool.false_eq_true, if_false, List.cons_ne_nil]
  change (advancePointer _ _).periods = _
  unfold advancePointer
  dsimp only
  split_ifs <;> rfl

lemma guardTerms_generate :
    (step guardActivated (.generate { today := "9999-01-01".toList })).periods =
      [guardTerms.period runawayGuard] := by
  have hp : periodIndexFor guardTerms.start.iso guardTerms.intervalMonths
      (guardTerms.startOf (runawayGuard + 2)) = runawayGuard + 1 :=
    guardTerms_index ((Horizon.startOf_le_iff guardTerms_horizon (by omega) le_rfl).mpr (by omega))
  exact first_claim rfl rfl (by decide +kernel) rfl rfl rfl rfl hp

/-- Period 100000 is claimed although the contract was activated in period 100001. -/
theorem guard_claims_earlier_period :
    ¬ ∃ m, (run (draftLedger guardTerms [flatLine]) [.activate "9999-01-01".toList,
        .generate { today := "9999-01-01".toList }]).periods =
      (List.range' (guardTerms.indexAt "9999-01-01".toList) m).map guardTerms.period := by
  rw [run_cons, run_cons, run_nil, guardTerms_activate, guardTerms_generate,
    guardTerms_index (by decide +kernel)]
  rintro ⟨m, hm⟩
  cases m with
  | zero => simp at hm
  | succ m =>
    rw [List.range'_succ, List.map_cons, List.cons.injEq] at hm
    have he := Horizon.startOf_injective guardTerms_horizon (by omega) (by omega)
      (congrArg Period.periodStart hm.1)
    omega

end Breeze.Contracts.PeriodBilling
