import Breeze.Contracts.PeriodBilling

/-! The daily job of contractWorker.ts: the renewal pass of contractRenewal.ts, then the billing
pass. The passes treat each contract by itself, so one turn acts on the rows of one contract. -/

namespace Breeze.Contracts.Renewal

open Breeze.Lib.Decimal ContractMath ContractService CalendarDay PeriodGrid BillingCursor
open CursorRefinement PeriodBilling

/-- Insert with `ON CONFLICT (contract_id, end_date, kind) DO NOTHING`. -/
def claimNotice (notices : List (Text × NoticeKind)) (endDate : Text) (kind : NoticeKind) :
    Option (List (Text × NoticeKind)) :=
  if (endDate, kind) ∈ notices then none else some (notices ++ [(endDate, kind)])

structure RenewalTurn where
  ledger : Ledger
  noticed : Bool
  renewed : Bool

def advanceNotice (today endDate : Text) (db : Ledger) : Option (List (Text × NoticeKind)) :=
  let noticeDays := db.contract.renewalNoticeDays.getD 30
  if isWithinNoticeWindow today endDate noticeDays then claimNotice db.notices endDate .advance else none

def extendTerm (today endDate : Text) (termMonths : ℕ) (db : Ledger) : Option Ledger :=
  match db.contract.nextBillingAt with
  | none => none
  | some nextBillingAt =>
    if nextBillingAt ≤ today then
      let duePeriodStart := duePeriodStartFor db.contract.billingTiming nextBillingAt db.contract.intervalMonths
      let (newEndDate, didRenew) := extendTermPastDue endDate duePeriodStart termMonths
      if didRenew then
        some { db with
          contract := { db.contract with endDate := some newEndDate }
          notices := (claimNotice db.notices newEndDate .renewed).getD db.notices }
      else none
    else none

def runContractRenewalSweep (today : Text) (db : Ledger) : RenewalTurn :=
  let c := db.contract
  if c.status = .active ∧ c.autoRenew = true ∧ db.orgEligible = true then
    match c.endDate, c.renewalTermMonths with
    | some endDate, some termMonths =>
      let notices := advanceNotice today endDate db
      let noticedDb := { db with notices := notices.getD db.notices }
      let extended := extendTerm today endDate termMonths noticedDb
      ⟨extended.getD noticedDb, notices.isSome, extended.isSome⟩
    | _, _ => ⟨db, false, false⟩
  else ⟨db, false, false⟩

structure BillingTurn where
  ledger : Ledger
  billed : Bool
  failed : Bool

def runContractBillingSweep (db : Ledger) (run : BillingRun) : BillingTurn :=
  let c := db.contract
  if c.status = .active ∧ (∃ next ∈ c.nextBillingAt, next ≤ run.today) ∧ db.orgEligible = true then
    match generateDueInvoice db run with
    | .ok (res, db') => ⟨db', res.generated, false⟩
    | .error _ => ⟨db, false, true⟩
  else ⟨db, false, false⟩

def billingSweep (db : Ledger) (run : BillingRun) : Ledger :=
  (runContractBillingSweep (runContractRenewalSweep run.today db).ledger run).ledger

def dailyRuns (db : Ledger) (runs : List BillingRun) : Ledger := runs.foldl billingSweep db

variable {db : Ledger} {duePeriodStart endDate : Text}

section

variable (h : db.contract.status ≠ .active)

include h

lemma billingSweep_inactive (run : BillingRun) : billingSweep db run = db := by
  rw [billingSweep, runContractRenewalSweep, if_neg (fun hh => h hh.1), runContractBillingSweep, if_neg (fun hh => h hh.1)]

lemma dailyRuns_inactive (runs : List BillingRun) : dailyRuns db runs = db := by
  induction runs with
  | nil => rfl
  | cons r runs ih => rw [dailyRuns, List.foldl_cons, billingSweep_inactive h, ← dailyRuns, ih]

end

lemma active_after_every_run (db : Ledger) (runs : List BillingRun) :
    (∀ n, (dailyRuns db (runs.take n)).contract.status = .active) ↔
      (dailyRuns db runs).contract.status = .active := by
  constructor
  · intro h
    simpa only [List.take_length] using h runs.length
  · intro h n
    by_contra hn
    have hsplit : dailyRuns db runs = dailyRuns (dailyRuns db (runs.take n)) (runs.drop n) := by
      rw [dailyRuns, dailyRuns, dailyRuns, ← List.foldl_append, List.take_append_drop]
    rw [hsplit, dailyRuns_inactive hn] at h
    exact hn h

lemma billing_eq_step (he : db.orgEligible = true) (run : BillingRun) :
    (runContractBillingSweep db run).ledger = step db (.generate run) := by
  rw [step]
  by_cases hdue : db.contract.status = .active ∧ ∃ next ∈ db.contract.nextBillingAt, next ≤ run.today
  · rw [runContractBillingSweep, if_pos ⟨hdue.1, hdue.2, he⟩]
    cases generateDueInvoice db run with
    | ok r | error e => rfl
  · have hidle : generateDueInvoice db run = .ok (skip .notDue, db) := by
      unfold generateDueInvoice
      split
      · rename_i nextBillingAt hs hn
        exact if_pos (lt_of_not_ge fun hle => hdue ⟨hs, nextBillingAt, hn, hle⟩)
      · rfl
    rw [runContractBillingSweep, if_neg (fun hh => hdue ⟨hh.1, hh.2.1⟩), hidle]
    rfl

lemma extendTermLoop_not_renewed {termMonths fuel : ℕ} {renewed : Bool}
    (h : (extendTermLoop duePeriodStart termMonths fuel endDate renewed).2 = false) :
    (extendTermLoop duePeriodStart termMonths fuel endDate renewed).1 = endDate := by
  have htrue : ∀ fuel endDate, (extendTermLoop duePeriodStart termMonths fuel endDate true).2 = true := by
    intro fuel
    induction fuel with
    | zero => exact fun _ => rfl
    | succ fuel ih =>
      intro endDate
      rw [extendTermLoop]
      split
      · exact ih _
      · rfl
  cases fuel with
  | zero => rfl
  | succ fuel =>
    rw [extendTermLoop] at h ⊢
    split
    · rename_i he
      rw [if_pos he, htrue] at h
      cases h
    · rfl

lemma extendTermPastDue_of_lt (h : duePeriodStart < endDate) (termMonths : ℕ) :
    extendTermPastDue endDate duePeriodStart termMonths = (endDate, false) := by
  rw [extendTermPastDue, extendTermLoop, if_neg]
  simpa [isExpired] using h

end Breeze.Contracts.Renewal
