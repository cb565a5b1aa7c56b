import Breeze.Contracts.ContractMath

/-! The contract rows and the operations of contractService.ts that move the billing pointer. -/

namespace Breeze.Contracts.ContractService

open Breeze.Lib.Decimal ContractMath

inductive ContractStatus where
  | draft
  | active
  | paused
  | cancelled
  | expired
  deriving DecidableEq

inductive LineType where
  | flat
  | perDevice
  | perDeviceRole
  | perDeviceGroup
  | perSeat
  | manual
  deriving DecidableEq

structure ContractLine where
  id : String
  lineType : LineType
  description : String
  siteId : Option String := none
  siteName : Option String := none
  deviceGroupId : Option String := none
  deviceGroupName : Option String := none

structure Contract where
  startDate : Text
  endDate : Option Text
  intervalMonths : ℕ
  billingTiming : BillingTiming
  status : ContractStatus
  nextBillingAt : Option Text
  autoIssue : Bool := false
  autoRenew : Bool := false
  renewalTermMonths : Option ℕ := none
  renewalNoticeDays : Option ℕ := none

inductive NoticeKind where
  | advance
  | renewed
  deriving DecidableEq

/-- The rows that belong to one contract: itself, its lines, its claimed billing periods, its
claimed renewal notices, and whether its organization takes part in automation. -/
structure Ledger where
  contract : Contract
  lines : List ContractLine
  periods : List Period
  notices : List (Text × NoticeKind) := []
  orgEligible : Bool := true

structure ContractServiceError where
  message : String
  status : ℕ
  code : String

inductive Skipped where
  | alreadyBilled
  | expired
  | notDue
  deriving DecidableEq

structure GenerateResult where
  generated : Bool
  invoiceId : Option String := none
  skipped : Option Skipped := none
  autoIssue : Bool := false
  deriving DecidableEq

def skip (reason : Skipped) : GenerateResult := { generated := false, skipped := some reason }

/-- What one billing run finds outside the contract's own rows: the date, the device groups the
organization's snapshot resolves, the outcome of drafting the invoice with its lines, and the
outcome of the writes that follow a won claim. -/
structure BillingRun where
  today : Text
  hasGroup : String → Bool := fun _ => true
  draft : Except ContractServiceError String := .ok "invoice"
  afterClaim : Except ContractServiceError Unit := .ok ()

def isSiteDeletedLine (l : ContractLine) : Bool :=
  (l.lineType == .perDevice || l.lineType == .perDeviceRole) && l.siteId.isNone && l.siteName.isSome

def isGroupDeletedLine (hasGroup : String → Bool) (l : ContractLine) : Bool :=
  l.lineType == .perDeviceGroup && !(l.deviceGroupId.any hasGroup)

def siteDeleted (l : ContractLine) : ContractServiceError where
  message := "contract line " ++ l.id ++ " is scoped to site \"" ++ l.siteName.getD "" ++
    "\", which no longer exists"
  status := 409
  code := "SITE_DELETED"

def groupDeleted (l : ContractLine) : ContractServiceError where
  message := "Contract line \"" ++ l.description ++ "\" bills device group \"" ++
    l.deviceGroupName.getD "" ++ "\", which no longer exists"
  status := 409
  code := "GROUP_DELETED"

def lineProblem (lines : List ContractLine) (hasGroup : String → Bool) : Option ContractServiceError :=
  match lines.find? isSiteDeletedLine with
  | some l => some (siteDeleted l)
  | none => (lines.find? (isGroupDeletedLine hasGroup)).map groupDeleted

def activateContract (db : Ledger) (asOf : Text) : Except ContractServiceError Ledger :=
  let c := db.contract
  if c.status ≠ .draft ∧ c.status ≠ .paused then
    .error ⟨"Only draft/paused contracts can be activated", 409, "INVALID_STATE"⟩
  else if db.lines = [] then
    .error ⟨"Contract needs at least one line", 409, "NO_LINES"⟩
  else
    let idx := periodIndexFor c.startDate c.intervalMonths asOf
    let nextAt := nextBillingDate c.startDate c.intervalMonths c.billingTiming idx
    .ok { db with contract := { c with status := .active, nextBillingAt := some nextAt } }

def pauseContract (db : Ledger) : Except ContractServiceError Ledger :=
  let c := db.contract
  if c.status ≠ .active then
    .error ⟨"Only active contracts can be paused", 409, "INVALID_STATE"⟩
  else .ok { db with contract := { c with status := .paused, nextBillingAt := none } }

def resumeContract (db : Ledger) (asOf : Text) : Except ContractServiceError Ledger :=
  let c := db.contract
  if c.status ≠ .paused then
    .error ⟨"Only paused contracts can be resumed", 409, "INVALID_STATE"⟩
  else
    let idx := periodIndexFor c.startDate c.intervalMonths asOf
    let nextAt := nextBillingDate c.startDate c.intervalMonths c.billingTiming idx
    .ok { db with contract := { c with status := .active, nextBillingAt := some nextAt } }

def dueIndex (c : Contract) (nextBillingAt : Text) : ℕ :=
  let idxAt := periodIndexFor c.startDate c.intervalMonths nextBillingAt
  match c.billingTiming with
  | .advance => idxAt
  | .arrears => idxAt - 1

def expire (db : Ledger) : Ledger :=
  { db with contract := { db.contract with status := .expired, nextBillingAt := none } }

/-- Insert with `ON CONFLICT (contract_id, period_start) DO NOTHING`. -/
def claimPeriod (periods : List Period) (period : Period) : Option (List Period) :=
  if period.periodStart ∈ periods.map Period.periodStart then none else some (periods ++ [period])

def advancePointer (db : Ledger) (idx : ℕ) : Ledger :=
  let c := db.contract
  let nextPeriod := computePeriod c.startDate c.intervalMonths (idx + 1)
  if isExpired c.endDate nextPeriod.periodStart then expire db
  else
    let nextAt := match c.billingTiming with
      | .advance => nextPeriod.periodStart
      | .arrears => nextPeriod.periodEnd
    { db with contract := { c with nextBillingAt := some nextAt } }

def billPeriod (db : Ledger) (run : BillingRun) (idx : ℕ) :
    Except ContractServiceError (GenerateResult × Ledger) :=
  let c := db.contract
  let period := computePeriod c.startDate c.intervalMonths idx
  if isExpired c.endDate period.periodStart then .ok (skip .expired, expire db)
  else if db.lines = [] then .ok (skip .notDue, db)
  else match lineProblem db.lines run.hasGroup with
    | some problem => .error problem
    | none => do
      let invoiceId ← run.draft
      match claimPeriod db.periods period with
      | none => .ok (skip .alreadyBilled, db)
      | some periods =>
        run.afterClaim
        .ok ({ generated := true, invoiceId := some invoiceId, autoIssue := c.autoIssue },
          advancePointer { db with periods := periods } idx)

def generateDueInvoice (db : Ledger) (run : BillingRun) :
    Except ContractServiceError (GenerateResult × Ledger) :=
  match db.contract.status, db.contract.nextBillingAt with
  | .active, some nextBillingAt =>
    if run.today < nextBillingAt then .ok (skip .notDue, db)
    else billPeriod db run (dueIndex db.contract nextBillingAt)
  | _, _ => .ok (skip .notDue, db)

inductive Call where
  | activate (asOf : Text)
  | pause
  | resume (asOf : Text)
  | generate (run : BillingRun)

def Call.date : Call → Option Text
  | .activate asOf => some asOf
  | .pause => none
  | .resume asOf => some asOf
  | .generate run => some run.today

def commit (db : Ledger) : Except ContractServiceError Ledger → Ledger
  | .ok db' => db'
  | .error _ => db

def step (db : Ledger) : Call → Ledger
  | .activate asOf => commit db (activateContract db asOf)
  | .pause => commit db (pauseContract db)
  | .resume asOf => commit db (resumeContract db asOf)
  | .generate run => commit db ((generateDueInvoice db run).map Prod.snd)

def run (db : Ledger) (calls : List Call) : Ledger := calls.foldl step db

@[simp] lemma run_nil (db : Ledger) : run db [] = db := rfl

@[simp] lemma run_cons (db : Ledger) (call : Call) (calls : List Call) :
    run db (call :: calls) = run (step db call) calls := rfl

end Breeze.Contracts.ContractService
