import Breeze.Contracts.DeviceCoverage

/-! The lines and the device evidence that a billing run writes: contractAllowance.ts, and the part of
`generateDueInvoice` between its draft and its pointer. -/

namespace Breeze.Contracts.BillingEvidence

open Breeze.Lib.Decimal ContractService DeviceCoverage

inductive OverageMode where
  | bill
  | flag
  deriving DecidableEq

inductive BaseBillingMode where
  | includedUnits
  | singleBlock

structure ContractLineRow extends CoverageLine where
  unitPrice : Text := "0.00".toList
  taxable : Bool := false
  catalogItemId : Option String := none
  manualQuantity : Option ℚ := none
  includedQuantity : Option ℕ := none
  overageMode : Option OverageMode := none
  overageUnitPrice : Option Text := none

def allowsAllowance : LineType → Bool
  | .perDevice | .perDeviceRole | .perDeviceGroup | .perSeat => true
  | .flat | .manual => false

structure AllowanceCheck (l : ContractLineRow) : Prop where
  together : l.includedQuantity.isNone = l.overageMode.isNone
  positive : ∀ n, l.includedQuantity = some n → 0 < n
  priced : l.overageUnitPrice.isSome = (l.overageMode == some .bill)
  counted : allowsAllowance l.lineType = false → l.includedQuantity = none

structure ResolvedQuantity where
  counted : ℚ
  billed : ℚ
  included : Option ℕ
  overage : ℚ
  overageMode : Option OverageMode

def applyAllowance (counted : ℚ) (spec : ContractLineRow) (baseBillingMode : BaseBillingMode) : ResolvedQuantity :=
  match spec.includedQuantity with
  | none =>
    { counted := counted
      billed := match baseBillingMode with
        | .singleBlock => 1
        | .includedUnits => counted
      included := none
      overage := 0
      overageMode := none }
  | some included =>
    { counted := counted
      billed := match baseBillingMode with
        | .singleBlock => 1
        | .includedUnits => included
      included := some included
      overage := max 0 (counted - included)
      overageMode := spec.overageMode }

def billsOverage (r : ResolvedQuantity) : Bool := r.overageMode == some .bill && decide (0 < r.overage)

inductive PricedFrom where
  | catalog
  | contractSnapshot
  deriving DecidableEq

structure LineRequest where
  description : String
  quantity : ℚ
  unitPrice : Text
  taxable : Bool
  catalogItemId : Option String
  sourceId : String
  costBasis : Option Text := none

structure InvoiceLine where
  id : String
  sourceId : String
  description : String
  quantity : ℚ
  unitPrice : Text
  taxable : Bool
  costBasis : Option Text
  lineTotal : Text

structure Priced where
  unitPrice : Text
  taxable : Bool
  costBasis : Option Text
  pricedFrom : PricedFrom

/-- What a run finds outside the contract's rows: the organization's snapshot, its seats, the draft invoice,
prices (or an error of the locks, the catalog or the currency), totals, and the ids of the lines it inserts. -/
structure Surroundings where
  snapshot : OrgDeviceSnapshot
  seats : Except ContractServiceError ℕ
  invoice : Except ContractServiceError String
  priced : LineRequest → Except ContractServiceError Priced
  lineId : ℕ → String
  computeLineTotal : ℚ → Text → Text
  multiplyToCurrency : ℚ → Text → Except ContractServiceError Text

structure OverageSummary where
  contractLineId : String
  invoiceLineId : Option String
  description : String
  counted : ℚ
  included : ℕ
  overage : ℚ
  mode : OverageMode

structure MaterializedContractLine where
  baseLine : InvoiceLine
  overageLine : Option InvoiceLine
  overage : Option OverageSummary
  pricedFrom : PricedFrom

def invalidState (message : String) : ContractServiceError := ⟨message, 500, "INVALID_STATE"⟩

section Run

variable (env : Surroundings)

/-- The quantity is inserted as it is requested. `inserted` counts the lines of the draft. -/
def addContractLine (inserted : ℕ) (input : LineRequest) : Except ContractServiceError (InvoiceLine × PricedFrom) := do
  let price ← env.priced input
  return (
    { id := env.lineId inserted
      sourceId := input.sourceId
      description := input.description
      quantity := input.quantity
      unitPrice := price.unitPrice
      taxable := price.taxable
      costBasis := price.costBasis
      lineTotal := env.computeLineTotal input.quantity price.unitPrice },
    price.pricedFrom)

def addOverageLine (inserted : ℕ) (line : ContractLineRow) (resolved : ResolvedQuantity) (baseLine : InvoiceLine) :
    Except ContractServiceError InvoiceLine := do
  let overageUnitPrice := line.overageUnitPrice.getD []
  let expectedLineTotal ← env.multiplyToCurrency resolved.overage overageUnitPrice
  let (overageLine, _) ← addContractLine env inserted
    { description := "Overage: " ++ toString resolved.overage ++ " above " ++ toString (resolved.included.getD 0) ++
        " included — " ++ line.description
      quantity := resolved.overage
      unitPrice := overageUnitPrice
      taxable := baseLine.taxable
      costBasis := baseLine.costBasis
      catalogItemId := none
      sourceId := line.id }
  if overageLine.lineTotal ≠ expectedLineTotal then
    throw (invalidState "Materialized overage total does not match its exact decimal value")
  return overageLine

def overageSummary (line : ContractLineRow) (resolved : ResolvedQuantity) (overageLine : Option InvoiceLine) :
    Option OverageSummary :=
  match resolved.overageMode with
  | none => none
  | some mode =>
    if 0 < resolved.overage then
      some
        { contractLineId := line.id
          invoiceLineId := overageLine.map InvoiceLine.id
          description := line.description
          counted := resolved.counted
          included := resolved.included.getD 0
          overage := resolved.overage
          mode := mode }
    else none

def billedOverage (inserted : ℕ) (line : ContractLineRow) (resolved : ResolvedQuantity) (baseLine : InvoiceLine) :
    Except ContractServiceError (Option InvoiceLine) :=
  if billsOverage resolved then some <$> addOverageLine env inserted line resolved baseLine else .ok none

def materializeContractLineOntoInvoice (inserted : ℕ) (line : ContractLineRow) (resolved : ResolvedQuantity) :
    Except ContractServiceError MaterializedContractLine := do
  let (baseLine, pricedFrom) ← addContractLine env inserted
    { description := line.description
      quantity := resolved.billed
      unitPrice := line.unitPrice
      taxable := line.taxable
      catalogItemId := line.catalogItemId
      sourceId := line.id }
  let overageLine ← billedOverage env (inserted + 1) line resolved baseLine
  return ⟨baseLine, overageLine, overageSummary line resolved overageLine, pricedFrom⟩

inductive CountedAs where
  | included
  | overage
  | flagged
  deriving DecidableEq

structure PendingEvidence where
  invoiceLineId : String
  deviceId : String
  hostname : String
  deviceRole : String
  siteId : Option String
  countedAs : CountedAs

def noOverageLine : ContractServiceError := invalidState "Overage evidence has no overage invoice line"

def evidenceRow (resolved : ResolvedQuantity) (materialized : MaterializedContractLine) (cut : ℕ) (row : DeviceSnapshotRow) (i : ℕ) :
    Except ContractServiceError PendingEvidence :=
  let pending := fun line countedAs => PendingEvidence.mk line row.id row.hostname row.role row.siteId countedAs
  if i < cut then .ok (pending materialized.baseLine.id .included)
  else if resolved.overageMode = some .bill then
    match materialized.overageLine with
    | none => .error noOverageLine
    | some overageLine => .ok (pending overageLine.id .overage)
  else .ok (pending materialized.baseLine.id .flagged)

def evidenceCut (included : Option ℕ) (n : ℕ) : ℕ :=
  match included with
  | none => n
  | some included => min included n

def evidenceForLine (devices : List DeviceSnapshotRow) (resolved : ResolvedQuantity) (materialized : MaterializedContractLine) :
    Except ContractServiceError (List PendingEvidence) :=
  let ordered := orderDevicesForEvidence devices
  let cut := evidenceCut resolved.included ordered.length
  ordered.zipIdx.mapM fun entry => evidenceRow resolved materialized cut entry.1 entry.2

def roleLineIsInvalid (line : CoverageLine) : Bool := line.lineType == .perDeviceRole && (line.deviceRoles.getD []).isEmpty

def plainError (message : String) : ContractServiceError := ⟨message, 500, ""⟩

def deviceQuantity (snapshot : OrgDeviceSnapshot) (l : ContractLineRow) :
    Except ContractServiceError (ℚ × Option (List DeviceSnapshotRow)) :=
  if roleLineIsInvalid l.toCoverageLine then
    .error (invalidState ("Contract line " ++ l.id ++ " is per_device_role but carries no device roles"))
  else
    match matchingDevicesForLine snapshot l.toCoverageLine with
    | .error message => .error (plainError message)
    | .ok devices => .ok ((orderDevicesForEvidence devices).length, some (orderDevicesForEvidence devices))

def lineQuantity (snapshot : OrgDeviceSnapshot) (l : ContractLineRow) :
    Except ContractServiceError (ℚ × Option (List DeviceSnapshotRow)) :=
  match l.lineType with
  | .flat => .ok (1, none)
  | .manual => .ok (l.manualQuantity.getD 0, none)
  | .perDevice | .perDeviceRole | .perDeviceGroup => deviceQuantity snapshot l
  | .perSeat => env.seats.map fun n : ℕ => ((n : ℚ), none)

structure PriceBookGap where
  contractLineId : String
  catalogItemId : String
  itemName : String

structure Draft where
  lines : List InvoiceLine := []
  priceBookGaps : List PriceBookGap := []
  overages : List OverageSummary := []
  pendingEvidence : List PendingEvidence := []

def lineEvidence (ordered : Option (List DeviceSnapshotRow)) (resolved : ResolvedQuantity) (materialized : MaterializedContractLine) :
    Except ContractServiceError (List PendingEvidence) :=
  match ordered with
  | none => .ok []
  | some devices => evidenceForLine devices resolved materialized

def priceBookGap (l : ContractLineRow) (pricedFrom : PricedFrom) : List PriceBookGap :=
  match l.catalogItemId with
  | some item => if pricedFrom = .contractSnapshot then [⟨l.id, item, l.description⟩] else []
  | none => []

def billLine (snapshot : OrgDeviceSnapshot) (draft : Draft) (l : ContractLineRow) : Except ContractServiceError Draft := do
  let (quantity, ordered) ← lineQuantity env snapshot l
  let r := applyAllowance quantity l .includedUnits
  let materialized ← materializeContractLineOntoInvoice env draft.lines.length l r
  let evidence ← lineEvidence ordered r materialized
  return {
    lines := draft.lines ++ materialized.baseLine :: materialized.overageLine.toList
    priceBookGaps := draft.priceBookGaps ++ priceBookGap l materialized.pricedFrom
    overages := draft.overages ++ materialized.overage.toList
    pendingEvidence := draft.pendingEvidence ++ evidence }

def hasDeviceLine (lines : List ContractLineRow) : Bool := lines.any fun l => isDeviceLine l.toCoverageLine

def snapshotFor (lines : List ContractLineRow) : OrgDeviceSnapshot := if hasDeviceLine lines then env.snapshot else emptySnapshot

def draftLines (lines : List ContractLineRow) : Except ContractServiceError Draft :=
  lines.foldlM (billLine env (snapshotFor env lines)) {}

structure Outcome where
  snapshotDeviceTotal : ℕ
  uncoveredTotal : ℕ
  uncoveredByRole : List (String × ℕ)
  flaggedTotal : ℚ
  billedOverageTotal : ℚ
  overages : List OverageSummary

def resolvableLines (snapshot : OrgDeviceSnapshot) (lines : List ContractLineRow) : List CoverageLine :=
  (lines.filter fun l => !isGroupDeletedLine (fun group => (snapshot.groups group).isSome) l.toContractLine &&
    !isSiteDeletedLine l.toContractLine).map ContractLineRow.toCoverageLine

def modeTotal (overages : List OverageSummary) (mode : OverageMode) : ℚ :=
  ((overages.filter fun o => o.mode == mode).map OverageSummary.overage).sum

def uncoveredDevices (lines : List ContractLineRow) : Except ContractServiceError UncoveredDevices :=
  let snapshot := snapshotFor env lines
  if hasDeviceLine lines then (uncoveredByRole snapshot (resolvableLines snapshot lines)).mapError plainError else .ok ⟨0, []⟩

def outcomeRow (lines : List ContractLineRow) (draft : Draft) : Except ContractServiceError Outcome := do
  let uncovered ← uncoveredDevices env lines
  return {
    snapshotDeviceTotal := if hasDeviceLine lines then (snapshotFor env lines).devices.length else 0
    uncoveredTotal := uncovered.total
    uncoveredByRole := uncovered.byRole
    flaggedTotal := modeTotal draft.overages .flag
    billedOverageTotal := modeTotal draft.overages .bill
    overages := draft.overages }

structure Written where
  invoiceLines : List InvoiceLine
  evidence : List PendingEvidence
  outcome : Outcome

/-- The draft and the writes after a won claim, as `ContractService.generateDueInvoice` calls them. -/
def billingRun (today : Text) (lines : List ContractLineRow) : BillingRun where
  today := today
  hasGroup := fun group => ((snapshotFor env lines).groups group).isSome
  draft := do
    let invoice ← env.invoice
    let _ ← draftLines env lines
    return invoice
  afterClaim := do
    let draft ← draftLines env lines
    let _ ← outcomeRow env lines draft

def writtenRows (lines : List ContractLineRow) : Except ContractServiceError Written := do
  let draft ← draftLines env lines
  let outcome ← outcomeRow env lines draft
  return ⟨draft.lines, draft.pendingEvidence, outcome⟩

/-- `generateDueInvoice` with the rows it writes for the period it bills. -/
def generateWithEvidence (db : Ledger) (today : Text) (lines : List ContractLineRow) :
    Except ContractServiceError (GenerateResult × Ledger × Option Written) := do
  let (result, db') ← generateDueInvoice { db with lines := lines.map fun l => l.toContractLine } (billingRun env today lines)
  if result.generated then return (result, db', some (← writtenRows env lines)) else return (result, db', none)

end Run

end Breeze.Contracts.BillingEvidence
