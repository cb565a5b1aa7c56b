import Breeze.Contracts.ContractService

/-! The mapping of quoteToContract.ts from the recurring lines of an accepted quote to contracts,
one for each cadence, and the rows that contractService.ts stores for them. -/

namespace Breeze.Contracts.QuoteToContract

open Breeze.Lib.Decimal ContractMath ContractService

inductive Recurrence where
  | oneTime
  | monthly
  | annual
  deriving DecidableEq

inductive OverageMode where
  | bill
  | flag
  deriving DecidableEq

structure QuoteForContract where
  orgId : String
  partnerId : String
  quoteNumber : String
  currencyCode : String
  terms : Option String

inductive QuoteLineType where
  | perDevice
  | perDeviceRole
  | perDeviceGroup
  | perSeat
  deriving DecidableEq

def QuoteLineType.toLineType : QuoteLineType → LineType
  | .perDevice => .perDevice
  | .perDeviceRole => .perDeviceRole
  | .perDeviceGroup => .perDeviceGroup
  | .perSeat => .perSeat

structure QuoteLineForContract where
  sourceQuoteLineId : String
  recurrence : Recurrence
  customerVisible : Bool
  name : Option String
  description : Option String
  unitPrice : String
  quantity : String
  taxable : Bool
  termMonths : Option ℕ
  contractLineType : Option QuoteLineType
  deviceRoles : Option (List String)
  deviceGroupId : Option String
  siteId : Option String
  siteName : Option String
  includedQuantity : Option String
  overageMode : Option OverageMode
  overageUnitPrice : Option String

structure NewContractLineSpec where
  lineType : LineType
  description : String
  unitPrice : String
  taxable : Bool
  catalogItemId : Option String
  manualQuantity : Option String
  siteId : Option String := none
  siteName : Option String := none
  deviceRoles : Option (List String) := none
  deviceGroupId : Option String := none
  includedQuantity : Option String := none
  overageMode : Option OverageMode := none
  overageUnitPrice : Option String := none
  sortOrder : ℕ
  sourceQuoteLineId : String

structure NewContractSpec where
  orgId : String
  partnerId : String
  name : String
  billingTiming : BillingTiming
  intervalMonths : ℕ
  startDate : Text
  endDate : Option Text
  currencyCode : String
  notes : Option String
  terms : Option String
  createdBy : Option String
  lines : List NewContractLineSpec

def isDateText (s : Text) : Bool :=
  match s with
  | [a, b, c, d, h, e, f, i, g, k] =>
    a.isDigit && b.isDigit && c.isDigit && d.isDigit && h == '-' && e.isDigit && f.isDigit &&
      i == '-' && g.isDigit && k.isDigit
  | _ => false

def isoYear (y : ℤ) : Text :=
  if 0 ≤ y ∧ y ≤ 9999 then padStart 4 (Nat.toDigits 10 y.toNat)
  else (if y < 0 then '-' else '+') :: padStart 6 (Nat.toDigits 10 y.natAbs)

def isoDate : ℤ × ℕ × ℕ → Text
  | (y, m, d) =>
    isoYear y ++ '-' :: (padStart 2 (Nat.toDigits 10 m) ++ '-' :: padStart 2 (Nat.toDigits 10 d))

/-- `setUTCMonth` keeps the day, so a day the month does not have rolls over into the next one. -/
def addMonthsToDate (dateStr : Text) (months : ℕ) : Except String Text :=
  if isDateText dateStr = false then
    .error ("addMonthsToDate: expected YYYY-MM-DD, got \"" ++ String.ofList dateStr ++ "\"")
  else if months < 1 then
    .error s!"addMonthsToDate: months must be a positive integer, got {months}"
  else
    let (y, m, d) := parts dateStr
    let (y, m, d) := makeDay (utcYear y) m d
    .ok ((isoDate (makeDay y (m + months) d)).take 10)

structure Cadence where
  key : Recurrence
  intervalMonths : ℕ
  label : String

def CADENCES : List Cadence := [⟨.monthly, 1, "Monthly"⟩, ⟨.annual, 12, "Annual"⟩]

def lineDescription (l : QuoteLineForContract) : String :=
  match l.name, l.description with
  | some name, some description =>
    if name ≠ "" ∧ description ≠ "" then name ++ " — " ++ description else name
  | some name, none => name
  | none, description => description.getD ""

def lineSpec (i : ℕ) (l : QuoteLineForContract) : NewContractLineSpec :=
  match l.contractLineType with
  | none =>
    { lineType := .manual, description := lineDescription l, unitPrice := l.unitPrice, taxable := l.taxable
      catalogItemId := none, manualQuantity := some l.quantity, sortOrder := i
      sourceQuoteLineId := l.sourceQuoteLineId }
  | some lineType =>
    let siteScopable := lineType = .perDevice ∨ lineType = .perDeviceRole
    { lineType := lineType.toLineType, description := lineDescription l, unitPrice := l.unitPrice
      taxable := l.taxable, catalogItemId := none, manualQuantity := none
      deviceRoles := if lineType = .perDeviceRole then l.deviceRoles else none
      deviceGroupId := if lineType = .perDeviceGroup then l.deviceGroupId else none
      siteId := if siteScopable then l.siteId else none
      siteName := if siteScopable then l.siteName else none
      includedQuantity := l.includedQuantity, overageMode := l.overageMode
      overageUnitPrice := l.overageUnitPrice, sortOrder := i, sourceQuoteLineId := l.sourceQuoteLineId }

def cadenceGroup (lines : List QuoteLineForContract) (cadence : Cadence) : List QuoteLineForContract :=
  lines.filter (fun l => l.recurrence = cadence.key ∧ l.customerVisible = true)

def termEnd (group : List QuoteLineForContract) (startDate : Text) : Except String (Option Text) :=
  match (group.filterMap QuoteLineForContract.termMonths).dedup with
  | [term] => (addMonthsToDate startDate term).map some
  | _ => .ok none

def cadenceSpec (quote : QuoteForContract) (lines : List QuoteLineForContract) (startDate : Text)
    (createdBy : Option String) (cadence : Cadence) : Except String (Option NewContractSpec) :=
  let group := cadenceGroup lines cadence
  if group = [] then .ok none
  else do
    let endDate ← termEnd group startDate
    return some {
      orgId := quote.orgId
      partnerId := quote.partnerId
      name := quote.quoteNumber ++ " — " ++ cadence.label
      billingTiming := .advance
      intervalMonths := cadence.intervalMonths
      startDate := startDate
      endDate := endDate
      currencyCode := quote.currencyCode
      notes := some ("Auto-created from accepted quote " ++ quote.quoteNumber)
      terms := quote.terms
      createdBy := createdBy
      lines := group.mapIdx lineSpec }

def buildContractSpecsFromQuote (quote : QuoteForContract) (lines : List QuoteLineForContract)
    (startDate : Text) (createdBy : Option String) : Except String (List NewContractSpec) := do
  let specs ← CADENCES.mapM (cadenceSpec quote lines startDate createdBy)
  return specs.reduceOption

def createContract (spec : NewContractSpec) : Contract where
  startDate := spec.startDate
  endDate := spec.endDate
  intervalMonths := spec.intervalMonths
  billingTiming := spec.billingTiming
  status := .draft
  nextBillingAt := none

def createContractWithLines (spec : NewContractSpec) (rows : List ContractLine) : Ledger where
  contract := createContract spec
  lines := rows
  periods := []

end Breeze.Contracts.QuoteToContract
