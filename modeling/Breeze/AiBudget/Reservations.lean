import Breeze.Lib.Decimal
import Breeze.Lib.Table
import Breeze.Lib.Transactions

/-! The AI budget ledger: reservations of an organization's caps (ai_budget_reservations), what was charged (ai_cost_usage and
ai_sessions), and the calls on them as transactions. Amounts are millionths of a cent, times milliseconds of the database's
clock. -/

namespace Breeze.AiBudget

open Lib Lib.Transactions Lib.Decimal

abbrev OrgId := String
abbrev SessionId := String
abbrev ReservationId := ℕ

inductive Status where
  | active | settled | indeterminate | released | expired
  deriving DecidableEq

def Status.text : Status → String
  | .active => "active"
  | .settled => "settled"
  | .indeterminate => "indeterminate"
  | .released => "released"
  | .expired => "expired"

inductive Namespace where
  | technician | client
  deriving DecidableEq

inductive BillingSource where
  | platform | partnerKey
  deriving DecidableEq

inductive Period where
  | daily | monthly
  deriving DecidableEq

inductive ExpiryReason where
  | activeTtl | indeterminateTtl
  deriving DecidableEq

structure ReservationRow where
  orgId : OrgId
  idempotencyKey : String
  sessionId : Option SessionId
  billingSource : BillingSource
  namespace_ : Namespace
  dailyPeriodKey : String
  monthlyPeriodKey : String
  uncapped : Bool
  reservedCostCents : ℕ
  actualCostCents : Option ℕ := none
  status : Status := .active
  settlementFingerprint : Option String := none
  expiresAt : ℤ
  expiryReason : Option ExpiryReason := none

structure Settlement where
  actualCostCents : ℕ
  inputTokens : ℕ
  outputTokens : ℕ
  messageCount : ℕ
  toolExecutionCount : ℕ
  session : Option SessionId
  turnCount : ℕ

abbrev UsageKey := OrgId × Period × String

structure CostUsage where
  inputTokens : ℤ := 0
  outputTokens : ℤ := 0
  totalCostCents : ℤ := 0
  messageCount : ℤ := 0
  toolExecutionCount : ℤ := 0
  -- not a column: the settlements that were added to the row
  charges : List (ReservationId × Settlement) := []

structure SessionRow where
  orgId : OrgId
  totalInputTokens : ℤ := 0
  totalOutputTokens : ℤ := 0
  totalCostCents : ℤ := 0
  turnCount : ℤ := 0
  charges : List (ReservationId × Settlement) := []

structure Database where
  clock : ℤ := 0
  organizations : List OrgId := []
  reservations : Table ReservationId ReservationRow := ∅
  usage : Table UsageKey CostUsage := ∅
  -- client_ai_usage, summed over the portal users
  clientUsage : Table UsageKey ℤ := ∅
  sessions : Table SessionId SessionRow := ∅

inductive Row where
  | organization (org : OrgId)
  | reservation (id : ReservationId)
  | session (id : SessionId)
  | usage (key : UsageKey)
  deriving DecidableEq

abbrev Step := Proc Database Row

section Amounts

def moneyScale : ℕ := 1000000

def maxMoneyCents : ℕ := 99999999999999

-- no amount is an infinite one
def moneyString (value : Option ℤ) (label : String) : Except String ℕ :=
  match value with
  | none => .error s!"{label} must be a finite non-negative monetary amount"
  | some v =>
    if v < 0 ∨ (maxMoneyCents * moneyScale : ℕ) < v then .error s!"{label} must be a finite non-negative monetary amount"
    else .ok v.toNat

def nonNegativeInteger (value : ℤ) (label : String) : Except String ℕ :=
  if value < 0 ∨ 9007199254740991 < value then .error s!"{label} must be a non-negative safe integer" else .ok value.toNat

structure UtcDay where
  year : ℕ
  month : ℕ
  day : ℕ

structure PeriodKeys where
  daily : String
  monthly : String

def periodKeys (now : UtcDay) : PeriodKeys where
  daily := String.ofList (Nat.toDigits 10 now.year ++ '-' :: padStart 2 (Nat.toDigits 10 now.month)
    ++ '-' :: padStart 2 (Nat.toDigits 10 now.day))
  monthly := String.ofList (Nat.toDigits 10 now.year ++ '-' :: padStart 2 (Nat.toDigits 10 now.month))

def PeriodKeys.get (keys : PeriodKeys) : Period → String
  | .daily => keys.daily
  | .monthly => keys.monthly

def ReservationRow.periodKey (row : ReservationRow) : Period → String
  | .daily => row.dailyPeriodKey
  | .monthly => row.monthlyPeriodKey

end Amounts

structure Caps where
  dailyBudgetCents : Option ℕ
  monthlyBudgetCents : Option ℕ

def Caps.get (caps : Caps) : Period → Option ℕ
  | .daily => caps.dailyBudgetCents
  | .monthly => caps.monthlyBudgetCents

def Caps.uncapped (caps : Caps) : Bool := caps.dailyBudgetCents.isNone && caps.monthlyBudgetCents.isNone

structure EffectiveAiBudget extends Caps where
  enabled : Bool

section Inputs

structure ReserveInput where
  orgId : OrgId
  idempotencyKey : String
  billingSource : BillingSource
  sessionId : Option SessionId := none
  namespace_ : Option Namespace := none
  clientBudget : Option Caps := none
  maxHoldCents : Option ℤ := none
  now : UtcDay

structure SettleInput where
  orgId : OrgId
  reservationId : ReservationId
  actualCostCents : ℤ
  inputTokens : ℤ
  outputTokens : ℤ
  messageCount : Option ℤ := none
  toolExecutionCount : Option ℤ := none
  session : Option (SessionId × Option ℤ) := none

def isHex (c : Char) : Bool := ('0' ≤ c ∧ c ≤ '9') ∨ ('a' ≤ c ∧ c ≤ 'f') ∨ ('A' ≤ c ∧ c ≤ 'F')

def uuidPattern : List (Char → Bool) :=
  List.replicate 8 isHex ++ (· == '-') :: List.replicate 4 isHex ++ (· == '-') :: (fun c => '1' ≤ c ∧ c ≤ '5') ::
    List.replicate 3 isHex ++ (· == '-') :: ("89abAB".toList.contains ·) :: List.replicate 3 isHex ++ (· == '-') ::
    List.replicate 12 isHex

def isUuid (s : String) : Bool :=
  s.toList.length == uuidPattern.length && (List.zipWith (fun test c => test c) uuidPattern s.toList).all id

def validateIdentity (input : ReserveInput) : Except String Unit := do
  if !isUuid input.orgId then throw "orgId must be a UUID"
  if !(input.sessionId.all isUuid) then throw "sessionId must be a UUID or null"
  if input.idempotencyKey.length < 1 ∨ 200 < input.idempotencyKey.length then
    throw "idempotencyKey must contain 1-200 characters"
  let namespace_ := input.namespace_.getD .technician
  if namespace_ = .client ∧ input.clientBudget.isNone then
    throw "clientBudget is required for a client-namespace reservation"
  if namespace_ ≠ .client ∧ input.clientBudget.isSome then
    throw "clientBudget is only meaningful for a client-namespace reservation"
  if input.maxHoldCents.any (· ≤ 0) then throw "maxHoldCents must be a finite positive amount"

def settlementOf (input : SettleInput) : Except String Settlement := do
  let cost ← moneyString (some input.actualCostCents) "actualCostCents"
  let inputTokens ← nonNegativeInteger input.inputTokens "inputTokens"
  let outputTokens ← nonNegativeInteger input.outputTokens "outputTokens"
  let messageCount ← nonNegativeInteger (input.messageCount.getD 1) "messageCount"
  let toolExecutionCount ← nonNegativeInteger (input.toolExecutionCount.getD 0) "toolExecutionCount"
  let turnCount ← nonNegativeInteger ((input.session.bind (·.2)).getD 1) "session.turnCount"
  return { actualCostCents := cost, inputTokens, outputTokens, messageCount, toolExecutionCount,
           session := input.session.map (·.1), turnCount }

end Inputs

section Denials

inductive DenialReason where
  | aiDisabled
  | dailyBudget | monthlyBudget
  | clientDailyBudget | clientMonthlyBudget
  | clientDailyBudgetInFlight | clientMonthlyBudgetInFlight
  | dailyBudgetInFlight | monthlyBudgetInFlight
  deriving DecidableEq

structure Denial where
  reason : DenialReason
  message : String

def dollars (cents : ℕ) : String :=
  String.ofList (Nat.toDigits 10 (cents / 100) ++ '.' :: padStart 2 (Nat.toDigits 10 (cents % 100)))

def denial (reason : DenialReason) (capCents : ℕ := 0) : Denial where
  reason := reason
  message :=
    match reason with
    | .aiDisabled => "AI features are disabled for this organization"
    | .dailyBudgetInFlight | .monthlyBudgetInFlight =>
      "Another AI request is in flight against this organization's budget; retry shortly"
    | .clientDailyBudgetInFlight | .clientMonthlyBudgetInFlight =>
      "Another AI request is in flight against your organization’s budget; retry shortly"
    | .clientDailyBudget =>
      s!"Daily AI budget for your organization has been reached (${dollars capCents}). Contact your IT provider to raise it."
    | .clientMonthlyBudget =>
      s!"Monthly AI budget for your organization has been reached (${dollars capCents}). Contact your IT provider to raise it."
    | .dailyBudget => s!"Daily AI budget exhausted (${dollars capCents})"
    | .monthlyBudget => s!"Monthly AI budget exhausted (${dollars capCents})"

end Denials

section Admission

def ReservationRow.holds (row : ReservationRow) (now : ℤ) : Bool :=
  (row.status = .active ∨ row.status = .indeterminate) ∧ now < row.expiresAt

def used (db : Database) (key : UsageKey) : ℤ := ((db.usage.lookup key).map (·.totalCostCents)).getD 0

def clientUsed (db : Database) (key : UsageKey) : ℤ := (db.clientUsage.lookup key).getD 0

def ReservationRow.share (now : ℤ) (key : UsageKey) (row : ReservationRow) : ℕ :=
  if row.orgId = key.1 ∧ row.periodKey key.2.1 = key.2.2 ∧ row.holds now then row.reservedCostCents else 0

def held (db : Database) (now : ℤ) (key : UsageKey) : ℕ := db.reservations.sumOf (·.share now key)

def clientHeld (db : Database) (now : ℤ) (key : UsageKey) : ℕ :=
  db.reservations.sumOf fun row => if row.namespace_ = .client then row.share now key else 0

def remaining (cap : Option ℕ) (used held : ℤ) : Option ℤ :=
  cap.map fun cap => (cap * moneyScale : ℕ) - max 0 used - max 0 held

def fence (cap : Option ℕ) (used held : ℤ) (inFlight spent : DenialReason) : Except Denial (Option ℤ) :=
  if (remaining cap used held).any (· ≤ 0) then
    if 0 < max 0 held ∧ 0 < (cap.getD 0 * moneyScale : ℕ) - max 0 used then .error (denial inFlight)
    else .error (denial spent (cap.getD 0))
  else .ok (remaining cap used held)

def admission (budget : EffectiveAiBudget) (input : ReserveInput) (db : Database) (now : ℤ) : Except Denial (Option ℤ) := do
  let key (period : Period) : UsageKey := (input.orgId, period, (periodKeys input.now).get period)
  let daily ← fence budget.dailyBudgetCents (used db (key .daily)) (held db now (key .daily)) .dailyBudgetInFlight .dailyBudget
  let monthly ← fence budget.monthlyBudgetCents (used db (key .monthly)) (held db now (key .monthly)) .monthlyBudgetInFlight
    .monthlyBudget
  let hold := Option.merge min (Option.merge min daily monthly) input.maxHoldCents
  match input.clientBudget with
  | none => return hold
  | some caps =>
    if caps.uncapped then return hold
    else do
      let daily ← fence caps.dailyBudgetCents (clientUsed db (key .daily)) (clientHeld db now (key .daily))
        .clientDailyBudgetInFlight .clientDailyBudget
      let monthly ← fence caps.monthlyBudgetCents (clientUsed db (key .monthly)) (clientHeld db now (key .monthly))
        .clientMonthlyBudgetInFlight .clientMonthlyBudget
      return Option.merge min (Option.merge min hold daily) monthly

end Admission

section Transactions

def transaction {α : Type} (p : Step (Except String α)) : Step (Except String α) := do
  match ← p with
  | .ok a => .commit (.done (.ok a))
  | .error e => .done (.error e)

def lockOrganizationRow (org : OrgId) : Step (Except String Unit) := do
  let db ← Proc.see
  if org ∈ db.organizations then do
    Proc.lockRow (.organization org)
    return .ok ()
  else return .error "Organization not found or not visible"

def selectForUpdate (test : ReservationId → ReservationRow → Bool) : Step (Option (ReservationId × ReservationRow)) := do
  let db ← Proc.see
  match (db.reservations.keysWhere test).head? with
  | none => return none
  | some id => do
    Proc.lockRow (.reservation id)
    let db ← Proc.see
    return ((db.reservations.lookup id).filter (test id)).map fun row => (id, row)

def selectReservation (org : OrgId) (id : ReservationId) : Step (Option (ReservationId × ReservationRow)) :=
  selectForUpdate fun id' row => id' = id ∧ row.orgId = org

def withReservation {α : Type} (org : OrgId) (reservation : ReservationId)
    (f : ReservationId → ReservationRow → Step (Except String α)) : Step (Except String α) := do
  match ← lockOrganizationRow org with
  | .error e => return .error e
  | .ok _ =>
    match ← selectReservation org reservation with
    | none => return .error "AI budget reservation not found or not visible"
    | some (id, row) => f id row

def Database.setReservation (db : Database) (id : ReservationId) (set : ReservationRow → ReservationRow) : Database :=
  { db with reservations := db.reservations.modify id set }

def updateReservation (id : ReservationId) (test : ReservationRow → Bool) (set : ReservationRow → ReservationRow) : Step Bool := do
  let rows ← Proc.update (fun db => (db.reservations.keysWhere fun id' row => id' = id ∧ test row).map Row.reservation)
    (fun _ _ db => (db.reservations.lookup id).any test) (fun _ db => db.setReservation id set)
  return !rows.isEmpty

end Transactions

section Reserve

inductive ReserveResult where
  | unlimited (reservationId : ReservationId) (dailyPeriodKey monthlyPeriodKey : String)
  | reserved (reservationId : ReservationId) (dailyPeriodKey monthlyPeriodKey : String) (reservedCostCents : ℕ)
  | denied (denial : Denial)

def existingResult (id : ReservationId) (row : ReservationRow) : Except String ReserveResult :=
  match row.status with
  | .indeterminate => .error s!"AI budget reservation {id} has an indeterminate provider outcome"
  | .expired => .error s!"AI budget reservation {id} expired before it was settled"
  | .active =>
    if row.uncapped then .ok (.unlimited id row.dailyPeriodKey row.monthlyPeriodKey)
    else .ok (.reserved id row.dailyPeriodKey row.monthlyPeriodKey row.reservedCostCents)
  | status => .error s!"AI budget reservation {id} is already {status.text}"

def activeTtl : ℤ := 30 * 60 * 1000

def indeterminateTtl : ℤ := 24 * 60 * 60 * 1000

def ReserveInput.uncapped (input : ReserveInput) (budget : EffectiveAiBudget) : Bool :=
  budget.uncapped && input.clientBudget.all Caps.uncapped

def newReservation (input : ReserveInput) (uncapped : Bool) (reservedCostCents : ℕ) (now : ℤ) : ReservationRow where
  orgId := input.orgId
  idempotencyKey := input.idempotencyKey
  sessionId := input.sessionId
  billingSource := input.billingSource
  namespace_ := input.namespace_.getD .technician
  dailyPeriodKey := (periodKeys input.now).daily
  monthlyPeriodKey := (periodKeys input.now).monthly
  uncapped := uncapped
  reservedCostCents := reservedCostCents
  expiresAt := now + activeTtl

def Database.addReservation (db : Database) (id : ReservationId) (row : ReservationRow) : Database :=
  { db with reservations := db.reservations.insert id row }

def holdFor (budget : EffectiveAiBudget) (input : ReserveInput) (db : Database) (now : ℤ) : Except Denial (Option ℤ) :=
  if input.uncapped budget then .ok (some 0) else admission budget input db now

def admitNew (budget : EffectiveAiBudget) (input : ReserveInput) (n : ℕ) (now : ℤ) : Step (Except String ReserveResult) := do
  let db ← Proc.see
  if !(input.sessionId.all fun id => (db.sessions.lookup id).any (·.orgId = input.orgId)) then
    return .error "AI session not found in reservation organization"
  else if !budget.enabled then return .ok (.denied (denial .aiDisabled))
  else do
    let db ← Proc.see
    match holdFor budget input db now with
    | .error denial => return .ok (.denied denial)
    | .ok hold =>
      match moneyString hold "reservedCostCents" with
      | .error e => return .error e
      | .ok reserved => do
        let row := newReservation input (input.uncapped budget) reserved now
        Proc.put fun db => db.addReservation n row
        return existingResult n row

def reserveAiBudget (budget : OrgId → EffectiveAiBudget) (input : ReserveInput) (n : ℕ) : Step (Except String ReserveResult) :=
  match validateIdentity input with
  | .error e => pure (.error e)
  | .ok _ => transaction do
    let now := (← Proc.see).clock
    match ← lockOrganizationRow input.orgId with
    | .error e => return .error e
    | .ok _ =>
      match ← selectForUpdate fun _ row => row.orgId = input.orgId ∧ row.idempotencyKey = input.idempotencyKey with
      | some (id, existing) =>
        if existing.billingSource ≠ input.billingSource ∨ existing.sessionId ≠ input.sessionId ∨
            existing.namespace_ ≠ input.namespace_.getD .technician then
          return .error "AI budget reservation idempotency key conflicts with another dispatch"
        else return existingResult id existing
      | none => admitNew (budget input.orgId) input n now

end Reserve

section Settle

inductive SettleResult where
  | settled (reservationId : ReservationId) (actualCostCents : ℕ)
  | alreadySettled (reservationId : ReservationId) (actualCostCents : Option ℕ)

def CostUsage.charge (usage : CostUsage) (id : ReservationId) (s : Settlement) : CostUsage where
  inputTokens := usage.inputTokens + s.inputTokens
  outputTokens := usage.outputTokens + s.outputTokens
  totalCostCents := usage.totalCostCents + s.actualCostCents
  messageCount := usage.messageCount + s.messageCount
  toolExecutionCount := usage.toolExecutionCount + s.toolExecutionCount
  charges := usage.charges ++ [(id, s)]

def SessionRow.charge (session : SessionRow) (id : ReservationId) (s : Settlement) : SessionRow where
  orgId := session.orgId
  totalInputTokens := session.totalInputTokens + s.inputTokens
  totalOutputTokens := session.totalOutputTokens + s.outputTokens
  totalCostCents := session.totalCostCents + s.actualCostCents
  turnCount := session.turnCount + s.turnCount
  charges := session.charges ++ [(id, s)]

def Database.chargeUsage (db : Database) (key : UsageKey) (id : ReservationId) (s : Settlement) : Database :=
  { db with usage := db.usage.insert key (((db.usage.lookup key).getD {}).charge id s) }

def Database.chargeSession (db : Database) (session : SessionId) (id : ReservationId) (s : Settlement) : Database :=
  { db with sessions := db.sessions.modify session (·.charge id s) }

def updateSession (org : OrgId) (session : SessionId) (id : ReservationId) (s : Settlement) : Step Bool := do
  let passes (row : SessionRow) : Bool := row.orgId = org
  let rows ← Proc.update (fun db => if (db.sessions.lookup session).any passes then [.session session] else [])
    (fun _ _ db => (db.sessions.lookup session).any passes) (fun _ db => db.chargeSession session id s)
  return !rows.isEmpty

def upsertUsage (key : UsageKey) (id : ReservationId) (s : Settlement) : Step Unit := do
  Proc.lockRow (.usage key)
  Proc.put fun db => db.chargeUsage key id s

def Status.settleable (status : Status) : Bool := status = .active ∨ status = .indeterminate ∨ status = .expired

def ReservationRow.settle (fingerprint : Settlement → String) (s : Settlement) (row : ReservationRow) : ReservationRow :=
  { row with status := .settled, actualCostCents := some s.actualCostCents, settlementFingerprint := some (fingerprint s) }

def settleRow (fingerprint : Settlement → String) (org : OrgId) (id : ReservationId) (row : ReservationRow) (s : Settlement) :
    Step (Except String SettleResult) := do
  upsertUsage (org, .daily, row.dailyPeriodKey) id s
  upsertUsage (org, .monthly, row.monthlyPeriodKey) id s
  if ← updateReservation id (fun row => row.status.settleable) (·.settle fingerprint s) then
    return .ok (.settled id s.actualCostCents)
  else return .error "AI budget reservation changed during settlement"

/-- `fingerprint` is the digest of the settlement's canonical form. -/
def settleAiBudgetReservation (fingerprint : Settlement → String) (input : SettleInput) : Step (Except String SettleResult) :=
  match settlementOf input with
  | .error e => pure (.error e)
  | .ok s => transaction <| withReservation input.orgId input.reservationId fun id row =>
    if row.status = .settled then
      if row.settlementFingerprint ≠ some (fingerprint s) then
        return .error "Conflicting settlement for AI budget reservation"
      else return .ok (.alreadySettled id row.actualCostCents)
    else if row.status = .released then return .error "Released AI budget reservation cannot be settled"
    else
      match s.session with
      | some session =>
        if row.sessionId ≠ some session then return .error "Settlement session does not match AI budget reservation"
        else do
          if ← updateSession input.orgId session id s then settleRow fingerprint input.orgId id row s
          else return .error "AI session not found in settlement organization"
      | none =>
        if row.sessionId.isSome then return .error "Session-bound AI budget reservation requires session settlement"
        else settleRow fingerprint input.orgId id row s

end Settle

section Outcomes

inductive MarkResult where
  | indeterminate | alreadyIndeterminate | alreadySettled | alreadyExpired

def ReservationRow.mark (now : ℤ) (row : ReservationRow) : ReservationRow :=
  { row with status := .indeterminate, expiresAt := now + indeterminateTtl }

def markAiBudgetReservationIndeterminate (org : OrgId) (reservation : ReservationId) : Step (Except String MarkResult) :=
  transaction do
    let now := (← Proc.see).clock
    withReservation org reservation fun id row =>
      match row.status with
      | .settled => return .ok .alreadySettled
      | .indeterminate => return .ok .alreadyIndeterminate
      | .expired => return .ok .alreadyExpired
      | .released => return .error "Released AI budget reservation cannot become indeterminate"
      | .active => do
        let _ ← updateReservation id (fun _ => true) (·.mark now)
        return .ok .indeterminate

inductive ReleaseResult where
  | released | alreadyReleased | alreadyExpired

def ReservationRow.release (row : ReservationRow) : ReservationRow := { row with status := .released }

def releaseUnusedAiBudgetReservation (org : OrgId) (reservation : ReservationId) : Step (Except String ReleaseResult) :=
  transaction <| withReservation org reservation fun id row =>
    match row.status with
    | .released => return .ok .alreadyReleased
    | .expired => return .ok .alreadyExpired
    | .active => do
      let _ ← updateReservation id (fun _ => true) (·.release)
      return .ok .released
    | status => return .error s!"{status.text} AI budget reservation cannot be released"

def ReservationRow.stale (now : ℤ) (row : ReservationRow) : Bool :=
  (row.status = .active ∨ row.status = .indeterminate) ∧ row.expiresAt ≤ now

def ReservationRow.expire (row : ReservationRow) : ReservationRow :=
  { row with
    status := .expired
    expiryReason := some (if row.status = .active then .activeTtl else .indeterminateTtl) }

def staleIds (db : Database) (now : ℤ) (limit : ℕ) : List ReservationId :=
  (((db.reservations.entries.filter fun e => e.2.stale now).insertionSort fun a b => a.2.expiresAt ≤ b.2.expiresAt).take
    limit).map (·.1)

structure ExpiredReservation where
  reservationId : ReservationId
  orgId : OrgId
  reason : Option ExpiryReason
  reservedCostCents : ℕ

def sweep (now : ℤ) (limit : ℕ) : Step (List Row) :=
  Proc.update
    (fun db => (db.reservations.keysWhere fun id row => row.stale now && (staleIds db now limit).contains id).map Row.reservation)
    (fun db₀ row db =>
      match row with
      | .reservation id => (db.reservations.lookup id).any fun row => row.stale now && (staleIds db₀ now limit).contains id
      | _ => false)
    (fun row db =>
      match row with
      | .reservation id => db.setReservation id ReservationRow.expire
      | _ => db)

def expireStaleAiBudgetReservations (limit : ℤ) : Step (Except String (List ExpiredReservation)) :=
  if limit < 1 ∨ 9007199254740991 < limit then pure (.error "limit must be a positive safe integer")
  else transaction do
    let now := (← Proc.see).clock
    let swept ← sweep now limit.toNat
    let db ← Proc.see
    return .ok (swept.filterMap fun row =>
      match row with
      | .reservation id => (db.reservations.lookup id).map fun row =>
          { reservationId := id, orgId := row.orgId, reason := row.expiryReason, reservedCostCents := row.reservedCostCents }
      | _ => none)

end Outcomes

end Breeze.AiBudget
