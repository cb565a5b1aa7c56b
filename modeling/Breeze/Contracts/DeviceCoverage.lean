import Breeze.Lib.KeyedFold
import Breeze.Contracts.ContractService

/-! Which devices a contract line bills (contractCoverage.ts), over one snapshot of the organization. -/

namespace Breeze.Contracts.DeviceCoverage

open ContractService Breeze.Lib.KeyedFold

structure DeviceSnapshotRow where
  id : String
  hostname : String
  role : String
  siteId : Option String
  deriving DecidableEq

structure GroupMembers where
  siteId : Option String
  memberIds : List String

structure OrgDeviceSnapshot where
  devices : List DeviceSnapshotRow
  groups : String → Option GroupMembers

def emptySnapshot : OrgDeviceSnapshot := ⟨[], fun _ => none⟩

structure CoverageLine extends ContractLine where
  deviceRoles : Option (List String) := none

def isDeviceLine (line : CoverageLine) : Bool :=
  [LineType.perDevice, .perDeviceRole, .perDeviceGroup].contains line.lineType

def lineTypeText : LineType → String
  | .flat => "flat"
  | .perDevice => "per_device"
  | .perDeviceRole => "per_device_role"
  | .perDeviceGroup => "per_device_group"
  | .perSeat => "per_seat"
  | .manual => "manual"

def assertResolvable (line : CoverageLine) (snapshot : OrgDeviceSnapshot) : Except String Unit :=
  match line.lineType with
  | .perDeviceRole =>
    if (line.deviceRoles.getD []).isEmpty then .error "contractCoverage: per_device_role line without device roles"
    else .ok ()
  | .perDeviceGroup =>
    match line.deviceGroupId with
    | none => .error "contractCoverage: per_device_group line without a device group"
    | some group =>
      if (snapshot.groups group).isSome then .ok ()
      else .error ("contractCoverage: group " ++ group ++ " is not in the snapshot")
  | _ => .ok ()

inductive CoverageMatchReason where
  | org
  | site
  | role
  | group
  deriving DecidableEq

def matchReason (line : CoverageLine) (row : DeviceSnapshotRow) (snapshot : OrgDeviceSnapshot) : Option CoverageMatchReason :=
  if line.siteId.isSome && line.siteId != row.siteId then none
  else
    match line.lineType with
    | .perDevice => some (if line.siteId.isNone then .org else .site)
    | .perDeviceRole => if (line.deviceRoles.getD []).contains row.role then some .role else none
    | .perDeviceGroup =>
      -- `assertResolvable` has found the group
      match line.deviceGroupId.bind snapshot.groups with
      | some g => if g.memberIds.contains row.id && (g.siteId.isNone || g.siteId == row.siteId) then some .group else none
      | none => none
    | _ => none

def isCovered (snapshot : OrgDeviceSnapshot) (line : CoverageLine) (row : DeviceSnapshotRow) : Bool :=
  (matchReason line row snapshot).isSome

def matchingDevicesForLine (snapshot : OrgDeviceSnapshot) (line : CoverageLine) : Except String (List DeviceSnapshotRow) := do
  assertResolvable line snapshot
  if isDeviceLine line then return snapshot.devices.filter (isCovered snapshot line)
  else throw ("matchingDevicesForLine: " ++ lineTypeText line.lineType ++ " is not a device-counted line type")

def codeUnits (s : String) : List ℕ :=
  s.toList.flatMap fun c =>
    if c.toNat < 0x10000 then [c.toNat] else [0xD800 + (c.toNat - 0x10000) / 0x400, 0xDC00 + (c.toNat - 0x10000) % 0x400]

def compareEvidenceDevices (a b : DeviceSnapshotRow) : Ordering :=
  if codeUnits a.hostname < codeUnits b.hostname then .lt
  else if codeUnits b.hostname < codeUnits a.hostname then .gt
  else if codeUnits a.id < codeUnits b.id then .lt
  else if codeUnits b.id < codeUnits a.id then .gt
  else .eq

def EvidenceLe (a b : DeviceSnapshotRow) : Prop := compareEvidenceDevices a b ≠ .gt

instance : DecidableRel EvidenceLe := fun a b => inferInstanceAs (Decidable (compareEvidenceDevices a b ≠ .gt))

def orderDevicesForEvidence (rows : List DeviceSnapshotRow) : List DeviceSnapshotRow := rows.insertionSort EvidenceLe

structure UncoveredDevices where
  total : ℕ
  byRole : List (String × ℕ)

def uncoveredByRole (snapshot : OrgDeviceSnapshot) (lines : List CoverageLine) : Except String UncoveredDevices := do
  lines.forM (assertResolvable · snapshot)
  let deviceLines := lines.filter isDeviceLine
  return snapshot.devices.foldl (fun uncovered row =>
    if deviceLines.any (isCovered snapshot · row) then uncovered
    else ⟨uncovered.total + 1, touch (fun _ => 0) uncovered.byRole row.role (· + 1)⟩) ⟨0, []⟩

lemma evidenceLe_iff (a b : DeviceSnapshotRow) :
    EvidenceLe a b ↔ toLex (codeUnits a.hostname, codeUnits a.id) ≤ toLex (codeUnits b.hostname, codeUnits b.id) := by
  rw [Prod.Lex.toLex_le_toLex, EvidenceLe, compareEvidenceDevices]
  split_ifs with hlt hgt hid hid'
  · simp [hlt]
  · simp [hgt.not_gt, hgt.ne']
  · simp [le_antisymm (not_lt.mp hgt) (not_lt.mp hlt), hid.le]
  · simp [hlt, hid']
  · simp [le_antisymm (not_lt.mp hgt) (not_lt.mp hlt), not_lt.mp hid']

instance : IsTrans DeviceSnapshotRow EvidenceLe where
  trans a b c hab hbc := by
    rw [evidenceLe_iff] at hab hbc ⊢
    exact hab.trans hbc

instance : Std.Total EvidenceLe where
  total a b := by
    rw [evidenceLe_iff, evidenceLe_iff]
    exact le_total _ _

section

variable (rows : List DeviceSnapshotRow)

lemma orderDevicesForEvidence_perm : (orderDevicesForEvidence rows).Perm rows :=
  List.perm_insertionSort EvidenceLe rows

lemma orderDevicesForEvidence_idem :
    orderDevicesForEvidence (orderDevicesForEvidence rows) = orderDevicesForEvidence rows :=
  (List.pairwise_insertionSort EvidenceLe rows).insertionSort_eq

end

lemma uncoveredByRole_total {snapshot : OrgDeviceSnapshot} {lines : List CoverageLine} {uncovered : UncoveredDevices}
    (h : uncoveredByRole snapshot lines = .ok uncovered) :
    uncovered.total = (snapshot.devices.filter fun row => !(lines.filter isDeviceLine).any (isCovered snapshot · row)).length := by
  have hloop : ∀ (rows : List DeviceSnapshotRow) (start : UncoveredDevices),
      (rows.foldl (fun uncovered row =>
        if (lines.filter isDeviceLine).any (isCovered snapshot · row) then uncovered
        else ⟨uncovered.total + 1, touch (fun _ => 0) uncovered.byRole row.role (· + 1)⟩) start).total =
      start.total + (rows.filter fun row => !(lines.filter isDeviceLine).any (isCovered snapshot · row)).length := by
    intro rows
    induction rows with
    | nil => exact fun start => rfl
    | cons row rows ih =>
      intro start
      rw [List.foldl_cons, ih, List.filter_cons]
      by_cases hrow : (lines.filter isDeviceLine).any (isCovered snapshot · row) = true
      · simp [hrow]
      · simp only [Bool.not_eq_true] at hrow
        simp only [hrow, Bool.false_eq_true, if_false, Bool.not_false, if_true, List.length_cons]
        omega
  unfold uncoveredByRole at h
  cases hassert : lines.forM (assertResolvable · snapshot) with
  | error e =>
    rw [hassert] at h
    cases h
  | ok _ =>
    rw [hassert] at h
    have hok := Except.ok.inj h
    rw [← hok, hloop, Nat.zero_add]

end Breeze.Contracts.DeviceCoverage
