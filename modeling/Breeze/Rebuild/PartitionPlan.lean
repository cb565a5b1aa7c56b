import Mathlib.Tactic

/-! Laying the partitions of a source disk onto a target: `PlanPartitions` and `PlanPartitionsWindows` of
agent/internal/backup/rebuild. Byte counts are integers; their sums are taken to stay within 64 bits. -/

namespace Breeze.Rebuild.PartitionPlan

section Types

inductive Role
  | efi
  | root
  | boot
  | swap
  | data
  | msr
  | recovery
  | unknown
  | other (text : String)
  deriving DecidableEq

structure Partition where
  number : Int
  typeGuid : String
  partUuid : String
  sizeBytes : Int
  usedBytes : Int
  filesystem : String
  fsUuid : String
  label : String
  mountPoint : String
  attributes : UInt64
  role : Role
  kind : String
  deriving DecidableEq

structure Disk where
  name : String
  sizeBytes : Int
  partitions : List Partition

structure PlannedPartition where
  number : Int
  role : Role
  typeGuid : String
  partUuid : String
  name : String
  startBytes : Int
  sizeBytes : Int
  filesystem : String
  fsUuid : String
  label : String
  mountPoint : String
  grown : Bool
  attributes : UInt64
  deriving DecidableEq

structure Plan where
  sourceDisk : String
  sourceSizeBytes : Int
  targetSizeBytes : Int
  sectorSize : Int
  partitions : List PlannedPartition
  minimumBytes : Int
  warnings : List String
  deriving DecidableEq

/-- The reasons of a `RefusalError`, each with what its text shows. -/
inductive Refusal
  | noSourceDisk
  | noPartitions
  | noRootPartition
  | linuxFilesystem (number : Int) (filesystem : String)
  | windowsFilesystem (number : Int) (filesystem : String)
  | vfatUuid (number : Int) (uuid : String)
  | fsUuid (number : Int) (uuid fs : String)
  | tooSmall (available needed fixed growMin : Int)
  | planOverflows (planEnd usable : Int)
  deriving DecidableEq

end Types

section Planner

def mib : Int := 1048576

def gib : Int := 1073741824

def alignUp (n a : Int) : Int := (n + a - 1).tdiv a * a

def isHex (c : Char) : Bool := c.isDigit || ('a' ≤ c && c ≤ 'f') || ('A' ≤ c && c ≤ 'F')

def isHexRun (length : ℕ) (s : List Char) : Bool := s.length == length && s.all isHex

def uuidPattern (uuid : String) : Bool :=
  match uuid.toList.splitOn '-' with
  | [a, b, c, d, e] => isHexRun 8 a && isHexRun 4 b && isHexRun 4 c && isHexRun 4 d && isHexRun 12 e
  | _ => false

def vfatUUIDPattern (uuid : String) : Bool :=
  match uuid.toList.splitOn '-' with
  | [a] => isHexRun 8 a
  | [a, b] => isHexRun 4 a && isHexRun 4 b
  | _ => false

def validateFSUUID (number : Int) (fs uuid : String) : Except Refusal (List String) :=
  if uuid = "" then
    .ok ["partition " ++ toString number ++ " has no recorded UUID; fstab entries using UUID= for it will not resolve"]
  else if fs ∈ ["vfat", "fat32"] then if vfatUUIDPattern uuid then .ok [] else .error (.vfatUuid number uuid)
  else if fs ∈ ["ext4", "xfs", "swap"] then if uuidPattern uuid then .ok [] else .error (.fsUuid number uuid fs)
  else .ok []

def accepted (src : Disk) : List Partition := src.partitions.filter fun p => p.kind = "" ∧ p.number > 0

def lastGrowing (i : ℕ) (growIdx : Option ℕ) : List Partition → Option ℕ
  | [] => growIdx
  | p :: parts => lastGrowing (i + 1) (if p.role = .root ∨ p.role = .data then some i else growIdx) parts

-- `strings.ToLower`, and `int64(float64(n) * 1.1)`
variable (toLower : String → String) (scaled : Int → Int)

def checkLinux (p : Partition) : Except Refusal (List String) :=
  let fs := toLower p.filesystem
  if fs ≠ "" ∧ fs ∉ ["vfat", "fat32", "ext4", "xfs", "swap"] ∧ p.role ≠ .msr then
    .error (.linuxFilesystem p.number p.filesystem)
  else if fs ≠ "" ∧ p.role ≠ .msr then validateFSUUID p.number fs p.fsUuid
  else .ok []

def checkWindows (p : Partition) : Except Refusal (List String) :=
  if toLower p.filesystem ∈ ["ntfs", "fat32", "vfat", ""] then .ok [] else .error (.windowsFilesystem p.number p.filesystem)

structure Tally where
  fixed : Int
  growMin : Int
  warnings : List String

def growMinimum (need : Partition → Int) (p : Partition) : Int := max (scaled (need p)) gib

def tally (check : Partition → Except Refusal (List String)) (minimum : Partition → Int) (growIdx : Option ℕ) :
    ℕ → Tally → List Partition → Except Refusal Tally
  | _, t, [] => .ok t
  | i, t, p :: parts =>
    match check p with
    | .error e => .error e
    | .ok warnings =>
      if growIdx = some i then
        tally check minimum growIdx (i + 1) { t with growMin := minimum p, warnings := t.warnings ++ warnings } parts
      else
        tally check minimum growIdx (i + 1)
          { t with fixed := t.fixed + alignUp p.sizeBytes mib, warnings := t.warnings ++ warnings } parts

def total (parts : List Partition) : Int := (parts.map fun p => alignUp p.sizeBytes mib).sum

def planned (describe : Partition → String × UInt64) (p : Partition) (start size : Int) (grown : Bool) : PlannedPartition :=
  { number := p.number, role := p.role, typeGuid := p.typeGuid, partUuid := p.partUuid, name := (describe p).1
    startBytes := start, sizeBytes := size, filesystem := toLower p.filesystem, fsUuid := p.fsUuid, label := p.label
    mountPoint := p.mountPoint, grown, attributes := (describe p).2 }

def place (describe : Partition → String × UInt64) (growIdx : Option ℕ) (usableEnd : Int) :
    ℕ → Int → List Partition → List PlannedPartition × Int
  | _, cursor, [] => ([], cursor)
  | i, cursor, p :: parts =>
    let grown := decide (growIdx = some i)
    let size := if grown then usableEnd - total parts - cursor else alignUp p.sizeBytes mib
    let rest := place describe growIdx usableEnd (i + 1) (cursor + size) parts
    (planned toLower describe p cursor size grown :: rest.1, rest.2)

def layOut (describe : Partition → String × UInt64) (src : Disk) (targetSizeBytes sectorSize : Int) (parts : List Partition)
    (growIdx : Option ℕ) (t : Tally) : Except Refusal Plan :=
  let minimumBytes := t.fixed + t.growMin + 2 * mib
  if targetSizeBytes < minimumBytes then .error (.tooSmall targetSizeBytes minimumBytes t.fixed t.growMin)
  else
    let usableEnd := targetSizeBytes - mib
    let placed := place toLower describe growIdx usableEnd 0 mib parts
    if placed.2 > usableEnd then .error (.planOverflows placed.2 usableEnd)
    else
      .ok { sourceDisk := src.name, sourceSizeBytes := src.sizeBytes, targetSizeBytes, sectorSize
            partitions := placed.1, minimumBytes, warnings := t.warnings }

def sectorOr512 (sectorSize : Int) : Int := if sectorSize ≤ 0 then 512 else sectorSize

def planPartitions (src : Option Disk) (targetSizeBytes sectorSize : Int) : Except Refusal Plan :=
  match src with
  | none => .error .noSourceDisk
  | some src =>
    if accepted src = [] then .error .noPartitions
    else
      let growIdx := lastGrowing 0 none (accepted src)
      match tally (checkLinux toLower) (growMinimum scaled (·.usedBytes)) growIdx 0 ⟨0, 0, []⟩ (accepted src) with
      | .error e => .error e
      | .ok t => layOut toLower (fun p => (p.label, 0)) src targetSizeBytes (sectorOr512 sectorSize) (accepted src) growIdx t

def windowsPartitionName : Role → String
  | .efi => "EFI system partition"
  | .msr => "Microsoft reserved partition"
  | .recovery => ""
  | _ => "Basic data partition"

def planPartitionsWindows (src : Option Disk) (targetSizeBytes sectorSize manifestBytes : Int) : Except Refusal Plan :=
  match src with
  | none => .error .noSourceDisk
  | some src =>
    if accepted src = [] then .error .noPartitions
    else
      match (accepted src).findIdx? (·.role = .root) with
      | none => .error .noRootPartition
      | some growIdx =>
        match tally (checkWindows toLower) (growMinimum scaled fun p => max p.usedBytes manifestBytes) (some growIdx) 0
            ⟨0, 0, []⟩ (accepted src) with
        | .error e => .error e
        | .ok t =>
          layOut toLower (fun p => (windowsPartitionName p.role, p.attributes)) src targetSizeBytes (sectorOr512 sectorSize)
            (accepted src) (some growIdx) t

end Planner

end Breeze.Rebuild.PartitionPlan
