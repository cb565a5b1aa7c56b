import Breeze.Lib.Checksum
import Breeze.Lib.FixedWidth
import Breeze.Lib.QuotedText
import Breeze.Lib.Whitespace

/-! The Windows layout of a GPT partition table, after agent/internal/backup/wingpt/codec.go. -/

namespace Breeze.WinGpt.Codec

open Breeze.Lib Breeze.Lib.Decimal Breeze.Lib.FixedWidth
open Breeze.Lib.Utf8 (Bytes)
open Breeze.Lib.Checksum (hexText)
open Breeze.Lib.QuotedText (utf16 decoded)

section Guid

structure Guid where
  bytes : Bytes
  length : bytes.length = 16

inductive GuidError
  | malformed (s : Text)
  | data1 (s : Text)
  | data2 (s : Text)
  | data3 (s : Text)
  | data4 (s : Text)

-- `strings.ToLower` changes no other character into one of a GUID
def normalizeGuid (s : Text) : Text :=
  (Whitespace.trimBy (fun c => c == '{' || c == '}')
    (Whitespace.trimBy (fun c => Whitespace.isUnicodeSpace c || c.toNat == 0x85) s)).map Char.toLower

def parseUint (s : Text) (bits : ℕ) : Option ℕ :=
  if s = [] then none else (hexValue s).filter fun n => decide (n < 2 ^ bits)

def hexDecode : Text → Option Bytes
  | [] => some []
  | [_] => none
  | a :: b :: rest => do
    let v ← parseUint [a, b] 8
    let tail ← hexDecode rest
    return UInt8.ofNat v :: tail

def guidToBytes (s : Text) : Except GuidError Guid :=
  let s := normalizeGuid s
  match s.splitOn '-' with
  | [p₁, p₂, p₃, p₄, p₅] =>
    if p₁.length ≠ 8 ∨ p₂.length ≠ 4 ∨ p₃.length ≠ 4 ∨ p₄.length ≠ 4 ∨ p₅.length ≠ 12 then .error (.malformed s)
    else
      match parseUint p₁ 32, parseUint p₂ 16, parseUint p₃ 16, hexDecode (p₄ ++ p₅) with
      | none, _, _, _ => .error (.data1 s)
      | _, none, _, _ => .error (.data2 s)
      | _, _, none, _ => .error (.data3 s)
      | _, _, _, none => .error (.data4 s)
      | some d₁, some d₂, some d₃, some tail =>
        if h : tail.length = 8 then .ok ⟨le 4 d₁ ++ le 2 d₂ ++ le 2 d₃ ++ tail, by simp [h]⟩ else .error (.data4 s)
  | _ => .error (.malformed s)

def slice (b : Bytes) (start stop : ℕ) : Bytes := (b.take stop).drop start

def bytesToGuid (g : Guid) : Text :=
  hex 8 (readLe (slice g.bytes 0 4)) ++ '-' :: (hex 4 (readLe (slice g.bytes 4 6)) ++ '-' ::
    (hex 4 (readLe (slice g.bytes 6 8)) ++ '-' :: (hexText (slice g.bytes 8 10) ++ '-' :: hexText (slice g.bytes 10 16))))

end Guid

section Layout

structure Partition where
  number : Int
  typeGuid : Text
  partGuid : Text
  name : Text
  startBytes : Int64
  sizeBytes : Int64
  attributes : UInt64
  deriving DecidableEq

structure Layout where
  diskGuid : Text
  sectorSize : Int
  partitions : List Partition
  deriving DecidableEq

inductive EncodeError
  | diskGuid (e : GuidError)
  | noPartGuid (number : Int)
  | typeGuid (number : Int) (e : GuidError)
  | partGuid (number : Int) (e : GuidError)
  | nameTooLong (number : Int) (name : Text)

def zeros (n : ℕ) : Bytes := List.replicate n 0

def encodePartition (p : Partition) : Except EncodeError Bytes :=
  if p.partGuid = [] then .error (.noPartGuid p.number)
  else
    match guidToBytes p.typeGuid with
    | .error e => .error (.typeGuid p.number e)
    | .ok typeGuid =>
      match guidToBytes p.partGuid with
      | .error e => .error (.partGuid p.number e)
      | .ok partGuid =>
        let units := utf16 p.name
        if units.length > 36 then .error (.nameTooLong p.number p.name)
        else
          .ok (le 4 1 ++ zeros 4 ++ le 8 p.startBytes.toUInt64.toNat ++ le 8 p.sizeBytes.toUInt64.toNat ++
            le 4 (p.number % 2 ^ 32).toNat ++ [1] ++ zeros 3 ++ typeGuid.bytes ++ partGuid.bytes ++
            le 8 p.attributes.toNat ++ units.flatMap (fun u => le 2 u.toNat) ++ zeros (72 - 2 * units.length))

def encodeDriveLayoutEx (l : Layout) : Except EncodeError Bytes :=
  match guidToBytes l.diskGuid with
  | .error e => .error (.diskGuid e)
  | .ok diskGuid =>
    match l.partitions.mapM encodePartition with
    | .error e => .error e
    | .ok entries => .ok (le 4 1 ++ le 4 (l.partitions.length % 2 ^ 32) ++ diskGuid.bytes ++ zeros 24 ++ entries.flatten)

inductive DecodeError
  | tooShort (length : ℕ)
  | notGpt (style : ℕ)
  | truncated (i count : ℕ)
  | outOfBounds
  deriving DecidableEq

def sliceAt (b : Bytes) (start stop : ℕ) : Except DecodeError Bytes :=
  if stop ≤ b.length then .ok (slice b start stop) else .error .outOfBounds

def uintAt (b : Bytes) (start stop : ℕ) : Except DecodeError ℕ := (sliceAt b start stop).map readLe

def guidAt (b : Bytes) (start : ℕ) : Except DecodeError Text :=
  if h : start + 16 ≤ b.length then
    .ok (bytesToGuid ⟨slice b start (start + 16), by simp only [slice, List.length_drop, List.length_take]; omega⟩)
  else .error .outOfBounds

def unitsAt (b : Bytes) : ℕ → ℕ → Except DecodeError (List UInt16)
  | _, 0 => .ok []
  | start, n + 1 => do
    let u ← uintAt b start (start + 2)
    let us ← unitsAt b (start + 2) n
    return UInt16.ofNat u :: us

def trimRightNul (s : Text) : Text := (s.reverse.dropWhile (· == Char.ofNat 0)).reverse

def decodePartition (b : Bytes) (off : ℕ) : Except DecodeError Partition := do
  let typeGuid ← guidAt b (off + 32)
  let partGuid ← guidAt b (off + 48)
  let units ← unitsAt b (off + 72) 36
  let number ← uintAt b (off + 24) (off + 28)
  let startBytes ← uintAt b (off + 8) (off + 16)
  let sizeBytes ← uintAt b (off + 16) (off + 24)
  let attributes ← uintAt b (off + 64) (off + 72)
  return { number, typeGuid, partGuid, name := trimRightNul (decoded units), startBytes := (UInt64.ofNat startBytes).toInt64
           sizeBytes := (UInt64.ofNat sizeBytes).toInt64, attributes := UInt64.ofNat attributes }

def decodePartitions (b : Bytes) (count : ℕ) : ℕ → ℕ → Except DecodeError (List Partition)
  | _, 0 => .ok []
  | i, n + 1 =>
    if 48 + i * 144 + 144 > b.length then .error (.truncated i count)
    else do
      let p ← decodePartition b (48 + i * 144)
      let ps ← decodePartitions b count (i + 1) n
      return p :: ps

def decodeDriveLayoutEx (b : Bytes) : Except DecodeError Layout :=
  if b.length < 48 then .error (.tooShort b.length)
  else do
    let style ← uintAt b 0 4
    if style ≠ 1 then .error (.notGpt style)
    else do
      let count ← uintAt b 4 8
      let diskGuid ← guidAt b 8
      let partitions ← decodePartitions b count 0 count
      return { diskGuid, sectorSize := 0, partitions }

end Layout

end Breeze.WinGpt.Codec
