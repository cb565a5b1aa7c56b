import Breeze.Lib.Checksum
import Breeze.Lib.GoValue
import Breeze.Lib.Replace

/-! Peripheral policies on the agent, after agent/internal/peripheral: the wire types, the digest and the validation of an envelope. -/

namespace Breeze.Peripheral.Agent

open Breeze.Lib Breeze.Lib.Decimal Breeze.Lib.JsonText Breeze.Lib.QuotedText
open Breeze.Lib.GoValue
open Breeze.Lib.JsonRead (Atom Generic)
open Breeze.Lib.Utf8 (Bytes)
open Breeze.Lib.Checksum (Sum hexText)

def digestText (sum : Sum) : Text := "sha256:".toList ++ hexText sum.bytes

section Types

structure ExceptionRule where
  vendor : Text
  product : Text
  serialNumber : Text
  allow : Bool
  reason : Text
  expiresAt : Text
  deriving DecidableEq

structure PolicyV2 where
  policyId : Text
  source : Text
  effectiveClass : Text
  configuredClass : Text
  action : Text
  priority : ℤ
  exceptions : Option (List ExceptionRule)
  deriving DecidableEq

structure Identity where
  deviceId : Text
  orgId : Text
  siteId : Text
  groupIds : Option (List Text)
  deriving DecidableEq

/-- A slice is an option: `none` is nil. -/
structure Envelope where
  schemaVersion : ℤ
  phase : Text
  identity : Identity
  revision : ℤ
  digest : Text
  generatedAt : Text
  reason : Text
  effectivePolicies : Option (List PolicyV2)

end Types

section Decode

def parseDigits (t : Text) : Option ℕ := if t ≠ [] ∧ t.all Char.isDigit then some (Nat.ofDigitChars 10 t 0) else none

def parseNumeral : Text → Option ℤ
  | '-' :: ds => (parseDigits ds).map fun n : ℕ => -(n : ℤ)
  | ds => (parseDigits ds).map fun n : ℕ => (n : ℤ)

def parseInt (t : Text) : Option ℤ := (parseNumeral t).filter fun n => decide (-2 ^ 63 ≤ n ∧ n < 2 ^ 63)

-- an absent member and null leave the zero value
end Decode

section Digest

abbrev GoTree := Tree Text Scalar

def str (t : Text) : GoTree := .leaf (.str t)

def omitEmpty (t : Text) : Option GoTree := if t = [] then none else some (str t)

def slice {α : Type} (f : α → GoTree) : Option (List α) → GoTree
  | none => .leaf .null
  | some items => .arr (items.map f)

def exceptionTree (e : ExceptionRule) : GoTree :=
  .obj (present [("vendor".toList, omitEmpty e.vendor), ("product".toList, omitEmpty e.product),
    ("serialNumber".toList, omitEmpty e.serialNumber), ("allow".toList, some (.leaf (.bool e.allow))),
    ("reason".toList, omitEmpty e.reason), ("expiresAt".toList, omitEmpty e.expiresAt)])

def policyTree (p : PolicyV2) : GoTree :=
  .obj [("policyId".toList, str p.policyId), ("source".toList, str p.source), ("effectiveClass".toList, str p.effectiveClass),
    ("configuredClass".toList, str p.configuredClass), ("action".toList, str p.action),
    ("priority".toList, .leaf (.int p.priority)), ("exceptions".toList, slice exceptionTree p.exceptions)]

def appendToNil (ids : List Text) : Option (List Text) := if ids = [] then none else some ids

def sortStrings (ids : List Text) : List Text := ids.insertionSort fun a b => byteOrder a ≤ byteOrder b

def sortedGroupIds (e : Envelope) : Option (List Text) := (appendToNil (e.identity.groupIds.getD [])).map sortStrings

-- members in the order in which a map is written
def digestFields (e : Envelope) : GoTree :=
  .obj [("effectivePolicies".toList, slice policyTree e.effectivePolicies),
    ("identity".toList, .obj [("deviceId".toList, str e.identity.deviceId), ("groupIds".toList, slice str (sortedGroupIds e)),
      ("orgId".toList, str e.identity.orgId), ("siteId".toList, str e.identity.siteId)]),
    ("phase".toList, str e.phase), ("revision".toList, .leaf (.int e.revision)),
    ("schemaVersion".toList, .leaf (.int e.schemaVersion))]

/-- Without `UseNumber` a number is read as a double, and written as JavaScript writes it. -/
def asFloat : Atom → Atom
  | .word t =>
    match parseInt t with
    | some n => .word (NumberText.toText (IntegerText.ofInt n))
    | none => .word t
  | .str t => .str t

def canonicalBytes (e : Envelope) : Option Bytes :=
  (JsonRead.read (Utf8.encode (encode marshalCode (digestFields e)))).map fun v =>
    let generic := Tree.relabel id asFloat v
    let raw := Replace.trimSuffix (Utf8.encode ['\n']) (Utf8.encode (encode encoderCode (generic.sorted byteOrder) ++ ['\n']))
    let raw := Replace.replaceAll (Utf8.encode "\\u2028".toList) (Utf8.encode [lineSeparator]) raw
    Replace.replaceAll (Utf8.encode "\\u2029".toList) (Utf8.encode [paragraphSeparator]) raw

def digestPeripheralPolicyEnvelopeV2 (sha256 : Bytes → Sum) (e : Envelope) : Option Text :=
  (canonicalBytes e).map fun raw => digestText (sha256 raw)

end Digest

section Validate

inductive Reason where
  | wrongIdentity
  | lowerRevision
  | revisionDigestConflict
  | malformedDigest
  | invalidPayload
  | detectionFailed
  | enforcementFailed
  | persistenceFailed
  deriving DecidableEq

def isHexDigit (c : Char) : Bool := c.isDigit || decide ('a' ≤ c ∧ c ≤ 'f')

def matchesDigestPattern (t : Text) : Bool :=
  "sha256:".toList.isPrefixOf t && decide ((t.drop 7).length = 64) && (t.drop 7).all isHexDigit

def validV2Class (t : Text) : Bool :=
  t == "storage".toList || t == "all_usb".toList || t == "bluetooth".toList || t == "thunderbolt".toList

def validV2Action (t : Text) : Bool :=
  t == "allow".toList || t == "block".toList || t == "read_only".toList || t == "alert".toList

def validPolicy (p : PolicyV2) : Bool :=
  let configuredClassMatches := p.configuredClass == p.effectiveClass ||
    (p.effectiveClass == "storage".toList && p.configuredClass == "all_usb".toList)
  p.policyId != [] && (p.source == "organization".toList || p.source == "partner".toList) && validV2Class p.effectiveClass &&
    validV2Class p.configuredClass && configuredClassMatches && validV2Action p.action && decide (0 ≤ p.priority) &&
    decide (p.priority ≤ 1000) && p.exceptions.isSome

def validPolicies : List Text → List PolicyV2 → Bool
  | _, [] => true
  | seen, p :: ps => validPolicy p && !seen.contains p.effectiveClass && validPolicies (p.effectiveClass :: seen) ps

def validateEnvelopeV2 (sha256 : Bytes → Sum) (e : Envelope) (localIdentity : Identity) : Option Reason :=
  if e.schemaVersion ≠ 2 ∨ e.revision ≤ 0 ∨ e.phase ≠ "clear_legacy".toList ∧ e.phase ≠ "enforce".toList then
    some .invalidPayload
  else if e.identity.deviceId ≠ localIdentity.deviceId ∨ e.identity.orgId ≠ localIdentity.orgId ∨
      e.identity.siteId ≠ localIdentity.siteId then
    some .wrongIdentity
  else if matchesDigestPattern e.digest = false then some .malformedDigest
  else
    match e.identity.groupIds, e.effectivePolicies with
    | some _, some policies =>
      if e.phase = "clear_legacy".toList ∧ policies ≠ [] then some .invalidPayload
      else if validPolicies [] policies = false then some .invalidPayload
      else if digestPeripheralPolicyEnvelopeV2 sha256 e ≠ some e.digest then some .malformedDigest
      else none
    | _, _ => some .invalidPayload

end Validate

end Breeze.Peripheral.Agent
