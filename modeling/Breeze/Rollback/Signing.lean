import Breeze.Contracts.ContractMath
import Breeze.Lib.Checksum
import Breeze.Lib.EscapedText
import Breeze.Topology.Canonical

/-! Rollback directives and the bytes that are signed of them: `canonicalRollbackDirectiveBytes` of
rollbackDirectiveSigning.ts, and `CanonicalBytes` of agent/internal/rollback/canonical.go. -/

namespace Breeze.Rollback.Signing

open Breeze.Lib Breeze.Lib.Decimal Breeze.Lib.JsonText Breeze.Lib.QuotedText Breeze.Lib.IntegerText
open Breeze.Lib.Quoted (JsString)
open Breeze.Lib.GoValue (marshalCode byteOrder)
open Breeze.Lib.Utf8 (Bytes)
open Breeze.Approval.Canonicalize (enumerate scalarText)
open Breeze.Contracts.ContractMath (isLeap monthLength)
open Breeze.Lib.Checksum (Sum hexText)
open Breeze.Topology.Canonical (Value JsValue textEncoder)

structure ComponentVersion (σ : Type) where
  current : σ
  target : σ
  deriving DecidableEq

structure Artifact (σ : Type) where
  component : σ
  currentVersion : σ
  targetVersion : σ
  downloadUrl : σ
  sha256 : σ
  size : ℤ
  deriving DecidableEq

structure Directive (σ : Type) where
  schemaVersion : ℤ
  rollbackId : σ
  deviceId : σ
  orgId : σ
  platform : σ
  architecture : σ
  currentVersion : σ
  targetVersion : σ
  componentVersions : List (σ × ComponentVersion σ)
  releaseManifest : σ
  manifestSignature : σ
  manifestSigningKeyId : σ
  artifacts : List (Artifact σ)
  reason : σ
  authorizedBy : σ
  approvedAt : σ
  expiresAt : σ
  directiveSigningKeyId : σ
  directiveSignature : σ
  distinct : (componentVersions.map Prod.fst).Nodup

section Values

variable {σ : Type}

def versionStrings (v : ComponentVersion σ) : List σ := [v.current, v.target]

def artifactStrings (a : Artifact σ) : List σ := [a.component, a.currentVersion, a.targetVersion, a.downloadUrl, a.sha256]

def strings (d : Directive σ) : List σ :=
  [d.rollbackId, d.deviceId, d.orgId, d.platform, d.architecture, d.currentVersion, d.targetVersion] ++
    d.componentVersions.flatMap (fun c => versionStrings c.2) ++
    [d.releaseManifest, d.manifestSignature, d.manifestSigningKeyId] ++ d.artifacts.flatMap artifactStrings ++
    [d.reason, d.authorizedBy, d.approvedAt, d.expiresAt, d.directiveSigningKeyId]

end Values

section Timestamps

structure Stamp where
  year : ℕ
  month : ℕ
  day : ℕ
  hour : ℕ
  minute : ℕ
  second : ℕ

def digits (t : Text) : Option ℕ := if t.all Char.isDigit then some (Nat.ofDigitChars 10 t 0) else none

def readStamp : Text → Option Stamp
  | [y₁, y₂, y₃, y₄, '-', m₁, m₂, '-', d₁, d₂, 'T', h₁, h₂, ':', i₁, i₂, ':', s₁, s₂, 'Z'] => do
    some ⟨← digits [y₁, y₂, y₃, y₄], ← digits [m₁, m₂], ← digits [d₁, d₂], ← digits [h₁, h₂], ← digits [i₁, i₂],
      ← digits [s₁, s₂]⟩
  | _ => none

def isMonth (s : Stamp) : Bool := decide (1 ≤ s.month ∧ s.month ≤ 12)

def isClock (s : Stamp) : Bool := decide (s.hour < 24 ∧ s.minute < 60 ∧ s.second < 60)

/-- `Date.parse` takes any day up to the 31st in any month, and the midnight that ends a day. -/
def parsesDate (s : Stamp) : Bool :=
  isMonth s && decide (1 ≤ s.day ∧ s.day ≤ 31) &&
    (isClock s || decide (s.hour = 24 ∧ s.minute = 0 ∧ s.second = 0))

def isRealDate (s : Stamp) : Bool :=
  isMonth s && decide (1 ≤ s.day ∧ s.day ≤ monthLength (isLeap s.year) s.month) && isClock s

end Timestamps

def canonicalDomain : String := "breeze-agent-rollback-directive-v1"

def require (holds : Bool) (message : String) : Except String Unit := if holds then .ok () else .error message

def joinLines (lines : List Text) : Text := ['\n'].intercalate lines

section Server

structure Collation where
  compare : JsString → JsString → ℤ
  total : ∀ a b, compare a b ≤ 0 ∨ compare b a ≤ 0
  trans : ∀ {a b c}, compare a b ≤ 0 → compare b c ≤ 0 → compare a c ≤ 0
  -- two names are told apart by the first letters or hyphens that differ
  letters : ∀ {p s t : Text} {a b : Char}, (∀ c ∈ p ++ s ++ t, c.isAlphanum) → (a.isLower ∨ a = '-') → (b.isLower ∨ b = '-') →
    a < b → 0 < compare (utf16 (p ++ b :: t)) (utf16 (p ++ a :: s))

def name (s : String) : JsString := utf16 s.toList

def entries (locale : Collation) {α : Type} (ms : List (JsString × α)) : List (JsString × α) :=
  (enumerate ms).insertionSort fun left right => locale.compare left.1 right.1 ≤ 0

def canonicalJson (locale : Collation) : JsValue → Text :=
  Tree.fold scalarText (fun ts => '[' :: (joined ts ++ [']']))
    fun ms => '{' :: (joined ((entries locale ms).map fun m => Quoted.quote m.1 ++ ':' :: m.2) ++ ['}'])

def versionValue (v : ComponentVersion JsString) : JsValue :=
  .obj [(name "current", .leaf (.str v.current)), (name "target", .leaf (.str v.target))]

def artifactValue (a : Artifact JsString) : JsValue :=
  .obj [(name "component", .leaf (.str a.component)), (name "currentVersion", .leaf (.str a.currentVersion)),
    (name "targetVersion", .leaf (.str a.targetVersion)), (name "downloadUrl", .leaf (.str a.downloadUrl)),
    (name "sha256", .leaf (.str a.sha256)), (name "size", .leaf (.num (ofInt a.size)))]

def componentsValue (cs : List (JsString × ComponentVersion JsString)) : JsValue :=
  .obj (mapValues versionValue cs)

def artifactsValue (as : List (Artifact JsString)) : JsValue := .arr (as.map artifactValue)

def digestString (sha256 : Bytes → Sum) (value : Bytes) : JsString := utf16 (hexText (sha256 value).bytes)

def requireSecondPrecisionTimestamp (value : JsString) (field : String) : Except String Unit :=
  require ((readStamp (decoded value)).any parsesDate) (field ++ " must be a second-precision UTC timestamp")

def breaksLine (s : JsString) : Bool := s.any fun u => u == 10 || u == 13

-- the keys of the component map are not looked at
def rejectLineSeparators (directive : Directive JsString) : Except String Unit :=
  require (!(strings directive).any breaksLine) "rollback directive field contains a newline"

def signedLines (locale : Collation) (sha256 : Bytes → Sum) (directive : Directive JsString) : List JsString :=
  [name canonicalDomain, directive.rollbackId, directive.deviceId, directive.orgId, directive.platform,
    directive.architecture, directive.currentVersion, directive.targetVersion,
    digestString sha256 (Utf8.encode (canonicalJson locale (componentsValue directive.componentVersions))),
    digestString sha256 (textEncoder directive.releaseManifest), directive.manifestSignature,
    directive.manifestSigningKeyId,
    digestString sha256 (Utf8.encode (canonicalJson locale (artifactsValue directive.artifacts))),
    digestString sha256 (textEncoder directive.reason), directive.authorizedBy, directive.approvedAt,
    directive.expiresAt, directive.directiveSigningKeyId]

def canonicalRollbackDirectiveBytes (locale : Collation) (sha256 : Bytes → Sum) (directive : Directive JsString) :
    Except String Bytes := do
  require (directive.schemaVersion = 1) "unsupported rollback directive schema"
  requireSecondPrecisionTimestamp directive.approvedAt "approvedAt"
  requireSecondPrecisionTimestamp directive.expiresAt "expiresAt"
  rejectLineSeparators directive
  require (!(signedLines locale sha256 directive).any breaksLine) "rollback directive field contains a newline"
  return textEncoder ([10].intercalate (signedLines locale sha256 directive))

end Server

section Agent

/-- `canonicalJSON`: fields and keys are written in the order of their bytes. -/
def canonicalJSON (v : Value) : Bytes := Utf8.encode (encode marshalCode (v.sorted byteOrder))

def goVersion (v : ComponentVersion Text) : Value :=
  .obj [("current".toList, .leaf (.str v.current)), ("target".toList, .leaf (.str v.target))]

def goArtifact (a : Artifact Text) : Value :=
  .obj [("component".toList, .leaf (.str a.component)), ("currentVersion".toList, .leaf (.str a.currentVersion)),
    ("targetVersion".toList, .leaf (.str a.targetVersion)), ("downloadUrl".toList, .leaf (.str a.downloadUrl)),
    ("sha256".toList, .leaf (.str a.sha256)), ("size".toList, .leaf (.int a.size))]

def goComponents (cs : List (Text × ComponentVersion Text)) : Value := .obj (mapValues goVersion cs)

def goArtifacts (as : List (Artifact Text)) : Value := .arr (as.map goArtifact)

def readMap {α : Type} (ms : List (Text × α)) : List (Text × α) := ms.pwFilter fun a b => a.1 ≠ b.1

def receivedVersion (v : ComponentVersion JsString) : ComponentVersion Text := ⟨decoded v.current, decoded v.target⟩

def receivedArtifact (a : Artifact JsString) : Artifact Text where
  component := decoded a.component
  currentVersion := decoded a.currentVersion
  targetVersion := decoded a.targetVersion
  downloadUrl := decoded a.downloadUrl
  sha256 := decoded a.sha256
  size := a.size

def receivedComponent (c : JsString × ComponentVersion JsString) : Text × ComponentVersion Text :=
  (decoded c.1, receivedVersion c.2)

/-- What `json.Unmarshal` makes of the directive that `JSON.stringify` has written. -/
def received (d : Directive JsString) : Directive Text where
  schemaVersion := d.schemaVersion
  rollbackId := decoded d.rollbackId
  deviceId := decoded d.deviceId
  orgId := decoded d.orgId
  platform := decoded d.platform
  architecture := decoded d.architecture
  currentVersion := decoded d.currentVersion
  targetVersion := decoded d.targetVersion
  componentVersions := readMap ((enumerate d.componentVersions).map receivedComponent)
  releaseManifest := decoded d.releaseManifest
  manifestSignature := decoded d.manifestSignature
  manifestSigningKeyId := decoded d.manifestSigningKeyId
  artifacts := d.artifacts.map receivedArtifact
  reason := decoded d.reason
  authorizedBy := decoded d.authorizedBy
  approvedAt := decoded d.approvedAt
  expiresAt := decoded d.expiresAt
  directiveSigningKeyId := decoded d.directiveSigningKeyId
  directiveSignature := decoded d.directiveSignature
  distinct := List.pairwise_map.mpr (List.pairwise_pwFilter _)

def digestHex (sha256 : Bytes → Sum) (value : Bytes) : Text := hexText (sha256 value).bytes

def containsNewline (t : Text) : Bool := t.any fun c => c == '\r' || c == '\n'

-- a text with another number of digits, or with a fraction, is parsed but formatted differently
def requireTimestamp (value : Text) (field : String) : Except String Unit :=
  require ((readStamp value).any isRealDate) (field ++ " must be a second-precision UTC timestamp")

def verifiedLines (sha256 : Bytes → Sum) (d : Directive Text) : List Text :=
  [canonicalDomain.toList, d.rollbackId, d.deviceId, d.orgId, d.platform, d.architecture, d.currentVersion,
    d.targetVersion, digestHex sha256 (canonicalJSON (goComponents d.componentVersions)),
    digestHex sha256 (Utf8.encode d.releaseManifest), d.manifestSignature, d.manifestSigningKeyId,
    digestHex sha256 (canonicalJSON (goArtifacts d.artifacts)), digestHex sha256 (Utf8.encode d.reason),
    d.authorizedBy, d.approvedAt, d.expiresAt, d.directiveSigningKeyId]

-- of two bad timestamps the source names either one
def CanonicalBytes (sha256 : Bytes → Sum) (d : Directive Text) : Except String Bytes := do
  require (d.schemaVersion = 1) "unsupported rollback directive schema"
  require (!(strings d ++ d.componentVersions.map Prod.fst ++ [d.directiveSignature]).any containsNewline)
    "rollback directive field contains a newline"
  requireTimestamp d.approvedAt "approvedAt"
  requireTimestamp d.expiresAt "expiresAt"
  require (!(verifiedLines sha256 d).any containsNewline) "rollback directive field contains a newline"
  return Utf8.encode (joinLines (verifiedLines sha256 d))

end Agent

end Breeze.Rollback.Signing
