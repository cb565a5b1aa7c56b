import Breeze.Lib.GoJson

/-! The IPC envelope (internal/ipc/message.go, internal/ipc/protocol.go): its JSON form, its length-prefixed
frame and the text its HMAC is computed over. -/

namespace Breeze.Ipc.Message

open Breeze.Lib Decimal Utf8 GoJson

def ascii (s : String) : Bytes := Utf8.encode s.toList

structure Envelope where
  id : Bytes := []
  seq : UInt64 := 0
  type : Bytes := []
  payload : Option Bytes := none
  error : Bytes := []
  hmac : Bytes := []
  deriving DecidableEq

def maxMessageSize : ℕ := 16 * 1024 * 1024

def jsonNull : Bytes := ascii "null"

def zeroKey : Bytes := List.replicate 32 0

def formatUint (n : UInt64) : Text := Nat.toDigits 10 n.toNat

def hexByte (b : UInt8) : Bytes := Utf8.encode [(b.toNat / 16).digitChar, (b.toNat % 16).digitChar]

def hexEncode (s : Bytes) : Bytes := s.flatMap hexByte

def macInput (env : Envelope) : Bytes :=
  env.id ++ Utf8.encode (formatUint env.seq) ++ env.type ++ env.payload.getD jsonNull

def computeHMAC (hmac : Bytes → Bytes → Bytes) (sessionKey : Option Bytes) (env : Envelope) : Bytes :=
  hexEncode (hmac (sessionKey.getD zeroKey) (macInput env))

-- a raw payload is a text json.Marshal has produced, so it is written as it stands
def members (env : Envelope) : List (Bytes × Text) :=
  [(ascii "id", quote env.id), (ascii "seq", formatUint env.seq), (ascii "type", quote env.type),
    (ascii "payload", toText (env.payload.getD jsonNull))] ++
  (if env.error = [] then [] else [(ascii "error", quote env.error)]) ++ [(ascii "hmac", quote env.hmac)]

def marshal (env : Envelope) : Bytes := Utf8.encode (writeObject (members env))

inductive Field where
  | id
  | seq
  | type
  | payload
  | error
  | hmac

-- long s and the Kelvin sign fold to letters
def foldChar (c : Char) : Char :=
  if c.toNat = 0x17F then 's' else if c.toNat = 0x212A then 'k' else c.toLower

def fieldOf (name : Text) : Option Field :=
  let folded := name.map foldChar
  if folded = "id".toList then some .id
  else if folded = "seq".toList then some .seq
  else if folded = "type".toList then some .type
  else if folded = "payload".toList then some .payload
  else if folded = "error".toList then some .error
  else if folded = "hmac".toList then some .hmac
  else none

def runeBytes : Rune → Bytes
  | .ok c => encodeRune c
  | .bad b => [b]

def isNull (raw : List Rune) : Bool := decide (raw = ofText "null".toList)

def readString (raw : List Rune) (old : Bytes) : Option Bytes :=
  if isNull raw then some old
  else
    match unquote raw with
    | some (t, []) => some (Utf8.encode t)
    | _ => none

def readUint (raw : List Rune) (old : UInt64) : Option UInt64 :=
  if isNull raw then some old
  else
    let digits := raw.map seen
    if digits = [] ∨ ¬ digits.all Char.isDigit ∨ digits.head? = some '0' ∧ 1 < digits.length then none
    else if Nat.ofDigitChars 10 digits 0 < 2 ^ 64 then some (UInt64.ofNat (Nat.ofDigitChars 10 digits 0))
    else none

def setField (env : Envelope) (m : Text × List Rune) : Option Envelope :=
  match fieldOf m.1 with
  | some .id => (readString m.2 env.id).map (fun x => { env with id := x })
  | some .seq => (readUint m.2 env.seq).map (fun x => { env with seq := x })
  | some .type => (readString m.2 env.type).map (fun x => { env with type := x })
  | some .payload => some { env with payload := some (m.2.flatMap runeBytes) }
  | some .error => (readString m.2 env.error).map (fun x => { env with error := x })
  | some .hmac => (readString m.2 env.hmac).map (fun x => { env with hmac := x })
  | none => some env

def unmarshal (data : Bytes) : Option Envelope :=
  (readObject (runes data)).bind (fun ms => ms.foldlM setField {})

def marshalValue (v : Value) : Bytes := Utf8.encode (JsonText.encode code v)

def ValidUtf8 (s : Bytes) : Prop := Utf8.encode (toText s) = s

instance (s : Bytes) : Decidable (ValidUtf8 s) := inferInstanceAs (Decidable (_ = _))

def delivered (env : Envelope) : Envelope := { env with payload := some (env.payload.getD jsonNull) }

structure WellFormed (env : Envelope) : Prop where
  id : ValidUtf8 env.id
  type : ValidUtf8 env.type
  error : ValidUtf8 env.error
  hmac : ValidUtf8 env.hmac
  payload : env.payload = none ∨ ∃ v, env.payload = some (marshalValue v)

section RoundTrip

lemma toText_ascii (s : String) : toText (ascii s) = s.toList := toText_encode _

lemma validUtf8_encode (t : Text) : ValidUtf8 (Utf8.encode t) := by
  rw [ValidUtf8, toText_encode]

lemma bytes_ofText (t : Text) : (ofText t).flatMap runeBytes = Utf8.encode t := by
  simp [ofText, Utf8.encode, List.flatMap_map, runeBytes]

lemma readString_quote {s : Bytes} (h : ValidUtf8 s) (old : Bytes) : readString (ofText (quote s)) old = some s := by
  have hq := unquote_quote s []
  rw [List.append_nil] at hq
  have hs : Utf8.encode (toText s) = s := h
  simp [readString, show isNull (ofText (quote s)) = false by simp [isNull, quote], hq, hs]

lemma isDigit_formatUint {n : UInt64} {c : Char} (h : c ∈ formatUint n) : c.isDigit = true :=
  Nat.isDigit_of_mem_toDigits (by decide) (by decide) h

lemma formatUint_ne_nil (n : UInt64) : formatUint n ≠ [] := Nat.toDigits_ne_nil

lemma seen_ofText (t : Text) : (ofText t).map seen = t := by
  simp [ofText, Function.comp_def, seen]

lemma formatUint_not_null (n : UInt64) : isNull (ofText (formatUint n)) = false := by
  rw [isNull, decide_eq_false_iff_not]
  intro h
  have ht : formatUint n = "null".toList := by rw [← seen_ofText (formatUint n), h, seen_ofText]
  have hc : 'n' ∈ formatUint n := by simp [ht]
  exact absurd (isDigit_formatUint hc) (by decide)

lemma no_leading_zero (n : UInt64) : ¬ ((formatUint n).head? = some '0' ∧ 1 < (formatUint n).length) := by
  rintro ⟨hz, hl⟩
  rcases Nat.eq_zero_or_pos n.toNat with h | h
  · simp [formatUint, h, Nat.toDigits_of_lt_base] at hl
  · exact head_toDigits_ne_zero h hz

lemma readUint_formatUint (n old : UInt64) : readUint (ofText (formatUint n)) old = some n := by
  have hall : (formatUint n).all Char.isDigit = true := List.all_eq_true.mpr fun c hc => isDigit_formatUint hc
  have hval : Nat.ofDigitChars 10 (formatUint n) 0 = n.toNat := Nat.ofDigitChars_ten_toDigits
  have hsyn : ¬ (formatUint n = [] ∨ ¬ (formatUint n).all Char.isDigit = true ∨
      (formatUint n).head? = some '0' ∧ 1 < (formatUint n).length) := by
    rintro (h | h | h)
    · exact formatUint_ne_nil n h
    · exact h hall
    · exact no_leading_zero n h
  simp only [readUint, formatUint_not_null, seen_ofText, hval]
  rw [if_neg (by decide), if_neg hsyn, if_pos n.toNat_lt, UInt64.ofNat_toNat]

lemma raw_formatUint (n : UInt64) : Raw (formatUint n) := by
  refine raw_word (formatUint_ne_nil n) fun c hc => ?_
  simp [isWordChar, Char.isAlphanum, isDigit_formatUint hc]

variable {p : Option Bytes} {env : Envelope}

lemma raw_payload (h : p = none ∨ ∃ v, p = some (marshalValue v)) : Raw (toText (p.getD jsonNull)) := by
  rcases h with rfl | ⟨v, rfl⟩
  · simp only [Option.getD_none, jsonNull, toText_ascii]
    exact raw_word (by decide) (List.all_eq_true.mp rfl)
  · simp only [Option.getD_some, marshalValue, toText_encode]
    exact raw_encode v

lemma encode_payload (h : p = none ∨ ∃ v, p = some (marshalValue v)) :
    Utf8.encode (toText (p.getD jsonNull)) = p.getD jsonNull := by
  rcases h with rfl | ⟨v, rfl⟩
  · exact validUtf8_encode _
  · exact validUtf8_encode _

lemma members_raw (h : WellFormed env) : ∀ m ∈ members env, Raw m.2 := by
  intro m hm
  simp only [members, List.mem_append, List.mem_cons, List.not_mem_nil, or_false] at hm
  rcases hm with ((rfl | rfl | rfl | rfl) | hm) | rfl
  · exact raw_quote _
  · exact raw_formatUint _
  · exact raw_quote _
  · exact raw_payload h.payload
  · split at hm
    · cases hm
    · cases List.mem_singleton.mp hm
      exact raw_quote _
  · exact raw_quote _

lemma fieldOf_names : fieldOf (toText (ascii "id")) = some .id ∧ fieldOf (toText (ascii "seq")) = some .seq ∧
    fieldOf (toText (ascii "type")) = some .type ∧ fieldOf (toText (ascii "payload")) = some .payload ∧
    fieldOf (toText (ascii "error")) = some .error ∧ fieldOf (toText (ascii "hmac")) = some .hmac := by
  simp only [toText_ascii]
  exact ⟨rfl, rfl, rfl, rfl, rfl, rfl⟩

theorem unmarshal_marshal (h : WellFormed env) : unmarshal (marshal env) = some (delivered env) := by
  have hread : readObject (runes (marshal env)) =
      some ((members env).map (fun m => (toText m.1, ofText m.2))) := by
    rw [marshal, runes_encode]
    exact readObject_writeObject (by simp [members]) (members_raw h)
  rw [unmarshal, hread, Option.bind_some, members]
  -- the error member is left out when it is empty, the default of the field
  by_cases he : env.error = []
  · simp [he, setField, fieldOf_names, readString_quote h.id, readUint_formatUint, readString_quote h.type, bytes_ofText,
      readString_quote h.hmac, encode_payload h.payload, delivered]
  · simp [he, setField, fieldOf_names, readString_quote h.id, readUint_formatUint, readString_quote h.type, bytes_ofText,
      readString_quote h.error, readString_quote h.hmac, encode_payload h.payload, delivered]

end RoundTrip

end Breeze.Ipc.Message
