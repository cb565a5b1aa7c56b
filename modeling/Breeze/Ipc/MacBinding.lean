import Breeze.Ipc.Conn

/-! What the MAC of an envelope fixes. The fields are hashed one after the other without separators, so a
field is only bound when its end can be told from what follows. -/

namespace Breeze.Ipc.MacBinding

open Breeze.Lib Decimal Utf8 Message Conn

def isDigitByte (b : UInt8) : Bool := decide (48 ≤ b.toNat ∧ b.toNat ≤ 57)

def beginsValue (b : UInt8) : Bool := isDigitByte b || (ascii "\x7b[\"-tfn").contains b

def Begins (p : UInt8 → Bool) (w : Bytes) : Prop := ∃ b t, w = b :: t ∧ p b = true

structure Delimited (env : Envelope) : Prop where
  type_ne_nil : env.type ≠ []
  type_head : ¬ Begins isDigitByte env.type
  payload_head : Begins beginsValue (env.payload.getD jsonNull)

/-- Continuing the id of the first by a digit, or its type by the beginning of a value, does not lead to those
of the second. -/
structure NoOverrun (e e' : Envelope) : Prop where
  id : ∀ w, e'.id = e.id ++ w → ¬ Begins isDigitByte w
  type : ∀ w, e'.type = e.type ++ w → ¬ Begins beginsValue w

structure SameBound (e e' : Envelope) : Prop where
  id : e.id = e'.id
  seq : e.seq = e'.seq
  type : e.type = e'.type
  payload : e.payload.getD jsonNull = e'.payload.getD jsonNull

variable {p : UInt8 → Bool}

lemma Begins.append {w : Bytes} (h : Begins p w) (r : Bytes) : Begins p (w ++ r) := by
  obtain ⟨b, t, rfl, hb⟩ := h
  exact ⟨b, t ++ r, rfl, hb⟩

lemma Begins.of_append {w r : Bytes} (h : Begins p (w ++ r)) (hw : w ≠ []) : Begins p w := by
  obtain ⟨b, t, rfl⟩ := List.exists_cons_of_ne_nil hw
  obtain ⟨b', t', he, hb⟩ := h
  cases he
  exact ⟨b, t, rfl, hb⟩

lemma split_unique {a b r s : Bytes} (h : a ++ r = b ++ s) (hr : Begins p r) (hs : Begins p s)
    (hab : ∀ w, b = a ++ w → ¬ Begins p w) (hba : ∀ w, a = b ++ w → ¬ Begins p w) : a = b ∧ r = s := by
  rcases List.append_eq_append_iff.mp h with ⟨w, hb, hw⟩ | ⟨w, ha, hw⟩
  · by_cases hnil : w = []
    · subst hnil
      simp at hb hw
      exact ⟨hb.symm, hw⟩
    · rw [hw] at hr
      exact absurd (hr.of_append hnil) (hab w hb)
  · by_cases hnil : w = []
    · subst hnil
      simp at ha hw
      exact ⟨ha, hw.symm⟩
    · rw [hw] at hs
      exact absurd (hs.of_append hnil) (hba w ha)

lemma encodeRune_digit {c : Char} (h : c.isDigit = true) : ∃ b, encodeRune c = [b] ∧ isDigitByte b = true := by
  have hc := digit_bounds h
  refine ⟨UInt8.ofNat c.toNat, ?_, ?_⟩
  · rw [encodeRune, if_pos (by omega)]
  · rw [isDigitByte, toNat_ofNat_byte (by omega)]
    exact decide_eq_true hc

lemma digitBytes {t : Text} (h : ∀ c ∈ t, c.isDigit = true) : ∀ b ∈ Utf8.encode t, isDigitByte b = true := by
  intro b hb
  obtain ⟨c, hc, hbc⟩ := List.mem_flatMap.mp hb
  obtain ⟨d, hd, hdig⟩ := encodeRune_digit (h c hc)
  rw [hd] at hbc
  rwa [List.mem_singleton.mp hbc]

lemma seqText_digits (n : UInt64) : ∀ b ∈ Utf8.encode (formatUint n), isDigitByte b = true :=
  digitBytes fun _ hc => isDigit_formatUint hc

lemma seqText_begins (n : UInt64) : Begins isDigitByte (Utf8.encode (formatUint n)) := by
  obtain ⟨c, t, hct⟩ := List.exists_cons_of_ne_nil (formatUint_ne_nil n)
  obtain ⟨b, hb, hdig⟩ := encodeRune_digit (isDigit_formatUint (n := n) (c := c) (by simp [hct]))
  exact ⟨b, Utf8.encode t, by simp [hct, Utf8.encode, hb], hdig⟩

lemma formatUint_injective {m n : UInt64} (h : formatUint m = formatUint n) : m = n := by
  apply UInt64.toNat_inj.mp
  rw [← Nat.ofDigitChars_ten_toDigits (n := m.toNat), ← Nat.ofDigitChars_ten_toDigits (n := n.toNat)]
  exact congrArg (fun t => Nat.ofDigitChars 10 t 0) h

lemma digits_unique {d e r s : Bytes} (hd : ∀ b ∈ d, isDigitByte b = true) (he : ∀ b ∈ e, isDigitByte b = true)
    (hr : ¬ Begins isDigitByte r) (hs : ¬ Begins isDigitByte s) (h : d ++ r = e ++ s) : d = e ∧ r = s := by
  have hspan {d r : Bytes} (hd : ∀ b ∈ d, isDigitByte b = true) (hr : ¬ Begins isDigitByte r) :
      (d ++ r).takeWhile isDigitByte = d := by
    rw [List.takeWhile_append_of_pos hd]
    cases r with
    | nil => simp
    | cons b r =>
      have hb : ¬ isDigitByte b = true := fun hb => hr ⟨b, r, rfl, hb⟩
      simp [hb]
  have hde : d = e := by rw [← hspan hd hr, h, hspan he hs]
  subst hde
  exact ⟨rfl, List.append_cancel_left h⟩

lemma Delimited.tail {env : Envelope} (h : Delimited env) (r : Bytes) : ¬ Begins isDigitByte (env.type ++ r) :=
  fun hb => h.type_head (hb.of_append h.type_ne_nil)

theorem sameBound_of_macInput {e e' : Envelope} (he : Delimited e) (he' : Delimited e') (hl : NoOverrun e e')
    (hr : NoOverrun e' e) (h : macInput e = macInput e') : SameBound e e' := by
  simp only [macInput, List.append_assoc] at h
  obtain ⟨hid, h⟩ := split_unique h ((seqText_begins e.seq).append _) ((seqText_begins e'.seq).append _) hl.id hr.id
  obtain ⟨hseq, h⟩ := digits_unique (seqText_digits _) (seqText_digits _) (he.tail _) (he'.tail _) h
  obtain ⟨htype, hpayload⟩ := split_unique h he.payload_head he'.payload_head hl.type hr.type
  exact ⟨hid, formatUint_injective (Utf8.encode_injective hseq), htype, hpayload⟩

lemma hexByte_injective {a b : UInt8} (h : hexByte a = hexByte b) : a = b := by
  have ht := Utf8.encode_injective h
  simp only [List.cons.injEq, and_true] at ht
  have ha := a.toNat_lt
  have hb := b.toNat_lt
  have hq := Quoted.digitChar_injective (by omega) (by omega) ht.1
  have hr := Quoted.digitChar_injective (by omega) (by omega) ht.2
  apply UInt8.toNat_inj.mp
  omega

lemma hexByte_length (b : UInt8) : (hexByte b).length = 2 := by
  have hall : ∀ n < 16, (encodeRune n.digitChar).length = 1 := by decide
  have hb := b.toNat_lt
  simp [hexByte, Utf8.encode, hall (b.toNat / 16) (by omega), hall (b.toNat % 16) (by omega)]

lemma hexEncode_injective {s t : Bytes} (h : hexEncode s = hexEncode t) : s = t := by
  induction s generalizing t with
  | nil =>
    cases t with
    | nil => rfl
    | cons b t =>
      have hl := congrArg List.length h
      simp [hexEncode, hexByte_length] at hl
      omega
  | cons a s ih =>
    cases t with
    | nil =>
      have hl := congrArg List.length h
      simp [hexEncode, hexByte_length] at hl
    | cons b t =>
      simp only [hexEncode, List.flatMap_cons] at h
      obtain ⟨hab, hst⟩ := List.append_inj h (by rw [hexByte_length, hexByte_length])
      rw [hexByte_injective hab, ih hst]

lemma recv_checks {hmac : Bytes → Bytes → Bytes} {sessionKey : Option Bytes} {recvSeq : UInt64} {stream : Bytes}
    {r : Received} (h : recv hmac sessionKey recvSeq stream = .ok r) :
    r.env.hmac = computeHMAC hmac sessionKey r.env ∧ recvSeq < r.env.seq := by
  simp only [recv] at h
  repeat' split at h
  all_goals cases h
  rename_i hm _ hs
  exact ⟨of_not_not hm, UInt64.not_le.mp hs⟩

theorem mac_binds_fields (hmac : Bytes → Bytes → Bytes) (sessionKey : Option Bytes) {e e' : Envelope}
    (hfree : hmac (sessionKey.getD zeroKey) (macInput e) = hmac (sessionKey.getD zeroKey) (macInput e') →
      macInput e = macInput e')
    (he : Delimited e) (he' : Delimited e') (hl : NoOverrun e e') (hr : NoOverrun e' e) :
    (macInput e = macInput e' → SameBound e e') ∧
    ∀ recvSeq stream r, recv hmac sessionKey recvSeq stream = .ok r → r.env = e' →
      e'.hmac = computeHMAC hmac sessionKey e → SameBound e e' ∧ recvSeq < e.seq := by
  have hbound : macInput e = macInput e' → SameBound e e' := sameBound_of_macInput he he' hl hr
  refine ⟨hbound, fun recvSeq stream r hrecv hre htag => ?_⟩
  obtain ⟨hmacEq, hseq⟩ := recv_checks hrecv
  subst hre
  have hsame : SameBound e r.env := by
    apply hbound
    apply hfree
    apply hexEncode_injective
    exact htag.symm.trans hmacEq
  exact ⟨hsame, hsame.seq ▸ hseq⟩

def ping : Envelope := { id := ascii "a1", seq := 2, type := ascii "ping" }

def pingNull : Envelope := { ping with payload := some jsonNull, error := ascii "denied" }

theorem mac_binds_ping :
    Delimited ping ∧ Delimited pingNull ∧ NoOverrun ping pingNull ∧ NoOverrun pingNull ping ∧
      SameBound ping pingNull := by
  have hd (env : Envelope) (ht : env.type = ascii "ping") (hp : env.payload.getD jsonNull = jsonNull) :
      Delimited env := by
    refine ⟨by simp [ht]; decide, ?_, ⟨110, [117, 108, 108], by rw [hp]; decide, by decide⟩⟩
    rintro ⟨b, t, h, hb⟩
    rw [ht] at h
    cases h
    exact absurd hb (by decide)
  have hn (e e' : Envelope) (hid : e'.id = e.id) (ht : e'.type = e.type) : NoOverrun e e' := by
    refine ⟨fun w hw => ?_, fun w hw => ?_⟩
    · rw [hid, List.self_eq_append_right] at hw
      simp [hw, Begins]
    · rw [ht, List.self_eq_append_right] at hw
      simp [hw, Begins]
  have h₁ := hd ping rfl rfl
  have h₂ := hd pingNull rfl rfl
  have h₃ := hn ping pingNull rfl rfl
  have h₄ := hn pingNull ping rfl rfl
  exact ⟨h₁, h₂, h₃, h₄, (mac_binds_fields (fun _ m => m) none id h₁ h₂ h₃ h₄).1 (by decide)⟩

def pingShifted : Envelope :=
  { ping with id := ascii "a", seq := 12, hmac := computeHMAC (fun _ m => m) none ping }

theorem mac_input_collides :
    macInput ping = macInput pingShifted ∧ ping.id ≠ pingShifted.id ∧ ping.seq < pingShifted.seq ∧
      (recv (fun _ m => m) none ping.seq (frame (marshal pingShifted))).toOption.map (fun r => (r.env.id, r.env.seq)) =
        some (pingShifted.id, pingShifted.seq) ∧
      macInput ping = macInput pingNull ∧ ping.error ≠ pingNull.error := by
  decide +kernel

end Breeze.Ipc.MacBinding
