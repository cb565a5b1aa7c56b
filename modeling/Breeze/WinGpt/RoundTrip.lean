import Breeze.WinGpt.Codec
import Mathlib

/-! Reading back a partition table that was written, and reading any bytes at all. -/

namespace Breeze.WinGpt.RoundTrip

open Breeze.Lib Breeze.Lib.Decimal Breeze.Lib.FixedWidth List
open Breeze.Lib.Utf8 (Bytes)
open Breeze.Lib.Checksum (hexText hexText_length)
open Breeze.Lib.QuotedText (utf16 decoded decoded_utf16)
open Codec

section Guids

lemma lower_normalizeGuid (s : Text) : ∀ c ∈ normalizeGuid s, c.toLower = c := by
  intro c hc
  obtain ⟨d, -, rfl⟩ := List.mem_map.mp hc
  exact Char.toLower_toLower_eq_toLower d

variable {s : Text} {bits n w : ℕ} {b : Bytes} {g : Guid}

lemma parseUint_eq (h : parseUint s bits = some n) : hexValue s = some n ∧ n < 2 ^ bits := by
  rw [parseUint] at h
  split_ifs at h
  obtain ⟨hvalue, hlt⟩ := Option.filter_eq_some_iff.mp h
  exact ⟨hvalue, of_decide_eq_true hlt⟩

lemma parseUint_hex (hw : w ≠ 0) (hbits : 16 ^ w = 2 ^ bits) (h : n < 2 ^ bits) : parseUint (hex w n) bits = some n := by
  have hne : hex w n ≠ [] := by
    rw [← length_pos_iff, hex_length]
    omega
  rw [parseUint, if_neg hne, hexValue_hex (hbits ▸ h), Option.filter_eq_some_iff]
  exact ⟨rfl, decide_eq_true h⟩

lemma hex_two (x : UInt8) (b : Bytes) : hexText (x :: b) = hex 2 x.toNat ++ hexText b := by
  have hx := x.toNat_lt
  have hmod : x.toNat / 16 % 16 = x.toNat / 16 := by omega
  simp [hexText, hex, hmod]

lemma hexText_hexDecode (h : hexDecode s = some b) (hlower : ∀ c ∈ s, c.toLower = c) : hexText b = s := by
  fun_induction hexDecode s generalizing b with
  | case1 =>
    cases h
    rfl
  | case2 => cases h
  | case3 x y rest ih =>
    obtain ⟨v, hv, h⟩ := Option.bind_eq_some_iff.mp h
    obtain ⟨tail, htail, h⟩ := Option.bind_eq_some_iff.mp h
    cases h
    obtain ⟨hvalue, hlt⟩ := parseUint_eq hv
    have hpair : hex [x, y].length v = [x, y] := by
      apply hex_of_hexValue hvalue
      intro c hc
      exact hlower c (mem_append_left rest hc)
    rw [hex_two, UInt8.toNat_ofNat', Nat.mod_eq_of_lt hlt, ih htail fun c hc => hlower c (by simp [hc])]
    exact congrArg (· ++ rest) hpair

lemma hexDecode_hexText (b : Bytes) : hexDecode (hexText b) = some b := by
  induction b with
  | nil => rfl
  | cons x b ih =>
    have hparse : parseUint (hex 2 x.toNat) 8 = some x.toNat := parseUint_hex (by decide) (by decide) x.toNat_lt
    rw [hex_two]
    simp only [hex, nil_append, cons_append] at hparse ⊢
    rw [hexDecode, hparse, ih]
    simp

def guidParts (g : Guid) : List Text :=
  [hex 8 (readLe (slice g.bytes 0 4)), hex 4 (readLe (slice g.bytes 4 6)), hex 4 (readLe (slice g.bytes 6 8)),
    hexText (slice g.bytes 8 10), hexText (slice g.bytes 10 16)]

lemma bytesToGuid_eq (g : Guid) : bytesToGuid g = ['-'].intercalate (guidParts g) := by
  simp [bytesToGuid, guidParts, List.intercalate]

lemma mem_hex {c : Char} (h : c ∈ hex w n) : ∃ d < 16, c = Nat.digitChar d := by
  induction w generalizing n with
  | zero => cases h
  | succ w ih =>
    rcases List.mem_append.mp h with h | h
    · exact ih h
    · exact ⟨n % 16, Nat.mod_lt n (by decide), List.mem_singleton.mp h⟩

lemma mem_hexText {c : Char} (h : c ∈ hexText b) : ∃ d < 16, c = Nat.digitChar d := by
  induction b with
  | nil => cases h
  | cons x b ih =>
    rw [hex_two] at h
    rcases List.mem_append.mp h with h | h
    · exact mem_hex h
    · exact ih h

lemma mem_guidParts {part : Text} (hpart : part ∈ guidParts g) {c : Char} (hc : c ∈ part) : ∃ d < 16, c = Nat.digitChar d := by
  simp only [guidParts, mem_cons, not_mem_nil, or_false] at hpart
  rcases hpart with rfl | rfl | rfl | rfl | rfl
  · exact mem_hex hc
  · exact mem_hex hc
  · exact mem_hex hc
  · exact mem_hexText hc
  · exact mem_hexText hc

def isPlain (c : Char) : Bool :=
  !(Whitespace.isUnicodeSpace c || c.toNat == 0x85) && !(c == '{' || c == '}') && c.toLower == c

lemma plain_bytesToGuid (g : Guid) : ∀ c ∈ bytesToGuid g, isPlain c = true := by
  have hdigits : ∀ d < 16, isPlain (Nat.digitChar d) = true := by decide +kernel
  intro c hc
  rw [bytesToGuid_eq] at hc
  rcases Whitespace.mem_intercalate hc with rfl | ⟨part, hpart, hc⟩
  · decide
  · obtain ⟨d, hd, rfl⟩ := mem_guidParts hpart hc
    exact hdigits d hd

lemma normalizeGuid_plain (h : ∀ c ∈ s, isPlain c = true) : normalizeGuid s = s := by
  simp only [isPlain, Bool.and_eq_true, Bool.not_eq_true', beq_iff_eq] at h
  rw [normalizeGuid, Whitespace.trimBy_eq_self fun c hc => (h c hc).1.1, Whitespace.trimBy_eq_self fun c hc => (h c hc).1.2]
  calc s.map Char.toLower = s.map id := map_congr_left fun c hc => (h c hc).2
    _ = s := map_id s

lemma slice_of_eq {before field after : Bytes} {start stop : ℕ} (hb : b = before ++ (field ++ after))
    (hstart : start = before.length) (hstop : stop = start + field.length) : slice b start stop = field := by
  subst hb hstart hstop
  rw [slice, take_length_add_append, drop_left', take_left']
  · rfl
  · rfl

lemma guidParts_of_bytes {a c t₁ t₂ : Bytes} (h : g.bytes = a ++ (b ++ (c ++ (t₁ ++ t₂)))) (ha : a.length = 4)
    (hb : b.length = 2) (hc : c.length = 2) (ht : t₁.length = 2) :
    guidParts g = [hex 8 (readLe a), hex 4 (readLe b), hex 4 (readLe c), hexText t₁, hexText t₂] := by
  have ht₂ : t₂.length = 6 := by
    have := g.length
    simp only [h, length_append] at this
    omega
  have h₁ : slice g.bytes 0 4 = a := slice_of_eq (h.trans (nil_append _).symm) rfl (by omega)
  have h₂ : slice g.bytes 4 6 = b := slice_of_eq h ha.symm (by omega)
  have h₃ : slice g.bytes 6 8 = c := slice_of_eq (h.trans (append_assoc _ _ _).symm) (by simp [ha, hb]) (by omega)
  have h' : g.bytes = (a ++ (b ++ c)) ++ (t₁ ++ t₂) := by simp [h]
  have h₄ : slice g.bytes 8 10 = t₁ := slice_of_eq h' (by simp [ha, hb, hc]) (by omega)
  have h'' : g.bytes = (a ++ (b ++ (c ++ t₁))) ++ (t₂ ++ []) := by simp [h]
  have h₅ : slice g.bytes 10 16 = t₂ := slice_of_eq h'' (by simp [ha, hb, hc, ht]) (by omega)
  rw [guidParts, h₁, h₂, h₃, h₄, h₅]

lemma guidToBytes_eq_ok (h : guidToBytes s = .ok g) :
    ∃ p₁ p₂ p₃ p₄ p₅ d₁ d₂ d₃ tail, (normalizeGuid s).splitOn '-' = [p₁, p₂, p₃, p₄, p₅] ∧
      (p₁.length = 8 ∧ p₂.length = 4 ∧ p₃.length = 4 ∧ p₄.length = 4 ∧ p₅.length = 12) ∧
      parseUint p₁ 32 = some d₁ ∧ parseUint p₂ 16 = some d₂ ∧ parseUint p₃ 16 = some d₃ ∧
      hexDecode (p₄ ++ p₅) = some tail ∧ tail.length = 8 ∧ g.bytes = le 4 d₁ ++ (le 2 d₂ ++ (le 2 d₃ ++ tail)) := by
  simp only [guidToBytes] at h
  split at h
  next p₁ p₂ p₃ p₄ p₅ hsplit =>
    split_ifs at h with hlength
    split at h
    any_goals cases h
    next d₁ d₂ d₃ tail h₁ h₂ h₃ htail =>
      split_ifs at h with height
      cases h
      simp only [ne_eq, not_or, not_not] at hlength
      exact ⟨p₁, p₂, p₃, p₄, p₅, d₁, d₂, d₃, tail, hsplit, hlength, h₁, h₂, h₃, htail, height, by simp⟩
  next => cases h

lemma readLe_le_parse {p : Text} {d : ℕ} (h : parseUint p bits = some d) (hw : 2 ^ bits = 256 ^ w)
    (hlower : ∀ c ∈ p, c.toLower = c) : hex p.length (readLe (le w d)) = p := by
  obtain ⟨hvalue, hlt⟩ := parseUint_eq h
  rw [readLe_le (hw ▸ hlt)]
  exact hex_of_hexValue hvalue hlower

theorem bytesToGuid_guidToBytes (h : guidToBytes s = .ok g) : bytesToGuid g = normalizeGuid s := by
  obtain ⟨p₁, p₂, p₃, p₄, p₅, d₁, d₂, d₃, tail, hsplit, ⟨hp₁, hp₂, hp₃, hp₄, hp₅⟩, h₁, h₂, h₃, htail, height, hbytes⟩ :=
    guidToBytes_eq_ok h
  have hjoin : normalizeGuid s = ['-'].intercalate [p₁, p₂, p₃, p₄, p₅] := by
    rw [← hsplit, intercalate_splitOn]
  have hlower : ∀ p ∈ [p₁, p₂, p₃, p₄, p₅], ∀ c ∈ p, c.toLower = c := by
    intro p hp c hc
    apply lower_normalizeGuid s
    rw [hjoin]
    simp only [mem_cons, not_mem_nil, or_false] at hp
    rcases hp with rfl | rfl | rfl | rfl | rfl <;> simp [List.intercalate, hc]
  -- the last two parts are read as one number of bytes and written as two
  obtain ⟨t₁, t₂, rfl, ht₁⟩ : ∃ t₁ t₂, tail = t₁ ++ t₂ ∧ t₁.length = 2 :=
    ⟨tail.take 2, tail.drop 2, (take_append_drop 2 tail).symm, by simp; omega⟩
  have ht₂ : t₂.length = 6 := by
    rw [length_append] at height
    omega
  have htext : hexText (t₁ ++ t₂) = p₄ ++ p₅ := by
    apply hexText_hexDecode htail
    intro c hc
    rcases List.mem_append.mp hc with hc | hc
    · exact hlower p₄ (by simp) c hc
    · exact hlower p₅ (by simp) c hc
  have hparts : hexText t₁ = p₄ ∧ hexText t₂ = p₅ := by
    have happend : hexText t₁ ++ hexText t₂ = p₄ ++ p₅ := by simpa [hexText] using htext
    exact append_inj happend (by rw [hexText_length, ht₁, hp₄])
  have hread₁ := readLe_le_parse h₁ (show 2 ^ 32 = 256 ^ 4 by decide) (hlower p₁ (by simp))
  have hread₂ := readLe_le_parse h₂ (show 2 ^ 16 = 256 ^ 2 by decide) (hlower p₂ (by simp))
  have hread₃ := readLe_le_parse h₃ (show 2 ^ 16 = 256 ^ 2 by decide) (hlower p₃ (by simp))
  rw [hp₁] at hread₁
  rw [hp₂] at hread₂
  rw [hp₃] at hread₃
  rw [bytesToGuid_eq, guidParts_of_bytes hbytes (le_length 4 d₁) (le_length 2 d₂) (le_length 2 d₃) ht₁, hread₁, hread₂,
    hread₃, hparts.1, hparts.2, hjoin]

lemma parseUint_readLe (hw : w ≠ 0) (hbits : 16 ^ w = 2 ^ bits) (hlen : 2 * b.length = w) :
    parseUint (hex w (readLe b)) bits = some (readLe b) := by
  apply parseUint_hex hw hbits
  rw [← hbits, ← hlen, pow_mul]
  exact readLe_lt b

theorem guidToBytes_bytesToGuid (g : Guid) : guidToBytes (bytesToGuid g) = .ok g := by
  obtain ⟨a, b, c, t₁, t₂, hbytes, ha, hb, hc, ht₁, ht₂⟩ : ∃ a b c t₁ t₂ : Bytes, g.bytes = a ++ (b ++ (c ++ (t₁ ++ t₂))) ∧
      a.length = 4 ∧ b.length = 2 ∧ c.length = 2 ∧ t₁.length = 2 ∧ t₂.length = 6 := by
    have hlen := g.length
    refine ⟨g.bytes.take 4, (g.bytes.drop 4).take 2, (g.bytes.drop 6).take 2, (g.bytes.drop 8).take 2, g.bytes.drop 10, ?_,
      ?_, ?_, ?_, ?_, ?_⟩
    · have hdrop : ∀ i j, j = i + 2 → g.bytes.drop i = (g.bytes.drop i).take 2 ++ g.bytes.drop j := by
        rintro i _ rfl
        rw [← drop_drop, take_append_drop]
      rw [← hdrop 8 10 rfl, ← hdrop 6 8 rfl, ← hdrop 4 6 rfl, take_append_drop]
    all_goals
      simp only [length_take, length_drop]
      omega
  have hparts := guidParts_of_bytes hbytes ha hb hc ht₁
  have hdash : ∀ part ∈ guidParts g, '-' ∉ part := by
    have hall : ∀ d < 16, '-' ≠ Nat.digitChar d := by decide
    intro part hpart hmem
    obtain ⟨d, hd, hchar⟩ := mem_guidParts hpart hmem
    exact hall d hd hchar
  have hsplit : (bytesToGuid g).splitOn '-' = guidParts g := by
    rw [bytesToGuid_eq]
    exact splitOn_intercalate '-' hdash (by simp [guidParts])
  have htail : hexDecode (hexText t₁ ++ hexText t₂) = some (t₁ ++ t₂) := by
    have happend : hexText t₁ ++ hexText t₂ = hexText (t₁ ++ t₂) := by simp [hexText]
    rw [happend, hexDecode_hexText]
  have height : (t₁ ++ t₂).length = 8 := by
    rw [length_append, ht₁, ht₂]
  have hwrite : ∀ b : Bytes, ∀ w, b.length = w → le w (readLe b) = b := by
    rintro b _ rfl
    exact le_readLe b
  simp only [guidToBytes, normalizeGuid_plain (plain_bytesToGuid g), hsplit, hparts, hex_length, hexText_length, ht₁, ht₂]
  rw [parseUint_readLe (by decide) (by decide) (by omega), parseUint_readLe (by decide) (by decide) (by omega),
    parseUint_readLe (by decide) (by decide) (by omega), htail]
  simp [height, hwrite, ha, hb, hc, ← hbytes]

end Guids

section Fields

variable {b before after : Bytes} {start stop : ℕ}

lemma sliceAt_of_eq {field : Bytes} (hb : b = before ++ (field ++ after)) (hstart : start = before.length)
    (hstop : stop = start + field.length) : sliceAt b start stop = .ok field := by
  have hlen : stop ≤ b.length := by
    simp only [hb, length_append]
    omega
  rw [sliceAt, if_pos hlen, slice_of_eq hb hstart hstop]

lemma uintAt_of_eq {w n : ℕ} (hb : b = before ++ (le w n ++ after)) (hstart : start = before.length)
    (hstop : stop = start + w) (hn : n < 256 ^ w) : uintAt b start stop = .ok n := by
  rw [uintAt, sliceAt_of_eq hb hstart (by rw [le_length, hstop]), Except.map, readLe_le hn]

lemma guidAt_of_eq (g : Guid) (hb : b = before ++ (g.bytes ++ after)) (hstart : start = before.length) :
    guidAt b start = .ok (bytesToGuid g) := by
  have hlen : start + 16 ≤ b.length := by
    have := g.length
    simp only [hb, length_append]
    omega
  have hslice : slice b start (start + 16) = g.bytes := slice_of_eq hb hstart (by rw [g.length])
  rw [guidAt, dif_pos hlen]
  congr 2
  cases g
  simpa using hslice

lemma unitsAt_of_eq {us : List UInt16} (hb : b = before ++ (us.flatMap (fun u => le 2 u.toNat) ++ after))
    (hstart : start = before.length) : unitsAt b start us.length = .ok us := by
  induction us generalizing before start with
  | nil => rfl
  | cons u us ih =>
    have hb' : b = before ++ (le 2 u.toNat ++ (us.flatMap (fun u => le 2 u.toNat) ++ after)) := by
      rw [hb, flatMap_cons, append_assoc]
    have hu : uintAt b start (start + 2) = .ok u.toNat := uintAt_of_eq hb' hstart rfl u.toNat_lt
    have hus : unitsAt b (start + 2) us.length = .ok us := by
      apply ih (hb'.trans (append_assoc _ _ _).symm)
      rw [length_append, le_length, hstart]
    rw [length_cons, unitsAt, hu]
    simp [bind, Except.bind, pure, Except.pure, hus]

lemma units_padded (us : List UInt16) (k : ℕ) :
    (us ++ List.replicate k 0).flatMap (fun u : UInt16 => le 2 u.toNat) = us.flatMap (fun u => le 2 u.toNat) ++ zeros (2 * k) := by
  have hzero : (List.replicate k (0 : UInt16)).flatMap (fun u => le 2 u.toNat) = zeros (2 * k) := by
    induction k with
    | zero => rfl
    | succ k ih =>
      rw [replicate_succ, flatMap_cons, ih]
      rfl
  rw [flatMap_append, hzero]

lemma utf16_padded (t : Text) (k : ℕ) : utf16 (t ++ List.replicate k (Char.ofNat 0)) = utf16 t ++ List.replicate k 0 := by
  have hnul : utf16 (List.replicate k (Char.ofNat 0)) = List.replicate k 0 := by
    induction k with
    | zero => rfl
    | succ k ih =>
      rw [replicate_succ, replicate_succ, ← ih]
      rfl
  rw [← hnul]
  simp [utf16]

lemma trimRightNul_padded {t : Text} (ht : t.getLast? ≠ some (Char.ofNat 0)) (k : ℕ) :
    trimRightNul (t ++ List.replicate k (Char.ofNat 0)) = t := by
  have hdrop : t.reverse.dropWhile (· == Char.ofNat 0) = t.reverse := by
    rw [← List.head?_reverse] at ht
    cases hr : t.reverse with
    | nil => rfl
    | cons c cs =>
      have hc : (c == Char.ofNat 0) = false := by
        rw [hr] at ht
        simpa using ht
      rw [dropWhile_cons, hc]
      rfl
  have hnul : ∀ l : Text, (List.replicate k (Char.ofNat 0) ++ l).dropWhile (· == Char.ofNat 0) = l.dropWhile (· == Char.ofNat 0) := by
    intro l
    apply dropWhile_append_of_pos
    intro c hc
    rw [eq_of_mem_replicate hc]
    rfl
  rw [trimRightNul, reverse_append, reverse_replicate, hnul, hdrop, reverse_reverse]

end Fields

section Entries

def normalized (p : Partition) : Partition :=
  { p with typeGuid := normalizeGuid p.typeGuid, partGuid := normalizeGuid p.partGuid }

def Representable (p : Partition) : Prop := (0 ≤ p.number ∧ p.number < 2 ^ 32) ∧ p.name.getLast? ≠ some (Char.ofNat 0)

instance : DecidablePred Representable := fun _ => inferInstanceAs (Decidable (_ ∧ _))

variable {entry b before after : Bytes} {i : ℕ}

lemma encodePartition_eq_ok {p : Partition} (h : encodePartition p = .ok entry) :
    ∃ typeGuid partGuid, guidToBytes p.typeGuid = .ok typeGuid ∧ guidToBytes p.partGuid = .ok partGuid ∧
      (utf16 p.name).length ≤ 36 ∧
      entry = le 4 1 ++ zeros 4 ++ le 8 p.startBytes.toUInt64.toNat ++ le 8 p.sizeBytes.toUInt64.toNat ++
        le 4 (p.number % 2 ^ 32).toNat ++ [1] ++ zeros 3 ++ typeGuid.bytes ++ partGuid.bytes ++ le 8 p.attributes.toNat ++
        (utf16 p.name).flatMap (fun u => le 2 u.toNat) ++ zeros (72 - 2 * (utf16 p.name).length) := by
  rw [encodePartition] at h
  split_ifs at h
  split at h
  · cases h
  next typeGuid htype =>
    split at h
    · cases h
    next partGuid hpart =>
      simp only at h
      split_ifs at h with hname
      cases h
      exact ⟨typeGuid, partGuid, htype, hpart, by omega, rfl⟩

lemma field_at {field : Bytes} {fields : List Bytes} (hb : b = before ++ (fields.flatten ++ after))
    (hi : fields[i]? = some field) :
    b = (before ++ (fields.take i).flatten) ++ (field ++ ((fields.drop (i + 1)).flatten ++ after)) := by
  obtain ⟨hlt, hfield⟩ := List.getElem?_eq_some_iff.mp hi
  have hsplit : fields.flatten = (fields.take i).flatten ++ (field ++ (fields.drop (i + 1)).flatten) := by
    rw [← flatten_cons, ← flatten_append, ← hfield, cons_getElem_drop_succ, take_append_drop]
  rw [hb, hsplit]
  simp

lemma encodePartition_length {p : Partition} (h : encodePartition p = .ok entry) : entry.length = 144 := by
  obtain ⟨typeGuid, partGuid, -, -, hname, rfl⟩ := encodePartition_eq_ok h
  have hunits : ∀ us : List UInt16, (us.flatMap fun u => le 2 u.toNat).length = 2 * us.length := by
    intro us
    induction us with
    | nil => rfl
    | cons u us ih =>
      rw [flatMap_cons, length_append, ih, le_length, length_cons]
      omega
  simp only [length_append, le_length, zeros, length_replicate, typeGuid.length, partGuid.length, hunits,
    length_singleton]
  omega

lemma decodePartition_encodePartition {p : Partition} (h : encodePartition p = .ok entry)
    (hp : Representable p) (hb : b = before ++ (entry ++ after)) : decodePartition b before.length = .ok (normalized p) := by
  obtain ⟨⟨hlow, hhigh⟩, hnul⟩ := hp
  obtain ⟨typeGuid, partGuid, htype, hpart, hname, hentry⟩ := encodePartition_eq_ok h
  set k := 36 - (utf16 p.name).length with hk
  have hunits := units_padded (utf16 p.name) k
  have hpad : 72 - 2 * (utf16 p.name).length = 2 * k := by omega
  have hfields : b = before ++ ([le 4 1, zeros 4, le 8 p.startBytes.toUInt64.toNat, le 8 p.sizeBytes.toUInt64.toNat,
      le 4 (p.number % 2 ^ 32).toNat, [1], zeros 3, typeGuid.bytes, partGuid.bytes, le 8 p.attributes.toNat,
      (utf16 p.name ++ List.replicate k 0).flatMap fun u : UInt16 => le 2 u.toNat].flatten ++ after) := by
    rw [hb, hentry, hpad, hunits]
    simp
  have hlength : (utf16 p.name ++ List.replicate k 0).length = 36 := by
    rw [length_append, length_replicate]
    omega
  have hnumber : ((p.number % 2 ^ 32).toNat : Int) = p.number := by omega
  have htypeAt := guidAt_of_eq typeGuid (field_at hfields (show _[7]? = _ from rfl)) rfl
  have hpartAt := guidAt_of_eq partGuid (field_at hfields (show _[8]? = _ from rfl)) rfl
  have hunitsAt := unitsAt_of_eq (field_at hfields (show _[10]? = _ from rfl)) rfl
  have hnumberAt := uintAt_of_eq (field_at hfields (show _[4]? = _ from rfl)) rfl rfl (by omega)
  have hstartAt := uintAt_of_eq (field_at hfields (show _[2]? = _ from rfl)) rfl rfl (UInt64.toNat_lt _)
  have hsizeAt := uintAt_of_eq (field_at hfields (show _[3]? = _ from rfl)) rfl rfl (UInt64.toNat_lt _)
  have hattributesAt := uintAt_of_eq (field_at hfields (show _[9]? = _ from rfl)) rfl rfl (UInt64.toNat_lt _)
  simp only [take_succ_cons, take_zero, flatten_cons, flatten_nil, length_append, le_length, zeros,
    length_replicate, length_singleton, length_nil, typeGuid.length, partGuid.length, hlength, Nat.reduceAdd,
    add_zero] at htypeAt hpartAt hunitsAt hnumberAt hstartAt hsizeAt hattributesAt
  rw [decodePartition, htypeAt, hpartAt, hunitsAt, hnumberAt, hstartAt, hsizeAt, hattributesAt]
  have hnameAt : trimRightNul (decoded (utf16 p.name ++ List.replicate k 0)) = p.name := by
    rw [← utf16_padded, decoded_utf16, trimRightNul_padded hnul]
  change Except.ok _ = Except.ok _
  rw [hnameAt, bytesToGuid_guidToBytes htype, bytesToGuid_guidToBytes hpart, hnumber]
  simp [normalized]

lemma decodePartitions_mapM {ps : List Partition} {entries : List Bytes} (count : ℕ)
    (h : ps.mapM encodePartition = .ok entries) (hps : ∀ p ∈ ps, Representable p)
    (hb : b = before ++ (entries.flatten ++ after)) (hbefore : before.length = 48 + i * 144) :
    decodePartitions b count i ps.length = .ok (ps.map normalized) := by
  induction ps generalizing entries before i with
  | nil => rfl
  | cons p ps ih =>
    rw [mapM_cons] at h
    cases hentry : encodePartition p with
    | error e =>
      rw [hentry] at h
      cases h
    | ok entry =>
      cases hrest : ps.mapM encodePartition with
      | error e =>
        rw [hentry, hrest] at h
        cases h
      | ok rest =>
        rw [hentry, hrest] at h
        cases h
        have hlen := encodePartition_length hentry
        rw [flatten_cons, append_assoc] at hb
        have hfits : ¬48 + i * 144 + 144 > b.length := by
          simp only [hb, length_append]
          omega
        have hp := decodePartition_encodePartition hentry (hps p mem_cons_self) hb
        have hnext : decodePartitions b count (i + 1) ps.length = .ok (ps.map normalized) := by
          apply ih hrest (fun p hp => hps p (mem_cons_of_mem _ hp)) (hb.trans (append_assoc _ _ _).symm)
          rw [length_append, hlen, hbefore]
          omega
        rw [hbefore] at hp
        rw [length_cons, decodePartitions, if_neg hfits, hp]
        simp [bind, Except.bind, pure, Except.pure, hnext]

def normalizedLayout (l : Layout) : Layout :=
  { diskGuid := normalizeGuid l.diskGuid, sectorSize := 0, partitions := l.partitions.map normalized }

lemma decode_encode {l : Layout} (h : encodeDriveLayoutEx l = .ok b) (hps : ∀ p ∈ l.partitions, Representable p)
    (hcount : l.partitions.length < 2 ^ 32) : decodeDriveLayoutEx b = .ok (normalizedLayout l) := by
  rw [encodeDriveLayoutEx] at h
  split at h
  · cases h
  next diskGuid hguid =>
    split at h
    · cases h
    next entries hentries =>
      have hbytes : b = [le 4 1, le 4 l.partitions.length, diskGuid.bytes, zeros 24].flatten ++ (entries.flatten ++ []) := by
        cases h
        rw [Nat.mod_eq_of_lt hcount]
        simp
      have hb : b = [] ++ ([le 4 1, le 4 l.partitions.length, diskGuid.bytes, zeros 24].flatten ++ (entries.flatten ++ [])) :=
        hbytes
      have hlen : ¬b.length < 48 := by
        simp only [hbytes, flatten_cons, flatten_nil, length_append, le_length, diskGuid.length, zeros,
          length_replicate]
        omega
      have hstyle : uintAt b 0 4 = .ok 1 := uintAt_of_eq (field_at hb (show _[0]? = _ from rfl)) rfl rfl (by decide)
      have hcountAt : uintAt b 4 8 = .ok l.partitions.length :=
        uintAt_of_eq (field_at hb (show _[1]? = _ from rfl)) rfl rfl hcount
      have hguidAt : guidAt b 8 = .ok (bytesToGuid diskGuid) := guidAt_of_eq diskGuid (field_at hb (show _[2]? = _ from rfl)) rfl
      have hpartitions := decodePartitions_mapM l.partitions.length hentries hps hbytes (show _ = 48 + 0 * 144 by
        simp [diskGuid.length, zeros])
      rw [decodeDriveLayoutEx, if_neg hlen, hstyle]
      simp [bind, Except.bind, pure, Except.pure, hcountAt, hguidAt, hpartitions, bytesToGuid_guidToBytes hguid, normalizedLayout]

end Entries

section Bounds

variable {b : Bytes}

lemma uintAt_inside {start stop : ℕ} (h : stop ≤ b.length) : uintAt b start stop = .ok (readLe (slice b start stop)) := by
  rw [uintAt, sliceAt, if_pos h]
  rfl

lemma guidAt_inside {start : ℕ} (h : start + 16 ≤ b.length) : ∃ t, guidAt b start = .ok t := by
  rw [guidAt, dif_pos h]
  exact ⟨_, rfl⟩

lemma unitsAt_inside {start n : ℕ} (h : start + 2 * n ≤ b.length) : ∃ us, unitsAt b start n = .ok us := by
  induction n generalizing start with
  | zero => exact ⟨[], rfl⟩
  | succ n ih =>
    obtain ⟨us, hus⟩ := ih (show start + 2 + 2 * n ≤ b.length by omega)
    rw [unitsAt, uintAt_inside (show start + 2 ≤ b.length by omega)]
    simp [bind, Except.bind, pure, Except.pure, hus]

lemma decodePartition_inside {off : ℕ} (h : off + 144 ≤ b.length) : ∃ p, decodePartition b off = .ok p := by
  obtain ⟨typeGuid, htype⟩ := guidAt_inside (show off + 32 + 16 ≤ b.length by omega)
  obtain ⟨partGuid, hpart⟩ := guidAt_inside (show off + 48 + 16 ≤ b.length by omega)
  obtain ⟨units, hunits⟩ := unitsAt_inside (show off + 72 + 2 * 36 ≤ b.length by omega)
  rw [decodePartition, htype, hpart, hunits, uintAt_inside (show off + 28 ≤ b.length by omega),
    uintAt_inside (show off + 16 ≤ b.length by omega), uintAt_inside (show off + 24 ≤ b.length by omega),
    uintAt_inside (show off + 72 ≤ b.length by omega)]
  exact ⟨_, rfl⟩

lemma decodePartitions_outcome (count i n : ℕ) :
    (∃ j, decodePartitions b count i n = .error (.truncated j count)) ∨
      ∃ ps, decodePartitions b count i n = .ok ps ∧ ps.length = n := by
  induction n generalizing i with
  | zero => exact .inr ⟨[], rfl, rfl⟩
  | succ n ih =>
    rw [decodePartitions]
    split_ifs with hshort
    · exact .inl ⟨i, rfl⟩
    · obtain ⟨p, hp⟩ := decodePartition_inside (show 48 + i * 144 + 144 ≤ b.length by omega)
      rw [hp]
      rcases ih (i + 1) with ⟨j, hj⟩ | ⟨ps, hps, rfl⟩
      · exact .inl ⟨j, by simp [bind, Except.bind, hj]⟩
      · exact .inr ⟨p :: ps, by simp [bind, Except.bind, pure, Except.pure, hps], rfl⟩

lemma decode_outcome (b : Bytes) :
    (∃ e, e ≠ .outOfBounds ∧ decodeDriveLayoutEx b = .error e) ∨
      ∃ l, decodeDriveLayoutEx b = .ok l ∧ l.partitions.length = readLe (slice b 4 8) := by
  rw [decodeDriveLayoutEx]
  split_ifs with hshort
  · exact .inl ⟨.tooShort b.length, nofun, rfl⟩
  · obtain ⟨diskGuid, hguid⟩ := guidAt_inside (show 8 + 16 ≤ b.length by omega)
    rw [uintAt_inside (show 4 ≤ b.length by omega), uintAt_inside (show 8 ≤ b.length by omega), hguid]
    simp only [bind, Except.bind]
    split_ifs with hstyle
    · exact .inl ⟨.notGpt (readLe (slice b 0 4)), nofun, rfl⟩
    · set count := readLe (slice b 4 8)
      rcases decodePartitions_outcome (b := b) count 0 count with ⟨j, hj⟩ | ⟨ps, hps, hlen⟩
      · exact .inl ⟨.truncated j count, nofun, by simp [hj]⟩
      · exact .inr ⟨{ diskGuid, sectorSize := 0, partitions := ps }, by simp [hps, pure, Except.pure], hlen⟩

end Bounds

theorem drive_layout_round_trips :
    (∀ l b, encodeDriveLayoutEx l = .ok b → (∀ p ∈ l.partitions, Representable p) → l.partitions.length < 2 ^ 32 →
      decodeDriveLayoutEx b = .ok (normalizedLayout l)) ∧
    (∀ g, guidToBytes (bytesToGuid g) = .ok g) ∧
    (∀ s g, guidToBytes s = .ok g → bytesToGuid g = normalizeGuid s) ∧
    ∀ b, (∃ e, e ≠ .outOfBounds ∧ decodeDriveLayoutEx b = .error e) ∨
      ∃ l, decodeDriveLayoutEx b = .ok l ∧ l.partitions.length = readLe (slice b 4 8) :=
  ⟨fun _ _ h hps hcount => decode_encode h hps hcount, guidToBytes_bytesToGuid, fun _ _ h => bytesToGuid_guidToBytes h,
    decode_outcome⟩

def sample : Layout :=
  { diskGuid := "{00112233-4455-6677-8899-AABBCCDDEEFF}".toList, sectorSize := 512
    partitions := [{ number := 1, typeGuid := "c12a7328-f81f-11d2-ba4b-00a0c93ec93b".toList
                     partGuid := "C12A7328-F81F-11D2-BA4B-00A0C93EC93C".toList, name := [Char.ofNat 0x1f5a5]
                     startBytes := 1048576, sizeBytes := 104857600, attributes := 0 }] }

theorem drive_layout_round_trips_sample :
    (∀ p ∈ sample.partitions, Representable p) ∧ sample.partitions.length < 2 ^ 32 ∧
      ∃ b, encodeDriveLayoutEx sample = .ok b ∧ decodeDriveLayoutEx b = .ok (normalizedLayout sample) := by
  have hps : ∀ p ∈ sample.partitions, Representable p := by decide +kernel
  have hcount : sample.partitions.length < 2 ^ 32 := by decide
  obtain ⟨b, hb⟩ : ∃ b, encodeDriveLayoutEx sample = .ok b := by
    exact ⟨_, rfl⟩
  exact ⟨hps, hcount, b, hb, drive_layout_round_trips.1 sample b hb hps hcount⟩

theorem sector_size_lost :
    ∃ b l, encodeDriveLayoutEx sample = .ok b ∧ decodeDriveLayoutEx b = .ok l ∧ sample.sectorSize ≠ l.sectorSize ∧
      ∀ p ∈ sample.partitions, p.number < 2 ^ 32 ∧ p.name.getLast? ≠ some (Char.ofNat 0) := by
  obtain ⟨b, hb⟩ : ∃ b, encodeDriveLayoutEx sample = .ok b := by
    exact ⟨_, rfl⟩
  exact ⟨b, normalizedLayout sample, hb, decode_encode hb (by decide +kernel) (by decide), by decide, by decide +kernel⟩

end Breeze.WinGpt.RoundTrip
