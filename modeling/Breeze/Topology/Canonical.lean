import Breeze.Approval.ArgumentBinding
import Breeze.Lib.GoValue
import Breeze.Lib.Replace

/-! The canonical bytes of topology reports: `StableJSON` of agent/internal/topologycanon and `stable` of
packages/shared/src/validators/topologyCollectionCanonical. -/

namespace Breeze.Topology.Canonical

open Breeze.Lib Breeze.Lib.Decimal Breeze.Lib.JsonText Breeze.Lib.QuotedText Breeze.Lib.IntegerText List
open Breeze.Lib.Quoted (JsString)
open Breeze.Lib.GoValue
open Breeze.Lib.JsonRead (Atom Generic)
open Breeze.Lib.Utf8 (Bytes)
open Breeze.Approval.Canonicalize (enumerate scalarText)

abbrev Value := Tree Text Scalar

structure JsonValue where
  value : Value
  distinct : value.Distinct

section Server

abbrev JsScalar := Breeze.Approval.Canonicalize.Scalar

abbrev JsValue := Tree JsString JsScalar

-- an integer beyond the doubles is read as infinity, which `JSON.stringify` writes as null
def jsScalar : Scalar → JsScalar
  | .null => .null
  | .bool b => .bool b
  | .int n => if isInfinite n then .null else .num (ofInt n)
  | .str t => .str (utf16 t)

def toJs : Value → JsValue := Tree.relabel utf16 jsScalar

def textEncoder (s : JsString) : Bytes := Utf8.encode (decoded s)

def compareBytes : Bytes → Bytes → ℤ
  | [], right => -right.length
  | left, [] => left.length
  | a :: left, b :: right => if a ≠ b then (a.toNat : ℤ) - b.toNat else compareBytes left right

def compareUtf8 (a b : JsString) : ℤ := compareBytes (textEncoder a) (textEncoder b)

def entries {α : Type} (ms : List (JsString × α)) : List (JsString × α) :=
  (enumerate ms).insertionSort fun a b => compareUtf8 a.1 b.1 ≤ 0

def stable : JsValue → Text :=
  Tree.fold scalarText (fun ts => '[' :: (joined ts ++ [']']))
    fun ms => '{' :: (joined ((entries ms).map fun m => Quoted.quote m.1 ++ ':' :: m.2) ++ ['}'])

end Server

section Agent

def marshal (v : Value) : Bytes := Utf8.encode (encode marshalCode (v.sorted byteOrder))

def encoderEncode (generic : Generic) : Bytes := Utf8.encode (encode encoderCode (generic.sorted byteOrder) ++ ['\n'])

def newline : Bytes := Utf8.encode ['\n']

-- the pattern of either call is the separator itself, as is what it is replaced by
def stableJSON (v : Value) : Option Bytes :=
  (JsonRead.read (marshal v)).map fun generic =>
    let out := Replace.trimSuffix newline (encoderEncode generic)
    let out := Replace.replaceAll (Utf8.encode [lineSeparator]) (Utf8.encode [lineSeparator]) out
    Replace.replaceAll (Utf8.encode [paragraphSeparator]) (Utf8.encode [paragraphSeparator]) out

end Agent

section ServerText

lemma compareBytes_le (a b : Bytes) : compareBytes a b ≤ 0 ↔ a.map UInt8.toNat ≤ b.map UInt8.toNat := by
  rw [← not_lt (a := b.map UInt8.toNat)]
  induction a generalizing b with
  | nil => simp [compareBytes]
  | cons x a ih =>
    cases b with
    | nil =>
      simp only [compareBytes, length_cons, map_nil, map_cons, nil_lt_cons, not_true_eq_false, iff_false]
      omega
    | cons y b =>
      rw [compareBytes, map_cons, map_cons, cons_lt_cons_iff]
      by_cases h : x = y
      · simp [h, ih]
      · have hne : x.toNat ≠ y.toNat := fun he => h (UInt8.toNat_inj.mp he)
        simp only [ne_eq, h, not_false_eq_true, if_true, hne.symm, false_and, or_false]
        omega

def jsOrder (k : JsString) : List ℕ := byteOrder (decoded k)

lemma jsOrder_utf16 (k : Text) : jsOrder (utf16 k) = byteOrder k := by
  rw [jsOrder, decoded_utf16]

lemma entries_eq {α : Type} (ms : List (JsString × α)) : entries ms = byKey jsOrder (enumerate ms) := by
  have h := map_insertionSort (fun a b : JsString × α => compareUtf8 a.1 b.1 ≤ 0)
    (fun a b : JsString × α => jsOrder a.1 ≤ jsOrder b.1) id (enumerate ms)
    fun a _ b _ => compareBytes_le (textEncoder a.1) (textEncoder b.1)
  rwa [map_id, map_id] at h

lemma entries_utf16 {α : Type} {ms : List (Text × α)} (hk : (ms.map Prod.fst).Nodup) :
    entries (ms.map fun m => (utf16 m.1, m.2)) = (byKey byteOrder ms).map fun m => (utf16 m.1, m.2) := by
  have hnodup : ((ms.map fun m => (utf16 m.1, m.2)).map Prod.fst).Nodup := by
    have hmap := hk.map (f := utf16) fun _ _ h => utf16_injective h
    simpa [Function.comp_def] using hmap
  have hinj : Set.InjOn jsOrder {k | k ∈ (ms.map fun m => (utf16 m.1, m.2)).map Prod.fst} := by
    intro k hk l hl h
    simp only [map_map, Set.mem_ofPred_eq, mem_map, Function.comp_apply] at hk hl
    obtain ⟨m, -, rfl⟩ := hk
    obtain ⟨n, -, rfl⟩ := hl
    rw [jsOrder_utf16, jsOrder_utf16] at h
    rw [byteOrder_injective h]
  rw [entries_eq, ← byKey_eq_of_perm jsOrder hnodup hinj (Approval.ArgumentBinding.enumerate_perm hnodup).symm]
  exact byKey_map byteOrder (fun m => (utf16 m.1, m.2)) fun m _ => jsOrder_utf16 m.1

def serverCode : Code Text Scalar := Code.comap utf16 jsScalar Approval.Canonicalize.code

theorem stable_eq {v : Value} (h : v.Distinct) : stable (toJs v) = encode serverCode (v.sorted byteOrder) := by
  induction v using Tree.ind with
  | leaf a => simp [stable, toJs, encode_leaf, serverCode, Code.comap, Approval.Canonicalize.code]
  | arr items ih =>
    rw [Tree.distinct_arr] at h
    rw [toJs, Tree.relabel_arr, stable, Tree.fold_arr, Tree.sorted_arr, encode_arr, map_map, map_map,
      map_congr_left (g := encode serverCode ∘ Tree.sorted byteOrder)]
    exact fun v hv => ih v hv (h v hv)
  | obj ms ih =>
    rw [Tree.distinct_obj] at h
    have hvalues : mapValues stable (ms.map fun m => (utf16 m.1, toJs m.2)) =
        (mapValues (encode serverCode) (mapValues (Tree.sorted byteOrder) ms)).map fun m => (utf16 m.1, m.2) := by
      simp only [mapValues, map_map]
      exact map_congr_left fun m hm => Prod.ext rfl (ih m hm (h.2 m hm))
    have hkeys : ((mapValues (encode serverCode) (mapValues (Tree.sorted byteOrder) ms)).map Prod.fst).Nodup := by
      simpa [mapValues, Function.comp_def] using h.1
    have hsort := byKey_map byteOrder (g := byteOrder)
      (fun m : Text × Value => (m.1, encode serverCode m.2)) (fun m (_ : m ∈ mapValues (Tree.sorted byteOrder) ms) => rfl)
    rw [toJs, Tree.relabel_obj, stable, Tree.fold_obj, ← stable, ← toJs, hvalues, entries_utf16 hkeys, Tree.sorted_obj, encode_obj,
      mapValues, hsort, map_map, map_map]
    rfl

end ServerText

section AgentText

def agentCode : Code Text Scalar := Code.comap id atom encoderCode

theorem stableJSON_eq (v : Value) : stableJSON v = some (Utf8.encode (encode agentCode (v.sorted byteOrder))) := by
  have hread := JsonRead.read_encode marshal_reads (v.sorted byteOrder)
  have hsort : (Tree.relabel id atom (v.sorted byteOrder)).sorted byteOrder = Tree.relabel id atom (v.sorted byteOrder) := by
    rw [Tree.sorted_relabel byteOrder (g := byteOrder) (h := id) atom fun _ _ => rfl, Tree.sorted_idem]
  rw [stableJSON, marshal, hread, Option.map_some, Replace.replaceAll_self (by decide), Replace.replaceAll_self (by decide),
    encoderEncode, hsort, encode_relabel, Utf8.encode_append]
  rw [← newline, Replace.trimSuffix_append, agentCode]

end AgentText

section Agreement

def isPlain (t : Text) : Bool := t.all fun c => !isSeparator c

def isPlainScalar : Scalar → Bool
  | .int n => isKept n
  | .str t => isPlain t
  | _ => true

def isPlainValue (v : Value) : Bool := v.leaves.all isPlainScalar && v.keys.all isPlain

lemma isPlain_iff {t : Text} : isPlain t = true ↔ ∀ c ∈ t, isSeparator c = false := by
  simp [isPlain]

variable {v : Value} {a : Scalar}

lemma isPlainValue_iff : isPlainValue v = true ↔ (∀ a ∈ v.leaves, isPlainScalar a = true) ∧ ∀ k ∈ v.keys, isPlain k = true := by
  simp [isPlainValue]

def mixedCode : Code Text Scalar where
  leaf
    | .str t => jsQuote t
    | a => agentCode.leaf a
  key := jsQuote

lemma not_mem_intText_n (n : ℤ) : 'n' ∉ intText n := by
  intro hn
  rcases List.mem_append.mp hn with hn | hn
  · split at hn <;> simp at hn
  · exact absurd (NumberText.toDigits_digits _ _ hn) (by decide)

lemma serverCode_int (n : ℤ) : serverCode.leaf (.int n) = intText n ↔ isKept n = true := by
  change scalarText (jsScalar _) = _ ↔ _
  rw [jsScalar]
  cases hinf : isInfinite n with
  | true =>
    have hnull : 'n' ∈ scalarText .null := mem_cons_self
    constructor
    · intro h
      rw [if_pos rfl] at h
      exact absurd (h ▸ hnull) (not_mem_intText_n n)
    · intro hk
      rw [not_infinite_of_kept hk] at hinf
      cases hinf
  | false =>
    rw [if_neg Bool.false_ne_true]
    exact toText_ofInt_iff n

lemma serverCode_leaf (h : isPlainScalar a = true) : serverCode.leaf a = agentCode.leaf a := by
  cases a with
  | null => rfl
  | bool b => cases b <;> rfl
  | int n => exact (serverCode_int n).mpr h
  | str t => exact (plainQuote_eq (isPlain_iff.mp h)).symm

lemma isSeparator_word {c : Char} (h : GoJson.isWordChar c = true) : isSeparator c = false := by
  rw [isSeparator, Bool.or_eq_false_iff, beq_eq_false_iff_ne, beq_eq_false_iff_ne]
  constructor <;> (rintro rfl; exact absurd h (by decide))

lemma agentText_separator (v : Value) : ∀ c ∈ encode agentCode v, isSeparator c = false := by
  refine encode_chars (by simp [isSeparator, lineSeparator, paragraphSeparator]) (fun a _ => ?_) fun k _ => plainQuote_separator k
  cases a with
  | null => exact fun c hc => isSeparator_word (List.all_eq_true.mp (by rfl : "null".toList.all GoJson.isWordChar = true) c hc)
  | bool b =>
    have hword : (literalText b).all GoJson.isWordChar = true := by cases b <;> rfl
    exact fun c hc => isSeparator_word (List.all_eq_true.mp hword c hc)
  | int n => exact fun c hc => isSeparator_word (intText_word n c hc)
  | str t => exact plainQuote_separator t

lemma word_server (h : ∀ t, a ≠ .str t) : ∀ c ∈ serverCode.leaf a, Approval.Canonicalize.isWordChar c = true := by
  have hne : ∀ s, jsScalar a ≠ .str s := by
    cases a with
    | null | bool b => nofun
    | int n =>
      intro s hs
      simp only [jsScalar] at hs
      split at hs <;> cases hs
    | str t => exact absurd rfl (h t)
  rcases Approval.Canonicalize.word_or_string (jsScalar a) with ⟨s, hs⟩ | ⟨-, hw⟩
  · exact absurd hs (hne s)
  · exact hw

lemma word_mixed (h : ∀ t, a ≠ .str t) : ∀ c ∈ mixedCode.leaf a, Approval.Canonicalize.isWordChar c = true := by
  cases a with
  | null => exact List.all_eq_true.mp rfl
  | bool b => exact List.all_eq_true.mp (by cases b <;> rfl)
  | int n =>
    intro c hc
    rcases List.mem_append.mp hc with hc | hc
    · split at hc
      · rw [List.mem_singleton.mp hc]
        rfl
      · cases hc
    · simp [Approval.Canonicalize.isWordChar, (NumberText.toDigits_digits _).number c hc]
  | str t => exact absurd rfl (h t)

lemma mixed_agrees (v : Value) : Agrees mixedCode serverCode v := by
  refine encode_agrees (C := mixedCode) (D := serverCode) (fun _ => rfl) fun a _ r s hr hs h => ?_
  by_cases hstr : ∃ t, a = .str t
  · obtain ⟨t, rfl⟩ := hstr
    exact ⟨rfl, append_cancel_left h⟩
  · have hne : ∀ t, a ≠ .str t := fun t ht => hstr ⟨t, ht⟩
    exact Approval.Canonicalize.word_append (word_mixed hne) (word_server hne) hr hs h

section

variable (h : encode agentCode v = encode serverCode v)

include h

lemma plain_of_agree :
    (∀ t, .str t ∈ v.leaves → isPlain t = true) ∧ ∀ k ∈ v.keys, isPlain k = true := by
  have hno : ∀ c ∈ encode serverCode v, isSeparator c ≠ true := by
    rw [← h]
    exact fun c hc => Bool.eq_false_iff.mp (agentText_separator v c hc)
  constructor
  · intro t ht
    refine isPlain_iff.mpr fun c hc => Bool.eq_false_iff.mpr fun hs => ?_
    exact hno c ((infix_leaf ht).subset (mem_jsQuote hs hc)) hs
  · intro k hk
    refine isPlain_iff.mpr fun c hc => Bool.eq_false_iff.mpr fun hs => ?_
    exact hno c ((infix_key hk).subset (mem_jsQuote hs hc)) hs

lemma kept_of_agree {n : ℤ} (hn : .int n ∈ v.leaves) : isKept n = true := by
  obtain ⟨hstr, hkeys⟩ := plain_of_agree h
  have hmixed : encode agentCode v = encode mixedCode v := by
    refine encode_congr (fun a ha => ?_) fun k hk => plainQuote_eq (isPlain_iff.mp (hkeys k hk))
    cases a with
    | null | bool b | int n => rfl
    | str t => exact plainQuote_eq (isPlain_iff.mp (hstr t ha))
  rw [hmixed] at h
  have hall := (mixed_agrees v [] [] nofun nofun (by rw [h])).1 (.int n) hn
  exact (serverCode_int n).mp hall.symm

lemma plainValue_of_agree : isPlainValue v = true := by
  obtain ⟨hstr, hkeys⟩ := plain_of_agree h
  refine isPlainValue_iff.mpr ⟨fun a ha => ?_, hkeys⟩
  cases a with
  | null | bool b => rfl
  | int n => exact kept_of_agree h ha
  | str t => exact hstr t ha

end

lemma isPlainValue_sorted (v : Value) : isPlainValue (v.sorted byteOrder) = isPlainValue v := by
  rw [Bool.eq_iff_iff, isPlainValue_iff, isPlainValue_iff]
  simp only [Tree.mem_leaves_sorted, Tree.mem_keys_sorted]

lemma stableJSON_of_plain {v : JsonValue} (h : isPlainValue v.value = true) :
    stableJSON v.value = some (Utf8.encode (stable (toJs v.value))) := by
  rw [← isPlainValue_sorted] at h
  obtain ⟨hl, hk⟩ := isPlainValue_iff.mp h
  rw [stableJSON_eq, stable_eq v.distinct,
    encode_congr (fun a ha => serverCode_leaf (hl a ha)) fun k hk' => (plainQuote_eq (isPlain_iff.mp (hk k hk'))).symm]

theorem stableJSON_agrees_iff (v : JsonValue) :
    stableJSON v.value = some (Utf8.encode (stable (toJs v.value))) ↔ isPlainValue v.value = true := by
  refine ⟨fun h => ?_, stableJSON_of_plain⟩
  rw [stableJSON_eq, stable_eq v.distinct, Option.some.injEq] at h
  rw [← isPlainValue_sorted]
  exact plainValue_of_agree (Utf8.encode_injective h)

def separatorValue : JsonValue where
  value := .leaf (.str [lineSeparator])
  distinct := by simp [Tree.Distinct]

theorem separator_stays_escaped :
    stableJSON separatorValue.value = some (Utf8.encode "\"\\u2028\"".toList) ∧
      stable (toJs separatorValue.value) = ['"', lineSeparator, '"'] ∧
      stableJSON separatorValue.value ≠ some (Utf8.encode (stable (toJs separatorValue.value))) := by
  decide +kernel

end Agreement

end Breeze.Topology.Canonical
