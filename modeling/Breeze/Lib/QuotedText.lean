import Breeze.Lib.GoJson

/-! Strings quoted by JavaScript and read by Go, and texts as either of them quotes it. -/

namespace Breeze.Lib.QuotedText

open Decimal Utf8 GoJson List
open Quoted (JsString codePoints units escapeLetter quotePoint isHigh isLow)

def scalar (c : ℕ) : Char := single c

def decoded (s : JsString) : Text := (codePoints s).map scalar

section Read

lemma toNat_ofNat_of_valid {c : ℕ} (h : c.isValidChar) : (Char.ofNat c).toNat = c := by
  rw [Char.ofNat, dif_pos h]
  rfl

lemma scalar_of_not_surrogate {c : ℕ} (h : ¬ (0xD800 ≤ c ∧ c ≤ 0xDFFF)) : scalar c = Char.ofNat c := by
  simp [scalar, single, isSurrogate, h]

lemma lt_of_escapeLetter {c : ℕ} {l : Char} (h : escapeLetter c = some l) : c < 0x80 := by
  unfold escapeLetter at h
  split at h <;> first | omega | cases h

end Read

section Text

def utf16 (t : Text) : JsString := t.flatMap fun c => units c.toNat

lemma codePoints_cons {u : UInt16} (h : isHigh u = false) (s : JsString) : codePoints (u :: s) = u.toNat :: codePoints s := by
  cases s with
  | nil => rfl
  | cons v s => simp [codePoints, h]

lemma codePoints_units_append (c : Char) (s : JsString) : codePoints (units c.toNat ++ s) = c.toNat :: codePoints s := by
  have hvalid : c.toNat < 0xD800 ∨ (0xDFFF < c.toNat ∧ c.toNat < 0x110000) := toNat_valid c
  rw [units]
  split_ifs with hlt
  · have hn : (UInt16.ofNat c.toNat).toNat = c.toNat := by
      rw [UInt16.toNat_ofNat']
      omega
    have hhigh : isHigh (UInt16.ofNat c.toNat) = false := decide_eq_false (by omega)
    rw [singleton_append, codePoints_cons hhigh, hn]
  · have hhi : (UInt16.ofNat (0xD800 + (c.toNat - 0x10000) / 0x400)).toNat = 0xD800 + (c.toNat - 0x10000) / 0x400 := by
      rw [UInt16.toNat_ofNat']
      omega
    have hlo : (UInt16.ofNat (0xDC00 + (c.toNat - 0x10000) % 0x400)).toNat = 0xDC00 + (c.toNat - 0x10000) % 0x400 := by
      rw [UInt16.toNat_ofNat']
      omega
    have hpair : (isHigh (UInt16.ofNat (0xD800 + (c.toNat - 0x10000) / 0x400)) &&
        isLow (UInt16.ofNat (0xDC00 + (c.toNat - 0x10000) % 0x400))) = true := by
      simp only [isHigh, isLow, Bool.and_eq_true, decide_eq_true_eq]
      omega
    have hsum : 0x10000 + (0xD800 + (c.toNat - 0x10000) / 0x400 - 0xD800) * 0x400 +
        (0xDC00 + (c.toNat - 0x10000) % 0x400 - 0xDC00) = c.toNat := by omega
    rw [cons_append, cons_append, nil_append, codePoints, if_pos hpair, hhi, hlo, hsum]

lemma codePoints_utf16 (t : Text) : codePoints (utf16 t) = t.map Char.toNat := by
  induction t with
  | nil => rfl
  | cons c t ih =>
    rw [utf16, flatMap_cons, codePoints_units_append, map_cons, ← ih]
    rfl

lemma utf16_injective {t u : Text} (h : utf16 t = utf16 u) : t = u := by
  have hmap : t.map Char.toNat = u.map Char.toNat := by rw [← codePoints_utf16, h, codePoints_utf16]
  exact List.map_injective_iff.mpr (fun a b hab => Char.toNat_inj.mp hab) hmap

lemma scalar_toNat (c : Char) : scalar c.toNat = c := by
  have hvalid : c.toNat < 0xD800 ∨ (0xDFFF < c.toNat ∧ c.toNat < 0x110000) := toNat_valid c
  rw [scalar_of_not_surrogate (by omega), Char.ofNat_toNat]

lemma decoded_utf16 (t : Text) : decoded (utf16 t) = t := by
  rw [decoded, codePoints_utf16, map_map]
  conv_rhs => rw [← map_id t]
  exact map_congr_left fun c _ => scalar_toNat c

def jsQuote (t : Text) : Text := Quoted.quote (utf16 t)

lemma jsQuote_eq (t : Text) : jsQuote t = '"' :: (t.flatMap (fun c => quotePoint c.toNat) ++ ['"']) := by
  rw [jsQuote, Quoted.quote, codePoints_utf16, flatMap_map]

def lineSeparator : Char := Char.ofNat 0x2028

def paragraphSeparator : Char := Char.ofNat 0x2029

def isSeparator (c : Char) : Bool := c == lineSeparator || c == paragraphSeparator

def plainRune (c : Char) : Text :=
  match shortLetter c with
  | some l => ['\\', l]
  | none => if c.toNat < 0x20 ∨ isSeparator c = true then escape c.toNat else [c]

def plainQuote (t : Text) : Text := '"' :: (t.flatMap plainRune ++ ['"'])

lemma shortLetter_eq (c : Char) : shortLetter c = escapeLetter c.toNat := by
  have hq : c = '"' ↔ c.toNat = 0x22 := Char.toNat_inj.symm
  have hb : c = '\\' ↔ c.toNat = 0x5C := Char.toNat_inj.symm
  rw [shortLetter]
  simp only [hq, hb]
  generalize c.toNat = n
  split_ifs with h₁ h₂ h₃ h₄ h₅ h₆ h₇
  all_goals try (subst n; rfl)
  rw [escapeLetter] <;> assumption

lemma plainRune_eq {c : Char} (h : isSeparator c = false) : plainRune c = quotePoint c.toNat := by
  have hvalid : c.toNat < 0xD800 ∨ (0xDFFF < c.toNat ∧ c.toNat < 0x110000) := toNat_valid c
  have hsur : ¬ (0xD800 ≤ c.toNat ∧ c.toNat ≤ 0xDFFF) := by omega
  rw [plainRune, quotePoint, shortLetter_eq]
  cases escapeLetter c.toNat with
  | some l => rfl
  | none => simp [h, hsur, escape]

lemma plainQuote_eq {t : Text} (h : ∀ c ∈ t, isSeparator c = false) : plainQuote t = jsQuote t := by
  rw [jsQuote_eq, plainQuote, flatMap_congr fun c hc => plainRune_eq (h c hc)]

lemma quotePoint_of_ge {c : ℕ} (h : 0x80 ≤ c) (hs : ¬ (0xD800 ≤ c ∧ c ≤ 0xDFFF)) : quotePoint c = [Char.ofNat c] := by
  have hl : escapeLetter c = none := by
    cases hl : escapeLetter c with
    | none => rfl
    | some l =>
      have := lt_of_escapeLetter hl
      omega
  rw [quotePoint, hl]
  dsimp only
  rw [if_neg (by omega)]

lemma separator_cases {c : Char} (h : isSeparator c = true) : c.toNat = 0x2028 ∨ c.toNat = 0x2029 := by
  rw [isSeparator, Bool.or_eq_true, beq_iff_eq, beq_iff_eq] at h
  rcases h with rfl | rfl
  · exact Or.inl rfl
  · exact Or.inr rfl

lemma mem_jsQuote {c : Char} {t : Text} (hc : isSeparator c = true) (h : c ∈ t) : c ∈ jsQuote t := by
  have hn := separator_cases hc
  rw [jsQuote_eq]
  refine mem_cons_of_mem _ (mem_append_left _ (mem_flatMap_of_mem h ?_))
  rw [quotePoint_of_ge (by omega) (by omega), Char.ofNat_toNat]
  exact mem_singleton_self c

lemma hex4_ascii (n : ℕ) : ∀ c ∈ Quoted.hex4 n, c.toNat < 0x80 := by
  have hd : ∀ k < 16, k.digitChar.toNat < 0x80 := by decide
  intro c hc
  simp only [Quoted.hex4, mem_cons, not_mem_nil, or_false] at hc
  rcases hc with rfl | rfl | rfl | rfl <;> exact hd _ (Nat.mod_lt _ (by decide))

lemma separator_of_ascii {c : Char} (h : c.toNat < 0x80) : isSeparator c = false := by
  cases hs : isSeparator c with
  | false => rfl
  | true =>
    have := separator_cases hs
    omega

lemma plainRune_separator (d : Char) : ∀ c ∈ plainRune d, isSeparator c = false := by
  have hletter {n : ℕ} {l : Char} (h : escapeLetter n = some l) : l.toNat < 0x80 := by
    unfold escapeLetter at h
    split at h <;> cases h <;> decide
  intro c hc
  rw [plainRune, shortLetter_eq] at hc
  split at hc
  · rename_i l hl
    rcases List.mem_pair.mp hc with rfl | rfl
    · decide
    · exact separator_of_ascii (hletter hl)
  · split_ifs at hc with hd
    · rcases List.mem_cons.mp hc with rfl | hc
      · decide
      · rcases List.mem_cons.mp hc with rfl | hc
        · decide
        · exact separator_of_ascii (hex4_ascii _ c hc)
    · rw [List.mem_singleton.mp hc]
      exact Bool.eq_false_iff.mpr fun hs => hd (Or.inr hs)

lemma plainQuote_separator (t : Text) : ∀ c ∈ plainQuote t, isSeparator c = false := by
  intro c hc
  rw [plainQuote, mem_cons, mem_append, mem_singleton, mem_flatMap] at hc
  rcases hc with rfl | ⟨d, -, hc⟩ | rfl
  · decide
  · exact plainRune_separator d c hc
  · decide

end Text

end Breeze.Lib.QuotedText
