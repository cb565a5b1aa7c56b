import Breeze.Lib.EscapedText

/-! The quotes of `json.Marshal`, which escape HTML characters, beside those of `JSON.stringify`, which do not. -/

namespace Breeze.Lib.HtmlQuoted

open Decimal GoJson QuotedText EscapedText
open Quoted (JsString codePoints quotePoint)

def isHtml (c : Char) : Bool := decide (c = '<' ∨ c = '>' ∨ c = '&' ∨ c.toNat = 0x2028 ∨ c.toNat = 0x2029)

def isPlain (t : Text) : Bool := t.all fun c => !isHtml c

lemma isPlain_iff {t : Text} : isPlain t = true ↔ ∀ c ∈ t, isHtml c = false := by
  simp [isPlain]

lemma html_cases {c : Char} (h : isHtml c = true) :
    c.toNat = 0x3C ∨ c.toNat = 0x3E ∨ c.toNat = 0x26 ∨ c.toNat = 0x2028 ∨ c.toNat = 0x2029 := by
  rcases of_decide_eq_true h with rfl | rfl | rfl | h | h
  · exact Or.inl rfl
  · exact Or.inr (Or.inl rfl)
  · exact Or.inr (Or.inr (Or.inl rfl))
  · exact Or.inr (Or.inr (Or.inr (Or.inl h)))
  · exact Or.inr (Or.inr (Or.inr (Or.inr h)))

lemma quoteRune_plain {c : Char} (h : isHtml c = false) : quoteRune (.ok c) = quotePoint c.toNat := by
  have hvalid : c.toNat < 0xD800 ∨ (0xDFFF < c.toNat ∧ c.toNat < 0x110000) := Utf8.toNat_valid c
  have hescaped : isEscaped c = true ↔ c.toNat < 0x20 := by
    rw [isHtml, decide_eq_false_iff_not] at h
    rw [isEscaped, decide_eq_true_eq]
    exact ⟨fun he => he.resolve_right h, Or.inl⟩
  rw [quoteRune, quotePoint, shortLetter_eq]
  cases Quoted.escapeLetter c.toNat with
  | some l => rfl
  | none =>
    dsimp only
    by_cases hc : c.toNat < 0x20
    · rw [if_pos (hescaped.mpr hc), if_pos (Or.inl hc)]
      rfl
    · rw [if_neg (fun he => hc (hescaped.mp he)), if_neg (by omega), Char.ofNat_toNat]

lemma quote_plain {t : Text} (h : isPlain t = true) : GoJson.quote (Utf8.encode t) = jsQuote t := by
  rw [jsQuote_eq, GoJson.quote, quoteBody, Utf8.runes_encode, List.flatMap_map]
  rw [List.flatMap_congr fun c hc => quoteRune_plain (isPlain_iff.mp h c hc)]

lemma escape_html (n : ℕ) : ∀ c ∈ escape n, isHtml c = false := by
  have hd : ∀ k < 16, isHtml k.digitChar = false := by decide
  intro c hc
  simp only [escape, Quoted.hex4, List.mem_cons, List.not_mem_nil, or_false] at hc
  rcases hc with rfl | rfl | rfl | rfl | rfl | rfl
  · rfl
  · rfl
  all_goals exact hd _ (Nat.mod_lt _ (by decide))

lemma quoteRune_html (r : Utf8.Rune) : ∀ c ∈ quoteRune r, isHtml c = false := by
  intro c hc
  cases r with
  | bad b => exact escape_html _ c hc
  | ok d =>
    rw [quoteRune] at hc
    cases hl : shortLetter d with
    | some l =>
      rw [hl] at hc
      have hletter : isHtml l = false := by
        rw [shortLetter_eq, Quoted.escapeLetter.eq_def] at hl
        split at hl <;> cases hl <;> rfl
      rcases List.mem_pair.mp hc with rfl | rfl
      · rfl
      · exact hletter
    | none =>
      rw [hl] at hc
      dsimp only at hc
      split_ifs at hc with he
      · exact escape_html _ c hc
      · rw [List.mem_singleton.mp hc]
        refine decide_eq_false fun hd => he (decide_eq_true (Or.inr hd))

lemma quote_html (b : Utf8.Bytes) : ∀ c ∈ GoJson.quote b, isHtml c = false := by
  intro c hc
  rw [GoJson.quote, List.mem_cons, List.mem_append, List.mem_singleton, quoteBody, List.mem_flatMap] at hc
  rcases hc with rfl | ⟨r, -, hc⟩ | rfl
  · rfl
  · exact quoteRune_html r c hc
  · rfl

lemma scalar_html {p : ℕ} (hp : p < 0x110000) (h : isHtml (scalar p) = true) : p = (scalar p).toNat := by
  by_cases hs : 0xD800 ≤ p ∧ p ≤ 0xDFFF
  · rw [scalar, single, if_pos (by simp [isSurrogate, hs])] at h
    exact absurd h (by decide)
  · exact (toNat_scalar hp hs).symm

lemma mem_quote_html {s : JsString} {c : Char} (hc : isHtml c = true) (h : c ∈ decoded s) : c ∈ Quoted.quote s := by
  obtain ⟨p, hp, rfl⟩ := List.mem_map.mp h
  have hpoint := scalar_html (Quoted.codePoints_lt s p hp) hc
  refine List.mem_cons_of_mem _ (List.mem_append_left _ (List.mem_flatMap_of_mem hp ?_))
  have hquote : quotePoint (scalar p).toNat = [scalar p] := by
    have hraw : ∀ n ∈ [0x3C, 0x3E, 0x26, 0x2028, 0x2029], quotePoint n = [Char.ofNat n] := by decide
    rw [hraw _ (by simpa using html_cases hc), Char.ofNat_toNat]
  rw [(congrArg quotePoint hpoint).trans hquote]
  exact List.mem_singleton_self _

end Breeze.Lib.HtmlQuoted
