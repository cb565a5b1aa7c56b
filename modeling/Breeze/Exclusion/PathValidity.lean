import Breeze.Exclusion.PathLanguage

/-! Whether a text is a pattern depends on its special characters only, and not on others at its ends. -/

namespace Breeze.Exclusion.PathValidity

open Breeze.Lib.Glob PathMatch PathGrammar PathLanguage

def specials : List ℕ := [PathMatch.star, question, opening, closing, caret, dash, backslash]

def Ordinary (c : ℕ) : Prop := c ∉ specials

lemma Ordinary.ne {c x : ℕ} (h : Ordinary c) (hx : x ∈ specials) : c ≠ x := by
  rintro rfl
  exact h hx

lemma Ordinary.termText {c : ℕ} (h : Ordinary c) : TermText (.char c) [c] :=
  .char ⟨h.ne (by decide), h.ne (by decide), h.ne (by decide), h.ne (by decide)⟩

section Ends

variable {c : ℕ} {p : Points}

lemma valid_cons (hc : Ordinary c) : Valid (c :: p) ↔ Valid p := by
  constructor
  · rintro ⟨terms, h⟩
    generalize hq : c :: p = q at h
    cases h with
    | nil => cases hq
    | cons ht hs =>
      cases ht with
      | char =>
        obtain rfl := (List.cons.inj hq).2
        exact ⟨_, hs⟩
      | _ => exact absurd (List.cons.inj hq).1 (hc.ne (by decide))
  · rintro ⟨terms, h⟩
    exact ⟨_, Generates.cons hc.termText h⟩

lemma termText_concat (hc : Ordinary c) {t : Term ℕ} (h : TermText t (p ++ [c])) (hp : backslash ∉ p) : p = [] := by
  generalize hq : p ++ [c] = q at h
  have hlast : q.getLast? = some c := by simp [← hq]
  cases h with
  | star | any | char => exact (List.append_eq_singleton_iff.mp hq).elim And.left (fun h => absurd h.2 (by simp))
  | escaped d =>
    have hfront : p = [backslash] := (List.append_inj' (hq.trans (List.singleton_append (x := backslash) (l := [d])).symm) rfl).1
    rw [hfront] at hp
    exact absurd List.mem_cons_self hp
  | cls =>
    rw [← List.cons_append, List.getLast?_concat, Option.some.injEq] at hlast
    exact absurd hlast.symm (hc.ne (by decide))
  | negated =>
    rw [← List.cons_append, ← List.cons_append, List.getLast?_concat, Option.some.injEq] at hlast
    exact absurd hlast.symm (hc.ne (by decide))

lemma valid_of_concat (hc : Ordinary c) {terms : List (Term ℕ)} {q : Points} (h : Generates terms q) (hq : q = p ++ [c])
    (hp : backslash ∉ p) : Valid p := by
  induction h generalizing p with
  | nil => simp at hq
  | @cons t ts u v ht hs ih =>
    rcases List.eq_nil_or_concat v with rfl | ⟨w, d, hv⟩
    · rw [List.append_nil] at hq
      subst hq
      rw [termText_concat hc ht hp]
      exact valid_nil
    · rw [List.concat_eq_append] at hv
      rw [hv, ← List.append_assoc] at hq
      obtain ⟨rfl, hd⟩ := List.append_inj' hq rfl
      obtain rfl := List.cons.inj hd |>.1
      have hw : backslash ∉ w := fun hmem => hp (List.mem_append_right u hmem)
      obtain ⟨terms, hterms⟩ := ih hv hw
      exact ⟨t :: terms, Generates.cons ht hterms⟩

lemma valid_concat (hc : Ordinary c) (hp : backslash ∉ p) : Valid (p ++ [c]) ↔ Valid p := by
  constructor
  · rintro ⟨terms, h⟩
    exact valid_of_concat hc h rfl hp
  · rintro ⟨terms, h⟩
    exact ⟨terms ++ [.char c], generates_append h (Generates.cons hc.termText .nil)⟩

end Ends

section Shapes

def Alike (c d : ℕ) : Prop := ∀ x ∈ specials, c = x ↔ d = x

variable {c x : ℕ} {p q v t u : Points}

lemma Alike.symm {d : ℕ} (h : Alike c d) : Alike d c := fun x hx => (h x hx).symm

lemma Alike.ne {d : ℕ} (h : Alike c d) (hx : x ∈ specials) (hc : c ≠ x) : d ≠ x := fun hd => hc ((h x hx).mpr hd)

abbrev Like (p q : Points) : Prop := List.Forall₂ Alike p q

lemma Like.special (hx : x ∈ specials) (h : Like (x :: p) q) : ∃ q', q = x :: q' ∧ Like p q' := by
  cases h with
  | cons hc hs =>
    obtain rfl := (hc x hx).mp rfl
    exact ⟨_, rfl, hs⟩

lemma Like.split (h : Like (p ++ v) q) : ∃ q₁ q₂, q = q₁ ++ q₂ ∧ Like p q₁ ∧ Like v q₂ := by
  induction p generalizing q with
  | nil => exact ⟨[], q, rfl, .nil, h⟩
  | cons c p ih =>
    cases h with
    | cons hc hs =>
      obtain ⟨q₁, q₂, rfl, h₁, h₂⟩ := ih hs
      exact ⟨_ :: q₁, q₂, rfl, .cons hc h₁, h₂⟩

lemma Like.singleton (hx : x ∈ specials) (h : Like [x] q) : q = [x] := by
  obtain ⟨q', rfl, hs⟩ := Like.special hx h
  cases hs
  rfl

lemma classChar_like (h : ClassChar c t) (hlike : Like t u) : ∃ d, ClassChar d u := by
  cases h with
  | plain h =>
    cases hlike with
    | cons hc hs =>
      cases hs
      exact ⟨_, .plain ⟨hc.ne (by decide) h.1, hc.ne (by decide) h.2.1, hc.ne (by decide) h.2.2⟩⟩
  | escaped =>
    obtain ⟨q, rfl, hs⟩ := Like.special (by decide) hlike
    cases hs with
    | cons hc hs =>
      cases hs
      exact ⟨_, .escaped _⟩

lemma classItem_like {r : ℕ × ℕ} (h : ClassItem r t) (hlike : Like t u) : ∃ r', ClassItem r' u := by
  cases h with
  | single h =>
    obtain ⟨d, hd⟩ := classChar_like h hlike
    exact ⟨_, .single hd⟩
  | pair hlo hhi =>
    obtain ⟨u₁, u₂, rfl, h₁, h₂⟩ := Like.split hlike
    obtain ⟨u₃, rfl, h₃⟩ := Like.special (by decide) h₂
    obtain ⟨lo, hlo⟩ := classChar_like hlo h₁
    obtain ⟨hi, hhi⟩ := classChar_like hhi h₃
    exact ⟨_, .pair hlo hhi⟩

lemma classItems_like {ranges : List (ℕ × ℕ)} (h : ClassItems ranges t) (hlike : Like t u) :
    ∃ ranges', ClassItems ranges' u ∧ (ranges = [] ↔ ranges' = []) := by
  induction h generalizing u with
  | nil =>
    cases hlike
    exact ⟨[], .nil, Iff.rfl⟩
  | cons h hs ih =>
    obtain ⟨u₁, u₂, rfl, h₁, h₂⟩ := Like.split hlike
    obtain ⟨r, hr⟩ := classItem_like h h₁
    obtain ⟨rs, hrs, -⟩ := ih h₂
    exact ⟨r :: rs, .cons hr hrs, by simp⟩

lemma head_like (hlike : Like t u) (h : t.head? ≠ some caret) : u.head? ≠ some caret := by
  cases hlike with
  | nil => exact h
  | cons hc hs =>
    rw [List.head?_cons, ne_eq, Option.some.injEq] at h ⊢
    exact hc.ne (by decide) h

lemma termText_like {t : Term ℕ} (h : TermText t u) (hlike : Like u v) : ∃ t', TermText t' v := by
  cases h with
  | star =>
    rw [Like.singleton (by decide) hlike]
    exact ⟨_, .star⟩
  | any =>
    rw [Like.singleton (by decide) hlike]
    exact ⟨_, .any⟩
  | char h =>
    cases hlike with
    | cons hc hs =>
      cases hs
      exact ⟨_, .char ⟨hc.ne (by decide) h.1, hc.ne (by decide) h.2.1, hc.ne (by decide) h.2.2.1, hc.ne (by decide) h.2.2.2⟩⟩
  | escaped =>
    obtain ⟨q, rfl, hs⟩ := Like.special (by decide) hlike
    cases hs with
    | cons hc hs =>
      cases hs
      exact ⟨_, .escaped _⟩
  | cls h hne hcaret =>
    obtain ⟨q, rfl, hs⟩ := Like.special (by decide) hlike
    obtain ⟨q₁, q₂, rfl, h₁, h₂⟩ := Like.split hs
    rw [Like.singleton (by decide) h₂]
    obtain ⟨ranges, hranges, hiff⟩ := classItems_like h h₁
    exact ⟨_, .cls hranges (mt hiff.mpr hne) (head_like h₁ hcaret)⟩
  | negated h hne =>
    obtain ⟨q, rfl, hs⟩ := Like.special (by decide) hlike
    obtain ⟨q', rfl, hs'⟩ := Like.special (by decide) hs
    obtain ⟨q₁, q₂, rfl, h₁, h₂⟩ := Like.split hs'
    rw [Like.singleton (by decide) h₂]
    obtain ⟨ranges, hranges, hiff⟩ := classItems_like h h₁
    exact ⟨_, .negated hranges (mt hiff.mpr hne)⟩

lemma valid_of_like {terms : List (Term ℕ)} (h : Generates terms p) (hlike : Like p q) : Valid q := by
  induction h generalizing q with
  | nil =>
    cases hlike
    exact valid_nil
  | cons ht hs ih =>
    obtain ⟨q₁, q₂, rfl, h₁, h₂⟩ := Like.split hlike
    obtain ⟨t', ht'⟩ := termText_like ht h₁
    obtain ⟨terms, hterms⟩ := ih h₂
    exact ⟨t' :: terms, Generates.cons ht' hterms⟩

lemma valid_like (h : Like p q) : Valid p ↔ Valid q := by
  have hback : Like q p := List.Forall₂.flip (h.imp fun _ _ => Alike.symm)
  constructor
  · rintro ⟨terms, hterms⟩
    exact valid_of_like hterms h
  · rintro ⟨terms, hterms⟩
    exact valid_of_like hterms hback

end Shapes

end Breeze.Exclusion.PathValidity
