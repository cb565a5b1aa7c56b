import Breeze.Exclusion.PathGrammar

/-! `goPathMatch` decides the language of a pattern, and reports exactly the texts that are no patterns. -/

namespace Breeze.Exclusion.PathLanguage

open Breeze.Lib.Glob PathMatch PathGrammar List

section Scanning

def rangeAfter (c : ℕ) (inrange : Bool) : Bool := if c = opening then true else if c = closing then false else inrange

lemma splitChunk_cons {c : ℕ} {inrange : Bool} (hescape : c ≠ backslash) (hstar : ¬ (c = PathMatch.star ∧ inrange = false))
    (p : Points) : splitChunk inrange (c :: p) =
      (c :: (splitChunk (rangeAfter c inrange) p).1, (splitChunk (rangeAfter c inrange) p).2) := by
  cases p with
  | nil =>
    have hlast : splitChunk inrange [c] = ([c], []) := by rw [splitChunk, if_neg hstar]
    exact hlast
  | cons d p =>
    rw [splitChunk, if_neg hescape, if_neg hstar]
    rfl

lemma splitChunk_escaped (inrange : Bool) (d : ℕ) (p : Points) : splitChunk inrange (backslash :: d :: p) =
    (backslash :: d :: (splitChunk inrange p).1, (splitChunk inrange p).2) := by
  rw [splitChunk, if_pos rfl]

def Kept (before after : Bool) (u : Points) : Prop :=
  ∀ p, splitChunk before (u ++ p) = (u ++ (splitChunk after p).1, (splitChunk after p).2)

lemma Kept.append {a b c : Bool} {u v : Points} (hu : Kept a b u) (hv : Kept b c v) : Kept a c (u ++ v) := by
  intro p
  rw [append_assoc, hu, hv]
  simp

lemma kept_singleton {c : ℕ} {inrange : Bool} (hescape : c ≠ backslash) (hstar : ¬ (c = PathMatch.star ∧ inrange = false)) :
    Kept inrange (rangeAfter c inrange) [c] := splitChunk_cons hescape hstar

lemma kept_classChar {c : ℕ} {t : Points} (h : ClassChar c t) : Kept true true t := by
  cases h with
  | plain h =>
    have hstate : rangeAfter c true = true := by simp [rangeAfter, h.2.2]
    have hkept : Kept true (rangeAfter c true) [c] := kept_singleton h.1 (by simp)
    rwa [hstate] at hkept
  | escaped => exact splitChunk_escaped true _

lemma kept_items {ranges : List (ℕ × ℕ)} {text : Points} (h : ClassItems ranges text) : Kept true true text := by
  induction h with
  | nil => exact fun _ => rfl
  | cons h hs ih =>
    refine Kept.append ?_ ih
    cases h with
    | single h => exact kept_classChar h
    | pair hlo hhi => exact (kept_classChar hlo).append ((kept_singleton (c := dash) (by decide) (by simp)).append (kept_classChar hhi))

lemma kept_term {t : Term ℕ} {u : Points} (h : TermText t u) (hne : t ≠ .star) : Kept false false u := by
  cases h with
  | star => exact absurd rfl hne
  | any => exact kept_singleton (c := question) (by decide) (by decide)
  | @char c h =>
    have hstate : rangeAfter c false = false := by simp [rangeAfter, h.2.2.1]
    have hkept : Kept false (rangeAfter c false) [c] := kept_singleton h.2.2.2 (fun hh => h.1 hh.1)
    rwa [hstate] at hkept
  | escaped c => exact splitChunk_escaped false c
  | cls h hranges hcaret =>
    have hopen : Kept false true [opening] := kept_singleton (c := opening) (by decide) (by decide)
    have hclose : Kept true false [closing] := kept_singleton (c := closing) (by decide) (by decide)
    exact hopen.append ((kept_items h).append hclose)
  | negated h hranges =>
    have hopen : Kept false true [opening] := kept_singleton (c := opening) (by decide) (by decide)
    have hcaret : Kept true true [caret] := kept_singleton (c := caret) (by decide) (by decide)
    have hclose : Kept true false [closing] := kept_singleton (c := closing) (by decide) (by decide)
    exact hopen.append (hcaret.append ((kept_items h).append hclose))

lemma splitChunk_star (p : Points) : splitChunk false (PathMatch.star :: p) = ([], PathMatch.star :: p) := by
  cases p with
  | nil | cons d p => rfl

lemma split_generates {terms : List (Term ℕ)} {p : Points} (h : Generates terms p) :
    ∃ ts us, terms = ts ++ us ∧ StarFree ts ∧ Open us ∧
      Generates ts (splitChunk false p).1 ∧ Generates us (splitChunk false p).2 := by
  induction h with
  | nil => exact ⟨[], [], rfl, nofun, Or.inl rfl, .nil, .nil⟩
  | @cons t ts u v ht hs ih =>
    by_cases hstar : t = .star
    · subst hstar
      cases ht
      rw [singleton_append, splitChunk_star]
      exact ⟨[], .star :: ts, rfl, nofun, Or.inr ⟨ts, rfl⟩, .nil, Generates.cons .star hs⟩
    · obtain ⟨ts', us, rfl, hfree, hopen, hts, hus⟩ := ih
      rw [kept_term ht hstar v]
      refine ⟨t :: ts', us, rfl, ?_, hopen, Generates.cons ht hts, hus⟩
      intro t' ht'
      rcases List.mem_cons.mp ht' with rfl | ht'
      · exact hstar
      · exact hfree t' ht'

lemma generates_chunk {ts : List (Term ℕ)} {u p : Points} (h : ChunkTerms ts u) (hu : (splitChunk false p).1 = u) :
    Generates ts u := by
  induction h generalizing p with
  | nil => exact .nil
  | @cons t ts u v ht hs ih =>
    have hp := splitChunk_append false p
    rw [hu, append_assoc] at hp
    cases ht with
    | term ht hne =>
      rw [← hp, kept_term ht hne] at hu
      exact Generates.cons ht (ih (append_cancel_left hu))
    | literal =>
      rw [← hp, singleton_append, splitChunk_star] at hu
      cases hu

end Scanning

section Parsing

variable {u p : Points} {terms : List (Term ℕ)}

lemma termText_ne_nil {t : Term ℕ} (h : TermText t u) : u ≠ [] := by
  cases h <;> simp

lemma generates_nil (h : Generates terms []) : terms = [] := by
  generalize hp : ([] : Points) = p at h
  cases h with
  | nil => rfl
  | cons h hs => exact absurd (List.append_eq_nil_iff.mp hp.symm).1 (termText_ne_nil h)

lemma generates_append {ts us : List (Term ℕ)} {v : Points} (h : Generates ts u) (h' : Generates us v) :
    Generates (ts ++ us) (u ++ v) := by
  induction h with
  | nil => exact h'
  | cons ht hs ih =>
    rw [cons_append, append_assoc]
    exact Generates.cons ht ih

lemma chunkTerms_of_generates {ts : List (Term ℕ)} (h : Generates ts u) (hfree : StarFree ts) : ChunkTerms ts u := by
  induction h with
  | nil => exact .nil
  | cons ht hs ih =>
    exact .cons (.term ht (hfree _ mem_cons_self)) (ih fun t ht => hfree t (mem_cons_of_mem _ ht))

def Valid (pattern : Points) : Prop := ∃ terms, Generates terms pattern

lemma valid_nil : Valid [] := ⟨[], .nil⟩

lemma termText_head {t : Term ℕ} (h : TermText t u) (hne : t ≠ .star) (v : Points) :
    ∃ c w, u ++ v = c :: w ∧ c ≠ PathMatch.star := by
  cases h with
  | star => exact absurd rfl hne
  | any => exact ⟨question, v, rfl, by decide⟩
  | char h => exact ⟨_, v, rfl, h.1⟩
  | escaped c => exact ⟨backslash, c :: v, rfl, by decide⟩
  | cls h hranges hcaret | negated h hranges => exact ⟨opening, _, rfl, by decide⟩

lemma dropWhile_generates (h : Generates terms p) :
    ∃ k terms', terms = List.replicate k .star ++ terms' ∧ Generates terms' (p.dropWhile (· == PathMatch.star)) ∧
      (p.head? = some PathMatch.star ↔ 0 < k) := by
  induction h with
  | nil => exact ⟨0, [], rfl, .nil, by simp⟩
  | @cons t ts u v ht hs ih =>
    by_cases hstar : t = .star
    · subst hstar
      cases ht
      obtain ⟨k, terms', rfl, hgen, -⟩ := ih
      exact ⟨k + 1, terms', rfl, hgen, by simp⟩
    · obtain ⟨c, w, huv, hc⟩ := termText_head ht hstar v
      refine ⟨0, t :: ts, rfl, ?_, by simpa [huv] using hc⟩
      have hkeep : (u ++ v).dropWhile (· == PathMatch.star) = u ++ v := by
        rw [huv]
        exact dropWhile_cons_of_neg (by simpa using hc)
      rw [hkeep]
      exact Generates.cons ht hs

lemma valid_of_dropWhile (h : Valid (p.dropWhile (· == PathMatch.star))) : Valid p := by
  induction p with
  | nil => exact h
  | cons c p ih =>
    by_cases hc : c = PathMatch.star
    · rw [dropWhile_cons_of_pos (by simpa using hc)] at h
      obtain ⟨terms, hterms⟩ := ih h
      exact ⟨.star :: terms, hc ▸ Generates.cons .star hterms⟩
    · rwa [dropWhile_cons_of_neg (by simpa using hc)] at h

lemma scan_generates (h : Generates terms p) :
    ∃ k ts us, terms = List.replicate k .star ++ (ts ++ us) ∧ StarFree ts ∧ Open us ∧
      Generates ts (scanChunk p).chunk ∧ Generates us (scanChunk p).rest ∧ ((scanChunk p).star = true ↔ 0 < k) := by
  obtain ⟨k, terms', rfl, hgen, hk⟩ := dropWhile_generates h
  obtain ⟨ts, us, rfl, hfree, hopen, hts, hus⟩ := split_generates hgen
  refine ⟨k, ts, us, rfl, hfree, hopen, hts, hus, ?_⟩
  simp only [scanChunk, beq_iff_eq]
  exact hk

lemma valid_iff_scan (p : Points) :
    Valid p ↔ (∃ ts, ChunkTerms ts (scanChunk p).chunk) ∧ Valid (scanChunk p).rest := by
  constructor
  · rintro ⟨terms, h⟩
    obtain ⟨k, ts, us, -, hfree, -, hts, hus, -⟩ := scan_generates h
    exact ⟨⟨ts, chunkTerms_of_generates hts hfree⟩, ⟨us, hus⟩⟩
  · rintro ⟨⟨ts, hts⟩, us, hus⟩
    apply valid_of_dropWhile
    refine ⟨ts ++ us, ?_⟩
    have happend := generates_append (generates_chunk hts rfl) hus
    rwa [scanChunk, splitChunk_append] at happend

lemma scan_rest_of_chunk (h : (scanChunk p).chunk = []) : (scanChunk p).rest = [] := by
  have happend := splitChunk_append false (p.dropWhile (· == PathMatch.star))
  simp only [scanChunk] at h ⊢
  cases hdrop : p.dropWhile (· == PathMatch.star) with
  | nil => rfl
  | cons c q =>
    have hc : (c == PathMatch.star) = false := by
      have hhead := List.head?_dropWhile_not (· == PathMatch.star) p
      rw [hdrop] at hhead
      simpa using hhead
    rw [hdrop] at h
    exact absurd h (splitChunk_ne_nil (by simpa using hc) q)

end Parsing

section Errors

lemma matchChunk_bad {chunk s : Points} : matchChunk chunk s = .bad ↔ ¬ ∃ ts, ChunkTerms ts chunk := by
  constructor
  · rintro hbad ⟨ts, hts⟩
    exact matchLoop_ne_bad hts s false hbad
  · intro hnone
    by_contra hbad
    exact hnone (terms_of_matchLoop hbad)

lemma restBad_iff (p : Points) : restBad p = true ↔ ¬ Valid p := by
  fun_induction restBad p with
  | case1 => simp [valid_nil]
  | case2 c p hbad =>
    rw [matchChunk_bad] at hbad
    rw [valid_iff_scan]
    simp [hbad]
  | case3 c p hok ih =>
    have hterms : ∃ ts, ChunkTerms ts (scanChunk (c :: p)).chunk := by
      by_contra hnone
      exact hok (matchChunk_bad.mpr hnone)
    rw [ih, valid_iff_scan (c :: p)]
    simp [hterms]

lemma advance_ne_bad {ts : List (Term ℕ)} {chunk : Points} (h : ChunkTerms ts chunk) (last : Bool) (nm : Points) :
    advance chunk last nm ≠ .bad := by
  fun_induction advance chunk last nm with
  | case1 | case2 | case6 => nofun
  | case3 c nm hslash hbad => exact absurd hbad (matchLoop_ne_bad h nm false)
  | case4 c nm hslash hfail ih | case5 c nm hslash rest hok hlast ih => exact ih

lemma place_bad {sc : Scan} {nm : Points} : place sc nm = .bad ↔ ¬ ∃ ts, ChunkTerms ts sc.chunk := by
  constructor
  · rintro hbad ⟨ts, hts⟩
    have hlater : (if sc.star then advance sc.chunk sc.rest.isEmpty nm else Advance.none) ≠ .bad := by
      split
      · exact advance_ne_bad hts _ nm
      · nofun
    unfold place at hbad
    cases hchunk : matchChunk sc.chunk nm with
    | bad => exact matchLoop_ne_bad hts nm false hchunk
    | fail =>
      rw [hchunk] at hbad
      exact hlater hbad
    | ok rest =>
      rw [hchunk] at hbad
      simp only at hbad
      split at hbad
      · cases hbad
      · exact hlater hbad
  · intro hnone
    unfold place
    rw [matchChunk_bad.mpr hnone]

lemma goPathMatch_bad (pattern name : Points) : (goPathMatch pattern name).bad = true ↔ ¬ Valid pattern := by
  fun_induction goPathMatch pattern name with
  | case1 => simp [valid_nil]
  | case2 c p nm sc hstar =>
    have hchunk : sc.chunk = [] := by
      rw [Bool.and_eq_true] at hstar
      simpa using hstar.2
    rw [valid_iff_scan, scan_rest_of_chunk hchunk, hchunk]
    simp only [Bool.false_eq_true, false_iff, not_not]
    exact ⟨⟨[], .nil⟩, valid_nil⟩
  | case3 c p nm sc hstar hbad =>
    rw [valid_iff_scan]
    simp only [true_iff]
    exact fun hvalid => place_bad.mp hbad hvalid.1
  | case4 c p nm sc hstar rest hfound ih =>
    have hterms : ∃ ts, ChunkTerms ts sc.chunk := by
      by_contra hnone
      rw [place_bad.mpr hnone] at hfound
      cases hfound
    rw [ih, valid_iff_scan (c :: p)]
    simp [hterms, sc]
  | case5 c p nm sc hstar hnone =>
    have hterms : ∃ ts, ChunkTerms ts sc.chunk := by
      by_contra hnot
      rw [place_bad.mpr hnot] at hnone
      cases hnone
    rw [restBad_iff, valid_iff_scan (c :: p)]
    simp [hterms, sc]

end Errors

section Language

variable {ts us : List (Term ℕ)} {chunk : Points} {last : Bool}

lemma fits_iff (h : ChunkTerms ts chunk) (hlast : last = true ↔ us = []) {s rest : Points} (hs : slash ∉ s) :
    Fits ts us s rest ↔ matchChunk chunk s = .ok rest ∧ (last && !rest.isEmpty) = false := by
  have hcond : (us = [] → rest = []) ↔ (last && !rest.isEmpty) = false := by
    rw [← hlast]
    cases last <;> simp
  rw [Fits, matchChunk_eq h hs, hcond]
  cases hconsume : consume ts s with
  | none | some rest' => simp

structure FirstFit (ts us : List (Term ℕ)) (nm : Points) (start k : ℕ) (rest : Points) : Prop where
  start_le : start ≤ k
  le_length : k ≤ nm.length
  fits : Fits ts us (nm.drop k) rest
  first : ∀ j, start ≤ j → j < k → ∀ rest, ¬ Fits ts us (nm.drop j) rest

def NoFit (ts us : List (Term ℕ)) (nm : Points) (start : ℕ) : Prop :=
  ∀ k, start ≤ k → k ≤ nm.length → ∀ rest, ¬ Fits ts us (nm.drop k) rest

def Searched (ts us : List (Term ℕ)) (nm : Points) (start : ℕ) : Advance → Prop
  | .bad => False
  | .none => NoFit ts us nm start
  | .found rest => ∃ k, FirstFit ts us nm start k rest

variable {nm : Points} {start : ℕ}

lemma Searched.of_fits {rest : Points} (hle : start ≤ nm.length) (h : Fits ts us (nm.drop start) rest) :
    Searched ts us nm start (.found rest) := ⟨start, le_rfl, hle, h, by omega⟩

lemma Searched.of_succ {result : Advance} (h : ∀ rest, ¬ Fits ts us (nm.drop start) rest)
    (hlater : Searched ts us nm (start + 1) result) : Searched ts us nm start result := by
  cases result with
  | bad => exact hlater
  | none =>
    intro k hk hlen rest
    rcases eq_or_lt_of_le hk with rfl | hlt
    · exact h rest
    · exact hlater k hlt hlen rest
  | found rest =>
    obtain ⟨k, hfirst⟩ := hlater
    refine ⟨k, (Nat.le_succ start).trans hfirst.start_le, hfirst.le_length, hfirst.fits, ?_⟩
    intro j hj hjk rest'
    rcases eq_or_lt_of_le hj with rfl | hlt
    · exact h rest'
    · exact hfirst.first j hlt hjk rest'

lemma Searched.cons {c : ℕ} {result : Advance} (h : Searched ts us nm start result) :
    Searched ts us (c :: nm) (start + 1) result := by
  cases result with
  | bad => exact h
  | none =>
    intro k hk hlen rest
    obtain ⟨k, rfl⟩ := Nat.exists_eq_add_of_lt hk
    rw [drop_succ_cons]
    exact h (start + k) (by omega) (by simpa using hlen) rest
  | found rest =>
    obtain ⟨k, hfirst⟩ := h
    refine ⟨k + 1, Nat.succ_le_succ hfirst.start_le, Nat.succ_le_succ hfirst.le_length, hfirst.fits, ?_⟩
    intro j hj hjk rest'
    obtain ⟨j, rfl⟩ := Nat.exists_eq_add_of_lt hj
    rw [drop_succ_cons]
    exact hfirst.first (start + j) (by omega) (by omega) rest'

lemma advance_searched (h : ChunkTerms ts chunk) (hlast : last = true ↔ us = []) (hnm : slash ∉ nm) :
    Searched ts us nm 1 (advance chunk last nm) := by
  fun_induction advance chunk last nm with
  | case1 =>
    intro k hk hlen
    exact absurd (hk.trans hlen) (by simp)
  | case2 nm => exact absurd mem_cons_self hnm
  | case3 c nm hslash hbad => exact absurd hbad (matchLoop_ne_bad h nm false)
  | case4 c nm hslash hfail ih =>
    have hnm' : slash ∉ nm := fun hmem => hnm (mem_cons_of_mem _ hmem)
    refine Searched.cons (Searched.of_succ ?_ (ih hnm'))
    intro rest
    rw [drop_zero, fits_iff h hlast hnm', hfail]
    simp
  | case5 c nm hslash rest hok hnotlast ih =>
    have hnm' : slash ∉ nm := fun hmem => hnm (mem_cons_of_mem _ hmem)
    refine Searched.cons (Searched.of_succ ?_ (ih hnm'))
    intro rest'
    rw [drop_zero, fits_iff h hlast hnm', hok]
    rintro ⟨heq, hfalse⟩
    cases heq
    rw [hnotlast] at hfalse
    cases hfalse
  | case6 c nm hslash rest hok hfits =>
    have hnm' : slash ∉ nm := fun hmem => hnm (mem_cons_of_mem _ hmem)
    refine Searched.cons (Searched.of_fits (Nat.zero_le _) ?_)
    rw [drop_zero, fits_iff h hlast hnm']
    exact ⟨hok, by simpa using hfits⟩

lemma place_searched {sc : Scan} (h : ChunkTerms ts sc.chunk) (hlast : sc.rest.isEmpty = true ↔ us = [])
    (hnm : slash ∉ nm) :
    (∃ rest, place sc nm = .found rest ∧ Fits ts us nm rest) ∨
      (∀ rest, ¬ Fits ts us nm rest) ∧
        place sc nm = (if sc.star then advance sc.chunk sc.rest.isEmpty nm else .none) := by
  have hfits : ∀ rest, Fits ts us nm rest ↔ matchChunk sc.chunk nm = .ok rest ∧ (sc.rest.isEmpty && !rest.isEmpty) = false :=
    fun rest => fits_iff h hlast hnm
  unfold place
  cases hchunk : matchChunk sc.chunk nm with
  | bad => exact absurd hchunk (matchLoop_ne_bad h nm false)
  | fail =>
    right
    refine ⟨fun rest => ?_, rfl⟩
    rw [hfits, hchunk]
    simp
  | ok rest =>
    simp only
    by_cases hfront : (rest.isEmpty || !sc.rest.isEmpty) = true
    · left
      rw [if_pos hfront]
      refine ⟨rest, rfl, (hfits rest).mpr ⟨hchunk, ?_⟩⟩
      generalize rest.isEmpty = a at hfront
      generalize sc.rest.isEmpty = b at hfront
      revert a b
      decide
    · right
      rw [if_neg hfront]
      refine ⟨fun rest' => ?_, rfl⟩
      rw [hfits, hchunk]
      rintro ⟨heq, hfalse⟩
      cases heq
      generalize rest.isEmpty = a at hfront hfalse
      generalize sc.rest.isEmpty = b at hfront hfalse
      revert a b
      decide

lemma isEmpty_iff_of_generates {us : List (Term ℕ)} {rest : Points} (h : Generates us rest) :
    rest.isEmpty = true ↔ us = [] := by
  cases h with
  | nil => simp
  | cons ht hs => simp [termText_ne_nil ht]

lemma slash_not_mem_of_fits {rest : Points} (hnm : slash ∉ nm) {k : ℕ} (h : Fits ts us (nm.drop k) rest) : slash ∉ rest := by
  obtain rfl := consume_drop h.1
  exact fun hmem => hnm (mem_of_mem_drop (mem_of_mem_drop hmem))

lemma place_spec {sc : Scan} {k : ℕ} (hfree : StarFree ts) (hopen : Open us) (h : ChunkTerms ts sc.chunk)
    (hrest : Generates us sc.rest) (hstar : sc.star = true ↔ 0 < k) (hnm : slash ∉ nm) :
    (∃ rest, place sc nm = .found rest ∧ slash ∉ rest ∧
      (Matches (List.replicate k .star ++ (ts ++ us)) nm ↔ Matches us rest)) ∨
    place sc nm = .none ∧ ¬ Matches (List.replicate k .star ++ (ts ++ us)) nm := by
  have hlast := isEmpty_iff_of_generates hrest
  cases k with
  | zero =>
    have hnot : ¬ sc.star = true := fun hh => absurd (hstar.mp hh) (lt_irrefl 0)
    rcases place_searched h hlast hnm with ⟨rest, hfound, hfits⟩ | ⟨hnone, hplace⟩
    · exact Or.inl ⟨rest, hfound, slash_not_mem_of_fits (k := 0) hnm hfits, matches_of_fits hfree hfits⟩
    · rw [if_neg hnot] at hplace
      have hmiss := not_matches_of_not_fits hfree hnone
      exact Or.inr ⟨hplace, hmiss⟩
  | succ k =>
    rw [matches_stars]
    have hsearched : Searched ts us nm 0 (place sc nm) := by
      rcases place_searched h hlast hnm with ⟨rest, hfound, hfits⟩ | ⟨hnone, hplace⟩
      · rw [hfound]
        exact Searched.of_fits (Nat.zero_le _) hfits
      · rw [hplace, if_pos (hstar.mpr (Nat.succ_pos k))]
        exact Searched.of_succ hnone (advance_searched h hlast hnm)
    cases hplace : place sc nm with
    | bad =>
      rw [hplace] at hsearched
      exact hsearched.elim
    | none =>
      rw [hplace] at hsearched
      exact Or.inr ⟨rfl, not_matches_star hfree fun k hk => hsearched k (Nat.zero_le k) hk⟩
    | found rest =>
      rw [hplace] at hsearched
      obtain ⟨j, hfirst⟩ := hsearched
      refine Or.inl ⟨rest, rfl, slash_not_mem_of_fits hnm hfirst.fits, ?_⟩
      exact matches_star_of_first hfree hopen hfirst.le_length hfirst.fits fun i hi => hfirst.first i (Nat.zero_le i) hi

lemma goPathMatch_matched {pattern name : Points} (hname : slash ∉ name) : ∀ terms, Generates terms pattern →
    ((goPathMatch pattern name).matched = true ↔ Matches terms name) := by
  fun_induction goPathMatch pattern name with
  | case1 nm =>
    intro terms h
    rw [generates_nil h, Matches]
    exact List.isEmpty_iff
  | case2 c p nm sc hstar =>
    intro terms h
    obtain ⟨k, ts, us, rfl, hfree, hopen, hts, hus, hk⟩ := scan_generates h
    rw [Bool.and_eq_true, List.isEmpty_iff] at hstar
    obtain ⟨k, rfl⟩ := Nat.exists_eq_succ_of_ne_zero (hk.mp hstar.1).ne'
    rw [hstar.2] at hts
    rw [scan_rest_of_chunk hstar.2] at hus
    rw [generates_nil hts, generates_nil hus, matches_stars, matches_star]
    refine iff_of_true (by simpa using hname) ⟨nm.length, le_rfl, ?_⟩
    rw [drop_length]
    rfl
  | case3 c p nm sc hstar hbad =>
    intro terms h
    obtain ⟨k, ts, us, -, hfree, -, hts, -, -⟩ := scan_generates h
    exact absurd ⟨ts, chunkTerms_of_generates hts hfree⟩ (place_bad.mp hbad)
  | case4 c p nm sc hstar rest hfound ih =>
    intro terms h
    obtain ⟨k, ts, us, rfl, hfree, hopen, hts, hus, hk⟩ := scan_generates h
    rcases place_spec hfree hopen (chunkTerms_of_generates hts hfree) hus hk hname with
      ⟨rest', hfound', hslash, hmatches⟩ | ⟨hnone, -⟩
    · rw [hfound] at hfound'
      cases hfound'
      rw [hmatches]
      exact ih hslash us hus
    · rw [hfound] at hnone
      cases hnone
  | case5 c p nm sc hstar hnone =>
    intro terms h
    obtain ⟨k, ts, us, rfl, hfree, hopen, hts, hus, hk⟩ := scan_generates h
    rcases place_spec hfree hopen (chunkTerms_of_generates hts hfree) hus hk hname with
      ⟨rest', hfound', -, -⟩ | ⟨-, hmatches⟩
    · rw [hnone] at hfound'
      cases hfound'
    · exact iff_of_false Bool.false_ne_true hmatches

end Language

theorem path_match_language (pattern : Points) :
    (∀ name name', (goPathMatch pattern name).bad = (goPathMatch pattern name').bad) ∧
    (∀ name, (goPathMatch pattern name).bad = true ↔ ¬ ∃ terms, Generates terms pattern) ∧
    ∀ terms, Generates terms pattern → ∀ name, slash ∉ name →
      ((goPathMatch pattern name).matched = true ↔ Matches terms name) := by
  refine ⟨?_, goPathMatch_bad pattern, ?_⟩
  · intro name name'
    rw [Bool.eq_iff_iff, goPathMatch_bad, goPathMatch_bad]
  · intro terms h name hname
    exact goPathMatch_matched hname terms h

theorem path_match_language_trailing_star :
    Generates [.char 'a'.toNat, .star] (points "a*") ∧ slash ∉ points "ab" ∧
    ((goPathMatch (points "a*") (points "ab")).matched = true ↔ Matches [.char 'a'.toNat, .star] (points "ab")) := by
  have hgen : Generates [.char 'a'.toNat, .star] (points "a*") := .cons (.char (by decide)) (.cons .star .nil)
  have hslash : slash ∉ points "ab" := by decide
  exact ⟨hgen, hslash, (path_match_language (points "a*")).2.2 _ hgen _ hslash⟩

end Breeze.Exclusion.PathLanguage
