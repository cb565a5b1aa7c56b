import Breeze.Exclusion.DoubleStar
import Breeze.Exclusion.PathValidity

/-! The API's verdict on an exclusion pattern (backupExclusionGlob.ts) against the agent's. -/

namespace Breeze.Exclusion.Acceptance

open Breeze.Lib.Whitespace AgentMatcher DoubleStar PathMatch PathLanguage PathValidity List

section Verdict

def maxExclusionPatternLength : ℕ := 512

def utf16Length (s : Text) : ℕ := (s.map fun c => if c.toNat < 0x10000 then 1 else 2).sum

def normalizeExclusionPattern (raw : Text) : Text := trimSlashes (foldSeparators (trimBy isEcmaSpace raw))

inductive ExclusionPatternProblem where
  | empty
  | tooLong
  | syntaxError
  deriving DecidableEq

structure ExclusionPatternVerdict where
  normalized : Text
  usable : Bool
  problem : Option ExclusionPatternProblem
  message : Option String
  deriving DecidableEq

def isValidGlobSegment (segment : Text) : Bool := !(goPathMatch (codes segment) (codes probe)).bad

def containsOne (texts : List Text) (segment : Text) : Bool := texts.any fun text => decide (text <:+: segment)

def describeSegmentSyntaxError (segment : Text) : String :=
  let quoted := "\"" ++ String.ofList segment ++ "\""
  if segment.contains '[' && !segment.contains ']' then
    "Unclosed character class in " ++ quoted ++ " — add a closing \"]\" or escape the \"[\"."
  else if containsOne [['[', ']'], ['[', '^', ']']] segment then
    "Empty character class in " ++ quoted ++ " — a \"[...]\" class must list at least one character."
  else if containsOne [['[', '-'], ['[', '^', '-'], ['-', ']']] segment then
    "Character class in " ++ quoted ++ " has a leading or trailing \"-\". This backup matcher does not allow a literal dash " ++
      "there — move it into the middle of the class or drop it (e.g. \"[a-z0-9_]\")."
  else "Invalid glob syntax in " ++ quoted ++ "."

def segmentProblem : List Text → Option String
  | [] => none
  | segment :: segments =>
    if segment = doubleStar then segmentProblem segments
    else if segment = [] then some "Pattern contains an empty path segment (e.g. \"a//b\")."
    else if !isValidGlobSegment segment then some (describeSegmentSyntaxError segment)
    else segmentProblem segments

def describeExclusionPattern (raw : Text) : ExclusionPatternVerdict :=
  let normalized := normalizeExclusionPattern raw
  if normalized = [] then ⟨normalized, false, some .empty, some "Pattern is empty."⟩
  else if maxExclusionPatternLength < utf16Length normalized then
    ⟨normalized, false, some .tooLong, some ("Pattern is longer than " ++ toString maxExclusionPatternLength ++ " characters.")⟩
  else
    match segmentProblem (if normalized.contains '/' then normalized.splitOn '/' else [normalized]) with
    | some message => ⟨normalized, false, some .syntaxError, some message⟩
    | none => ⟨normalized, true, none, none⟩

end Verdict

def Globs (text : Text) : Prop := ∀ s ∈ text.splitOn '/', Valid (codes s)

def Hollow (text : Text) : Prop := [] ∈ text.splitOn '/'

section Api

lemma segmentProblem_eq_none (segments : List Text) :
    segmentProblem segments = none ↔ ∀ s ∈ segments, s = doubleStar ∨ s ≠ [] ∧ isValidGlobSegment s = true := by
  induction segments with
  | nil => simp [segmentProblem]
  | cons s segments ih =>
    rw [segmentProblem, forall_mem_cons, ← ih]
    split_ifs with hstar hnil hvalid
    · simp [hstar]
    · simp [hnil, doubleStar]
    · simp only [Bool.not_eq_true'] at hvalid
      simp [hstar, hvalid]
    · simp only [Bool.not_eq_true', Bool.not_eq_false] at hvalid
      simp [hnil, hvalid]

lemma isValidGlobSegment_iff (s : Text) : isValidGlobSegment s = true ↔ Valid (codes s) := by
  rw [isValidGlobSegment, Bool.not_eq_true', ← Bool.not_eq_true, goPathMatch_bad, not_not]

lemma segments_pass (text : Text) :
    (∀ s ∈ text.splitOn '/', s = doubleStar ∨ s ≠ [] ∧ Valid (codes s)) ↔ ¬ Hollow text ∧ Globs text := by
  constructor
  · intro h
    constructor
    · intro hmem
      exact (h [] hmem).elim (by decide) (fun h => h.1 rfl)
    · intro s hs
      rcases h s hs with rfl | h
      · exact ⟨[.star, .star], .cons .star (.cons .star .nil)⟩
      · exact h.2
  · rintro ⟨hsolid, hglobs⟩ s hs
    refine Or.inr ⟨?_, hglobs s hs⟩
    rintro rfl
    exact hsolid hs

lemma usable_iff {raw : Text} (hlength : utf16Length (normalizeExclusionPattern raw) ≤ maxExclusionPatternLength) :
    (describeExclusionPattern raw).usable = true ↔
      ¬ Hollow (normalizeExclusionPattern raw) ∧ Globs (normalizeExclusionPattern raw) := by
  rw [← segments_pass, describeExclusionPattern]
  generalize normalizeExclusionPattern raw = p at hlength
  by_cases hnil : p = []
  · subst hnil
    simp [doubleStar]
  have hsegments : (if p.contains '/' then p.splitOn '/' else [p]) = p.splitOn '/' := by
    split
    · rfl
    · next hslash => exact (splitOn_eq_singleton (by simpa using hslash)).symm
  rw [if_neg hnil, if_neg (not_lt.mpr hlength), hsegments]
  have hnone := segmentProblem_eq_none (p.splitOn '/')
  simp only [isValidGlobSegment_iff] at hnone
  rw [← hnone]
  cases segmentProblem (p.splitOn '/') <;> simp

end Api

section Agent

variable {pathMatch : Text → Text → Option Bool} {lower : Char → Char}

def Reports (pathMatch : Text → Text → Option Bool) : Prop := ∀ p name, pathMatch p name = none ↔ ¬ Valid (codes p)

lemma Reports.isSome (h : Reports pathMatch) (p name : Text) : (pathMatch p name).isSome = true ↔ Valid (codes p) := by
  rw [Option.isSome_iff_ne_none, ne_eq, h p name, not_not]

lemma patternMatcher_isSome (h : Reports pathMatch) (caseInsensitive : Bool) {p : Text} (hp : p ≠ []) (anchored : Bool) :
    (patternMatcher pathMatch caseInsensitive p anchored).isSome = true ↔ ¬ Hollow p ∧ Globs p := by
  have hvalid : validGlobSegments pathMatch (p.splitOn '/') = true ↔ ¬ Hollow p ∧ Globs p := by
    rw [validGlobSegments_iff, ← segments_pass, ValidSegments]
    simp only [h.isSome]
  unfold patternMatcher addNormalized
  split
  case isTrue =>
    simp only
    rw [← hvalid]
    split <;> simp [usable, *]
  case isFalse hclass =>
    simp only [Bool.or_eq_true, contains_iff_mem, not_or] at hclass
    have hsplit : p.splitOn '/' = [p] := splitOn_eq_singleton hclass.2
    have hsome : (pathMatch p probe).isSome = true ↔ ¬ Hollow p ∧ Globs p := by
      rw [h.isSome, Hollow, Globs, hsplit]
      simp [hp.symm]
    rw [← hsome]
    cases pathMatch p probe <;> simp [usable]

lemma newExcludeMatcherForOS_isSome (h : Reports pathMatch) (caseInsensitive : Bool) (raw : Text) :
    (newExcludeMatcherForOS pathMatch lower [raw] caseInsensitive).isSome = true ↔
      ¬ Hollow (normalized lower caseInsensitive raw) ∧ Globs (normalized lower caseInsensitive raw) := by
  by_cases hnil : normalized lower caseInsensitive raw = []
  · have htrimmed : (trimmed raw).1 = [] := by
      rw [normalized, foldCase] at hnil
      split at hnil
      · exact List.map_eq_nil_iff.mp hnil
      · exact hnil
    rw [newExcludeMatcherForOS, foldl_cons, foldl_nil, addPattern]
    simp [htrimmed, hnil, usable, Hollow]
  · rw [newExcludeMatcherForOS_singleton caseInsensitive hnil, patternMatcher_isSome h caseInsensitive hnil]

def KeepsSpecials (lower : Char → Char) : Prop := ∀ c x, x = '/' ∨ x.toNat ∈ specials → (lower c = x ↔ c = x)

lemma codes_lower_like (hlower : KeepsSpecials lower) (s : Text) : Like (codes s) (codes (s.map lower)) := by
  rw [Like, codes, codes, map_map, forall₂_map_left_iff, forall₂_map_right_iff, forall₂_same]
  intro c _ x hx
  have hchar : ∀ x ∈ specials, (Char.ofNat x).toNat = x := by decide
  rw [Function.comp_apply, ← hchar x hx, Char.toNat_inj, Char.toNat_inj, hlower c _ (Or.inr (by rwa [hchar x hx]))]

lemma globs_foldCase (hlower : KeepsSpecials lower) (caseInsensitive : Bool) (p : Text) :
    (¬ Hollow (foldCase lower caseInsensitive p) ∧ Globs (foldCase lower caseInsensitive p)) ↔ ¬ Hollow p ∧ Globs p := by
  have hslash : ∀ c, lower c = '/' ↔ c = '/' := fun c => hlower c '/' (Or.inl rfl)
  rw [Hollow, Hollow, Globs, Globs, splitOn_foldCase hslash]
  cases caseInsensitive with
  | false => simp [foldCase]
  | true =>
    simp only [foldCase, if_true, mem_map, map_eq_nil_iff, exists_eq_right, forall_exists_index, and_imp,
      forall_apply_eq_imp_iff₂]
    simp only [← valid_like (codes_lower_like hlower _)]

end Agent

section Ends

def Harmless (c : Char) : Prop := c = '/' ∨ Ordinary c.toNat

lemma globs_cons {c : Char} (hc : Harmless c) (text : Text) : Globs (c :: text) ↔ Globs text := by
  by_cases hslash : c = '/'
  · subst hslash
    rw [Globs, List.splitOn, splitOnP_cons_eq_if_modifyHead, if_pos (by simp), forall_mem_cons, ← List.splitOn]
    exact and_iff_right valid_nil
  · have hordinary := hc.resolve_left hslash
    rw [Globs, Globs, List.splitOn, splitOnP_cons_eq_if_modifyHead, if_neg (by simpa using hslash), List.splitOn]
    cases List.splitOnP (· == '/') text with
    | nil => rfl
    | cons first rest =>
      rw [modifyHead_cons, forall_mem_cons, forall_mem_cons]
      exact and_congr_left fun _ => valid_cons hordinary

variable {s text : Text}

lemma backslash_not_mem_codes (h : '\\' ∉ s) : backslash ∉ codes s := by
  intro hmem
  obtain ⟨c, hc, hcode⟩ := List.mem_map.mp hmem
  obtain rfl : c = '\\' := Char.toNat_inj.mp hcode
  exact h hc

lemma valid_codes_concat {c : Char} (hc : Ordinary c.toNat) (h : '\\' ∉ s) : Valid (codes (s ++ [c])) ↔ Valid (codes s) := by
  rw [codes, map_append]
  exact valid_concat hc (backslash_not_mem_codes h)

lemma globs_concat {c : Char} (hc : Harmless c) (h : '\\' ∉ text) : Globs (text ++ [c]) ↔ Globs text := by
  by_cases hslash : c = '/'
  · subst hslash
    rw [Globs, splitOn_cut text not_mem_nil, forall_mem_append]
    exact and_iff_left fun s hs => by rw [List.mem_singleton.mp hs]; exact valid_nil
  · have hordinary := hc.resolve_left hslash
    have hlast := slash_not_mem_lastSegment text
    have hlast' : '/' ∉ lastSegment text ++ [c] := by
      rw [mem_append, mem_singleton, not_or]
      exact ⟨hlast, Ne.symm hslash⟩
    rcases last_cut text with htext | ⟨front, htext⟩
    · rw [← htext] at hlast hlast'
      rw [Globs, Globs, splitOn_eq_singleton hlast, splitOn_eq_singleton hlast', forall_mem_singleton, forall_mem_singleton]
      exact valid_codes_concat hordinary h
    · generalize lastSegment text = last at hlast hlast' htext
      subst htext
      have hlast'' : '\\' ∉ last := fun hmem => h (mem_append_right _ (mem_cons_of_mem _ hmem))
      rw [append_assoc, cons_append, Globs, Globs, splitOn_cut front hlast, splitOn_cut front hlast',
        forall_mem_append, forall_mem_append, forall_mem_singleton, forall_mem_singleton]
      exact and_congr_right fun _ => valid_codes_concat hordinary hlast''

variable {space : Char → Bool}

section

variable (hspace : ∀ c, space c = true → Harmless c)

include hspace

lemma globs_dropWhile (text : Text) : Globs (text.dropWhile space) ↔ Globs text := by
  induction text with
  | nil => rfl
  | cons c text ih =>
    by_cases hc : space c = true
    · rw [dropWhile_cons_of_pos hc, ih, globs_cons (hspace c hc)]
    · rw [dropWhile_cons_of_neg hc]

lemma globs_rdropWhile (h : '\\' ∉ text) :
    Globs (text.rdropWhile space) ↔ Globs text := by
  induction text using List.reverseRecOn with
  | nil => rfl
  | append_singleton text c ih =>
    have htext : '\\' ∉ text := fun hmem => h (mem_append_left _ hmem)
    by_cases hc : space c = true
    · rw [rdropWhile_concat_pos _ _ _ hc, ih htext, globs_concat (hspace c hc) htext]
    · rw [rdropWhile_concat_neg _ _ _ hc]

lemma globs_trimBy (h : '\\' ∉ text) : Globs (trimBy space text) ↔ Globs text := by
  have hdrop : '\\' ∉ text.dropWhile space := fun hmem => h ((dropWhile_sublist _).subset hmem)
  have htrim : trimBy space text = (text.dropWhile space).rdropWhile space := rfl
  rw [htrim, globs_rdropWhile hspace hdrop, globs_dropWhile hspace]

end

lemma foldSeparators_trimBy (hslash : space '/' = false) (hbackslash : space '\\' = false) (text : Text) :
    foldSeparators (trimBy space text) = trimBy space (foldSeparators text) := by
  have hspace : space ∘ (fun c => if c = '\\' then '/' else c) = space := by
    funext c
    rw [Function.comp_apply]
    split_ifs with hc
    · rw [hc, hslash, hbackslash]
    · rfl
  rw [trimBy, trimBy, foldSeparators, foldSeparators, dropWhile_map, hspace, ← map_reverse, dropWhile_map, hspace,
    map_reverse]

lemma globs_trimmed (hspace : ∀ c, space c = true → Ordinary c.toNat) (hslash : space '/' = false) (raw : Text) :
    Globs (trimSlashes (foldSeparators (trimBy space raw))) ↔ Globs (foldSeparators raw) := by
  have hbackslash : space '\\' = false := by
    by_contra hnot
    exact hspace '\\' (by simpa using hnot) (by decide)
  have hfold := backslash_not_mem_foldSeparators raw
  have htrim : '\\' ∉ foldSeparators (trimBy space raw) := backslash_not_mem_foldSeparators _
  rw [trimSlashes, globs_trimBy (fun c hc => Or.inl (by simpa using hc)) htrim, foldSeparators_trimBy hslash hbackslash,
    globs_trimBy (fun c hc => Or.inr (hspace c hc)) hfold]

lemma ordinary_of_space {c : Char} (h : isEcmaSpace c = true ∨ isGoSpace c = true) : Ordinary c.toNat := by
  intro hmem
  have hcode : c.toNat = 42 ∨ c.toNat = 63 ∨ c.toNat = 91 ∨ c.toNat = 93 ∨ c.toNat = 94 ∨ c.toNat = 45 ∨ c.toNat = 92 := by
    simpa [specials, PathMatch.star, question, opening, closing, caret, dash, backslash] using hmem
  simp only [isEcmaSpace, isGoSpace, isUnicodeSpace] at h
  rcases hcode with hc | hc | hc | hc | hc | hc | hc <;> simp [hc] at h

end Ends

def EmptySegment (space : Char → Bool) (raw : Text) : Prop := Hollow (trimSlashes (foldSeparators (trimBy space raw)))

theorem exclusion_acceptance {pathMatch : Text → Text → Option Bool} {lower : Char → Char} (hpath : Reports pathMatch)
    (hlower : KeepsSpecials lower) (raw : Text)
    (hlength : utf16Length (normalizeExclusionPattern raw) ≤ maxExclusionPatternLength) (caseInsensitive : Bool) :
    ((describeExclusionPattern raw).usable = true ↔
      (newExcludeMatcherForOS pathMatch lower [raw] caseInsensitive).isSome = true) ↔
    (Globs (foldSeparators raw) → (EmptySegment isEcmaSpace raw ↔ EmptySegment isGoSpace raw)) := by
  have hecma : Globs (normalizeExclusionPattern raw) ↔ Globs (foldSeparators raw) :=
    globs_trimmed (fun c hc => ordinary_of_space (Or.inl hc)) (by decide) raw
  have hgo : Globs (trimmed raw).1 ↔ Globs (foldSeparators raw) :=
    globs_trimmed (fun c hc => ordinary_of_space (Or.inr hc)) (by decide) raw
  have hapi : Hollow (normalizeExclusionPattern raw) ↔ EmptySegment isEcmaSpace raw := by
    rw [EmptySegment, normalizeExclusionPattern]
  have hagent : Hollow (trimmed raw).1 ↔ EmptySegment isGoSpace raw := by
    rw [EmptySegment, trimmed]
  rw [usable_iff hlength, newExcludeMatcherForOS_isSome hpath, normalized, globs_foldCase hlower, hecma, hgo, hapi, hagent]
  generalize Globs (foldSeparators raw) = globs
  generalize EmptySegment isEcmaSpace raw = hollow
  generalize EmptySegment isGoSpace raw = hollow'
  clear hecma hgo hapi hagent
  tauto

lemma portMatch_reports : Reports portMatch := by
  intro p name
  rw [portMatch]
  simp only [ite_eq_left_iff, reduceCtorEq, imp_false, not_not, goPathMatch_bad]

theorem exclusion_acceptance_nodeModules :
    utf16Length (normalizeExclusionPattern "node_modules/**".toList) ≤ maxExclusionPatternLength ∧
    Reports portMatch ∧ KeepsSpecials id ∧
    (((describeExclusionPattern "node_modules/**".toList).usable = true ↔
      (newExcludeMatcherForOS portMatch id ["node_modules/**".toList] true).isSome = true) ↔
    (Globs (foldSeparators "node_modules/**".toList) →
      (EmptySegment isEcmaSpace "node_modules/**".toList ↔ EmptySegment isGoSpace "node_modules/**".toList))) := by
  have hlength : utf16Length (normalizeExclusionPattern "node_modules/**".toList) ≤ maxExclusionPatternLength := by decide
  have hlower : KeepsSpecials id := fun _ _ _ => Iff.rfl
  exact ⟨hlength, portMatch_reports, hlower, exclusion_acceptance portMatch_reports hlower _ hlength true⟩

/-- A byte order mark before two slashes: the API saves the pattern, the agent drops it. -/
theorem exclusion_acceptance_byteOrderMark :
    Reports portMatch ∧ KeepsSpecials id ∧
    utf16Length (normalizeExclusionPattern "\uFEFF//a".toList) ≤ maxExclusionPatternLength ∧
    (describeExclusionPattern "\uFEFF//a".toList).usable = true ∧
    (newExcludeMatcherForOS portMatch id ["\uFEFF//a".toList] true).isSome = false ∧
    (newExcludeMatcherForOS portMatch id ["\uFEFF//a".toList] false).isSome = false :=
  ⟨portMatch_reports, fun _ _ _ => Iff.rfl, by decide, by decide +kernel, by decide +kernel, by decide +kernel⟩

end Breeze.Exclusion.Acceptance
