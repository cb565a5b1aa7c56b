import Breeze.Exclusion.AgentMatcher
import Breeze.Exclusion.PathLanguage

/-! What an exclusion pattern means: a base name, or an alignment of its segments with those of the path. -/

namespace Breeze.Exclusion.DoubleStar

open Breeze.Lib.Alignment Breeze.Lib.Whitespace AgentMatcher List

/-- What the documentation of `path.Match` says about stars. -/
structure Documented (pathMatch : Text → Text → Option Bool) : Prop where
  stars : ∀ name, '/' ∉ name → pathMatch doubleStar name = some true
  empty : ∀ p name, p ≠ [] → pathMatch p [] = some true → '/' ∉ name → pathMatch p name = some true

section Meaning

variable (pathMatch : Text → Text → Option Bool) (lower : Char → Char) (caseInsensitive : Bool)

def normalized (raw : Text) : Text := foldCase lower caseInsensitive (trimmed raw).1

def isAnchored (raw : Text) : Bool := (trimmed raw).2

def relative (path : Text) : Text := foldCase lower caseInsensitive (foldSeparators path)

def ValidSegments (p : Text) : Prop := ∀ s ∈ p.splitOn '/', s = doubleStar ∨ s ≠ [] ∧ (pathMatch s probe).isSome = true

def OnBaseName (p : Text) (anchored : Bool) (rel : Text) : Prop :=
  anchored = false ∧ '/' ∉ p ∧ pathMatch p (base rel) = some true

def OnSegments (p : Text) (anchored : Bool) (rel : Text) : Prop :=
  Aligns pathMatch (if anchored then p.splitOn '/' else doubleStar :: p.splitOn '/') (rel.splitOn '/')

def Excludes (p : Text) (anchored : Bool) (rel : Text) : Prop :=
  ValidSegments pathMatch p ∧
    (OnBaseName pathMatch p anchored rel ∨ (anchored = true ∨ '/' ∈ p) ∧ OnSegments pathMatch p anchored rel)

end Meaning

section Compiling

variable {pathMatch : Text → Text → Option Bool} {lower : Char → Char}

lemma validGlobSegments_iff (p : Text) :
    validGlobSegments pathMatch (p.splitOn '/') = true ↔ ValidSegments pathMatch p := by
  simp [validGlobSegments, ValidSegments]

lemma valid_ne_nil {p : Text} (h : ValidSegments pathMatch p) : p ≠ [] := by
  rintro rfl
  exact (h [] (by simp)).elim (by decide) (fun h => h.1 rfl)

def Hits (pathMatch : Text → Text → Option Bool) (m : ExcludeMatcher) (rel : Text) : Prop :=
  (∃ p ∈ m.baseName, pathMatch p (base rel) = some true) ∨ ∃ pattern ∈ m.relPath, Aligns pathMatch pattern (rel.splitOn '/')

lemma matchesPath_usable (m : ExcludeMatcher) {path : Text} (hne : path ≠ []) (hdot : path ≠ ['.']) :
    matchesPath pathMatch lower (usable m) path = true ↔ Hits pathMatch m (relative lower m.caseInsensitive path) := by
  have hguard : ¬ (path = [] ∨ path = ['.']) := by tauto
  have hrel : ∀ pattern segs, matchSegments pathMatch pattern segs = true ↔ Aligns pathMatch pattern segs :=
    matchSegments_iff pathMatch
  unfold usable
  split
  case isTrue hempty =>
    rw [Bool.and_eq_true, List.isEmpty_iff, List.isEmpty_iff] at hempty
    simp [matchesPath, Hits, hempty.1, hempty.2]
  case isFalse =>
    simp only [matchesPath, if_neg hguard]
    change (if _ then true else if _ then false else _) = true ↔ _
    by_cases hbase : (m.baseName.any fun p => pathMatch p (base (relative lower m.caseInsensitive path)) == some true) = true
    · have hhits : Hits pathMatch m (relative lower m.caseInsensitive path) := by
        left
        simpa using hbase
      rw [relative] at hbase hhits
      rw [if_pos hbase]
      exact iff_of_true rfl hhits
    · have hnone : ¬ ∃ p ∈ m.baseName, pathMatch p (base (relative lower m.caseInsensitive path)) = some true := by
        simpa using hbase
      rw [relative] at hbase hnone
      rw [if_neg hbase, Hits, relative, or_iff_right hnone]
      cases hpatterns : m.relPath with
      | nil => simp
      | cons pattern patterns => simp [hrel]

lemma hits_addNormalized (hdoc : Documented pathMatch) (m : ExcludeMatcher) (p : Text) (hp : p ≠ []) (anchored : Bool) (rel : Text) :
    Hits pathMatch (addNormalized pathMatch m p anchored) rel ↔ Hits pathMatch m rel ∨ Excludes pathMatch p anchored rel := by
  unfold addNormalized
  by_cases hsegments : anchored = true ∨ '/' ∈ p
  · have hbase : ¬ OnBaseName pathMatch p anchored rel := by
      rintro ⟨hfalse, hslash, -⟩
      rcases hsegments with htrue | hmem
      · rw [htrue] at hfalse
        cases hfalse
      · exact hslash hmem
    rw [if_pos (by simpa using hsegments)]
    simp only
    by_cases hvalid : ValidSegments pathMatch p
    · rw [if_pos ((validGlobSegments_iff p).mpr hvalid)]
      simp only [Hits, Excludes, OnSegments, hvalid, hbase, hsegments, true_and, false_or, mem_append, mem_singleton, or_assoc]
      simp only [or_and_right, exists_or, exists_eq_left]
    · rw [if_neg (fun h => hvalid ((validGlobSegments_iff p).mp h))]
      simp [Excludes, hvalid]
  · have hnot := hsegments
    rw [not_or, Bool.not_eq_true] at hnot
    rw [if_neg (by simpa using hsegments)]
    have hsplit : p.splitOn '/' = [p] := splitOn_eq_singleton hnot.2
    have hvalid : ValidSegments pathMatch p ↔ (pathMatch p probe).isSome = true := by
      simp only [ValidSegments, hsplit, mem_singleton, forall_eq]
      constructor
      · rintro (rfl | h)
        · rw [hdoc.stars probe (by decide)]
          rfl
        · exact h.2
      · exact fun h => Or.inr ⟨hp, h⟩
    cases hmatch : pathMatch p probe with
    | none =>
      rw [hmatch] at hvalid
      simp [Excludes, hvalid]
    | some b =>
      rw [hmatch] at hvalid
      simp only [Hits, Excludes, OnBaseName, hvalid, hnot, Option.isSome_some, mem_append, mem_singleton,
        true_and, not_false_eq_true, Bool.false_eq_true, false_and, or_false]
      simp only [or_and_right, exists_or, exists_eq_left]
      exact or_right_comm

lemma addPattern_caseInsensitive (m : ExcludeMatcher) (raw : Text) :
    (addPattern pathMatch lower m raw).caseInsensitive = m.caseInsensitive := by
  unfold addPattern
  simp only
  split
  · rfl
  · unfold addNormalized
    split
    · simp only
      split <;> rfl
    · split <;> rfl

lemma hits_addPattern (hdoc : Documented pathMatch) (m : ExcludeMatcher) (raw rel : Text) :
    Hits pathMatch (addPattern pathMatch lower m raw) rel ↔
      Hits pathMatch m rel ∨ Excludes pathMatch (normalized lower m.caseInsensitive raw) (isAnchored raw) rel := by
  unfold addPattern
  simp only
  split
  case isTrue hempty =>
    have hnot : ¬ Excludes pathMatch (normalized lower m.caseInsensitive raw) (isAnchored raw) rel := by
      intro h
      have hnil : normalized lower m.caseInsensitive raw = [] := by
        rw [normalized, hempty, foldCase]
        split <;> rfl
      exact valid_ne_nil h.1 hnil
    rw [or_iff_left hnot]
  case isFalse hne =>
    refine hits_addNormalized hdoc m _ ?_ _ rel
    rw [foldCase]
    split
    · simpa using hne
    · exact hne

lemma hits_foldl (hdoc : Documented pathMatch) (patterns : List Text) (m : ExcludeMatcher) (rel : Text) :
    Hits pathMatch (patterns.foldl (addPattern pathMatch lower) m) rel ↔
      Hits pathMatch m rel ∨ ∃ raw ∈ patterns, Excludes pathMatch (normalized lower m.caseInsensitive raw) (isAnchored raw) rel := by
  induction patterns generalizing m with
  | nil => simp
  | cons raw patterns ih =>
    rw [foldl_cons, ih, hits_addPattern hdoc, addPattern_caseInsensitive]
    simp only [mem_cons, or_and_right, exists_or, exists_eq_left, or_assoc]

lemma foldl_caseInsensitive (patterns : List Text) (m : ExcludeMatcher) :
    (patterns.foldl (addPattern pathMatch lower) m).caseInsensitive = m.caseInsensitive := by
  induction patterns generalizing m with
  | nil => rfl
  | cons raw patterns ih => rw [foldl_cons, ih, addPattern_caseInsensitive]

lemma not_hits_empty (caseInsensitive : Bool) (rel : Text) : ¬ Hits pathMatch ⟨[], [], [], caseInsensitive⟩ rel := by
  rintro (⟨p, hp, -⟩ | ⟨p, hp, -⟩)
  · exact absurd hp not_mem_nil
  · exact absurd hp not_mem_nil

lemma matches_iff (hdoc : Documented pathMatch) (patterns : List Text) (caseInsensitive : Bool) {path : Text} (hne : path ≠ [])
    (hdot : path ≠ ['.']) :
    matchesPath pathMatch lower (newExcludeMatcherForOS pathMatch lower patterns caseInsensitive) path = true ↔
      ∃ raw ∈ patterns, Excludes pathMatch (normalized lower caseInsensitive raw) (isAnchored raw)
        (relative lower caseInsensitive path) := by
  rw [newExcludeMatcherForOS, matchesPath_usable _ hne hdot, hits_foldl hdoc, foldl_caseInsensitive,
    or_iff_right (not_hits_empty _ _)]

end Compiling

section BaseName

variable {pathMatch : Text → Text → Option Bool}

def lastSegment (rel : Text) : Text := rel.rtakeWhile (· != '/')

lemma slash_not_mem_lastSegment (rel : Text) : '/' ∉ lastSegment rel := by
  intro hmem
  have himp := mem_rtakeWhile_imp hmem
  simp at himp

lemma last_cut (rel : Text) : rel = lastSegment rel ∨ ∃ front, rel = front ++ '/' :: lastSegment rel := by
  have hrel : rel.rdropWhile (· != '/') ++ lastSegment rel = rel := rdropWhile_append_rtakeWhile
  rcases eq_nil_or_concat (rel.rdropWhile (· != '/')) with hnil | ⟨front, c, hfront⟩
  · rw [hnil, nil_append] at hrel
    exact Or.inl hrel.symm
  · have hc : c = '/' := by
      have hnot := rdropWhile_last_not (· != '/') rel (by simp [hfront])
      simpa [hfront] using hnot
    rw [hfront, hc, concat_eq_append, append_assoc] at hrel
    exact Or.inr ⟨front, hrel.symm⟩

lemma splitOn_cut (front : Text) {last : Text} (h : '/' ∉ last) :
    (front ++ '/' :: last).splitOn '/' = front.splitOn '/' ++ [last] := by
  rw [List.splitOn, splitOnP_append_cons _ _ (by simp)]
  exact congrArg (front.splitOn '/' ++ ·) (splitOn_eq_singleton h)

lemma splitOn_last (rel : Text) : ∃ ys, rel.splitOn '/' = ys ++ [lastSegment rel] := by
  have hslash := slash_not_mem_lastSegment rel
  rcases last_cut rel with hrel | ⟨front, hrel⟩
  · rw [← hrel] at hslash ⊢
    exact ⟨[], splitOn_eq_singleton hslash⟩
  · refine ⟨front.splitOn '/', ?_⟩
    rw [← splitOn_cut front hslash, ← hrel]

lemma base_of_lastSegment {rel : Text} (h : lastSegment rel ≠ []) : base rel = lastSegment rel := by
  have hlast : ∃ hne : rel ≠ [], rel.getLast hne ≠ '/' := by
    have hnot := mt List.rtakeWhile_eq_nil_iff.mpr h
    push Not at hnot
    simpa using hnot
  obtain ⟨hne, hlast⟩ := hlast
  have hstrip : rel.rdropWhile (· == '/') = rel := by
    rw [rdropWhile_eq_self_iff]
    intro hl
    simpa using hlast
  rw [base, if_neg hne, hstrip]
  split
  case _ hsegment => exact absurd hsegment h
  case _ => rfl

lemma slash_not_mem_base {rel : Text} (h : ∃ c ∈ rel, c ≠ '/') : '/' ∉ base rel := by
  obtain ⟨c, hc, hne⟩ := h
  have hstrip : rel.rdropWhile (· == '/') ≠ [] := by
    intro hnil
    rw [rdropWhile_eq_nil_iff] at hnil
    exact hne (by simpa using hnil c hc)
  have hlast := rdropWhile_last_not (· == '/') rel hstrip
  rw [base, if_neg (ne_nil_of_mem hc)]
  cases hsegment : (rel.rdropWhile (· == '/')).rtakeWhile (· != '/') with
  | nil =>
    rw [rtakeWhile_eq_nil_iff] at hsegment
    have hslash := hsegment hstrip
    simp only [bne_iff_ne, ne_eq, not_not] at hslash
    exact absurd hslash (by simpa using hlast)
  | cons d last =>
    intro hmem
    have hmem' : '/' ∈ d :: last := hmem
    rw [← hsegment] at hmem'
    have himp := mem_rtakeWhile_imp hmem'
    simp at himp

lemma onBaseName_of_onSegments (hdoc : Documented pathMatch) {p rel : Text} (hp : p ≠ []) (hslash : '/' ∉ p) (hrel : ∃ c ∈ rel, c ≠ '/')
    (h : OnSegments pathMatch p false rel) : OnBaseName pathMatch p false rel := by
  refine ⟨rfl, hslash, ?_⟩
  have hbase := slash_not_mem_base hrel
  by_cases hstar : p = doubleStar
  · rw [hstar]
    exact hdoc.stars _ hbase
  rw [OnSegments, if_neg Bool.false_ne_true, splitOn_eq_singleton hslash, Aligns, aligned_run_single hstar] at h
  obtain ⟨ys, x, hsplit, hx⟩ := h
  obtain ⟨zs, hlast⟩ := splitOn_last rel
  rw [hlast] at hsplit
  obtain ⟨-, hsegment⟩ := append_inj' hsplit rfl
  rw [List.cons.injEq] at hsegment
  rw [← hsegment.1] at hx
  by_cases hnil : lastSegment rel = []
  · rw [hnil] at hx
    exact hdoc.empty p _ hp hx hbase
  · rw [base_of_lastSegment hnil]
    exact hx

lemma excludes_iff (hdoc : Documented pathMatch) (p : Text) (anchored : Bool) {rel : Text} (hrel : ∃ c ∈ rel, c ≠ '/') :
    Excludes pathMatch p anchored rel ↔
      ValidSegments pathMatch p ∧ (OnBaseName pathMatch p anchored rel ∨ OnSegments pathMatch p anchored rel) := by
  refine and_congr_right fun hvalid => ⟨Or.imp_right And.right, ?_⟩
  have hp := valid_ne_nil hvalid
  rintro (h | h)
  · exact Or.inl h
  · by_cases hclass : anchored = true ∨ '/' ∈ p
    · exact Or.inr ⟨hclass, h⟩
    · rw [not_or, Bool.not_eq_true] at hclass
      obtain ⟨rfl, hslash⟩ := hclass
      exact Or.inl (onBaseName_of_onSegments hdoc hp hslash hrel h)

end BaseName

section Subtree

variable {pathMatch : Text → Text → Option Bool} {lower : Char → Char}

def patternMatcher (pathMatch : Text → Text → Option Bool) (caseInsensitive : Bool) (p : Text) (anchored : Bool) :
    Option ExcludeMatcher := usable (addNormalized pathMatch ⟨[], [], [], caseInsensitive⟩ p anchored)

lemma newExcludeMatcherForOS_singleton (caseInsensitive : Bool) {raw : Text} (h : normalized lower caseInsensitive raw ≠ []) :
    newExcludeMatcherForOS pathMatch lower [raw] caseInsensitive =
      patternMatcher pathMatch caseInsensitive (normalized lower caseInsensitive raw) (isAnchored raw) := by
  have hne : (trimmed raw).1 ≠ [] := by
    intro hnil
    refine h ?_
    rw [normalized, hnil, foldCase]
    split <;> rfl
  rw [newExcludeMatcherForOS, foldl_cons, foldl_nil, addPattern]
  simp only
  rw [if_neg hne]
  rfl

lemma splitOn_subtree (p : Text) : (p ++ '/' :: doubleStar).splitOn '/' = p.splitOn '/' ++ [doubleStar] := by
  rw [List.splitOn, splitOnP_append_cons _ _ (by simp)]
  rfl

lemma splitOn_anywhere (p : Text) : (doubleStar ++ '/' :: p).splitOn '/' = doubleStar :: p.splitOn '/' := by
  rw [List.splitOn, splitOnP_append_cons _ _ (by simp)]
  rfl

lemma addNormalized_caseInsensitive (m : ExcludeMatcher) (p : Text) (anchored : Bool) :
    (addNormalized pathMatch m p anchored).caseInsensitive = m.caseInsensitive := by
  unfold addNormalized
  split
  · simp only
    split <;> rfl
  · split <;> rfl

lemma matches_patternMatcher (hdoc : Documented pathMatch) (caseInsensitive : Bool) {p : Text} (hslash : '/' ∈ p) {path : Text}
    (hne : path ≠ []) (hdot : path ≠ ['.']) :
    matchesPath pathMatch lower (patternMatcher pathMatch caseInsensitive p false) path = true ↔
      ValidSegments pathMatch p ∧ Aligns pathMatch (doubleStar :: p.splitOn '/') ((relative lower caseInsensitive path).splitOn '/') := by
  have hbase : ∀ rel, ¬ OnBaseName pathMatch p false rel := fun rel h => h.2.1 hslash
  rw [patternMatcher, matchesPath_usable _ hne hdot, hits_addNormalized hdoc _ _ (ne_nil_of_mem hslash),
    or_iff_right (not_hits_empty _ _), addNormalized_caseInsensitive, Excludes, or_iff_right (hbase _),
    and_iff_right (Or.inr hslash)]
  rfl

lemma splitOn_foldCase (hlower : ∀ c, lower c = '/' ↔ c = '/') (caseInsensitive : Bool) (s : Text) :
    (foldCase lower caseInsensitive s).splitOn '/' = (s.splitOn '/').map (foldCase lower caseInsensitive) := by
  cases caseInsensitive with
  | false => exact (map_id _).symm
  | true =>
    simp only [foldCase, if_true]
    induction s with
    | nil => rfl
    | cons c s ih =>
      rw [List.splitOn] at ih ⊢
      rw [map_cons, splitOnP_cons_eq_if_modifyHead, List.splitOn, splitOnP_cons_eq_if_modifyHead, ih]
      by_cases hc : c = '/'
      · rw [if_pos (by simpa [hlower] using hc), if_pos (by simpa using hc)]
        rfl
      · rw [if_neg (by simpa [hlower] using hc), if_neg (by simpa using hc), ← List.splitOn]
        cases s.splitOn '/' with
        | nil | cons head tail => rfl

lemma foldSeparators_of_not_mem {s : Text} (h : '\\' ∉ s) : foldSeparators s = s := by
  have hid : ∀ c ∈ s, (if c = '\\' then '/' else c) = c := by
    intro c hc
    rw [if_neg]
    rintro rfl
    exact h hc
  rw [foldSeparators, map_congr_left hid, map_id']

lemma backslash_not_mem_foldSeparators (s : Text) : '\\' ∉ foldSeparators s := by
  intro hmem
  obtain ⟨c, -, hc⟩ := List.mem_map.mp hmem
  split_ifs at hc with hslash
  · cases hc
  · exact hslash hc

def ancestor (segs : List Text) (k : ℕ) : Text := ['/'].intercalate (segs.take k)

lemma foldSeparators_ancestor (path : Text) (k : ℕ) :
    foldSeparators (ancestor ((foldSeparators path).splitOn '/') k) = ancestor ((foldSeparators path).splitOn '/') k := by
  apply foldSeparators_of_not_mem
  intro hmem
  rcases mem_intercalate hmem with hslash | ⟨piece, hpiece, hmem⟩
  · cases hslash
  · have hpart := splitOnP_pieces (mem_of_mem_take hpiece) _ hmem
    exact backslash_not_mem_foldSeparators path hpart.2

lemma subtree_law (hdoc : Documented pathMatch) (hlower : ∀ c, lower c = '/' ↔ c = '/') (caseInsensitive : Bool) (p path : Text)
    (hsegs : ∀ s ∈ (foldSeparators path).splitOn '/', s ≠ [] ∧ s ≠ ['.']) :
    matchesPath pathMatch lower (patternMatcher pathMatch caseInsensitive (p ++ '/' :: doubleStar) false) path = true ↔
      ∃ k, 0 < k ∧ k ≤ ((foldSeparators path).splitOn '/').length ∧
        matchesPath pathMatch lower (patternMatcher pathMatch caseInsensitive (doubleStar ++ '/' :: p) false)
          (ancestor ((foldSeparators path).splitOn '/') k) = true := by
  have hne : path ≠ [] := by
    rintro rfl
    exact (hsegs [] (by simp [foldSeparators])).1 rfl
  have hdot : path ≠ ['.'] := by
    rintro rfl
    exact (hsegs ['.'] (by decide)).2 rfl
  have hsplit : (relative lower caseInsensitive path).splitOn '/' =
      ((foldSeparators path).splitOn '/').map (foldCase lower caseInsensitive) := splitOn_foldCase hlower _ _
  rw [matches_patternMatcher hdoc caseInsensitive (by simp) hne hdot, splitOn_subtree, hsplit, Aligns,
    aligned_between (by simp [List.splitOn, splitOnP_ne_nil]), length_map, ← exists_and_left]
  have hvalid : ValidSegments pathMatch (p ++ '/' :: doubleStar) ↔ ValidSegments pathMatch (doubleStar ++ '/' :: p) := by
    rw [ValidSegments, ValidSegments, splitOn_subtree, splitOn_anywhere]
    simp [or_imp, forall_and]
  refine exists_congr fun k => ?_
  rw [and_left_comm]
  refine and_congr_right fun hk => ?_
  rw [and_left_comm]
  refine and_congr_right fun hle => ?_
  have hpieces : ((foldSeparators path).splitOn '/').take k ≠ [] := by
    intro hnil
    have hlen := congrArg List.length hnil
    rw [length_take, length_nil] at hlen
    omega
  have hancestor : (ancestor ((foldSeparators path).splitOn '/') k).splitOn '/' = ((foldSeparators path).splitOn '/').take k := by
    apply splitOn_intercalate
    · intro piece hpiece hmem
      have hpart := splitOnP_pieces (mem_of_mem_take hpiece) _ hmem
      simp at hpart
    · exact hpieces
  have hane : ancestor ((foldSeparators path).splitOn '/') k ≠ [] := by
    intro hnil
    rw [hnil] at hancestor
    exact (hsegs [] (mem_of_mem_take (i := k) (by rw [← hancestor]; simp))).1 rfl
  have hadot : ancestor ((foldSeparators path).splitOn '/') k ≠ ['.'] := by
    intro hdot
    rw [hdot] at hancestor
    exact (hsegs ['.'] (mem_of_mem_take (i := k) (by rw [← hancestor]; decide))).2 rfl
  rw [matches_patternMatcher hdoc caseInsensitive (by simp) hane hadot, splitOn_anywhere, hvalid, Aligns, aligned_run_run, relative,
    foldSeparators_ancestor, splitOn_foldCase hlower, hancestor, map_take]

end Subtree

section Port

open PathMatch PathGrammar PathLanguage

def codes (s : Text) : Points := s.map Char.toNat

def portMatch (p name : Text) : Option Bool :=
  let result := goPathMatch (codes p) (codes name)
  if result.bad then none else some result.matched

lemma slash_not_mem_codes {name : Text} (h : '/' ∉ name) : PathMatch.slash ∉ codes name := by
  intro hmem
  obtain ⟨c, hc, hcode⟩ := List.mem_map.mp hmem
  obtain rfl : c = '/' := Char.toNat_inj.mp hcode
  exact h hc

lemma portMatch_eq_some {p name : Text} {terms : List (Breeze.Lib.Glob.Term ℕ)} (h : Generates terms (codes p)) (hname : '/' ∉ name) :
    portMatch p name = some true ↔ Breeze.Lib.Glob.Matches terms (codes name) := by
  have hbad : (goPathMatch (codes p) (codes name)).bad = false := by
    rw [← Bool.not_eq_true, goPathMatch_bad, not_not]
    exact ⟨terms, h⟩
  rw [← goPathMatch_matched (slash_not_mem_codes hname) terms h, portMatch]
  simp [hbad]

lemma portMatch_documented : Documented portMatch where
  stars name hname := by
    have hgen : Generates [.star, .star] (codes doubleStar) := .cons .star (.cons .star .nil)
    rw [portMatch_eq_some hgen hname]
    exact ⟨(codes name).length, le_rfl, 0, Nat.zero_le _, by simp [Breeze.Lib.Glob.Matches]⟩
  empty p name hp h hname := by
    have hvalid : Valid (codes p) := by
      by_contra hnot
      rw [portMatch, if_pos ((goPathMatch_bad _ _).mpr hnot)] at h
      cases h
    obtain ⟨terms, hterms⟩ := hvalid
    rw [portMatch_eq_some hterms not_mem_nil] at h
    rw [portMatch_eq_some hterms hname]
    refine Breeze.Lib.Glob.matches_of_matches_nil ?_ h _
    have hcodes : codes p ≠ [] := by simpa [codes] using hp
    generalize codes p = q at hterms hcodes
    rintro rfl
    cases hterms
    exact hcodes rfl

end Port

lemma exists_ne_slash {lower : Char → Char} (hlower : ∀ c, lower c = '/' ↔ c = '/') (caseInsensitive : Bool) {path : Text}
    (h : ∃ c ∈ path, c ≠ '/' ∧ c ≠ '\\') : ∃ c ∈ relative lower caseInsensitive path, c ≠ '/' := by
  obtain ⟨c, hc, hslash, hbackslash⟩ := h
  have hfolded : c ∈ foldSeparators path := List.mem_map.mpr ⟨c, hc, if_neg hbackslash⟩
  cases caseInsensitive with
  | false => exact ⟨c, hfolded, hslash⟩
  | true => exact ⟨lower c, mem_map_of_mem hfolded, fun h => hslash ((hlower c).mp h)⟩

theorem exclusion_alignment {pathMatch : Text → Text → Option Bool} {lower : Char → Char} (hdoc : Documented pathMatch)
    (hlower : ∀ c, lower c = '/' ↔ c = '/') (caseInsensitive : Bool) :
    (∀ patterns path, path ≠ [] → path ≠ ['.'] →
      (matchesPath pathMatch lower (newExcludeMatcherForOS pathMatch lower patterns caseInsensitive) path = true ↔
        ∃ raw ∈ patterns, Excludes pathMatch (normalized lower caseInsensitive raw) (isAnchored raw)
          (relative lower caseInsensitive path))) ∧
    (∀ patterns path, (∃ c ∈ path, c ≠ '/' ∧ c ≠ '\\') → path ≠ ['.'] →
      (matchesPath pathMatch lower (newExcludeMatcherForOS pathMatch lower patterns caseInsensitive) path = true ↔
        ∃ raw ∈ patterns, ValidSegments pathMatch (normalized lower caseInsensitive raw) ∧
          (OnBaseName pathMatch (normalized lower caseInsensitive raw) (isAnchored raw) (relative lower caseInsensitive path) ∨
            OnSegments pathMatch (normalized lower caseInsensitive raw) (isAnchored raw) (relative lower caseInsensitive path)))) ∧
    (∀ raw, normalized lower caseInsensitive raw ≠ [] →
      newExcludeMatcherForOS pathMatch lower [raw] caseInsensitive =
        patternMatcher pathMatch caseInsensitive (normalized lower caseInsensitive raw) (isAnchored raw)) ∧
    ∀ p path, (∀ s ∈ (foldSeparators path).splitOn '/', s ≠ [] ∧ s ≠ ['.']) →
      (matchesPath pathMatch lower (patternMatcher pathMatch caseInsensitive (p ++ '/' :: doubleStar) false) path = true ↔
        ∃ k, 0 < k ∧ k ≤ ((foldSeparators path).splitOn '/').length ∧
          matchesPath pathMatch lower (patternMatcher pathMatch caseInsensitive (doubleStar ++ '/' :: p) false)
            (ancestor ((foldSeparators path).splitOn '/') k) = true) := by
  refine ⟨fun patterns path hne hdot => matches_iff hdoc patterns caseInsensitive hne hdot, ?_,
    fun raw hraw => newExcludeMatcherForOS_singleton caseInsensitive hraw,
    fun p path hsegs => subtree_law hdoc hlower caseInsensitive p path hsegs⟩
  intro patterns path hchar hdot
  have hne : path ≠ [] := by
    obtain ⟨c, hc, -⟩ := hchar
    exact ne_nil_of_mem hc
  rw [matches_iff hdoc patterns caseInsensitive hne hdot]
  refine exists_congr fun raw => and_congr_right fun _ => ?_
  exact excludes_iff hdoc _ _ (exists_ne_slash hlower caseInsensitive hchar)

theorem exclusion_alignment_nodeModules :
    Documented portMatch ∧ (∀ c, id c = '/' ↔ c = '/') ∧
    (matchesPath portMatch id (newExcludeMatcherForOS portMatch id ["node_modules/**".toList] false) "a/node_modules/b".toList = true ↔
      ∃ raw ∈ ["node_modules/**".toList], Excludes portMatch (normalized id false raw) (isAnchored raw)
        (relative id false "a/node_modules/b".toList)) :=
  ⟨portMatch_documented, fun _ => Iff.rfl,
    (exclusion_alignment portMatch_documented (fun _ => Iff.rfl) false).1 ["node_modules/**".toList] "a/node_modules/b".toList
      (by decide) (by decide)⟩

end Breeze.Exclusion.DoubleStar
