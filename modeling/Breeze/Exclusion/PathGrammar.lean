import Breeze.Lib.Glob
import Breeze.Exclusion.PathMatch

/-! The grammar of `path.Match` patterns, and what the port's loops do with the text of a term. -/

namespace Breeze.Exclusion.PathGrammar

open Breeze.Lib.Glob PathMatch List

inductive ClassChar : ℕ → Points → Prop
  | plain {c : ℕ} (h : c ≠ backslash ∧ c ≠ dash ∧ c ≠ closing) : ClassChar c [c]
  | escaped (c : ℕ) : ClassChar c [backslash, c]

inductive ClassItem : ℕ × ℕ → Points → Prop
  | single {c : ℕ} {t : Points} (h : ClassChar c t) : ClassItem (c, c) t
  | pair {lo hi : ℕ} {t u : Points} (hlo : ClassChar lo t) (hhi : ClassChar hi u) : ClassItem (lo, hi) (t ++ dash :: u)

inductive ClassItems : List (ℕ × ℕ) → Points → Prop
  | nil : ClassItems [] []
  | cons {r : ℕ × ℕ} {rs : List (ℕ × ℕ)} {t u : Points} (h : ClassItem r t) (hs : ClassItems rs u) :
    ClassItems (r :: rs) (t ++ u)

inductive TermText : Term ℕ → Points → Prop
  | star : TermText .star [star]
  | any : TermText .any [question]
  | char {c : ℕ} (h : c ≠ PathMatch.star ∧ c ≠ question ∧ c ≠ opening ∧ c ≠ backslash) : TermText (.char c) [c]
  | escaped (c : ℕ) : TermText (.char c) [backslash, c]
  | cls {ranges : List (ℕ × ℕ)} {text : Points} (h : ClassItems ranges text) (hne : ranges ≠ [])
      (hcaret : text.head? ≠ some caret) : TermText (.cls false ranges) (opening :: (text ++ [closing]))
  | negated {ranges : List (ℕ × ℕ)} {text : Points} (h : ClassItems ranges text) (hne : ranges ≠ []) :
    TermText (.cls true ranges) (opening :: caret :: (text ++ [closing]))

inductive Generates : List (Term ℕ) → Points → Prop
  | nil : Generates [] []
  | cons {t : Term ℕ} {ts : List (Term ℕ)} {u v : Points} (h : TermText t u) (hs : Generates ts v) :
    Generates (t :: ts) (u ++ v)

section Classes

variable {r : ℕ} {t chunk nchunk rest : Points}

lemma getEsc_append (h : ClassChar r t) (hne : nchunk ≠ []) : getEsc (t ++ nchunk) = some (r, nchunk) := by
  cases h with
  | plain h =>
    rw [singleton_append, getEsc, if_neg (by tauto), if_neg h.1]
    exact if_neg hne
  | escaped =>
    change getEsc (backslash :: r :: nchunk) = _
    rw [getEsc, if_neg (by decide), if_pos rfl]
    exact if_neg hne

lemma classChar_of_getEsc (h : getEsc chunk = some (r, nchunk)) : ∃ t, ClassChar r t ∧ chunk = t ++ nchunk := by
  cases chunk with
  | nil => cases h
  | cons c chunk =>
    rw [getEsc] at h
    split_ifs at h with hspecial hescape
    · cases chunk with
      | nil => cases h
      | cons d chunk =>
        simp only at h
        split_ifs at h
        cases h
        exact ⟨[c, r], hescape ▸ ClassChar.escaped r, rfl⟩
    · simp only at h
      split_ifs at h
      cases h
      exact ⟨[r], ClassChar.plain ⟨hescape, by tauto, by tauto⟩, rfl⟩

lemma ClassChar.head (h : ClassChar r t) (rest : Points) :
    (t ++ rest).head? ≠ some closing ∧ (t ++ rest).head? ≠ some dash := by
  cases h with
  | plain h => simpa using ⟨h.2.2, h.2.1⟩
  | escaped => exact ⟨fun h => absurd (Option.some.inj h) (by decide), fun h => absurd (Option.some.inj h) (by decide)⟩

def inRanges (ranges : List (ℕ × ℕ)) (r : ℕ) : Bool := ranges.any fun range => decide (range.1 ≤ r) && decide (r ≤ range.2)

variable {ranges : List (ℕ × ℕ)}

lemma ClassItems.head {text : Points} (h : ClassItems ranges text) (rest : Points) :
    (text ++ closing :: rest).head? ≠ some dash := by
  cases h with
  | nil => exact fun h => absurd (Option.some.inj h) (by decide)
  | cons h hs =>
    cases h with
    | single h =>
      rw [append_assoc]
      exact (h.head _).2
    | pair hlo hhi =>
      rw [append_assoc, append_assoc]
      exact (hlo.head _).2

lemma getEsc_item {range : ℕ × ℕ} (h : ClassItem range t) (ht : chunk = t ++ rest) (hne : rest ≠ [])
    (hdash : rest.head? ≠ some dash) (failed matched : Bool) (nrange : ℕ) :
    classLoop failed r chunk matched nrange =
      classLoop failed r rest (matched || (!failed && decide (range.1 ≤ r) && decide (r ≤ range.2))) (nrange + 1) := by
  subst ht
  rw [classLoop]
  cases h with
  | single h =>
    rw [if_neg (fun hh => (h.head rest).1 hh.1), getEsc_append h hne]
    simp only
    rw [if_neg hdash]
  | pair hlo hhi =>
    rw [append_assoc, if_neg (fun hh => (hlo.head _).1 hh.1), getEsc_append hlo (by simp)]
    simp only [cons_append, List.head?_cons, if_true, tail_cons]
    rw [getEsc_append hhi hne]

lemma classLoop_items {text : Points} (h : ClassItems ranges text) (rest : Points)
    (failed matched : Bool) {nrange : ℕ} (hpos : ranges ≠ [] ∨ 0 < nrange) :
    classLoop failed r (text ++ closing :: rest) matched nrange =
      some (rest, matched || (!failed && inRanges ranges r)) := by
  induction h generalizing matched nrange with
  | nil =>
    rw [nil_append, classLoop, if_pos ⟨rfl, hpos.resolve_left (fun h => h rfl)⟩]
    simp [inRanges]
  | cons h hs ih =>
    rw [getEsc_item h (append_assoc _ _ _) (by simp) (hs.head rest), ih _ (Or.inr (Nat.succ_pos _))]
    simp only [inRanges, any_cons, Option.some.injEq, Prod.mk.injEq, true_and]
    cases matched <;> cases failed <;> simp

lemma items_of_classLoop {failed matched matched' : Bool} {nrange : ℕ}
    (h : classLoop failed r chunk matched nrange = some (rest, matched')) :
    ∃ ranges text, ClassItems ranges text ∧ chunk = text ++ closing :: rest ∧ (nrange = 0 → ranges ≠ []) := by
  fun_induction classLoop failed r chunk matched nrange with
  | case1 chunk matched nrange hclose =>
    cases h
    cases chunk with
    | nil => cases hclose.1
    | cons c chunk =>
      obtain rfl : c = closing := Option.some.inj hclose.1
      exact ⟨[], [], ClassItems.nil, rfl, by omega⟩
  | case2 | case3 => cases h
  | case4 chunk matched nrange hclose lo chunk' hlo hdash hi chunk'' hhi ih =>
    obtain ⟨t, ht, hchunk⟩ := classChar_of_getEsc hlo
    obtain ⟨u, hu, htail⟩ := classChar_of_getEsc hhi
    obtain ⟨ranges, text, hitems, hrest, -⟩ := ih h
    refine ⟨(lo, hi) :: ranges, (t ++ dash :: u) ++ text, ClassItems.cons (ClassItem.pair ht hu) hitems, ?_, by simp⟩
    cases chunk' with
    | nil => cases hdash
    | cons d chunk' =>
      obtain rfl : d = dash := Option.some.inj hdash
      rw [tail_cons] at htail
      rw [hchunk, htail, hrest]
      simp
  | case5 chunk matched nrange hclose lo chunk' hlo hdash ih =>
    obtain ⟨t, ht, hchunk⟩ := classChar_of_getEsc hlo
    obtain ⟨ranges, text, hitems, hrest, -⟩ := ih h
    refine ⟨(lo, lo) :: ranges, t ++ text, ClassItems.cons (ClassItem.single ht) hitems, ?_, by simp⟩
    rw [hchunk, hrest, append_assoc]

end Classes

section Chunks

/-- A term as the chunk loop reads it: a star that the scan left in a chunk would be a literal. -/
inductive ChunkTerm : Term ℕ → Points → Prop
  | term {t : Term ℕ} {u : Points} (h : TermText t u) (hne : t ≠ .star) : ChunkTerm t u
  | literal : ChunkTerm (.char star) [star]

inductive ChunkTerms : List (Term ℕ) → Points → Prop
  | nil : ChunkTerms [] []
  | cons {t : Term ℕ} {ts : List (Term ℕ)} {u v : Points} (h : ChunkTerm t u) (hs : ChunkTerms ts v) :
    ChunkTerms (t :: ts) (u ++ v)

def takes (t : Term ℕ) : Points → Bool
  | [] => false
  | c :: _ => t.accepts c && match t with
    | .any => c != slash
    | _ => true

lemma matchLoop_literal (l : ℕ) (v s : Points) (failed : Bool) :
    (if failed || s.isEmpty || s.head? != some l then matchLoop v s true else matchLoop v s.tail false) =
      if failed = false ∧ takes (.char l) s = true then matchLoop v s.tail false else matchLoop v s true := by
  cases failed with
  | true => simp
  | false =>
    cases s with
    | nil => simp [takes]
    | cons c s =>
      by_cases hc : l = c
      · simp [takes, Term.accepts, hc]
      · simp [takes, Term.accepts, hc, Ne.symm hc]

lemma matchLoop_ranges (ranges : List (ℕ × ℕ)) (v s : Points) (failed negated : Bool) :
    matchLoop v (if (failed || s.isEmpty) = true then s else s.tail)
        ((failed || s.isEmpty) || (false || (!(failed || s.isEmpty) && inRanges ranges (s.headD 0))) == negated) =
      if failed = false ∧ takes (.cls negated ranges) s = true then matchLoop v s.tail false
      else matchLoop v (if (failed || s.isEmpty) = true then s else s.tail) true := by
  cases failed with
  | true => simp
  | false =>
    cases s with
    | nil => simp [takes]
    | cons c s =>
      have haccepts : (Term.cls negated ranges).accepts c = (inRanges ranges c != negated) := rfl
      by_cases hc : inRanges ranges c = negated
      · simp [takes, haccepts, hc]
      · have hne : (inRanges ranges c == negated) = false := beq_false_of_ne hc
        simp [takes, haccepts, hc, hne]

variable {u : Points} {ts : List (Term ℕ)}

lemma matchLoop_term {t : Term ℕ} (h : ChunkTerm t u) (v s : Points) (failed : Bool) :
    ∃ s', matchLoop (u ++ v) s failed =
      if failed = false ∧ takes t s = true then matchLoop v s.tail false else matchLoop v s' true := by
  cases h with
  | literal =>
    refine ⟨s, ?_⟩
    rw [singleton_append, matchLoop, if_neg (by decide), if_neg (by decide)]
    exact matchLoop_literal star v s failed
  | term h hstar =>
    cases h with
    | star => exact absurd rfl hstar
    | any =>
      refine ⟨s, ?_⟩
      rw [singleton_append, matchLoop, if_neg (by decide), if_pos rfl]
      cases failed with
      | true => simp
      | false =>
        cases s with
        | nil => simp [takes]
        | cons c s =>
          by_cases hc : c = slash
          · simp [takes, hc]
          · simp [takes, Term.accepts, hc]
    | char h =>
      refine ⟨s, ?_⟩
      rw [singleton_append, matchLoop_other h.2.2.1 h.2.1, if_neg h.2.2.2]
      exact matchLoop_literal _ v s failed
    | escaped c =>
      refine ⟨s, ?_⟩
      change matchLoop (backslash :: c :: v) s failed = _
      rw [matchLoop_other (by decide) (by decide), if_pos rfl]
      exact matchLoop_literal c v s failed
    | @cls ranges text h hne hcaret =>
      have hbody : (opening :: (text ++ [closing])) ++ v = opening :: (text ++ closing :: v) := by simp
      have hhead : ((text ++ closing :: v).head? == some caret) = false := by
        cases text with
        | nil => rfl
        | cons c text => simpa using hcaret
      refine ⟨if failed || s.isEmpty then s else s.tail, ?_⟩
      rw [hbody, matchLoop_opening, hhead, if_neg Bool.false_ne_true, classLoop_items h v _ _ (Or.inl hne)]
      exact matchLoop_ranges ranges v s failed false
    | @negated ranges text h hne =>
      have hbody : (opening :: caret :: (text ++ [closing])) ++ v = opening :: caret :: (text ++ closing :: v) := by simp
      refine ⟨if failed || s.isEmpty then s else s.tail, ?_⟩
      rw [hbody, matchLoop_opening, List.head?_cons, if_pos (beq_self_eq_true _), tail_cons,
        classLoop_items h v _ _ (Or.inl hne)]
      exact matchLoop_ranges ranges v s failed true

lemma exists_items (body : Points) :
    (∃ ranges text rest, ClassItems ranges text ∧ ranges ≠ [] ∧ body = text ++ closing :: rest) ∨
      ∀ failed r, classLoop failed r body false 0 = none := by
  cases hloop : classLoop false 0 body false 0 with
  | some result =>
    obtain ⟨ranges, text, hitems, hbody, hne⟩ := items_of_classLoop hloop
    exact Or.inl ⟨ranges, text, result.1, hitems, hne rfl, hbody⟩
  | none =>
    right
    intro failed r
    cases hloop' : classLoop failed r body false 0 with
    | none => rfl
    | some result =>
      obtain ⟨ranges, text, hitems, hbody, hne⟩ := items_of_classLoop hloop'
      rw [hbody, classLoop_items hitems _ _ _ (Or.inl (hne rfl))] at hloop
      cases hloop

variable {chunk s : Points}

lemma exists_term (hne : chunk ≠ []) :
    (∃ t u v, ChunkTerm t u ∧ u ≠ [] ∧ chunk = u ++ v) ∨ ∀ s failed, matchLoop chunk s failed = .bad := by
  obtain ⟨c, chunk, rfl⟩ := exists_cons_of_ne_nil hne
  by_cases hopening : c = opening
  · subst hopening
    rcases exists_items (if chunk.head? == some caret then chunk.tail else chunk) with
      ⟨ranges, text, rest, hitems, hranges, hbody⟩ | hbad
    · left
      split_ifs at hbody with hcaret
      · cases chunk with
        | nil => cases hcaret
        | cons d chunk =>
          obtain rfl : d = caret := by simpa using hcaret
          rw [tail_cons] at hbody
          exact ⟨_, _, rest, .term (.negated hitems hranges) nofun, by simp, by simp [hbody]⟩
      · refine ⟨_, _, rest, .term (.cls hitems hranges ?_) nofun, by simp, by simp [hbody]⟩
        intro hhead
        refine hcaret ?_
        rw [hbody, List.head?_append, hhead]
        rfl
    · right
      intro s failed
      rw [matchLoop_opening, hbad]
  by_cases hquestion : c = question
  · subst hquestion
    exact Or.inl ⟨.any, [question], chunk, .term .any nofun, by simp, rfl⟩
  by_cases hbackslash : c = backslash
  · cases chunk with
    | nil =>
      right
      intro s failed
      rw [matchLoop_other hopening hquestion, if_pos hbackslash]
    | cons d chunk =>
      subst hbackslash
      exact Or.inl ⟨.char d, [backslash, d], chunk, .term (.escaped d) nofun, by simp, rfl⟩
  by_cases hstar : c = PathMatch.star
  · subst hstar
    exact Or.inl ⟨.char PathMatch.star, [PathMatch.star], chunk, .literal, by simp, rfl⟩
  · exact Or.inl ⟨_, [c], chunk, .term (.char ⟨hstar, hquestion, hopening, hbackslash⟩) nofun, by simp, rfl⟩

lemma matchLoop_failed (h : ChunkTerms ts u) (s : Points) : matchLoop u s true = .fail := by
  induction h generalizing s with
  | nil => rw [matchLoop, if_pos rfl]
  | cons h hs ih =>
    obtain ⟨s', hs'⟩ := matchLoop_term h _ s true
    rw [hs', if_neg (by simp), ih]

lemma matchLoop_ne_bad (h : ChunkTerms ts u) (s : Points) (failed : Bool) :
    matchLoop u s failed ≠ .bad := by
  induction h generalizing s failed with
  | nil =>
    rw [matchLoop]
    split <;> simp
  | cons h hs ih =>
    obtain ⟨s', hs'⟩ := matchLoop_term h _ s failed
    rw [hs']
    split
    · exact ih _ _
    · exact ih _ _

lemma matchChunk_eq (h : ChunkTerms ts u) (hs : slash ∉ s) :
    matchChunk u s = match consume ts s with | some rest => .ok rest | none => .fail := by
  unfold matchChunk
  induction h generalizing s with
  | nil => rw [matchLoop]; rfl
  | @cons t ts u v h hs' ih =>
    obtain ⟨s', hstep⟩ := matchLoop_term h v s false
    rw [hstep]
    cases s with
    | nil => rw [if_neg (by simp [takes]), matchLoop_failed hs']; rfl
    | cons c s =>
      have hc : c ≠ slash := fun heq => hs (heq ▸ mem_cons_self)
      have htakes : takes t (c :: s) = t.accepts c := by
        cases t with
        | any => simp [takes, Term.accepts, hc]
        | star => rfl
        | char l | cls negated ranges => simp [takes]
      rw [htakes, consume]
      by_cases haccepts : t.accepts c = true
      · rw [if_pos ⟨rfl, haccepts⟩, if_pos haccepts]
        exact ih fun hmem => hs (mem_cons_of_mem _ hmem)
      · rw [if_neg (fun hh => haccepts hh.2), if_neg haccepts, matchLoop_failed hs']

lemma terms_of_matchLoop {failed : Bool} (h : matchLoop chunk s failed ≠ .bad) : ∃ ts, ChunkTerms ts chunk := by
  induction hlen : chunk.length using Nat.strong_induction_on generalizing chunk s failed with
  | _ n ih =>
    rcases eq_or_ne chunk [] with rfl | hne
    · exact ⟨[], ChunkTerms.nil⟩
    rcases exists_term hne with ⟨t, u, v, ht, hu, rfl⟩ | hbad
    · obtain ⟨s', hs'⟩ := matchLoop_term ht v s failed
      rw [hs'] at h
      have hlt : v.length < n := by
        have := List.length_pos_iff.mpr hu
        rw [length_append] at hlen
        omega
      have hrest : ∃ ts, ChunkTerms ts v := by
        split_ifs at h
        · exact ih _ hlt h rfl
        · exact ih _ hlt h rfl
      obtain ⟨ts, hts⟩ := hrest
      exact ⟨t :: ts, ChunkTerms.cons ht hts⟩
    · exact absurd (hbad s failed) h

end Chunks

end Breeze.Exclusion.PathGrammar
