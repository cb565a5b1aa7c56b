import Mathlib.Data.List.DropRight
import Breeze.Lib.Alignment
import Breeze.Lib.Whitespace

/-! The agent's matcher for exclusion patterns (exclude.go). `pathMatch` stands for Go's `path.Match`, with
`none` for its `ErrBadPattern`, and `lower` for the lower case of one rune. -/

namespace Breeze.Exclusion.AgentMatcher

open Breeze.Lib.Alignment Breeze.Lib.Whitespace

abbrev Text := List Char

def doubleStar : Text := ['*', '*']

def probe : Text := ['p', 'r', 'o', 'b', 'e']

def isGoSpace (c : Char) : Bool := isUnicodeSpace c || c.toNat == 0x85

def foldSeparators (s : Text) : Text := s.map fun c => if c = '\\' then '/' else c

def trimSlashes (s : Text) : Text := trimBy (· == '/') s

structure ExcludeMatcher where
  baseName : List Text
  relPath : List (List Text)
  anchored : List Bool
  caseInsensitive : Bool
  deriving DecidableEq

section Matcher

variable (pathMatch : Text → Text → Option Bool) (lower : Char → Char)

def validGlobSegments (segs : List Text) : Bool :=
  segs.all fun s => s == doubleStar || (s != [] && (pathMatch s probe).isSome)

def trimmed (raw : Text) : Text × Bool :=
  let p := foldSeparators (trimBy isGoSpace raw)
  (trimSlashes p, p.head? == some '/')

def foldCase (caseInsensitive : Bool) (s : Text) : Text := if caseInsensitive then s.map lower else s

def addNormalized (m : ExcludeMatcher) (p : Text) (anchored : Bool) : ExcludeMatcher :=
  if anchored || p.contains '/' then
    let segs := p.splitOn '/'
    if validGlobSegments pathMatch segs then
      { m with
        relPath := m.relPath ++ [if anchored then segs else doubleStar :: segs]
        anchored := m.anchored ++ [anchored] }
    else m
  else
    match pathMatch p probe with
    | none => m
    | some _ => { m with baseName := m.baseName ++ [p] }

def addPattern (m : ExcludeMatcher) (raw : Text) : ExcludeMatcher :=
  let (p, anchored) := trimmed raw
  if p = [] then m else addNormalized pathMatch m (foldCase lower m.caseInsensitive p) anchored

def usable (m : ExcludeMatcher) : Option ExcludeMatcher :=
  if m.baseName.isEmpty && m.relPath.isEmpty then none else some m

def newExcludeMatcherForOS (patterns : List Text) (caseInsensitive : Bool) : Option ExcludeMatcher :=
  usable (patterns.foldl (addPattern pathMatch lower) ⟨[], [], [], caseInsensitive⟩)

def matchSegments : List Text → List Text → Bool
  | [], segs => segs.isEmpty
  | p :: pattern, segs =>
    if p = doubleStar then
      match _h : pattern.dropWhile (· == doubleStar) with
      | [] => true
      | q :: rest => (List.range (segs.length + 1)).any fun i => matchSegments (q :: rest) (segs.drop i)
    else
      match segs with
      | [] => false
      | s :: segs => if pathMatch p s = some true then matchSegments pattern segs else false
termination_by pattern => pattern.length
decreasing_by
  · rw [← _h]
    exact Nat.lt_succ_of_le (List.dropWhile_suffix _).length_le
  · exact Nat.lt_succ_self _

def base (p : Text) : Text :=
  if p = [] then ['.']
  else
    match (p.rdropWhile (· == '/')).rtakeWhile (· != '/') with
    | [] => ['/']
    | last => last

def matchesPath (m : Option ExcludeMatcher) (relPath : Text) : Bool :=
  match m with
  | none => false
  | some m =>
    if relPath = [] ∨ relPath = ['.'] then false
    else
      let rel := foldCase lower m.caseInsensitive (foldSeparators relPath)
      if m.baseName.any fun p => pathMatch p (base rel) == some true then true
      else if m.relPath.isEmpty then false
      else m.relPath.any fun pattern => matchSegments pathMatch pattern (rel.splitOn '/')

abbrev Aligns (pattern segs : List Text) : Prop := Aligned doubleStar (fun p s => pathMatch p s = some true) pattern segs

lemma matchSegments_star (pattern segs : List Text) : matchSegments pathMatch (doubleStar :: pattern) segs =
    match pattern.dropWhile (· == doubleStar) with
    | [] => true
    | q :: rest => (List.range (segs.length + 1)).any fun i => matchSegments pathMatch (q :: rest) (segs.drop i) := by
  rw [matchSegments.eq_def]
  simp only [if_true]
  split
  case _ h => rw [h]
  case _ h => rw [h]

theorem matchSegments_iff (pattern segs : List Text) :
    matchSegments pathMatch pattern segs = true ↔ Aligns pathMatch pattern segs := by
  induction hlen : pattern.length using Nat.strong_induction_on generalizing pattern segs with
  | _ n ih =>
    cases pattern with
    | nil =>
      rw [matchSegments, Aligns, aligned_nil]
      exact List.isEmpty_iff
    | cons p pattern =>
      rw [List.length_cons] at hlen
      by_cases hp : p = doubleStar
      · subst hp
        rw [matchSegments_star, Aligns, ← aligned_dropWhile]
        have hshort := (List.dropWhile_suffix (· == doubleStar) (l := pattern)).length_le
        cases hrest : pattern.dropWhile (· == doubleStar) with
        | nil => exact iff_of_true rfl aligned_last_run
        | cons q rest =>
          rw [hrest] at hshort
          rw [aligned_run]
          simp only [List.any_eq_true, List.mem_range, Nat.lt_succ_iff]
          refine exists_congr fun i => and_congr_right fun _ => ?_
          exact ih _ (by omega) (q :: rest) (segs.drop i) rfl
      · rw [Aligns, aligned_cons hp]
        cases segs with
        | nil => simp [matchSegments, hp]
        | cons s segs =>
          rw [matchSegments, if_neg hp]
          simp only [List.cons.injEq]
          constructor
          · intro h
            split_ifs at h with hmatch
            exact ⟨s, segs, ⟨rfl, rfl⟩, hmatch, (ih _ (by omega) pattern segs rfl).mp h⟩
          · rintro ⟨_, _, ⟨rfl, rfl⟩, hmatch, h⟩
            rw [if_pos hmatch]
            exact (ih _ (by omega) pattern segs rfl).mpr h

end Matcher

end Breeze.Exclusion.AgentMatcher
