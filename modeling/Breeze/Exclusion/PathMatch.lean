import Mathlib.Data.List.Basic

/-! The port of Go's `path.Match` in backupExclusionGlob.ts, over lists of code points. -/

namespace Breeze.Exclusion.PathMatch

abbrev Points := List ℕ

def star : ℕ := '*'.toNat
def question : ℕ := '?'.toNat
def opening : ℕ := '['.toNat
def closing : ℕ := ']'.toNat
def caret : ℕ := '^'.toNat
def dash : ℕ := '-'.toNat
def backslash : ℕ := '\\'.toNat
def slash : ℕ := '/'.toNat

/-- One possibly escaped rune of a class; `none` is the syntax error. -/
def getEsc : Points → Option (ℕ × Points)
  | [] => none
  | c :: chunk =>
    if c = dash ∨ c = closing then none
    else
      match if c = backslash then chunk else c :: chunk with
      | [] => none
      | r :: nchunk => if nchunk = [] then none else some (r, nchunk)

def splitChunk (inrange : Bool) : Points → Points × Points
  | [] => ([], [])
  | [c] => if c = star ∧ inrange = false then ([], [c]) else ([c], [])
  | c :: d :: p =>
    if c = backslash then
      let tail := splitChunk inrange p
      (c :: d :: tail.1, tail.2)
    else if c = star ∧ inrange = false then ([], c :: d :: p)
    else
      let tail := splitChunk (if c = opening then true else if c = closing then false else inrange) (d :: p)
      (c :: tail.1, tail.2)

structure Scan where
  star : Bool
  chunk : Points
  rest : Points

def scanChunk (pattern : Points) : Scan :=
  let p := pattern.dropWhile (· == star)
  let split := splitChunk false p
  ⟨pattern.head? == some star, split.1, split.2⟩

inductive ChunkResult where
  | bad
  | fail
  | ok (rest : Points)

lemma getEsc_length {chunk nchunk : Points} {r : ℕ} (h : getEsc chunk = some (r, nchunk)) : nchunk.length < chunk.length := by
  cases chunk with
  | nil => cases h
  | cons c chunk =>
    rw [getEsc] at h
    split_ifs at h with hspecial hescape
    · cases chunk with
      | nil => cases h
      | cons d chunk =>
        simp only at h
        split_ifs at h
        cases h
        simp only [List.length_cons]
        omega
    · simp only at h
      split_ifs at h
      cases h
      simp

def classLoop (failed : Bool) (r : ℕ) (chunk : Points) (matched : Bool) (nrange : ℕ) : Option (Points × Bool) :=
  if chunk.head? = some closing ∧ 0 < nrange then some (chunk.tail, matched)
  else
    match _hlo : getEsc chunk with
    | none => none
    | some (lo, chunk') =>
      if chunk'.head? = some dash then
        match _hhi : getEsc chunk'.tail with
        | none => none
        | some (hi, chunk'') =>
          classLoop failed r chunk'' (matched || (!failed && decide (lo ≤ r) && decide (r ≤ hi))) (nrange + 1)
      else classLoop failed r chunk' (matched || (!failed && decide (lo ≤ r) && decide (r ≤ lo))) (nrange + 1)
termination_by chunk.length
decreasing_by
  · have hlo := getEsc_length _hlo
    have hhi := getEsc_length _hhi
    rw [List.length_tail] at hhi
    omega
  · exact getEsc_length _hlo

lemma classLoop_length {failed matched matched' : Bool} {r nrange : ℕ} {chunk rest : Points}
    (h : classLoop failed r chunk matched nrange = some (rest, matched')) : rest.length < chunk.length := by
  fun_induction classLoop failed r chunk matched nrange with
  | case1 chunk matched nrange hclose =>
    cases h
    cases chunk with
    | nil => cases hclose.1
    | cons c chunk => simp
  | case2 | case3 => cases h
  | case4 chunk matched nrange hclose lo chunk' hlo hdash hi chunk'' hhi ih =>
    have hlo := getEsc_length hlo
    have hhi := getEsc_length hhi
    rw [List.length_tail] at hhi
    have := ih h
    omega
  | case5 chunk matched nrange hclose lo chunk' hlo hdash ih =>
    have hlo := getEsc_length hlo
    have := ih h
    omega

/-- The loop of `matchChunk`: after a mismatch it reads the chunk to its end and the name no more. -/
def matchLoop (chunk s : Points) (failed : Bool) : ChunkResult :=
  match chunk with
  | [] => if failed then .fail else .ok s
  | c :: chunk =>
    let failed := failed || s.isEmpty
    if c = opening then
      let negated := chunk.head? == some caret
      match _h : classLoop failed (s.headD 0) (if negated then chunk.tail else chunk) false 0 with
      | none => .bad
      | some (rest, matched) => matchLoop rest (if failed then s else s.tail) (failed || matched == negated)
    else if c = question then
      if failed || s.head? == some slash then matchLoop chunk s true else matchLoop chunk s.tail false
    else
      match _h : if c = backslash then chunk else c :: chunk with
      | [] => .bad
      | l :: rest => if failed || s.head? != some l then matchLoop rest s true else matchLoop rest s.tail false
termination_by chunk.length
decreasing_by
  · have := classLoop_length _h
    split_ifs at this
    · rw [List.length_tail] at this
      simp only [List.length_cons]
      omega
    · simp only [List.length_cons]
      omega
  · simp
  · simp
  all_goals
    split_ifs at _h
    · simp only [_h, List.length_cons]
      omega
    · cases _h
      simp

lemma matchLoop_opening (chunk s : Points) (failed : Bool) :
    matchLoop (opening :: chunk) s failed =
      match classLoop (failed || s.isEmpty) (s.headD 0) (if chunk.head? == some caret then chunk.tail else chunk) false 0 with
      | none => .bad
      | some (rest, matched) => matchLoop rest (if failed || s.isEmpty then s else s.tail)
        ((failed || s.isEmpty) || matched == (chunk.head? == some caret)) := by
  rw [matchLoop, if_pos rfl]
  generalize (if (failed || s.isEmpty) = true then s else s.tail) = s'
  simp only
  generalize (if (chunk.head? == some caret) = true then chunk.tail else chunk) = body
  split
  case _ h => rw [h]
  case _ h => rw [h]

lemma matchLoop_other {c : ℕ} (hopening : c ≠ opening) (hquestion : c ≠ question) (chunk s : Points) (failed : Bool) :
    matchLoop (c :: chunk) s failed =
      match if c = backslash then chunk else c :: chunk with
      | [] => .bad
      | l :: rest =>
        if failed || s.isEmpty || s.head? != some l then matchLoop rest s true else matchLoop rest s.tail false := by
  rw [matchLoop, if_neg hopening, if_neg hquestion]
  generalize (if c = backslash then chunk else c :: chunk) = literal
  cases literal with
  | nil | cons l rest => rfl

def matchChunk (chunk s : Points) : ChunkResult := matchLoop chunk s false

structure MatchResult where
  matched : Bool
  bad : Bool
  deriving DecidableEq

inductive Advance where
  | bad
  | none
  | found (rest : Points)

/-- The places after the first one that a star leaves for its chunk; `last` says that the pattern ends
with the chunk. -/
def advance (chunk : Points) (last : Bool) : Points → Advance
  | [] => .none
  | c :: nm =>
    if c = slash then .none
    else
      match matchChunk chunk nm with
      | .bad => .bad
      | .fail => advance chunk last nm
      | .ok rest => if last && !rest.isEmpty then advance chunk last nm else .found rest

def place (sc : Scan) (nm : Points) : Advance :=
  let later := if sc.star then advance sc.chunk sc.rest.isEmpty nm else .none
  match matchChunk sc.chunk nm with
  | .bad => .bad
  | .fail => later
  | .ok rest => if rest.isEmpty || !sc.rest.isEmpty then .found rest else later

lemma splitChunk_append (inrange : Bool) (p : Points) : (splitChunk inrange p).1 ++ (splitChunk inrange p).2 = p := by
  fun_induction splitChunk inrange p with
  | case1 | case2 | case3 | case5 => rfl
  | case4 inrange d p tail ih => exact congrArg (backslash :: d :: ·) ih
  | case6 inrange c d p _ _ tail ih => exact congrArg (c :: ·) ih

lemma splitChunk_ne_nil {c : ℕ} (hc : c ≠ star) (p : Points) : (splitChunk false (c :: p)).1 ≠ [] := by
  cases p with
  | nil =>
    rw [splitChunk, if_neg (fun h => hc h.1)]
    simp
  | cons d p =>
    rw [splitChunk]
    split_ifs with hescape
    · simp
    · exact absurd ‹c = star ∧ _›.1 hc
    all_goals simp

lemma scanChunk_rest_length (c : ℕ) (p : Points) : (scanChunk (c :: p)).rest.length < (c :: p).length := by
  have happend := congrArg List.length (splitChunk_append false ((c :: p).dropWhile (· == star)))
  rw [List.length_append] at happend
  by_cases hc : c = star
  · have hdrop : ((c :: p).dropWhile (· == star)).length ≤ p.length := by
      rw [List.dropWhile_cons_of_pos (by simpa using hc)]
      exact (List.dropWhile_suffix _).length_le
    simp only [scanChunk, List.length_cons]
    omega
  · have hkeep : (c :: p).dropWhile (· == star) = c :: p := List.dropWhile_cons_of_neg (by simpa using hc)
    have hne := List.length_pos_iff.mpr (splitChunk_ne_nil hc p)
    simp only [scanChunk]
    rw [hkeep] at happend ⊢
    omega

def restBad : Points → Bool
  | [] => false
  | c :: p =>
    match matchChunk (scanChunk (c :: p)).chunk [] with
    | .bad => true
    | _ => restBad (scanChunk (c :: p)).rest
termination_by pat => pat.length
decreasing_by exact scanChunk_rest_length c p

def goPathMatch : Points → Points → MatchResult
  | [], nm => ⟨nm.isEmpty, false⟩
  | c :: p, nm =>
    let sc := scanChunk (c :: p)
    if sc.star && sc.chunk.isEmpty then ⟨!nm.contains slash, false⟩
    else
      match place sc nm with
      | .bad => ⟨false, true⟩
      | .found rest => goPathMatch sc.rest rest
      | .none => ⟨false, restBad sc.rest⟩
termination_by pat => pat.length
decreasing_by exact scanChunk_rest_length c p

def points (text : String) : Points := text.toList.map Char.toNat

end Breeze.Exclusion.PathMatch
