import Breeze.Lib.SortedPrefix
import Mathlib.Tactic

/-! The bounded buffer of deletion candidates (`OldestFirstCandidates`, `jobs/backupRetention.ts`). A date is its number of
milliseconds. -/

namespace Breeze.Backup.OldestFirst

open Breeze.Lib.SortedPrefix List

structure BackupObjectListing where
  key : String
  lastModified : Option ℤ
  deriving DecidableEq

def BackupObjectListing.time (item : BackupObjectListing) : ℤ := item.lastModified.getD 0

structure OldestFirstCandidates where
  limit : ℕ
  skipSet : List String
  buffer : List (BackupObjectListing × ℕ) := []
  nextSeq : ℕ := 0
  offered : ℕ := 0

def limitOf (cap : ℚ) : ℕ := if 0 < cap then ⌊cap⌋.toNat else 0

def compare (a b : BackupObjectListing × ℕ) : ℤ :=
  if a.1.time - b.1.time ≠ 0 then a.1.time - b.1.time else (a.2 : ℤ) - b.2

namespace OldestFirstCandidates

def new (cap : ℚ) (skipSet : List String) : OldestFirstCandidates := { limit := limitOf cap, skipSet := skipSet }

def truncate (c : OldestFirstCandidates) : OldestFirstCandidates :=
  { c with buffer := (c.buffer.mergeSort fun a b => compare a b ≤ 0).take c.limit }

def push (c : OldestFirstCandidates) (item : BackupObjectListing) : OldestFirstCandidates :=
  { c with offered := c.offered + 1, buffer := c.buffer ++ [(item, c.nextSeq)], nextSeq := c.nextSeq + 1 }

def offer (c : OldestFirstCandidates) (item : BackupObjectListing) : OldestFirstCandidates :=
  if c.limit = 0 ∨ item.key ∈ c.skipSet then c
  else if c.limit * 2 ≤ (c.push item).buffer.length then (c.push item).truncate
  else c.push item

def selected (c : OldestFirstCandidates) : List BackupObjectListing × OldestFirstCandidates :=
  (c.truncate.buffer.map Prod.fst, c.truncate)

inductive Op where
  | offer (item : BackupObjectListing)
  | selected

def step (c : OldestFirstCandidates) : Op → OldestFirstCandidates
  | .offer item => c.offer item
  | .selected => c.selected.2

def run (c : OldestFirstCandidates) (ops : List Op) : OldestFirstCandidates := ops.foldl step c

def offers (skipSet : List String) (ops : List Op) : List BackupObjectListing :=
  ops.filterMap fun op => match op with
    | .offer item => if item.key ∈ skipSet then none else some item
    | .selected => none

def older (a b : BackupObjectListing) : Bool := a.time ≤ b.time

lemma older_trans (a b d : BackupObjectListing) (h : older a b = true) (h' : older b d = true) : older a d = true :=
  decide_eq_true (le_trans (of_decide_eq_true h) (of_decide_eq_true h'))

lemma older_total (a b : BackupObjectListing) : (older a b || older b a) = true := by
  simpa [older] using le_total a.time b.time

lemma truncate_buffer (c : OldestFirstCandidates) : c.truncate.buffer = first older c.limit c.buffer := by
  have hle : (fun a b => decide (compare a b ≤ 0)) = zipIdxLE older := by
    funext a b
    rw [Bool.eq_iff_iff, decide_eq_true_iff, compare, zipIdxLE]
    split_ifs <;> simp_all [older] <;> omega
  rw [truncate, hle, first]

/-- The buffer has the same first elements as all the candidates that were offered. -/
structure Holds (n : ℕ) (skipSet : List String) (items : List BackupObjectListing) (c : OldestFirstCandidates) : Prop where
  limit : c.limit = n
  skip : c.skipSet = skipSet
  seq : c.nextSeq = items.length
  offered : c.offered = items.length
  sub : c.buffer ⊆ items.zipIdx
  first : first older n c.buffer = first older n items.zipIdx

variable {n : ℕ} {skipSet : List String} {c : OldestFirstCandidates} {items : List BackupObjectListing}

lemma Holds.truncate (h : Holds n skipSet items c) : Holds n skipSet items c.truncate where
  limit := h.limit
  skip := h.skip
  seq := h.seq
  offered := h.offered
  sub := by
    rw [truncate_buffer]
    exact fun a ha => h.sub ((mergeSort_perm _ _).subset (mem_of_mem_take ha))
  first := by
    rw [truncate_buffer, h.limit]
    exact (first_first older_trans older_total _).trans h.first

lemma Holds.push (h : Holds n skipSet items c) (item : BackupObjectListing) : Holds n skipSet (items ++ [item]) (c.push item) := by
  have hzip : (items ++ [item]).zipIdx = items.zipIdx ++ [(item, c.nextSeq)] := by simp [zipIdx_append, h.seq]
  have hsub : c.buffer ++ [(item, c.nextSeq)] ⊆ items.zipIdx ++ [(item, c.nextSeq)] :=
    append_subset.mpr ⟨subset_append_of_subset_left _ h.sub, subset_append_right _ _⟩
  have hnumbered := hzip ▸ numbered_zipIdx (items ++ [item])
  refine ⟨h.limit, h.skip, by simp [OldestFirstCandidates.push, h.seq], by simp [OldestFirstCandidates.push, h.offered], ?_, ?_⟩
  · rw [hzip]
    exact hsub
  · rw [hzip]
    exact first_concat older_trans older_total h.first (fun a ha b hb => hnumbered a (hsub ha) b (hsub hb)) hnumbered

lemma length_truncate (c : OldestFirstCandidates) : c.truncate.buffer.length ≤ c.limit := length_take_le _ _

lemma Holds.step (h : Holds n skipSet items c) (hn : n ≠ 0) (hsmall : c.buffer.length < 2 * n) (op : Op) :
    Holds n skipSet (items ++ offers skipSet [op]) (c.step op) ∧ (c.step op).buffer.length < 2 * n := by
  have hcut : c.truncate.buffer.length ≤ n := h.limit ▸ length_truncate c
  cases op with
  | selected =>
    refine ⟨by simpa [offers, OldestFirstCandidates.step, selected] using h.truncate, ?_⟩
    change c.truncate.buffer.length < _
    omega
  | offer item =>
    rw [OldestFirstCandidates.step, offer, h.limit, h.skip]
    by_cases hskip : item.key ∈ skipSet
    · simpa [hskip, offers] using ⟨h, hsmall⟩
    · have hcut' : (c.push item).truncate.buffer.length ≤ n := h.limit ▸ length_truncate (c.push item)
      rw [if_neg (by simp [hn, hskip]), show offers skipSet [.offer item] = [item] by simp [offers, hskip]]
      split_ifs with hfull
      · exact ⟨(h.push item).truncate, by omega⟩
      · exact ⟨h.push item, by omega⟩

end OldestFirstCandidates

end Breeze.Backup.OldestFirst
