import Mathlib.Data.List.AList
import Mathlib.Tactic

/-! Finite tables of rows by key. -/

namespace Breeze.Lib

open List

abbrev Table (κ ν : Type) := AList fun _ : κ => ν

namespace Table

variable {κ ν : Type} [DecidableEq κ]

def modify (k : κ) (set : ν → ν) (t : Table κ ν) : Table κ ν :=
  match t.lookup k with
  | none => t
  | some r => t.insert k (set r)

lemma lookup_insert_ite (k j : κ) (r : ν) (t : Table κ ν) : (t.insert k r).lookup j = if j = k then some r else t.lookup j := by
  split_ifs with h
  · rw [h, AList.lookup_insert]
  · exact AList.lookup_insert_ne h

lemma lookup_modify (k j : κ) (set : ν → ν) (t : Table κ ν) :
    (t.modify k set).lookup j = if j = k then (t.lookup k).map set else t.lookup j := by
  simp only [modify]
  cases hk : t.lookup k with
  | none =>
    split_ifs with h
    · rw [h, hk, Option.map_none]
    · rfl
  | some r => simp only [lookup_insert_ite, Option.map_some]

variable {set : ν → ν} {t : Table κ ν} {test : κ → ν → Bool}

variable {k : κ} {r : ν}

lemma lookup_modify_self (h : t.lookup k = some r) : (t.modify k set).lookup k = some (set r) := by
  rw [lookup_modify, if_pos rfl, h, Option.map_some]

lemma lookup_modify_ne {j : κ} (set : ν → ν) (t : Table κ ν) (h : j ≠ k) : (t.modify k set).lookup j = t.lookup j := by
  rw [lookup_modify, if_neg h]

lemma of_modify {j : κ} {r' : ν} (h : (t.modify k set).lookup j = some r') :
    (j = k ∧ ∃ r, t.lookup k = some r ∧ r' = set r) ∨ (j ≠ k ∧ t.lookup j = some r') := by
  rw [lookup_modify] at h
  split_ifs at h with hj
  · obtain ⟨r, hr, rfl⟩ := Option.map_eq_some_iff.mp h
    exact Or.inl ⟨hj, r, hr, rfl⟩
  · exact Or.inr ⟨hj, h⟩

lemma of_insert {j : κ} {r' : ν} (h : (t.insert k r).lookup j = some r') :
    (j = k ∧ r' = r) ∨ (j ≠ k ∧ t.lookup j = some r') := by
  rw [lookup_insert_ite] at h
  split_ifs at h with hj
  · exact Or.inl ⟨hj, (Option.some.inj h).symm⟩
  · exact Or.inr ⟨hj, h⟩

lemma lookup_insert_of_some {j : κ} {r' : ν} (hk : t.lookup k = none) (h : t.lookup j = some r') :
    (t.insert k r).lookup j = some r' := by
  rw [lookup_insert_ite, if_neg]
  · exact h
  · rintro rfl
    rw [hk] at h
    cases h

def keysWhere (test : κ → ν → Bool) (t : Table κ ν) : List κ := (t.entries.filter fun e => test e.1 e.2).map Sigma.fst

lemma mem_keysWhere : k ∈ t.keysWhere test ↔ ∃ r, t.lookup k = some r ∧ test k r = true := by
  simp only [keysWhere, mem_map, mem_filter]
  constructor
  · rintro ⟨⟨k', r⟩, ⟨hmem, htest⟩, rfl⟩
    exact ⟨r, AList.mem_lookup_iff.mpr hmem, htest⟩
  · rintro ⟨r, hr, htest⟩
    exact ⟨⟨k, r⟩, ⟨AList.mem_lookup_iff.mp hr, htest⟩, rfl⟩

omit [DecidableEq κ] in
lemma nodup_keysWhere (test : κ → ν → Bool) (t : Table κ ν) : (t.keysWhere test).Nodup :=
  List.Nodup.sublist (List.Sublist.map _ filter_sublist) t.nodupKeys

lemma keysWhere_one (h : ∀ j r, test j r = true → j = k) (t : Table κ ν) :
    t.keysWhere test = [] ∨ t.keysWhere test = [k] := by
  have hall : ∀ j ∈ t.keysWhere test, j = k := fun j hj => by
    obtain ⟨r, -, hr⟩ := mem_keysWhere.mp hj
    exact h j r hr
  have hnodup := nodup_keysWhere test t
  cases hk : t.keysWhere test with
  | nil => exact Or.inl rfl
  | cons a rest =>
    rw [hk] at hall hnodup
    cases rest with
    | nil => exact Or.inr (by rw [hall a mem_cons_self])
    | cons b rest =>
      have hab : a = b := (hall a mem_cons_self).trans (hall b (by simp)).symm
      simp [hab] at hnodup

def any (test : κ → ν → Bool) (t : Table κ ν) : Bool := t.entries.any fun e => test e.1 e.2

def filterRows (keep : κ → ν → Bool) (t : Table κ ν) : Table κ ν :=
  ⟨t.entries.filter fun e => keep e.1 e.2, List.NodupKeys.sublist filter_sublist t.nodupKeys⟩

lemma lookup_eq_some_iff : t.lookup k = some r ↔ (⟨k, r⟩ : Σ _ : κ, ν) ∈ t.entries :=
  AList.mem_lookup_iff

lemma lookup_filterRows (keep : κ → ν → Bool) (t : Table κ ν) (k : κ) :
    (t.filterRows keep).lookup k = (t.lookup k).filter (keep k) := by
  ext r
  rw [Option.filter_eq_some_iff, lookup_eq_some_iff, lookup_eq_some_iff, filterRows, mem_filter]

def mapRows (f : ν → ν) (t : Table κ ν) : Table κ ν :=
  ⟨t.entries.map fun e => ⟨e.1, f e.2⟩, by
    have hkeys : (t.entries.map fun e => (⟨e.1, f e.2⟩ : Σ _ : κ, ν)).keys = t.entries.keys := by
      rw [List.keys, map_map]
      rfl
    rw [List.NodupKeys, hkeys]
    exact t.nodupKeys⟩

lemma lookup_mapRows (f : ν → ν) (t : Table κ ν) (k : κ) : (t.mapRows f).lookup k = (t.lookup k).map f := by
  ext r
  rw [Option.map_eq_some_iff, lookup_eq_some_iff, mapRows, mem_map]
  constructor
  · rintro ⟨⟨k', r₀⟩, hmem, heq⟩
    cases heq
    exact ⟨r₀, lookup_eq_some_iff.mpr hmem, rfl⟩
  · rintro ⟨r₀, hr₀, rfl⟩
    exact ⟨⟨k, r₀⟩, lookup_eq_some_iff.mp hr₀, rfl⟩

def sumOf (column : ν → ℕ) (t : Table κ ν) : ℕ := (t.entries.map fun e => column e.2).sum

lemma sumOf_eq (column : ν → ℕ) (t : Table κ ν) :
    t.sumOf column = ∑ k ∈ t.keys.toFinset, ((t.lookup k).map column).getD 0 := by
  have hentry : ∀ e ∈ t.entries, column e.2 = ((t.lookup e.1).map column).getD 0 := by
    intro e he
    rw [AList.mem_lookup_iff.mpr he, Option.map_some, Option.getD_some]
  rw [sum_toFinset _ t.keys_nodup, AList.keys, List.keys, map_map, sumOf]
  exact congrArg List.sum (map_congr_left hentry)

lemma sumOf_le {column column' : ν → ℕ} {t' : Table κ ν}
    (h : ∀ k r', t'.lookup k = some r' → column' r' ≠ 0 → ∃ r, t.lookup k = some r ∧ column' r' ≤ column r) :
    t'.sumOf column' ≤ t.sumOf column := by
  have hle : ∀ k, ((t'.lookup k).map column').getD 0 ≤ ((t.lookup k).map column).getD 0 := by
    intro k
    cases hk : t'.lookup k with
    | none => exact Nat.zero_le _
    | some r' =>
      by_cases hz : column' r' = 0
      · rw [Option.map_some, Option.getD_some, hz]
        exact Nat.zero_le _
      · obtain ⟨r, hr, hcolumn⟩ := h k r' hk hz
        rwa [hr, Option.map_some, Option.getD_some, Option.map_some, Option.getD_some]
  rw [sumOf_eq, sumOf_eq]
  calc ∑ k ∈ t'.keys.toFinset, ((t'.lookup k).map column').getD 0
      ≤ ∑ k ∈ t'.keys.toFinset, ((t.lookup k).map column).getD 0 := Finset.sum_le_sum fun k _ => hle k
    _ ≤ ∑ k ∈ t.keys.toFinset, ((t.lookup k).map column).getD 0 := by
      refine Finset.sum_le_sum_of_ne_zero fun k _ hk => ?_
      rw [mem_toFinset, ← AList.mem_keys, ← AList.lookup_isSome]
      cases hl : t.lookup k with
      | none => exact absurd (by rw [hl]; rfl) hk
      | some r => rfl

lemma sumOf_insert (column : ν → ℕ) (h : t.lookup k = none) :
    sumOf column (t.insert k r) = column r + t.sumOf column := by
  rw [sumOf, AList.entries_insert_of_notMem (AList.lookup_eq_none.mp h), map_cons, sum_cons, sumOf]

lemma sumOf_modify (column : ν → ℕ) (h : t.lookup k = some r) :
    (t.modify k set).sumOf column + column r = t.sumOf column + column (set r) := by
  have hmem : k ∈ t.entries.keys := AList.lookup_isSome.mp (by rw [h]; rfl)
  obtain ⟨b, l₁, l₂, -, hentries, herase⟩ := exists_of_kerase hmem
  obtain rfl : r = b := by
    have hb : t.lookup k = some b := AList.mem_lookup_iff.mpr (by rw [hentries]; simp)
    exact Option.some.inj (h.symm.trans hb)
  have hmodify : t.modify k set = t.insert k (set r) := by rw [modify, h]
  rw [hmodify, sumOf, AList.entries_insert, herase, sumOf, hentries]
  simp only [map_append, map_cons, sum_append, sum_cons]
  omega

variable (t k r) in
lemma length_insert_le : (t.insert k r).entries.length ≤ t.entries.length + 1 := by
  rw [AList.entries_insert, length_cons]
  exact Nat.succ_le_succ (kerase_sublist k t.entries).length_le

lemma length_insert_of_some {r' : ν} (h : t.lookup k = some r') : (t.insert k r).entries.length = t.entries.length := by
  obtain ⟨b, l₁, l₂, -, hentries, herase⟩ := exists_of_kerase (AList.lookup_isSome.mp (by rw [h]; rfl) : k ∈ t.entries.keys)
  rw [AList.entries_insert, herase, hentries]
  simp [Nat.add_assoc]

end Table

end Breeze.Lib
