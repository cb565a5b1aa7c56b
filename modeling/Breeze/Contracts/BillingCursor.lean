import Breeze.Contracts.ContractService

/-! The billing cursor. It claims period numbers one after the other and knows nothing of dates. -/

namespace Breeze.Contracts.BillingCursor

open ContractService

structure Cursor where
  claimed : List ℕ
  next : Option ℕ
  status : ContractStatus

namespace Cursor

def start (c : Cursor) (i : ℕ) : Cursor := { c with next := some i, status := .active }

def stop (c : Cursor) : Cursor := { c with next := none, status := .paused }

def finish (c : Cursor) : Cursor := { c with next := none, status := .expired }

def claim (ended : ℕ → Bool) (c : Cursor) (k : ℕ) : Cursor :=
  if ended (k + 1) then { c with claimed := c.claimed ++ [k], next := none, status := .expired }
  else { c with claimed := c.claimed ++ [k], next := some (k + 1) }

def bill (ended due : ℕ → Bool) (payable : Bool) (c : Cursor) : Cursor :=
  match c.status, c.next with
  | .active, some k =>
    if due k then
      if ended k then c.finish
      else if payable = true ∧ k ∉ c.claimed then c.claim ended k
      else c
    else c
  | _, _ => c

lemma claim_claimed (ended : ℕ → Bool) (c : Cursor) (k : ℕ) :
    (c.claim ended k).claimed = c.claimed ++ [k] := by
  unfold claim
  split <;> rfl

lemma bill_cases (ended due : ℕ → Bool) (payable : Bool) (c : Cursor) :
    c.bill ended due payable = c ∨
    (∃ k, c.status = .active ∧ c.next = some k ∧ due k = true ∧ ended k = true ∧
      c.bill ended due payable = c.finish) ∨
    (∃ k, c.status = .active ∧ c.next = some k ∧ due k = true ∧ ended k = false ∧ payable = true ∧
      k ∉ c.claimed ∧ c.bill ended due payable = c.claim ended k) := by
  by_cases h : ∃ k, c.status = .active ∧ c.next = some k
  · obtain ⟨k, hs, hk⟩ := h
    unfold bill
    rw [hs, hk]
    dsimp only
    by_cases hd : due k = true
    · by_cases he : ended k = true
      · exact Or.inr (Or.inl ⟨k, rfl, rfl, hd, he, by rw [if_pos hd, if_pos he]⟩)
      · by_cases hp : payable = true ∧ k ∉ c.claimed
        · refine Or.inr (Or.inr ⟨k, rfl, rfl, hd, by simpa using he, hp.1, hp.2, ?_⟩)
          rw [if_pos hd, if_neg he, if_pos hp]
        · exact Or.inl (by rw [if_pos hd, if_neg he, if_neg hp])
    · exact Or.inl (by rw [if_neg hd])
  · refine Or.inl ?_
    unfold bill
    split
    · exact absurd ⟨_, by assumption, by assumption⟩ h
    · rfl

variable {ended due : ℕ → Bool} {payable : Bool} {c : Cursor} {a n : ℕ}

lemma bill_of_active {k : ℕ} (hs : c.status = .active) (hk : c.next = some k) (he : ended k = false) :
    c.bill ended due payable = if due k = true ∧ payable = true ∧ k ∉ c.claimed then c.claim ended k else c := by
  unfold bill
  rw [hs, hk]
  dsimp only
  by_cases hd : due k = true
  · rw [if_pos hd, he, if_neg Bool.false_ne_true]
    by_cases hp : payable = true ∧ k ∉ c.claimed
    · rw [if_pos hp, if_pos ⟨hd, hp⟩]
    · rw [if_neg hp, if_neg (fun hh => hp hh.2)]
  · rw [if_neg hd, if_neg (fun hh => hd hh.1)]

lemma bill_of_not_due {k : ℕ} (hs : c.status = .active)
    (hk : c.next = some k) (hd : due k = false) : c.bill ended due payable = c := by
  unfold bill
  rw [hs, hk]
  dsimp only
  rw [hd, if_neg Bool.false_ne_true]

def Ahead (c : Cursor) : Prop :=
  c.status = .active → ∃ k, c.next = some k ∧ ∀ j ∈ c.claimed, j < k

lemma Ahead.bill (h : c.Ahead) : (c.bill ended due payable).Ahead := by
  rcases bill_cases ended due payable c with hb | ⟨k, _, _, _, _, hb⟩ | ⟨k, hs, hk, _, _, _, _, hb⟩
  · rwa [hb]
  · rw [hb]
    intro hf
    simp [finish] at hf
  · rw [hb]
    obtain ⟨k', hk', hlt⟩ := h hs
    obtain rfl : k = k' := Option.some.inj (hk.symm.trans hk')
    unfold claim
    split
    · intro hf
      simp at hf
    · intro _
      refine ⟨k + 1, rfl, ?_⟩
      intro j hj
      rcases List.mem_append.mp hj with hj | hj
      · exact Nat.lt_succ_of_lt (hlt j hj)
      · exact List.mem_singleton.mp hj ▸ Nat.lt_succ_self k

/-- The claimed numbers are consecutive from `a`, and an active cursor points right behind them. -/
structure Consecutive (a : ℕ) (c : Cursor) : Prop where
  claimed : c.claimed = List.range' a c.claimed.length
  next : c.status = .active → c.next = some (a + c.claimed.length)

lemma Consecutive.nodup (h : Consecutive a c) : c.claimed.Nodup := by
  have hn : (List.range' a c.claimed.length).Nodup := List.nodup_range'
  rwa [← h.claimed] at hn

lemma Consecutive.bill (h : Consecutive a c) : Consecutive a (c.bill ended due payable) := by
  rcases bill_cases ended due payable c with hb | ⟨k, _, _, _, _, hb⟩ | ⟨k, hs, hk, _, _, _, _, hb⟩
  · rwa [hb]
  · rw [hb]
    exact ⟨h.claimed, fun hf => by simp [finish] at hf⟩
  · have hk' : k = a + c.claimed.length := Option.some.inj (hk.symm.trans (h.next hs))
    have hr : c.claimed ++ [k] = List.range' a (c.claimed.length + 1) := by
      rw [List.range'_concat, ← h.claimed, hk', Nat.one_mul]
    rw [hb]
    constructor
    · rw [claim_claimed, List.length_append, List.length_singleton, hr]
    · rw [claim_claimed, List.length_append, List.length_singleton, ← Nat.add_assoc, ← hk']
      unfold claim
      split
      · intro hf
        simp at hf
      · exact fun _ => rfl

/-- A cursor on its way through the first `n` numbers; it expires when it has claimed them all. -/
structure Covers (n : ℕ) (c : Cursor) : Prop where
  consecutive : c.Consecutive 0
  phase : c.status = .active ∧ c.claimed.length < n ∨ c.status = .expired ∧ c.claimed.length = n

lemma Covers.bill (h : Covers n c) (he : ∀ k ≤ n, ended k = true ↔ n ≤ k) : Covers n (c.bill ended due payable) := by
  refine ⟨h.consecutive.bill, ?_⟩
  rcases h.phase with ⟨hs, hlt⟩ | ⟨hs, hlen⟩
  · have hk : c.next = some c.claimed.length := by simpa using h.consecutive.next hs
    have hfalse : ended c.claimed.length = false :=
      Bool.eq_false_iff.mpr fun hh => absurd ((he _ hlt.le).mp hh) (by omega)
    rw [bill_of_active hs hk hfalse]
    split
    · rw [claim_claimed, List.length_append, List.length_singleton]
      have hnext := he (c.claimed.length + 1) hlt
      by_cases hlast : ended (c.claimed.length + 1) = true
      · have hle := hnext.mp hlast
        exact Or.inr ⟨by rw [claim, if_pos hlast], by omega⟩
      · have hle : ¬ n ≤ c.claimed.length + 1 := fun hh => hlast (hnext.mpr hh)
        exact Or.inl ⟨by rw [claim, if_neg hlast]; exact hs, by omega⟩
    · exact Or.inl ⟨hs, hlt⟩
  · have hidle : c.bill ended due payable = c := by
      rw [Cursor.bill, hs]
    exact Or.inr ⟨by rw [hidle, hs], by rw [hidle, hlen]⟩

lemma Covers.bill_length (h : Covers n c)
    (he : ∀ k ≤ n, ended k = true ↔ n ≤ k) (hd : ∀ k < n, due k = true) (hp : payable = true) :
    min n (c.claimed.length + 1) ≤ (c.bill ended due payable).claimed.length := by
  rcases h.phase with ⟨hs, hlt⟩ | ⟨hs, hlen⟩
  · have hk : c.next = some c.claimed.length := by simpa using h.consecutive.next hs
    have hfalse : ended c.claimed.length = false :=
      Bool.eq_false_iff.mpr fun hh => absurd ((he _ hlt.le).mp hh) (by omega)
    have hmem : c.claimed.length ∉ c.claimed := by
      intro hm
      rw [h.consecutive.claimed, List.length_range', List.mem_range'_1] at hm
      omega
    rw [bill_of_active hs hk hfalse, if_pos ⟨hd _ hlt, hp, hmem⟩, claim_claimed, List.length_append]
    exact min_le_right _ _
  · have hidle : c.bill ended due payable = c := by
      rw [Cursor.bill, hs]
    rw [hidle, hlen]
    exact min_le_left _ _

lemma bill_length_le (ended due : ℕ → Bool) (payable : Bool) (c : Cursor) :
    c.claimed.length ≤ (c.bill ended due payable).claimed.length := by
  rcases bill_cases ended due payable c with hb | ⟨k, _, _, _, _, hb⟩ | ⟨k, _, _, _, _, _, _, hb⟩
  · rw [hb]
  · rw [hb]
    exact le_rfl
  · rw [hb, claim_claimed, List.length_append]
    exact Nat.le_add_right _ _

end Cursor

end Breeze.Contracts.BillingCursor
