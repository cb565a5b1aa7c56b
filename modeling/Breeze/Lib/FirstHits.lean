import Mathlib.Tactic

/-! A scan of the numbers from 0 that collects hits until it has enough or meets a stop. -/

namespace Breeze.Lib.FirstHits

def collect (stop hit : ℕ → Bool) (cap : ℕ) : ℕ → ℕ → List ℕ → Option (List ℕ)
  | 0, _, _ => none
  | fuel + 1, n, out =>
    if out.length < cap then
      if stop n then some out
      else if hit n then collect stop hit cap fuel (n + 1) (out ++ [n])
      else collect stop hit cap fuel (n + 1) out
    else some out

structure First (cap : ℕ) (P : ℕ → Prop) (ns : List ℕ) : Prop where
  sorted : ns.Pairwise (· < ·)
  sound : ∀ n ∈ ns, P n
  length_le : ns.length ≤ cap
  complete : ∀ n, P n → n ∈ ns ∨ ns.length = cap ∧ ∀ m ∈ ns, m < n

variable {stop hit : ℕ → Bool} {cap N : ℕ} {P : ℕ → Prop}

structure Before (cap : ℕ) (P : ℕ → Prop) (n : ℕ) (ns : List ℕ) : Prop where
  sorted : ns.Pairwise (· < ·)
  mem : ∀ m, m ∈ ns ↔ m < n ∧ P m
  length_le : ns.length ≤ cap

variable {n : ℕ} {ns : List ℕ}

lemma Before.skip (h : Before cap P n ns) (hn : ¬ P n) : Before cap P (n + 1) ns where
  sorted := h.sorted
  mem m := by
    rw [h.mem, Nat.lt_succ_iff_lt_or_eq]
    constructor
    · exact fun hm => ⟨Or.inl hm.1, hm.2⟩
    · rintro ⟨hlt | rfl, hm⟩
      · exact ⟨hlt, hm⟩
      · exact absurd hm hn
  length_le := h.length_le

lemma Before.push (h : Before cap P n ns) (hn : P n) (hcap : ns.length < cap) :
    Before cap P (n + 1) (ns ++ [n]) where
  sorted := by
    refine List.pairwise_append.mpr ⟨h.sorted, List.pairwise_singleton _ _, ?_⟩
    intro m hm k hk
    rw [List.mem_singleton.mp hk]
    exact ((h.mem m).mp hm).1
  mem m := by
    rw [List.mem_append, h.mem, List.mem_singleton, Nat.lt_succ_iff_lt_or_eq]
    constructor
    · rintro (⟨hlt, hm⟩ | rfl)
      · exact ⟨Or.inl hlt, hm⟩
      · exact ⟨Or.inr rfl, hn⟩
    · rintro ⟨hlt | rfl, hm⟩
      · exact Or.inl ⟨hlt, hm⟩
      · exact Or.inr rfl
  length_le := by simpa using hcap

lemma Before.first (h : Before cap P n ns)
    (hdone : ns.length = cap ∨ ∀ m, n ≤ m → ¬ P m) : First cap P ns where
  sorted := h.sorted
  sound m hm := ((h.mem m).mp hm).2
  length_le := h.length_le
  complete m hm := by
    rcases lt_or_ge m n with hlt | hge
    · exact Or.inl ((h.mem m).mpr ⟨hlt, hm⟩)
    · refine Or.inr ⟨hdone.resolve_right fun hnone => hnone m hge hm, fun k hk => ?_⟩
      exact ((h.mem k).mp hk).1.trans_le hge

lemma collect_first (cap fuel : ℕ) (hhit : ∀ n < N, stop n = false → (hit n = true ↔ P n))
    (hstop : ∀ n ≤ N, stop n = true → ∀ m, n ≤ m → ¬ P m) (hN : stop N = true) {out : List ℕ}
    (hfuel : N < n + fuel) (hn : n ≤ N) (hout : Before cap P n out) :
    ∃ ns, First cap P ns ∧ ∀ more, collect stop hit cap (fuel + more) n out = some ns := by
  induction fuel generalizing n out with
  | zero => omega
  | succ fuel ih =>
    simp only [Nat.add_right_comm fuel 1, collect]
    split_ifs with hcap hend hhere
    · exact ⟨out, hout.first (Or.inr (hstop n hn hend)), fun _ => rfl⟩
    · have hlt : n < N := lt_of_le_of_ne hn fun heq => hend (heq ▸ hN)
      refine ih (by omega) hlt (hout.push ?_ hcap)
      exact (hhit n hlt (Bool.not_eq_true _ ▸ hend)).mp hhere
    · have hlt : n < N := lt_of_le_of_ne hn fun heq => hend (heq ▸ hN)
      refine ih (by omega) hlt (hout.skip ?_)
      exact fun hp => hhere ((hhit n hlt (Bool.not_eq_true _ ▸ hend)).mpr hp)
    · exact ⟨out, hout.first (Or.inl (le_antisymm hout.length_le (not_lt.mp hcap))), fun _ => rfl⟩

end Breeze.Lib.FirstHits
