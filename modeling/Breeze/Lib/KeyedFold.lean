import Mathlib.Data.List.Induction

/-! A map in insertion order whose entries are made on first use and then updated in place. -/

namespace Breeze.Lib.KeyedFold

variable {κ α : Type*} [DecidableEq κ] (init : κ → α)

def touch (entries : List (κ × α)) (k : κ) (f : α → α) : List (κ × α) :=
  if entries.any (·.1 == k) then entries.map fun entry => if entry.1 = k then (k, f entry.2) else entry
  else entries ++ [(k, f (init k))]

def touchAll (steps : List (κ × (α → α))) : List (κ × α) :=
  steps.foldl (fun entries step => touch init entries step.1 step.2) []

def stepsAt (steps : List (κ × (α → α))) (k : κ) : List (α → α) :=
  (steps.filter (·.1 == k)).map (·.2)

def folded (steps : List (κ × (α → α))) (k : κ) : α :=
  (stepsAt steps k).foldl (fun a f => f a) (init k)

variable {init}

lemma stepsAt_append (steps others : List (κ × (α → α))) (k : κ) :
    stepsAt (steps ++ others) k = stepsAt steps k ++ stepsAt others k := by
  simp [stepsAt]

lemma stepsAt_cons (step : κ × (α → α)) (steps : List (κ × (α → α))) (k : κ) :
    stepsAt (step :: steps) k =
      (if step.1 = k then [step.2] else []) ++ stepsAt steps k := by
  by_cases hk : step.1 = k <;> simp [stepsAt, hk]

lemma stepsAt_filterMap {β : Type*} (l : List β) (key : β → κ) (f : β → α → α) (c : κ → Bool) (k : κ) :
    stepsAt (l.filterMap fun a => if c (key a) then some (key a, f a) else none) k =
      if c k then (l.filter fun a => decide (key a = k)).map f else [] := by
  induction l with
  | nil => simp [stepsAt]
  | cons a l ih =>
    cases hc : c (key a) with
    | false =>
      rw [List.filterMap_cons_none (by simp [hc]), ih]
      split_ifs with hk
      · have hne : key a ≠ k := by
          rintro rfl
          simp [hc] at hk
        simp [hne]
      · rfl
    | true =>
      rw [List.filterMap_cons_some (by simp [hc]; rfl), stepsAt_cons, ih]
      by_cases hk : key a = k
      · subst hk
        simp [hc]
      · simp [hk]

lemma stepsAt_keys {l : List κ} (hl : l.Nodup) (f : κ → α → α) (c : κ → Bool) (k : κ) :
    stepsAt (l.filterMap fun a => if c a then some (a, f a) else none) k = if k ∈ l ∧ c k then [f k] else [] := by
  induction l with
  | nil => simp [stepsAt]
  | cons a l ih =>
    obtain ⟨ha, hl⟩ := List.nodup_cons.mp hl
    have ih := ih hl
    cases hc : c a with
    | false =>
      rw [List.filterMap_cons_none (by simp [hc]), ih]
      refine if_congr ?_ rfl rfl
      constructor
      · exact fun h => ⟨List.mem_cons_of_mem _ h.1, h.2⟩
      · rintro ⟨hk, hck⟩
        obtain rfl | hk := List.mem_cons.mp hk
        · simp [hc] at hck
        · exact ⟨hk, hck⟩
    | true =>
      rw [List.filterMap_cons_some (by simp [hc]; rfl), stepsAt_cons, ih]
      by_cases hk : a = k
      · subst hk
        simp [hc, ha]
      · simp [hk, Ne.symm hk]

lemma mem_touchAll {steps : List (κ × (α → α))} {k : κ} {a : α} :
    (k, a) ∈ touchAll init steps ↔ stepsAt steps k ≠ [] ∧ a = folded init steps k := by
  induction steps using List.reverseRecOn generalizing k a with
  | nil => simp [touchAll, stepsAt]
  | append_singleton steps step ih =>
    obtain ⟨j, f⟩ := step
    have hall : touchAll init (steps ++ [(j, f)]) = touch init (touchAll init steps) j f := by
      simp [touchAll]
    have hany : (touchAll init steps).any (·.1 == j) = true ↔ stepsAt steps j ≠ [] := by
      simp only [List.any_eq_true, beq_iff_eq]
      constructor
      · rintro ⟨⟨_, b⟩, hb, rfl⟩
        exact (ih.mp hb).1
      · intro hne
        exact ⟨(j, folded init steps j), ih.mpr ⟨hne, rfl⟩, rfl⟩
    rw [hall, touch, stepsAt_append, folded, stepsAt_append]
    by_cases hk : k = j
    · subst hk
      have hsingle : stepsAt [(k, f)] k = [f] := by simp [stepsAt]
      rw [hsingle]
      split_ifs with hold
      · have hne := hany.mp hold
        simp only [List.mem_map, Prod.exists]
        constructor
        · rintro ⟨i, b, hb, hib⟩
          split_ifs at hib with hi
          · subst hi
            simp_all [folded]
          · simp_all
        · rintro ⟨-, rfl⟩
          exact ⟨k, folded init steps k, ih.mpr ⟨hne, rfl⟩, by simp [folded]⟩
      · have hnil : stepsAt steps k = [] := by
          by_contra hne
          exact hold (hany.mpr hne)
        have hfresh : ∀ b, (k, b) ∉ touchAll init steps := fun b hb => (ih.mp hb).1 hnil
        simp [hnil, hfresh]
    · have hother : stepsAt [(j, f)] k = [] := by simp [stepsAt, Ne.symm hk]
      rw [hother, List.append_nil, ← folded, ← ih]
      split_ifs
      · simp only [List.mem_map, Prod.exists]
        constructor
        · rintro ⟨i, b, hb, hib⟩
          split_ifs at hib with hi
          · simp_all
          · cases hib
            exact hb
        · exact fun hb => ⟨k, a, hb, by simp [hk]⟩
      · simp [hk]

end Breeze.Lib.KeyedFold
