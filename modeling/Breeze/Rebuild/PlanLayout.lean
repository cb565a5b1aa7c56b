import Breeze.Rebuild.PartitionPlan

/-! What a partition plan looks like: how it fills the target, and when its partitions are aligned. -/

namespace Breeze.Rebuild.PlanLayout

open PartitionPlan List

section Runs

def Chained : Int → List PlannedPartition → Int → Prop
  | c, [], e => e = c
  | c, q :: qs, e => q.startBytes = c ∧ Chained (c + q.sizeBytes) qs e

lemma Chained.append {l₁ l₂ : List PlannedPartition} {c m e : Int} (h₁ : Chained c l₁ m) (h₂ : Chained m l₂ e) :
    Chained c (l₁ ++ l₂) e := by
  induction l₁ generalizing c with
  | nil =>
    obtain rfl : m = c := h₁
    exact h₂
  | cons q l₁ ih => exact ⟨h₁.1, ih h₁.2⟩

lemma mib_dvd_alignUp (n : Int) : mib ∣ alignUp n mib := Dvd.intro_left _ rfl

lemma mib_dvd_total (parts : List Partition) : mib ∣ total parts := by
  apply dvd_sum
  intro n hn
  obtain ⟨p, -, rfl⟩ := List.mem_map.mp hn
  exact mib_dvd_alignUp _

variable (toLower : String → String) (describe : Partition → String × UInt64)

def fixedRun : Int → List Partition → List PlannedPartition
  | _, [] => []
  | cursor, p :: parts =>
    planned toLower describe p cursor (alignUp p.sizeBytes mib) false :: fixedRun (cursor + alignUp p.sizeBytes mib) parts

variable {toLower describe}

@[simp] lemma total_cons (p : Partition) (parts : List Partition) :
    total (p :: parts) = alignUp p.sizeBytes mib + total parts := rfl

lemma mem_fixedRun {c : Int} {parts : List Partition} {q : PlannedPartition} (h : q ∈ fixedRun toLower describe c parts) :
    q.grown = false ∧ (mib ∣ q.startBytes - c) ∧ ∃ p ∈ parts, q.sizeBytes = alignUp p.sizeBytes mib := by
  induction parts generalizing c with
  | nil => cases h
  | cons p parts ih =>
    rcases List.mem_cons.mp h with rfl | h
    · exact ⟨rfl, by simp [planned], p, mem_cons_self, rfl⟩
    · obtain ⟨hgrown, hstart, p', hp', hsize⟩ := ih h
      refine ⟨hgrown, ?_, p', mem_cons_of_mem _ hp', hsize⟩
      have := dvd_add hstart (mib_dvd_alignUp p.sizeBytes)
      rwa [show q.startBytes - (c + alignUp p.sizeBytes mib) + alignUp p.sizeBytes mib = q.startBytes - c by ring] at this

lemma exists_fixedRun {c : Int} {parts : List Partition} {p : Partition} (h : p ∈ parts) :
    ∃ q ∈ fixedRun toLower describe c parts, q.sizeBytes = alignUp p.sizeBytes mib := by
  induction parts generalizing c with
  | nil => cases h
  | cons p' parts ih =>
    rcases List.mem_cons.mp h with rfl | h
    · exact ⟨_, mem_cons_self, rfl⟩
    · obtain ⟨q, hq, hsize⟩ := ih (c := c + alignUp p'.sizeBytes mib) h
      exact ⟨q, mem_cons_of_mem _ hq, hsize⟩

end Runs

section Placement

variable {toLower : String → String} {describe : Partition → String × UInt64} {growIdx : Option ℕ} {usableEnd : Int}

variable {before parts after : List Partition} {i : ℕ} {c : Int} {p : Partition} {t t' : Tally}

lemma place_append (h : ∀ j < before.length, growIdx ≠ some (i + j)) :
    place toLower describe growIdx usableEnd i c (before ++ parts) = (fixedRun toLower describe c before ++
          (place toLower describe growIdx usableEnd (i + before.length) (c + total before) parts).1,
        (place toLower describe growIdx usableEnd (i + before.length) (c + total before) parts).2) := by
  induction before generalizing i c with
  | nil => simp [fixedRun, total]
  | cons p before ih =>
    have hne : growIdx ≠ some i := h 0 (Nat.succ_pos _)
    have hrest : ∀ j < before.length, growIdx ≠ some (i + 1 + j) := by
      intro j hj
      rw [show i + 1 + j = i + (j + 1) by omega]
      exact h (j + 1) (Nat.succ_lt_succ hj)
    have hi : i + 1 + before.length = i + (p :: before).length := by
      rw [length_cons]
      omega
    simp only [cons_append, place, hne, decide_false, Bool.false_eq_true, if_false, ih hrest, fixedRun, total_cons, hi,
      add_assoc]

lemma place_fixed (h : ∀ j < parts.length, growIdx ≠ some (i + j)) :
    place toLower describe growIdx usableEnd i c parts = (fixedRun toLower describe c parts, c + total parts) := by
  have happend : place toLower describe growIdx usableEnd i c (parts ++ []) = _ := place_append h
  rw [append_nil] at happend
  simpa [place] using happend

lemma place_grown : place toLower describe (some before.length) usableEnd 0 c (before ++ p :: after) =
      (fixedRun toLower describe c before ++
          planned toLower describe p (c + total before) (usableEnd - total after - (c + total before)) true ::
            fixedRun toLower describe (usableEnd - total after) after, usableEnd) := by
  have hafter : ∀ (i : ℕ) (c : Int), before.length < i →
      place toLower describe (some before.length) usableEnd i c after =
        (fixedRun toLower describe c after, c + total after) := by
    intro i c hi
    apply place_fixed
    intro j _ hj
    have := Option.some.inj hj
    omega
  rw [place_append fun j hj h => by have := Option.some.inj h; omega]
  simp only [place, zero_add, decide_true, if_true, hafter _ _ (Nat.lt_succ_self _), add_sub_cancel, sub_add_cancel]

variable {check : Partition → Except Refusal (List String)} {minimum : Partition → Int}

end Placement

section Plans

structure Carries (minimum : Partition → Int) (p : Partition) (q : PlannedPartition) : Prop where
  identity : q.number = p.number ∧ q.role = p.role ∧ q.typeGuid = p.typeGuid ∧ q.partUuid = p.partUuid ∧
    q.fsUuid = p.fsUuid ∧ q.label = p.label ∧ q.mountPoint = p.mountPoint
  kept : q.grown = false → p.sizeBytes ≤ q.sizeBytes
  grown : q.grown = true → minimum p ≤ q.sizeBytes ∧ gib ≤ q.sizeBytes

/-- The plan holds the partitions in order, back to back from 1 MiB to no further than 1 MiB before the target's end. -/
structure Fits (minimum : Partition → Int) (parts : List Partition) (target : Int) (plan : Plan) : Prop where
  carries : List.Forall₂ (Carries minimum) parts plan.partitions
  chained : ∃ e, Chained mib plan.partitions e ∧ e ≤ target - mib ∧
    ((∃ q ∈ plan.partitions, q.grown = true) → e = target - mib)

variable {toLower : String → String} {describe : Partition → String × UInt64} {minimum : Partition → Int}
  {check : Partition → Except Refusal (List String)} {src : Disk} {parts : List Partition} {growIdx : Option ℕ} {t : Tally}
  {sector : Int}

def Splits (growIdx : Option ℕ) (parts : List Partition) : Prop :=
  growIdx = none ∨ ∃ before p after, parts = before ++ p :: after ∧ growIdx = some before.length

lemma splits_of_lt (h : ∀ g, growIdx = some g → g < parts.length) : Splits growIdx parts := by
  cases growIdx with
  | none => exact .inl rfl
  | some g =>
    have hg := h g rfl
    refine .inr ⟨parts.take g, parts[g], parts.drop (g + 1), ?_, ?_⟩
    · rw [getElem_cons_drop, take_append_drop]
    · rw [length_take_of_le hg.le]

lemma lastGrowing_lt {i g : ℕ} {first : Option ℕ} (h : lastGrowing i first parts = some g) :
    first = some g ∨ g < i + parts.length := by
  induction parts generalizing i first with
  | nil => exact .inl h
  | cons p parts ih =>
    rw [length_cons]
    rcases ih h with hfirst | hlt
    · split_ifs at hfirst
      · cases hfirst
        exact .inr (by omega)
      · exact .inl hfirst
    · exact .inr (by omega)

lemma linux_splits (src : Disk) : Splits (lastGrowing 0 none (accepted src)) (accepted src) := by
  apply splits_of_lt
  intro g hg
  rcases lastGrowing_lt hg with h | h
  · cases h
  · rwa [zero_add] at h

lemma windows_splits {g : ℕ} (h : (accepted src).findIdx? (·.role = .root) = some g) : Splits (some g) (accepted src) := by
  apply splits_of_lt
  intro g' hg'
  cases hg'
  exact (List.findIdx?_eq_some_iff_findIdx_eq.mp h).1

def partitionOf (number : Int) (role : Role) (sizeBytes : Int) : Partition :=
  ⟨number, "", "", sizeBytes, 0, "", "", "", "", 0, role, ""⟩

def recoveryLast : Disk :=
  ⟨"disk", 68719476736, [partitionOf 1 .efi 104857600, partitionOf 2 .root 32212254720, partitionOf 3 .recovery 524288000]⟩

end Plans

section Alignment

def fixedParts : Option ℕ → List Partition → List Partition
  | none, parts => parts
  | some g, parts => parts.eraseIdx g

def Aligned (sector : Int) (plan : Plan) : Prop := ∀ q ∈ plan.partitions, mib ∣ q.startBytes ∧ sector ∣ q.sizeBytes

/-- The target is made of whole MiB, or nothing follows the partition that grows; the sizes that are kept are made of whole
sectors, and so are two MiB if a partition grows. -/
structure Alignable (parts : List Partition) (growIdx : Option ℕ) (target sector : Int) : Prop where
  tail : ∀ g, growIdx = some g → g + 1 < parts.length → mib ∣ target
  kept : ∀ p ∈ fixedParts growIdx parts, sector ∣ alignUp p.sizeBytes mib
  reserve : growIdx ≠ none → sector ∣ 2 * mib

variable {toLower : String → String} {describe : Partition → String × UInt64} {src : Disk} {parts : List Partition}
  {growIdx : Option ℕ} {t : Tally} {sector target : Int} {plan : Plan}

lemma layOut_partitions (h : layOut toLower describe src target sector parts growIdx t = .ok plan) :
    plan.partitions = (place toLower describe growIdx (target - mib) 0 mib parts).1 := by
  simp only [layOut] at h
  split_ifs at h
  cases h
  rfl

lemma sector_dvd_total (h : ∀ p ∈ parts, sector ∣ alignUp p.sizeBytes mib) : sector ∣ total parts := by
  apply dvd_sum
  intro n hn
  obtain ⟨p, hp, rfl⟩ := List.mem_map.mp hn
  exact h p hp

lemma aligned_fixedRun {c : Int} (hc : mib ∣ c) (h : ∀ p ∈ parts, sector ∣ alignUp p.sizeBytes mib) :
    ∀ q ∈ fixedRun toLower describe c parts, mib ∣ q.startBytes ∧ sector ∣ q.sizeBytes := by
  intro q hq
  obtain ⟨-, hstart, p, hp, hsize⟩ := mem_fixedRun hq
  refine ⟨?_, hsize ▸ h p hp⟩
  rw [← sub_add_cancel q.startBytes c]
  exact dvd_add hstart hc

lemma aligned_iff (hsplits : Splits growIdx parts) (htarget : sector ∣ target)
    (h : layOut toLower describe src target sector parts growIdx t = .ok plan) :
    Aligned sector plan ↔ Alignable parts growIdx target sector := by
  rw [Aligned, layOut_partitions h]
  rcases hsplits with rfl | ⟨before, p, after, rfl, rfl⟩
  · rw [place_fixed (by simp)]
    constructor
    · intro haligned
      refine ⟨nofun, fun p hp => ?_, fun hgrow => absurd rfl hgrow⟩
      obtain ⟨q, hq, hsize⟩ := exists_fixedRun hp
      exact hsize ▸ (haligned q hq).2
    · exact fun hcond => aligned_fixedRun (dvd_refl mib) hcond.kept
  · have hfixed : fixedParts (some before.length) (before ++ p :: after) = before ++ after := by
      rw [fixedParts, eraseIdx_append_of_length_le le_rfl, Nat.sub_self, eraseIdx_cons_zero]
    have hroom : target - mib - total after - (mib + total before) = target - 2 * mib - (total before + total after) := by ring
    rw [place_grown]
    constructor
    · intro haligned
      have hkept : ∀ p ∈ before ++ after, sector ∣ alignUp p.sizeBytes mib := by
        intro p' hp'
        rcases List.mem_append.mp hp' with hp' | hp'
        · obtain ⟨q, hq, hsize⟩ := exists_fixedRun hp'
          exact hsize ▸ (haligned q (mem_append_left _ hq)).2
        · obtain ⟨q, hq, hsize⟩ := exists_fixedRun hp'
          exact hsize ▸ (haligned q (mem_append_right _ (mem_cons_of_mem _ hq))).2
      have hgrown := (haligned _ (mem_append_right _ mem_cons_self)).2
      refine ⟨?_, hfixed ▸ hkept, fun _ => ?_⟩
      · rintro g hg hlast
        obtain rfl := Option.some.inj hg
        obtain ⟨p', after', rfl⟩ : ∃ p' after', after = p' :: after' := by
          apply exists_cons_of_ne_nil
          rintro rfl
          simp at hlast
        -- the first partition of the tail starts where the whole tail fits behind it
        have hstart := (haligned _ (mem_append_right _ (mem_cons_of_mem _ mem_cons_self))).1
        have htail := dvd_add (dvd_add hstart (mib_dvd_total (p' :: after'))) (dvd_refl mib)
        simpa [planned] using htail
      · change sector ∣ target - mib - total after - (mib + total before) at hgrown
        have hall := sector_dvd_total hkept
        rw [total, map_append, sum_append] at hall
        rw [hroom] at hgrown
        have := dvd_sub htarget (dvd_add hgrown hall)
        rwa [show target - (target - 2 * mib - (total before + total after) + _) = 2 * mib by simp only [total]; ring] at this
    · rintro ⟨htail, hkept, hreserve⟩
      rw [hfixed] at hkept
      have hb : ∀ p ∈ before, sector ∣ alignUp p.sizeBytes mib := fun p hp => hkept p (mem_append_left _ hp)
      have ha : ∀ p ∈ after, sector ∣ alignUp p.sizeBytes mib := fun p hp => hkept p (mem_append_right _ hp)
      intro q hq
      rcases List.mem_append.mp hq with hq | hq
      · exact aligned_fixedRun (dvd_refl mib) hb q hq
      rcases List.mem_cons.mp hq with rfl | hq
      · refine ⟨dvd_add (dvd_refl mib) (mib_dvd_total before), ?_⟩
        change sector ∣ target - mib - total after - (mib + total before)
        rw [hroom]
        exact dvd_sub (dvd_sub htarget (hreserve nofun)) (dvd_add (sector_dvd_total hb) (sector_dvd_total ha))
      · have hlast : before.length + 1 < (before ++ p :: after).length := by
          cases after with
          | nil => cases hq
          | cons p' after => simp
        exact aligned_fixedRun (dvd_sub (dvd_sub (htail _ rfl hlast) (dvd_refl mib)) (mib_dvd_total after)) ha q hq

theorem partition_alignment (toLower : String → String) (scaled : Int → Int) (src : Disk)
    (target sectorSize manifestBytes : Int) (htarget : sectorOr512 sectorSize ∣ target) (plan : Plan) :
    (planPartitions toLower scaled (some src) target sectorSize = .ok plan →
      (Aligned (sectorOr512 sectorSize) plan ↔
        Alignable (accepted src) (lastGrowing 0 none (accepted src)) target (sectorOr512 sectorSize))) ∧
    (planPartitionsWindows toLower scaled (some src) target sectorSize manifestBytes = .ok plan →
      (Aligned (sectorOr512 sectorSize) plan ↔
        Alignable (accepted src) ((accepted src).findIdx? (·.role = .root)) target (sectorOr512 sectorSize))) := by
  constructor
  · intro h
    simp only [planPartitions] at h
    split_ifs at h
    split at h
    · cases h
    · exact aligned_iff (linux_splits src) htarget h
  · intro h
    simp only [planPartitionsWindows] at h
    split_ifs at h
    split at h
    · cases h
    · rename_i g hgrow
      rw [hgrow]
      split at h
      · cases h
      · exact aligned_iff (windows_splits hgrow) htarget h

lemma recoveryLast_planned (target : Int)
    (h : (planPartitionsWindows id id (some recoveryLast) target 512 0).toOption.isSome = true) :
    ∃ plan, planPartitionsWindows id id (some recoveryLast) target 512 0 = .ok plan := by
  cases hplan : planPartitionsWindows id id (some recoveryLast) target 512 0 with
  | error e =>
    rw [hplan] at h
    cases h
  | ok plan => exact ⟨plan, rfl⟩

theorem partition_alignment_wholeMib :
    ∃ plan, planPartitionsWindows id id (some recoveryLast) 68719476736 512 0 = .ok plan ∧ Aligned 512 plan := by
  obtain ⟨plan, hplan⟩ := recoveryLast_planned 68719476736 (by decide +kernel)
  refine ⟨plan, hplan, ((partition_alignment id id recoveryLast 68719476736 512 0 (by decide) plan).2 hplan).mpr ?_⟩
  exact ⟨fun _ _ _ => by decide, by decide +kernel, fun _ => by decide⟩

theorem partition_misaligned :
    512 ∣ (68719477248 : Int) ∧ ∃ plan, planPartitionsWindows id id (some recoveryLast) 68719477248 512 0 = .ok plan ∧
      ¬ Aligned 512 plan := by
  obtain ⟨plan, hplan⟩ := recoveryLast_planned 68719477248 (by decide +kernel)
  refine ⟨by decide, plan, hplan, fun haligned => ?_⟩
  have hstarts : (planPartitionsWindows id id (some recoveryLast) 68719477248 512 0).toOption.map
      (fun plan => plan.partitions.map (·.startBytes)) = some [1048576, 105906176, 68194140672] := by decide +kernel
  rw [hplan] at hstarts
  have hmap : plan.partitions.map (·.startBytes) = [1048576, 105906176, 68194140672] := Option.some.inj hstarts
  have hmem : (68194140672 : Int) ∈ plan.partitions.map (·.startBytes) := by
    rw [hmap]
    decide
  obtain ⟨q, hq, hstart⟩ := List.mem_map.mp hmem
  have := (haligned q hq).1
  rw [hstart] at this
  exact absurd this (by decide)

end Alignment

end Breeze.Rebuild.PlanLayout
