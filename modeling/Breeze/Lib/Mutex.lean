import Mathlib.Tactic

/-! Threads that share one lock and the data it protects. `holds` tells from where a thread stands whether it is
inside. Only the thread inside changes the data, so an invariant of its steps is one of the whole system. -/

namespace Breeze.Lib.Mutex

variable {ι P : Type*} {holds : P → Bool} {phase : ι → P} {mu : Option ι} {g : ι} {p : P}

def Exclusive (holds : P → Bool) (phase : ι → P) (mu : Option ι) : Prop := ∀ g, holds (phase g) = true ↔ mu = some g

def active (phase : ι → P) (mu : Option ι) : Option P := mu.map phase

lemma Exclusive.active_eq (h : Exclusive holds phase mu) (hg : holds (phase g) = true) :
    active phase mu = some (phase g) := by
  rw [active, (h g).mp hg, Option.map_some]

variable [DecidableEq ι]

lemma Exclusive.moveOutside (h : Exclusive holds phase mu) (hg : holds (phase g) = false) (hp : holds p = false) :
    Exclusive holds (Function.update phase g p) mu := by
  intro k
  by_cases hk : k = g
  · subst hk
    have hmu := h k
    simpa [hg, hp] using hmu
  · simpa [Function.update_of_ne hk] using h k

lemma Exclusive.active_moveOutside (h : Exclusive holds phase mu) (hg : holds (phase g) = false) :
    active (Function.update phase g p) mu = active phase mu := by
  cases hmu : mu with
  | none => rfl
  | some k =>
    have hk : k ≠ g := by
      rintro rfl
      rw [(h k).mpr hmu] at hg
      cases hg
    simp [active, Function.update_of_ne hk]

lemma Exclusive.acquire (h : Exclusive holds phase none) (hp : holds p = true) :
    Exclusive holds (Function.update phase g p) (some g) := by
  intro k
  by_cases hk : k = g
  · subst hk
    simp [hp]
  · have hkf := h k
    simp only [reduceCtorEq, iff_false] at hkf
    simp [Function.update_of_ne hk, hkf, Ne.symm hk]

lemma Exclusive.moveInside (h : Exclusive holds phase mu) (hg : holds (phase g) = true) (hp : holds p = true) :
    Exclusive holds (Function.update phase g p) mu := by
  intro k
  by_cases hk : k = g
  · subst hk
    simp [hp, (h k).mp hg]
  · simpa [Function.update_of_ne hk] using h k

lemma Exclusive.release (h : Exclusive holds phase mu) (hg : holds (phase g) = true) (hp : holds p = false) :
    Exclusive holds (Function.update phase g p) none := by
  have hmu := (h g).mp hg
  intro k
  by_cases hk : k = g
  · subst hk
    simp [hp]
  · have hkf := h k
    simp only [hmu, Option.some.injEq, Ne.symm hk, iff_false] at hkf
    simp [Function.update_of_ne hk, hkf]

structure Config (ι P D : Type*) where
  phase : ι → P
  mu : Option ι
  data : D

structure Protocol (P D : Type*) where
  holds : P → Bool
  outside : P → P → Prop
  enter : P → P → Prop
  inside : P → D → P → D → Prop

variable {D : Type*} (π : Protocol P D)

inductive Move : Config ι P D → Config ι P D → Prop
  | stay (c : Config ι P D) : Move c c
  | outside {c : Config ι P D} {g : ι} {p : P} (hg : π.holds (c.phase g) = false) (hp : π.holds p = false)
      (h : π.outside (c.phase g) p) : Move c { c with phase := Function.update c.phase g p }
  | enter {c : Config ι P D} {g : ι} {p : P} (hg : π.holds (c.phase g) = false) (hp : π.holds p = true) (hmu : c.mu = none)
      (h : π.enter (c.phase g) p) : Move c { c with phase := Function.update c.phase g p, mu := some g }
  | inside {c : Config ι P D} {g : ι} {p : P} {d : D} (hg : π.holds (c.phase g) = true) (hp : π.holds p = true)
      (h : π.inside (c.phase g) c.data p d) :
      Move c { c with phase := Function.update c.phase g p, data := d }
  | leave {c : Config ι P D} {g : ι} {p : P} {d : D} (hg : π.holds (c.phase g) = true) (hp : π.holds p = false)
      (h : π.inside (c.phase g) c.data p d) :
      Move c { phase := Function.update c.phase g p, mu := none, data := d }

/-- `I` speaks of the data and of the thread inside, `J` of every thread by itself. -/
structure Invariant (I : Option P → D → Prop) (J : P → Prop) (c : Config ι P D) : Prop where
  exclusive : Exclusive π.holds c.phase c.mu
  shared : I (active c.phase c.mu) c.data
  each : ∀ g, J (c.phase g)

structure Preserved (I : Option P → D → Prop) (J : P → Prop) : Prop where
  outside : ∀ {p p'}, J p → π.outside p p' → J p'
  enter : ∀ {p p' d}, J p → π.enter p p' → I none d → J p' ∧ I (some p') d
  inside : ∀ {p p' d d'}, J p → I (some p) d → π.inside p d p' d' → π.holds p' = true → J p' ∧ I (some p') d'
  leave : ∀ {p p' d d'}, J p → I (some p) d → π.inside p d p' d' → π.holds p' = false → J p' ∧ I none d'

lemma forall_update {phase : ι → P} {J : P → Prop} (h : ∀ g, J (phase g)) {g : ι} {p : P} (hp : J p) (k : ι) :
    J (Function.update phase g p k) := by
  by_cases hk : k = g
  · subst hk
    simpa using hp
  · simpa [Function.update_of_ne hk] using h k

theorem Move.invariant {I : Option P → D → Prop} {J : P → Prop} (hIJ : Preserved π I J) {c c' : Config ι P D}
    (hc : Invariant π I J c) (hm : Move π c c') : Invariant π I J c' := by
  obtain ⟨hex, hI, hJ⟩ := hc
  cases hm with
  | stay => exact ⟨hex, hI, hJ⟩
  | outside hg hp h =>
    refine ⟨hex.moveOutside hg hp, ?_, forall_update hJ (hIJ.outside (hJ _) h)⟩
    simpa only [hex.active_moveOutside hg] using hI
  | enter hg hp hmu h =>
    rw [hmu] at hex hI
    obtain ⟨hJ', hI'⟩ := hIJ.enter (hJ _) h hI
    refine ⟨hex.acquire hp, ?_, forall_update hJ hJ'⟩
    simpa [active] using hI'
  | inside hg hp h =>
    rw [hex.active_eq hg] at hI
    obtain ⟨hJ', hI'⟩ := hIJ.inside (hJ _) hI h hp
    refine ⟨hex.moveInside hg hp, ?_, forall_update hJ hJ'⟩
    simpa [active, (hex _).mp hg] using hI'
  | leave hg hp h =>
    rw [hex.active_eq hg] at hI
    obtain ⟨hJ', hI'⟩ := hIJ.leave (hJ _) hI h hp
    exact ⟨hex.release hg hp, hI', forall_update hJ hJ'⟩

end Breeze.Lib.Mutex
