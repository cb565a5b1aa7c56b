import Mathlib.Tactic

/-! Pre- and postconditions of programs with a state, and of programs that may fail. -/

namespace Breeze.Lib.Stateful

variable {σ α β : Type} {P P' : σ → Prop} {Q Q' : α → σ → Prop} {R : β → σ → Prop}

def Triple (P : σ → Prop) (x : StateM σ α) (Q : α → σ → Prop) : Prop := ∀ s, P s → Q (x.run s).1 (x.run s).2

lemma Triple.pure {a : α} (h : ∀ s, P s → Q a s) : Triple P (pure a) Q := h

lemma Triple.keep {a : α} : Triple P (Pure.pure a : StateM σ α) (fun _ => P) := Triple.pure fun _ h => h

variable {x : StateM σ α}

lemma Triple.bind {f : α → StateM σ β} (hx : Triple P x Q) (hf : ∀ a, Triple (Q a) (f a) R) : Triple P (x >>= f) R :=
  fun s hs => hf _ _ (hx s hs)

lemma Triple.consequence (h : Triple P x Q) (hP : ∀ s, P' s → P s) (hQ : ∀ a s, Q a s → Q' a s) : Triple P' x Q' :=
  fun s hs => hQ _ _ (h s (hP s hs))

lemma Triple.modify {f : σ → σ} {Q : PUnit → σ → Prop} (h : ∀ s, P s → Q ⟨⟩ (f s)) : Triple P (modify f) Q := h

lemma Triple.assume {p : Prop} (h : p → Triple P x Q) : Triple (fun s => p ∧ P s) x Q :=
  fun s hs => h hs.1 s hs.2

lemma Triple.get_bind {f : σ → StateM σ α} (h : ∀ s₀, P s₀ → Triple (fun s => s = s₀) (f s₀) Q) : Triple P (get >>= f) Q :=
  fun s hs => h s hs s rfl

lemma Triple.read {f : σ → StateM σ α} (h : ∀ s₀, P s₀ → Triple P (f s₀) Q) : Triple P (get >>= f) Q :=
  fun s hs => h s hs s hs

lemma Triple.foldlM {f : β → α → StateM σ β} (hf : ∀ b a, Triple P (f b a) fun _ => P) :
    ∀ (l : List α) (b : β), Triple P (l.foldlM f b) fun _ => P := by
  intro l
  induction l with
  | nil => exact fun b => Triple.keep
  | cons a l ih => exact fun b => Triple.bind (hf b a) ih

lemma bind_ok {ε α β : Type} {x : Except ε α} {f : α → Except ε β} {b : β} :
    (x >>= f) = .ok b ↔ ∃ a, x = .ok a ∧ f a = .ok b := by
  cases x with
  | error e =>
    constructor
    · intro h
      cases h
    · rintro ⟨a, h, -⟩
      cases h
  | ok a =>
    constructor
    · exact fun h => ⟨a, rfl, h⟩
    · rintro ⟨a, ⟨⟩, h⟩
      exact h

end Breeze.Lib.Stateful
