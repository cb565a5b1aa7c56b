import Mathlib.Tactic

/-! Programs that give commands to a world and may die after any of them. The world's part of a run, what it decides at each
command and when the process dies, is a script. -/

namespace Breeze.Lib.Effects

variable {κ : Type} {Answer : κ → Type} {Choice : κ → Type} {σ α β : Type}

inductive Program (Answer : κ → Type) (α : Type) where
  | done (a : α)
  | call (c : κ) (next : Answer c → Program Answer α)

namespace Program

def bind : Program Answer α → (α → Program Answer β) → Program Answer β
  | .done a, f => f a
  | .call c next, f => .call c fun r => bind (next r) f

instance : Monad (Program Answer) where
  pure := .done
  bind := bind

def perform (c : κ) : Program Answer (Answer c) := .call c .done

end Program

abbrev React (Answer Choice : κ → Type) (σ : Type) := (c : κ) → Choice c → σ → Answer c × σ

structure Script (Choice : κ → Type) where
  choose : ℕ → (c : κ) → Choice c
  -- how many commands are carried out before the process dies
  life : ℕ

def play (react : React Answer Choice σ) (choose : ℕ → (c : κ) → Choice c) : ℕ → Program Answer α → σ → σ
  | 0, _, s => s
  | _ + 1, .done _, s => s
  | n + 1, .call c next, s =>
    let r := react c (choose n c) s
    play react choose n (next r.1) r.2

section Safe

variable {react : React Answer Choice σ} {I : σ → Prop} {post mid : α → σ → Prop}

def Safe (react : React Answer Choice σ) (I : σ → Prop) (post : α → σ → Prop) : Program Answer α → σ → Prop
  | .done a, s => I s ∧ post a s
  | .call c next, s => I s ∧ ∀ r, Safe react I post (next (react c r s).1) (react c r s).2

lemma Safe.now {p : Program Answer α} {s : σ} (h : Safe react I post p s) : I s := by
  cases p with
  | done a | call c next => exact h.1

theorem Safe.play {p : Program Answer α} {s : σ} (h : Safe react I post p s) (choose : ℕ → (c : κ) → Choice c) (n : ℕ) :
    I (play react choose n p s) := by
  induction n generalizing p s with
  | zero => exact h.now
  | succ n ih =>
    cases p with
    | done a => exact h.1
    | call c next => exact ih (h.2 (choose n c))

end Safe

end Breeze.Lib.Effects
