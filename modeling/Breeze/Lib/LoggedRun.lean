import Mathlib.Data.List.Induction

/-! Runs of a deterministic machine that answers every input: the state reached, the answers given. -/

namespace Breeze.Lib.LoggedRun

variable {σ ε α : Type*} (step : σ → ε → σ × α)

def exec : σ → List ε → σ
  | s, [] => s
  | s, e :: es => exec (step s e).1 es

def log : σ → List ε → List α
  | _, [] => []
  | s, e :: es => (step s e).2 :: log (step s e).1 es

@[simp] lemma exec_nil (s : σ) : exec step s [] = s := rfl

@[simp] lemma exec_cons (s : σ) (e : ε) (es : List ε) : exec step s (e :: es) = exec step (step s e).1 es := rfl

@[simp] lemma log_nil (s : σ) : log step s [] = [] := rfl

@[simp] lemma log_cons (s : σ) (e : ε) (es : List ε) :
    log step s (e :: es) = (step s e).2 :: log step (step s e).1 es := rfl

lemma exec_append (s : σ) (es fs : List ε) : exec step s (es ++ fs) = exec step (exec step s es) fs := by
  induction es generalizing s with
  | nil => rfl
  | cons e es ih => exact ih (step s e).1

lemma log_append (s : σ) (es fs : List ε) :
    log step s (es ++ fs) = log step s es ++ log step (exec step s es) fs := by
  induction es generalizing s with
  | nil => rfl
  | cons e es ih => simp [ih]

variable {step}

lemma exec_preserves {P : σ → Prop} (hstep : ∀ s e, P s → P (step s e).1) {s : σ} (hs : P s) (es : List ε) :
    P (exec step s es) := by
  induction es generalizing s with
  | nil => exact hs
  | cons e es ih => exact ih (hstep s e hs)

end Breeze.Lib.LoggedRun
