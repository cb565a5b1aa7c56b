import Mathlib.Tactic

/-! Programs as sequences of atomic sections on a shared state. Threads take their sections in any order; a thread may hold a
gate, which one unfinished thread at a time does. What every section guarantees, whatever the others do in between, holds along
every run. -/

namespace Breeze.Lib.Sections

variable {σ τ α β : Type}

inductive Program (σ τ α : Type) where
  | done (a : α)
  | atom (label : τ) (update : σ → σ) (next : σ → Program σ τ α)

namespace Program

def bind : Program σ τ α → (α → Program σ τ β) → Program σ τ β
  | .done a, f => f a
  | .atom label update next, f => .atom label update fun s => bind (next s) f

instance : Monad (Program σ τ) where
  pure := .done
  bind := bind

def lift (label : τ) (x : StateM σ α) : Program σ τ α := .atom label (fun s => (x.run s).2) fun s => .done (x.run s).1

def alone : Program σ τ α → StateM σ α
  | .done a => pure a
  | .atom _ update next => fun s => (alone (next s)).run (update s)

@[simp] lemma alone_pure (a : α) : (pure a : Program σ τ α).alone = pure a := rfl

@[simp] lemma alone_lift (label : τ) (x : StateM σ α) : (lift label x).alone = x := rfl

@[simp] lemma alone_bind (p : Program σ τ α) (f : α → Program σ τ β) :
    (p >>= f).alone = p.alone >>= fun a => (f a).alone := by
  induction p with
  | done a => rfl
  | atom label update next ih =>
    funext s
    exact congrFun (ih s) (update s)

def finished : Program σ τ α → Bool
  | .done _ => true
  | .atom _ _ _ => false

def label? : Program σ τ α → Option τ
  | .done _ => none
  | .atom label _ _ => some label

end Program

structure Thread (σ τ : Type) where
  inside : Bool
  program : Program σ τ Unit

def Thread.holds (t : Thread σ τ) : Bool := t.inside && !t.program.finished

/-- The sections taken so far, with the thread and the state each was taken in, are the history. -/
structure Config (σ τ : Type) where
  state : σ
  threads : List (Thread σ τ) := []
  history : List (ℕ × τ × σ) := []

inductive Move (σ τ : Type) where
  | start (t : Thread σ τ)
  | advance (i : ℕ)

namespace Config

def start (c : Config σ τ) (t : Thread σ τ) : Config σ τ :=
  if t.inside && c.threads.any Thread.holds then c else { c with threads := c.threads ++ [t] }

def advance (c : Config σ τ) (i : ℕ) : Config σ τ :=
  match c.threads[i]? with
  | some ⟨inside, .atom label update next⟩ =>
    { state := update c.state, threads := c.threads.set i ⟨inside, next c.state⟩, history := c.history ++ [(i, label, c.state)] }
  | _ => c

def step (c : Config σ τ) : Move σ τ → Config σ τ
  | .start t => c.start t
  | .advance i => c.advance i

inductive Moved (c : Config σ τ) : Move σ τ → Config σ τ → Prop
  | idle (m : Move σ τ) : Moved c m c
  | started (t : Thread σ τ) (hg : t.inside = true → ∀ u ∈ c.threads, u.holds = false) :
      Moved c (.start t) { c with threads := c.threads ++ [t] }
  | taken (i : ℕ) (inside : Bool) (label : τ) (update : σ → σ) (next : σ → Program σ τ Unit)
      (hi : c.threads[i]? = some ⟨inside, .atom label update next⟩) :
      Moved c (.advance i)
        { state := update c.state, threads := c.threads.set i ⟨inside, next c.state⟩,
          history := c.history ++ [(i, label, c.state)] }

lemma step_moved (c : Config σ τ) (m : Move σ τ) : Moved c m (c.step m) := by
  cases m with
  | start t =>
    simp only [step, start]
    split_ifs with hg
    · exact .idle _
    · refine .started t fun hi u hu => ?_
      simp only [hi, Bool.true_and, List.any_eq_true, not_exists, not_and, Bool.not_eq_true] at hg
      exact hg u hu
  | advance i =>
    simp only [step, advance]
    split
    · rename_i inside label update next hi
      exact .taken i inside label update next hi
    · exact .idle _

end Config

section RelyGuarantee

variable {rely : σ → σ → Prop} {guar : τ → σ → σ → Prop} {post post' : α → σ → Prop}

/-- From the state `s`, while the others only do what `rely` allows, every section keeps to `guar` and the end meets `post`. -/
def Safe (rely : σ → σ → Prop) (guar : τ → σ → σ → Prop) (post : α → σ → Prop) : Program σ τ α → σ → Prop
  | .done a, s => ∀ s', rely s s' → post a s'
  | .atom label update next, s => ∀ s', rely s s' → guar label s' (update s') ∧ Safe rely guar post (next s') (update s')

variable {p : Program σ τ α} {s : σ}

lemma Safe.later (htrans : ∀ s₁ s₂ s₃, rely s₁ s₂ → rely s₂ s₃ → rely s₁ s₃) {s' : σ}
    (h : Safe rely guar post p s) (hs : rely s s') : Safe rely guar post p s' := by
  cases p with
  | done a | atom label update next => exact fun s'' hs'' => h s'' (htrans s s' s'' hs hs'')

lemma Safe.pure {a : α} (h : ∀ s', rely s s' → post a s') : Safe rely guar post (pure a : Program σ τ α) s := h

lemma Safe.lift {label : τ} {x : StateM σ α}
    (h : ∀ s', rely s s' → guar label s' (x.run s').2 ∧ ∀ s'', rely (x.run s').2 s'' → post (x.run s').1 s'') :
    Safe rely guar post (Program.lift label x) s := h

lemma Safe.bind (hrefl : ∀ s, rely s s) {post : β → σ → Prop} {mid : α → σ → Prop}
    {f : α → Program σ τ β} (hp : Safe rely guar mid p s) (hf : ∀ a s', mid a s' → Safe rely guar post (f a) s') :
    Safe rely guar post (p >>= f) s := by
  induction p generalizing s with
  | done a => exact hf a s (hp s (hrefl s))
  | atom label update next ih => exact fun s' hs' => ⟨(hp s' hs').1, ih s' (hp s' hs').2⟩

lemma Safe.weaken (h : Safe rely guar post p s) (hpost : ∀ a s, post a s → post' a s) : Safe rely guar post' p s := by
  induction p generalizing s with
  | done a => exact fun s' hs' => hpost a s' (h s' hs')
  | atom label update next ih => exact fun s' hs' => ⟨(h s' hs').1, ih s' (h s' hs').2⟩

lemma Safe.frame {F : σ → Prop} (hrely : ∀ s s', rely s s' → F s → F s') (hguar : ∀ l s s', guar l s s' → F s → F s') (h : Safe rely guar post p s) (hs : F s) :
    Safe rely guar (fun a s' => post a s' ∧ F s') p s := by
  induction p generalizing s with
  | done a => exact fun s' hs' => ⟨h s' hs', hrely s s' hs' hs⟩
  | atom label update next ih =>
    intro s' hs'
    have hg := (h s' hs').1
    exact ⟨hg, ih s' (h s' hs').2 (hguar label s' _ hg (hrely s s' hs' hs))⟩

def Config.Exclusive (c : Config σ τ) : Prop :=
  ∀ (i j : ℕ) (t u : Thread σ τ), c.threads[i]? = some t → c.threads[j]? = some u → t.holds = true → u.holds = true → i = j

lemma Config.Exclusive.step {c : Config σ τ} (h : c.Exclusive) (m : Move σ τ) : (c.step m).Exclusive := by
  have hmoved := c.step_moved m
  generalize c.step m = c' at hmoved ⊢
  cases hmoved with
  | idle => exact h
  | started t hg =>
    intro i j v u hi hj hv hu
    have hold : ∀ {k : ℕ} {w : Thread σ τ}, (c.threads ++ [t])[k]? = some w → w.holds = true →
        c.threads[k]? = some w ∨ (k = c.threads.length ∧ t.inside = true) := by
      intro k w hk hw
      rcases lt_or_ge k c.threads.length with hlt | hge
      · rw [List.getElem?_append_left hlt] at hk
        exact Or.inl hk
      · rw [List.getElem?_append_right hge, List.getElem?_singleton] at hk
        split_ifs at hk with hz
        · cases hk
          exact Or.inr ⟨by omega, (Bool.and_eq_true_iff.mp hw).1⟩
    have hnone : t.inside = true → ∀ {k : ℕ} {w : Thread σ τ}, c.threads[k]? = some w → w.holds = true → False := by
      intro ht k w hk hw
      rw [hg ht w (List.mem_of_getElem? hk)] at hw
      cases hw
    rcases hold hi hv with hi' | ⟨rfl, ht⟩
    · rcases hold hj hu with hj' | ⟨rfl, ht⟩
      · exact h i j v u hi' hj' hv hu
      · exact (hnone ht hi' hv).elim
    · rcases hold hj hu with hj' | ⟨rfl, -⟩
      · exact (hnone ht hj' hu).elim
      · rfl
  | taken k inside label update next hk =>
    -- the thread that moves held the gate before if it holds it afterwards
    intro i j v u hi hj hv hu
    have hback : ∀ {n : ℕ} {w : Thread σ τ}, (c.threads.set k ⟨inside, next c.state⟩)[n]? = some w → w.holds = true →
        ∃ w', c.threads[n]? = some w' ∧ w'.holds = true := by
      intro n w hn hw
      rw [List.getElem?_set] at hn
      split_ifs at hn with hkn hlt
      · cases hn
        subst hkn
        exact ⟨_, hk, Bool.and_eq_true_iff.mpr ⟨(Bool.and_eq_true_iff.mp hw).1, rfl⟩⟩
      · exact ⟨w, hn, hw⟩
    obtain ⟨v', hi', hv'⟩ := hback hi hv
    obtain ⟨u', hj', hu'⟩ := hback hj hu
    exact h i j v' u' hi' hj' hv' hu'

end RelyGuarantee

section Gate

variable {rely : Bool → σ → σ → Prop} {guar : Bool → τ → σ → σ → Prop}

/-- A thread with the gate relies on what the threads without it do, one without it on what all do. -/
structure Contract (rely : Bool → σ → σ → Prop) (guar : Bool → τ → σ → σ → Prop) : Prop where
  refl : ∀ b s, rely b s s
  trans : ∀ b s₁ s₂ s₃, rely b s₁ s₂ → rely b s₂ s₃ → rely b s₁ s₃
  free : ∀ b label s s', guar b label s s' → rely false s s'
  gated : ∀ label s s', guar false label s s' → rely true s s'

structure Kept (rely : Bool → σ → σ → Prop) (guar : Bool → τ → σ → σ → Prop) (I : σ → Prop) (c : Config σ τ) : Prop where
  state : I c.state
  threads : ∀ t ∈ c.threads, Safe (rely t.inside) (guar t.inside) (fun _ _ => True) t.program c.state
  exclusive : c.Exclusive

lemma Kept.step (hc : Contract rely guar) {I : σ → Prop} {c : Config σ τ} {m : Move σ τ} (h : Kept rely guar I c)
    (hstart : ∀ t, m = .start t → Safe (rely t.inside) (guar t.inside) (fun _ _ => True) t.program c.state)
    (hinv : ∀ i t label s', m = .advance i → c.threads[i]? = some t → t.program.label? = some label →
      guar t.inside label c.state s' → I s') : Kept rely guar I (c.step m) := by
  have hexclusive := h.exclusive.step m
  have hmoved := c.step_moved m
  generalize c.step m = c' at hmoved hexclusive ⊢
  cases hmoved with
  | idle => exact h
  | started t hg =>
    refine ⟨h.state, fun u hu => ?_, hexclusive⟩
    rcases List.mem_append.mp hu with hu | hu
    · exact h.threads u hu
    · rw [List.mem_singleton.mp hu]
      exact hstart t rfl
  | taken i inside label update next hi =>
    obtain ⟨hguar, hnext⟩ := h.threads _ (List.mem_of_getElem? hi) c.state (hc.refl _ c.state)
    refine ⟨hinv i _ label _ rfl hi rfl hguar, fun u hu => ?_, hexclusive⟩
    obtain ⟨j, hj⟩ := List.mem_iff_getElem?.mp hu
    rw [List.getElem?_set] at hj
    split_ifs at hj with hij hlt
    · cases hj
      exact hnext
    · have hsafe := h.threads u (List.mem_of_getElem? hj)
      cases hu' : u.inside with
      | false =>
        rw [hu'] at hsafe
        exact hsafe.later (hc.trans false) (hc.free inside label _ _ hguar)
      | true =>
        rw [hu'] at hsafe
        cases inside with
        | false => exact hsafe.later (hc.trans true) (hc.gated label _ _ hguar)
        | true =>
          -- two threads inside: this one is finished
          cases hp : u.program with
          | done a => exact fun _ _ => trivial
          | atom l v n => exact absurd (h.exclusive i j _ u hi hj rfl (by simp [Thread.holds, hu', hp, Program.finished])) hij

end Gate

end Breeze.Lib.Sections
