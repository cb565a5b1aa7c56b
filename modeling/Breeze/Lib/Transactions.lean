import Mathlib.Tactic

/-! Processes that run read-committed transactions on a shared state. A statement sees the committed state with the own writes
over it; a row lock is exclusive and held to the end of the transaction; the writes appear at the commit. A process may be
stopped at any point, which undoes its open transaction. -/

namespace Breeze.Lib.Transactions

variable {σ κ ι ε α β : Type}

inductive Proc (σ κ α : Type) where
  | done (a : α)
  | read (next : σ → Proc σ κ α)
  | lock (row : κ) (next : Proc σ κ α)
  | write (set : σ → σ) (next : Proc σ κ α)
  | commit (next : Proc σ κ α)
  -- outside of any transaction: waits until `ready`, takes effect at once
  | act (ready : σ → Bool) (update : σ → σ) (next : σ → Proc σ κ α)

namespace Proc

def bind : Proc σ κ α → (α → Proc σ κ β) → Proc σ κ β
  | .done a, f => f a
  | .read next, f => .read fun s => bind (next s) f
  | .lock row next, f => .lock row (bind next f)
  | .write set next, f => .write set (bind next f)
  | .commit next, f => .commit (bind next f)
  | .act ready update next, f => .act ready update fun s => bind (next s) f

instance : Monad (Proc σ κ) where
  pure := .done
  bind := bind

def finished : Proc σ κ α → Bool
  | .done _ => true
  | _ => false

def see : Proc σ κ σ := .read .done

def lockRow (row : κ) : Proc σ κ Unit := .lock row (.done ())

def put (set : σ → σ) : Proc σ κ Unit := .write set (.done ())

def phase (p : Proc σ κ α) : Proc σ κ α := do
  let a ← p
  .commit (.done a)

def perform (update : σ → σ) : Proc σ κ σ := .act (fun _ => true) update .done

def updateEach (test : κ → σ → Bool) (set : κ → σ → σ) : List κ → Proc σ κ (List κ)
  | [] => pure []
  | row :: rows => do
    lockRow row
    let s ← see
    if test row s then
      put (set row)
      return row :: (← updateEach test set rows)
    else updateEach test set rows

/-- An UPDATE statement: the rows are found in the state the statement starts in, and each is tested again once it is locked. -/
def update (found : σ → List κ) (test : σ → κ → σ → Bool) (set : κ → σ → σ) : Proc σ κ (List κ) := do
  let s ← see
  updateEach (test s) set (found s)

end Proc

structure Thread (σ κ ι : Type) where
  name : ι
  locks : List κ := []
  pending : σ → σ := id
  program : Proc σ κ Unit

def Thread.held (t : Thread σ κ ι) : List κ := if t.program.finished then [] else t.locks

structure System (σ κ ι ε : Type) where
  -- a process knows its own number
  program : ι → ℕ → Proc σ κ Unit
  nature : ε → σ → σ

structure Config (σ κ ι : Type) where
  state : σ
  threads : List (Thread σ κ ι) := []

inductive Move (ι ε : Type) where
  | start (i : ι)
  | advance (n : ℕ)
  | stop (n : ℕ)
  | nature (e : ε)

namespace Config

def put (c : Config σ κ ι) (n : ℕ) (t : Thread σ κ ι) : Config σ κ ι := { c with threads := c.threads.set n t }

section Threads

variable {c : Config σ κ ι} {n m : ℕ} {t u : Thread σ κ ι}

lemma get_set {t' : Thread σ κ ι} (h : (c.threads.set n t')[m]? = some u) :
    (m = n ∧ u = t') ∨ (m ≠ n ∧ c.threads[m]? = some u) := by
  rw [List.getElem?_set] at h
  split_ifs at h with hnm hlt
  · exact Or.inl ⟨hnm.symm, (Option.some.inj h).symm⟩
  · exact Or.inr ⟨fun hmn => hnm hmn.symm, h⟩

lemma get_append {t' : Thread σ κ ι} (h : (c.threads ++ [t'])[m]? = some u) :
    c.threads[m]? = some u ∨ (m = c.threads.length ∧ u = t') := by
  rcases lt_or_ge m c.threads.length with hlt | hge
  · rw [List.getElem?_append_left hlt] at h
    exact Or.inl h
  · rw [List.getElem?_append_right hge, List.getElem?_singleton] at h
    split_ifs at h with hz
    exact Or.inr ⟨by omega, (Option.some.inj h).symm⟩

end Threads

def Exclusive (c : Config σ κ ι) : Prop :=
  ∀ (n m : ℕ) (t u : Thread σ κ ι) (row : κ), c.threads[n]? = some t → c.threads[m]? = some u → row ∈ t.held → row ∈ u.held → n = m

variable {t : Thread σ κ ι} {c : Config σ κ ι} {S : System σ κ ι ε}

lemma held_of_program (h : t.program.finished = false) : t.held = t.locks := by
  simp [Thread.held, h]

lemma mem_locks_of_held {row : κ} (h : row ∈ t.held) : row ∈ t.locks := by
  simp only [Thread.held] at h
  split_ifs at h with hf
  · cases h
  · exact h

lemma Exclusive.set {n : ℕ} {t' : Thread σ κ ι} (h : c.Exclusive) (hn : c.threads[n]? = some t)
    (hheld : ∀ row ∈ t'.held, row ∈ t.held ∨ ∀ m u, m ≠ n → c.threads[m]? = some u → row ∉ u.held) (s : σ) :
    Exclusive { state := s, threads := c.threads.set n t' } := by
  intro a b v u row ha hb hv hu
  rcases get_set ha with ⟨rfl, rfl⟩ | ⟨hane, ha'⟩
  · rcases get_set hb with ⟨rfl, rfl⟩ | ⟨hbne, hb'⟩
    · rfl
    · rcases hheld row hv with hold | hfree
      · exact h a b t u row hn hb' hold hu
      · exact absurd hu (hfree b u hbne hb')
  · rcases get_set hb with ⟨rfl, rfl⟩ | ⟨-, hb'⟩
    · rcases hheld row hu with hold | hfree
      · exact h a b v t row ha' hn hv hold
      · exact absurd hv (hfree a v hane ha')
    · exact h a b v u row ha' hb' hv hu

variable [DecidableEq κ]

def taken (c : Config σ κ ι) (n : ℕ) (row : κ) : Bool :=
  (List.range c.threads.length).any fun m => m != n && (c.threads[m]?).any fun t => t.held.contains row

def advance (c : Config σ κ ι) (n : ℕ) : Config σ κ ι :=
  match c.threads[n]? with
  | none => c
  | some t =>
    match t.program with
    | .done _ => c
    | .read next => c.put n { t with program := next (t.pending c.state) }
    | .lock row next => if c.taken n row then c else c.put n { t with locks := row :: t.locks, program := next }
    | .write set next => c.put n { t with pending := fun s => set (t.pending s), program := next }
    | .commit next => { state := t.pending c.state, threads := c.threads.set n { name := t.name, program := next } }
    | .act ready update next =>
      if ready c.state then { state := update c.state, threads := c.threads.set n { t with program := next c.state } } else c

def stop (c : Config σ κ ι) (n : ℕ) : Config σ κ ι :=
  match c.threads[n]? with
  | none => c
  | some t => c.put n { name := t.name, program := .done () }

def step (S : System σ κ ι ε) (c : Config σ κ ι) : Move ι ε → Config σ κ ι
  | .start i => { c with threads := c.threads ++ [{ name := i, program := S.program i c.threads.length }] }
  | .advance n => c.advance n
  | .stop n => c.stop n
  | .nature e => { c with state := S.nature e c.state }

def run (S : System σ κ ι ε) (c : Config σ κ ι) (moves : List (Move ι ε)) : Config σ κ ι := moves.foldl (step S) c

def MeetsAll (S : System σ κ ι ε) (meets : Config σ κ ι → Move ι ε → Prop) : Config σ κ ι → List (Move ι ε) → Prop
  | _, [] => True
  | c, m :: moves => meets c m ∧ MeetsAll S meets (step S c m) moves

instance MeetsAll.decidable {S : System σ κ ι ε} {meets : Config σ κ ι → Move ι ε → Prop} [∀ c m, Decidable (meets c m)] :
    ∀ (c : Config σ κ ι) (moves : List (Move ι ε)), Decidable (MeetsAll S meets c moves)
  | _, [] => .isTrue trivial
  | c, m :: moves => @instDecidableAnd _ _ _ (MeetsAll.decidable (step S c m) moves)

lemma MeetsAll.invariant {meets : Config σ κ ι → Move ι ε → Prop} {I : Config σ κ ι → Prop}
    (hstep : ∀ c m, I c → meets c m → I (step S c m)) {moves : List (Move ι ε)} (hc : I c)
    (h : MeetsAll S meets c moves) : I (run S c moves) := by
  induction moves generalizing c with
  | nil => exact hc
  | cons m moves ih => exact ih (hstep c m hc h.1) h.2

inductive Moved (S : System σ κ ι ε) (c : Config σ κ ι) : Move ι ε → Config σ κ ι → Prop
  | idle (m : Move ι ε) : Moved S c m c
  | started (i : ι) :
      Moved S c (.start i) { c with threads := c.threads ++ [{ name := i, program := S.program i c.threads.length }] }
  | natural (e : ε) : Moved S c (.nature e) { c with state := S.nature e c.state }
  | stopped (n : ℕ) (t : Thread σ κ ι) (hn : c.threads[n]? = some t) :
      Moved S c (.stop n) (c.put n { name := t.name, program := .done () })
  | read (n : ℕ) (t : Thread σ κ ι) (next : σ → Proc σ κ Unit) (hn : c.threads[n]? = some t) (hp : t.program = .read next) :
      Moved S c (.advance n) (c.put n { t with program := next (t.pending c.state) })
  | locked (n : ℕ) (t : Thread σ κ ι) (row : κ) (next : Proc σ κ Unit) (hn : c.threads[n]? = some t)
      (hp : t.program = .lock row next)
      (hfree : ∀ m u, m ≠ n → c.threads[m]? = some u → row ∉ u.held) :
      Moved S c (.advance n) (c.put n { t with locks := row :: t.locks, program := next })
  | wrote (n : ℕ) (t : Thread σ κ ι) (set : σ → σ) (next : Proc σ κ Unit) (hn : c.threads[n]? = some t)
      (hp : t.program = .write set next) :
      Moved S c (.advance n) (c.put n { t with pending := fun s => set (t.pending s), program := next })
  | committed (n : ℕ) (t : Thread σ κ ι) (next : Proc σ κ Unit) (hn : c.threads[n]? = some t) (hp : t.program = .commit next) :
      Moved S c (.advance n) { state := t.pending c.state, threads := c.threads.set n { name := t.name, program := next } }
  | acted (n : ℕ) (t : Thread σ κ ι) (ready : σ → Bool) (update : σ → σ) (next : σ → Proc σ κ Unit)
      (hn : c.threads[n]? = some t) (hp : t.program = .act ready update next) (hready : ready c.state = true) :
      Moved S c (.advance n) { state := update c.state, threads := c.threads.set n { t with program := next c.state } }

lemma not_taken {n : ℕ} {row : κ} (h : c.taken n row = false) {m : ℕ} {u : Thread σ κ ι} (hm : m ≠ n)
    (hu : c.threads[m]? = some u) : row ∉ u.held := by
  intro hrow
  have hlt : m < c.threads.length := (List.getElem?_eq_some_iff.mp hu).1
  simp only [taken, List.any_eq_false, List.mem_range] at h
  have hno := h m hlt
  rw [hu] at hno
  simp [hm, hrow] at hno

lemma step_moved (S : System σ κ ι ε) (c : Config σ κ ι) (m : Move ι ε) : Moved S c m (step S c m) := by
  cases m with
  | start i => exact .started i
  | nature e => exact .natural e
  | stop n =>
    simp only [step, stop]
    cases hn : c.threads[n]? with
    | none => exact .idle _
    | some t => exact .stopped n t hn
  | advance n =>
    simp only [step, advance]
    cases hn : c.threads[n]? with
    | none => exact .idle _
    | some t =>
      cases hp : t.program with
      | done a => simp only [hp]; exact .idle _
      | read next => simp only [hp]; exact .read n t next hn hp
      | lock row next =>
        simp only [hp]
        cases htaken : c.taken n row with
        | true => exact .idle _
        | false => exact .locked n t row next hn hp fun m u hm hu => not_taken htaken hm hu
      | write set next => simp only [hp]; exact .wrote n t set next hn hp
      | commit next => simp only [hp]; exact .committed n t next hn hp
      | act ready update next =>
        simp only [hp]
        split_ifs with hready
        · exact .acted n t ready update next hn hp hready
        · exact .idle _

lemma Exclusive.step (h : c.Exclusive) (m : Move ι ε) : (step S c m).Exclusive := by
  have hmoved := step_moved S c m
  generalize Config.step S c m = c' at hmoved ⊢
  cases hmoved with
  | idle | natural e => exact h
  | started i =>
    intro a b v u row ha hb hv hu
    rcases get_append ha with ha | ⟨-, rfl⟩
    · rcases get_append hb with hb | ⟨-, rfl⟩
      · exact h a b v u row ha hb hv hu
      · cases mem_locks_of_held hu
    · cases mem_locks_of_held hv
  | stopped n t hn => exact h.set hn (fun row hrow => absurd hrow List.not_mem_nil) c.state
  | read n t next hn hp =>
    refine h.set hn (fun row hrow => Or.inl ?_) c.state
    rw [held_of_program (by rw [hp]; rfl)]
    exact mem_locks_of_held (t := { t with program := next (t.pending c.state) }) hrow
  | locked n t row next hn hp hfree =>
    refine h.set hn (fun row' hrow => ?_) c.state
    rcases List.mem_cons.mp (mem_locks_of_held hrow) with rfl | hrow
    · exact Or.inr hfree
    · rw [held_of_program (by rw [hp]; rfl)]
      exact Or.inl hrow
  | wrote n t set next hn hp =>
    refine h.set hn (fun row hrow => Or.inl ?_) c.state
    rw [held_of_program (by rw [hp]; rfl)]
    exact mem_locks_of_held (t := { t with pending := fun s => set (t.pending s), program := next }) hrow
  | committed n t next hn hp =>
    exact h.set hn (fun row hrow => absurd (mem_locks_of_held hrow) List.not_mem_nil) _
  | acted n t ready update next hn hp hready =>
    refine h.set hn (fun row hrow => Or.inl ?_) _
    rw [held_of_program (by rw [hp]; rfl)]
    exact mem_locks_of_held (t := { t with program := next c.state }) hrow

end Config

end Breeze.Lib.Transactions
