import Breeze.Ipc.Framing
import Breeze.Lib.Mutex

/-! Every run of the connection: the goroutine that holds the write lock owns the stream, so what is on the
wire is a sequence of whole frames with growing numbers and, after a failed write, a cut frame that nothing
follows. -/

namespace Breeze.Ipc.Writer

open Breeze.Lib Decimal Utf8 Message Conn Framing Mutex

structure Data where
  sendSeq : UInt64
  writePoisoned : Bool
  wire : Bytes
  written : List Envelope
  numbered : ℕ

def holding : Phase → Bool
  | .idle | .started _ | .waiting _ => false
  | _ => true

def freshEnv : Phase → Option Envelope
  | .started env | .waiting env | .locked env => some env
  | _ => none

section Writer

variable (hmac : Bytes → Bytes → Bytes) (sessionKey : Option Bytes)

def Data.next (d : Data) : Data := { d with sendSeq := d.sendSeq + 1, numbered := d.numbered + 1 }

def Data.put (d : Data) (bytes : Bytes) : Data := { d with wire := d.wire ++ bytes }

def Data.record (d : Data) (env : Envelope) : Data := { d with written := d.written ++ [env] }

inductive Writing : Phase → Data → Phase → Data → Prop
  | refused (env : Envelope) (d : Data) (h : d.writePoisoned = true) : Writing (.locked env) d .idle d
  | tooLarge (env : Envelope) (d : Data) (h : d.writePoisoned = false) : Writing (.locked env) d .idle d.next
  | signed (env : Envelope) (d : Data) (h : d.writePoisoned = false)
      (hfits : (marshal (sign hmac sessionKey env (d.sendSeq + 1))).length ≤ maxMessageSize) :
      Writing (.locked env) d (.deadline (sign hmac sessionKey env (d.sendSeq + 1))) d.next
  | noDeadline (env : Envelope) (d : Data) : Writing (.deadline env) d .idle d
  | deadline (env : Envelope) (d : Data) : Writing (.deadline env) d (.header env) d
  | header (env : Envelope) (d : Data) :
      Writing (.header env) d (.body env) (d.put (putUint32 (marshal env).length))
  | headerCut (env : Envelope) (d : Data) (n : ℕ) (cause : String) :
      Writing (.header env) d (.failed cause) (d.put ((putUint32 (marshal env).length).take n))
  | body (env : Envelope) (d : Data) : Writing (.body env) d .idle ((d.put (marshal env)).record env)
  | bodyCut (env : Envelope) (d : Data) (n : ℕ) (cause : String) (hn : n < (marshal env).length) :
      Writing (.body env) d (.failed cause) (d.put ((marshal env).take n))
  | bodyLate (env : Envelope) (d : Data) (cause : String) :
      Writing (.body env) d (.failed cause) ((d.put (marshal env)).record env)
  | poisoned (cause : String) (d : Data) : Writing (.failed cause) d .idle { d with writePoisoned := true }

def protocol (P : Envelope → Prop) : Protocol Phase Data where
  holds := holding
  outside p p' := ∀ env, freshEnv p' = some env → freshEnv p = some env ∨ P env
  enter p p' := ∃ env, p = .waiting env ∧ p' = .locked env
  inside := Writing hmac sessionKey

end Writer

section Simulation

variable {ι : Type} [DecidableEq ι] (hmac : Bytes → Bytes → Bytes) (sessionKey : Option Bytes)

def config (s : State ι) : Config ι Phase Data where
  phase := s.phase
  mu := s.mu
  data := ⟨s.sendSeq, s.writePoisoned, s.wire, s.written, s.numbered⟩

def Brings (P : Envelope → Prop) : Action ι → Prop
  | .call _ req => ∀ env, req.envelope = .ok env → P env
  | .advance _ _ => True

variable {hmac sessionKey}

omit [DecidableEq ι] in
lemma poisonedErr_cases (s : State ι) :
    (∃ e, poisonedErr s = some e ∧ s.writePoisoned = true) ∨ poisonedErr s = none ∧ s.writePoisoned = false := by
  cases hp : s.writePoisoned with
  | false => simp [poisonedErr, hp]
  | true => cases hw : s.firstWriteErr <;> simp [poisonedErr, hp, hw]

section Moves

variable {P : Envelope → Prop} {s : State ι} {g : ι}

lemma move_finish (hg : holding (s.phase g) = false) (r : Option String) :
    Move (protocol hmac sessionKey P) (config s) (config (finish s g r)) :=
  Move.outside hg rfl (fun env h => by cases h)

variable {p : Phase} {d : Data} {env : Envelope}

lemma move_inside {q : Phase} (hs : s.phase g = p) (hp : holding p = true) (hq : holding q = true)
    (h : Writing hmac sessionKey p (config s).data q d) : Move (protocol hmac sessionKey P) (config s)
      { phase := Function.update s.phase g q, mu := s.mu, data := d } := by
  subst hs
  exact Move.inside (c := config s) hp hq h

lemma move_leave (hs : s.phase g = p) (hp : holding p = true) (h : Writing hmac sessionKey p (config s).data .idle d) :
    Move (protocol hmac sessionKey P) (config s) { phase := Function.update s.phase g .idle, mu := none, data := d } := by
  subst hs
  exact Move.leave (c := config s) hp rfl h

lemma move_call {req : Request} (hs : s.phase g = .idle) (hP : ∀ env, req.envelope = .ok env → P env) :
    Move (protocol hmac sessionKey P) (config s) (config (call s g req)) := by
  have hg : holding (s.phase g) = false := by rw [hs]; rfl
  cases hr : req.envelope with
  | error e =>
    simp only [call, hr]
    exact move_finish hg _
  | ok env =>
    simp only [call, hr]
    refine Move.outside hg rfl (fun env' h => ?_)
    cases h
    exact Or.inr (hP env hr)

lemma move_start (hs : s.phase g = .started env) : Move (protocol hmac sessionKey P) (config s) (config (start s g env)) := by
  have hg : holding (s.phase g) = false := by rw [hs]; rfl
  rcases poisonedErr_cases s with ⟨e, he, -⟩ | ⟨he, -⟩
  · simp only [start, he]
    exact move_finish hg _
  · simp only [start, he]
    split
    · exact move_finish hg _
    · refine Move.outside hg rfl (fun env' h => ?_)
      cases h
      exact Or.inl (congrArg freshEnv hs)

lemma move_acquire (hs : s.phase g = .waiting env) :
    Move (protocol hmac sessionKey P) (config s) (config (acquire s g env)) := by
  have hg : holding (s.phase g) = false := by rw [hs]; rfl
  cases hmu : s.mu with
  | some k =>
    simp only [acquire, hmu]
    exact Move.stay _
  | none =>
    simp only [acquire, hmu]
    exact Move.enter hg rfl hmu ⟨env, hs, rfl⟩

lemma move_number (hs : s.phase g = .locked env) :
    Move (protocol hmac sessionKey P) (config s) (config (number hmac sessionKey s g env)) := by
  rcases poisonedErr_cases s with ⟨e, he, hp⟩ | ⟨he, hp⟩
  · simp only [number, he]
    exact move_leave hs rfl (.refused env _ hp)
  · simp only [number, he]
    split
    · exact move_leave hs rfl (.tooLarge env _ hp)
    · exact move_inside hs rfl rfl (.signed env _ hp (not_lt.mp (by assumption)))

lemma move_setDeadline (hs : s.phase g = .deadline env) (answer : Answer) :
    Move (protocol hmac sessionKey P) (config s) (config (setDeadline s g env answer)) := by
  cases answer with
  | ok | writeError n cause => exact move_inside hs rfl rfl (.deadline env _)
  | deadlineError cause => exact move_leave hs rfl (.noDeadline env _)

lemma move_writeHeader (hs : s.phase g = .header env) (answer : Answer) :
    Move (protocol hmac sessionKey P) (config s) (config (writeHeader s g env answer)) := by
  cases answer with
  | ok | deadlineError cause => exact move_inside hs rfl rfl (.header env _)
  | writeError n cause => exact move_inside hs rfl rfl (.headerCut env _ n _)

lemma move_writeBody (hs : s.phase g = .body env) (answer : Answer) :
    Move (protocol hmac sessionKey P) (config s) (config (writeBody s g env answer)) := by
  cases answer with
  | ok | deadlineError cause => exact move_leave hs rfl (.body env _)
  | writeError n cause =>
    simp only [writeBody]
    split
    · rw [List.take_of_length_le (by assumption)]
      exact move_inside hs rfl rfl (.bodyLate env _ _)
    · exact move_inside hs rfl rfl (.bodyCut env _ n _ (not_le.mp (by assumption)))

end Moves

theorem step_move {P : Envelope → Prop} {a : Action ι} (ha : Brings P a) (s : State ι) :
    Move (protocol hmac sessionKey P) (config s) (config (step hmac sessionKey s a)) := by
  cases a with
  | call g req =>
    cases hs : s.phase g with
    | idle => simpa only [step, hs] using move_call hs ha
    | _ => simpa only [step, hs] using Move.stay _
  | advance g answer =>
    cases hs : s.phase g with
    | idle => simpa only [step, hs] using Move.stay _
    | started env => simpa only [step, hs] using move_start hs
    | waiting env => simpa only [step, hs] using move_acquire hs
    | locked env => simpa only [step, hs] using move_number hs
    | deadline env => simpa only [step, hs] using move_setDeadline hs answer
    | header env => simpa only [step, hs] using move_writeHeader hs answer
    | body env => simpa only [step, hs] using move_writeBody hs answer
    | failed cause =>
      simp only [step, hs]
      exact move_leave hs rfl (.poisoned cause _)

end Simulation

section Sequential

variable (hmac : Bytes → Bytes → Bytes) (sessionKey : Option Bytes) (P : Envelope → Prop)

structure Sent (env : Envelope) : Prop where
  origin : ∃ e₀ n, P e₀ ∧ env = sign hmac sessionKey e₀ n
  fits : (marshal env).length ≤ maxMessageSize

structure Current (d : Data) (env : Envelope) : Prop where
  sent : Sent hmac sessionKey P env
  clean : d.writePoisoned = false
  newest : env.seq = d.sendSeq
  above : ∀ e ∈ d.written, e.seq < env.seq
  positive : 0 < env.seq

def numberedEnv : Phase → Option Envelope
  | .deadline env | .header env | .body env => some env
  | _ => none

def Tail (d : Data) : Option Phase → Bytes → Prop
  | some (.deadline _), tail => tail = []
  | some (.header _), tail => tail = []
  | some (.body env), tail => tail = putUint32 (marshal env).length
  | some (.failed _), tail => Torn tail
  | _, tail => Torn tail ∧ (d.writePoisoned = false → tail = [])

structure Good (p : Option Phase) (d : Data) : Prop where
  seq : d.sendSeq.toNat = d.numbered
  sent : ∀ e ∈ d.written, Sent hmac sessionKey P e ∧ e.seq ≤ d.sendSeq
  sorted : (0 :: d.written.map (·.seq)).Pairwise (· < ·)
  current : ∀ env, p.bind numberedEnv = some env → Current hmac sessionKey P d env
  tail : ∃ tail, d.wire = d.written.flatMap (fun e => frame (marshal e)) ++ tail ∧ Tail d p tail

variable {hmac sessionKey P}

section Steps

variable {d : Data} {env : Envelope} {p : Option Phase}

lemma next_seq (hg : Good hmac sessionKey P p d) (hlt : d.next.numbered < 2 ^ 64) :
    d.next.sendSeq.toNat = d.next.numbered ∧ d.sendSeq < d.next.sendSeq := by
  have hs := hg.seq
  simp only [Data.next] at hlt ⊢
  have hn : (d.sendSeq + 1).toNat = d.numbered + 1 := by
    rw [UInt64.toNat_add, hs, UInt64.toNat_one]
    omega
  exact ⟨hn, UInt64.lt_iff_toNat_lt.mpr (by omega)⟩

lemma good_tooLarge (hg : Good hmac sessionKey P (some (.locked env)) d) (hlt : d.next.numbered < 2 ^ 64) :
    Good hmac sessionKey P none d.next := by
  obtain ⟨hseq, hstep⟩ := next_seq hg hlt
  refine ⟨hseq, fun e he => ?_, hg.sorted, fun env h => (by cases h), hg.tail⟩
  obtain ⟨hs, hle⟩ := hg.sent e he
  exact ⟨hs, UInt64.le_of_lt (UInt64.lt_of_le_of_lt hle hstep)⟩

lemma good_signed (hg : Good hmac sessionKey P (some (.locked env)) d) (hlt : d.next.numbered < 2 ^ 64)
    (hP : P env) (hp : d.writePoisoned = false)
    (hfits : (marshal (sign hmac sessionKey env (d.sendSeq + 1))).length ≤ maxMessageSize) :
    Good hmac sessionKey P (some (.deadline (sign hmac sessionKey env (d.sendSeq + 1)))) d.next := by
  obtain ⟨hseq, hstep⟩ := next_seq hg hlt
  obtain ⟨tail, hwire, -, hclean⟩ := hg.tail
  refine ⟨hseq, fun e he => ?_, hg.sorted, fun env' h => ?_, tail, hwire, hclean hp⟩
  · obtain ⟨hs, hle⟩ := hg.sent e he
    exact ⟨hs, UInt64.le_of_lt (UInt64.lt_of_le_of_lt hle hstep)⟩
  · cases h
    refine ⟨⟨⟨env, _, hP, rfl⟩, hfits⟩, hp, rfl, fun e he => ?_, ?_⟩
    · exact UInt64.lt_of_le_of_lt (hg.sent e he).2 hstep
    · exact UInt64.lt_of_le_of_lt UInt64.zero_le hstep

lemma good_same {q : Option Phase} (hg : Good hmac sessionKey P p d) (hq : q.bind numberedEnv = none)
    (ht : ∀ tail, Tail d p tail → Tail d q tail) : Good hmac sessionKey P q d := by
  obtain ⟨tail, hwire, htail⟩ := hg.tail
  refine ⟨hg.seq, hg.sent, hg.sorted, fun env h => ?_, tail, hwire, ht tail htail⟩
  rw [hq] at h
  cases h

lemma good_put {q : Phase} {bytes : Bytes} (hg : Good hmac sessionKey P p d)
    (hc : ∀ env, numberedEnv q = some env → Current hmac sessionKey P d env)
    (ht : ∀ tail, Tail d p tail → Tail d (some q) (tail ++ bytes)) :
    Good hmac sessionKey P (some q) (d.put bytes) := by
  obtain ⟨tail, hwire, htail⟩ := hg.tail
  refine ⟨hg.seq, hg.sent, hg.sorted, fun env h => ?_, tail ++ bytes, ?_, ?_⟩
  · obtain ⟨h₁, h₂, h₃, h₄, h₅⟩ := hc env h
    exact ⟨h₁, h₂, h₃, h₄, h₅⟩
  · simp [Data.put, hwire]
  · have h := ht tail htail
    revert h
    cases q <;> exact id

lemma good_record {q : Option Phase} (hg : Good hmac sessionKey P (some (.body env)) d)
    (hq : q.bind numberedEnv = none) (ht : Tail d q []) :
    Good hmac sessionKey P q ((d.put (marshal env)).record env) := by
  have hcur := hg.current env rfl
  obtain ⟨tail, hwire, htail⟩ := hg.tail
  have htail' : tail = putUint32 (marshal env).length := htail
  refine ⟨hg.seq, fun e he => ?_, ?_, fun env' h => ?_, [], ?_, ?_⟩
  · rcases List.mem_append.mp he with he | he
    · exact hg.sent e he
    · cases List.mem_singleton.mp he
      exact ⟨hcur.sent, UInt64.le_of_eq hcur.newest⟩
  · have hall : ∀ n ∈ 0 :: d.written.map (·.seq), n < env.seq := by
      intro n hn
      rcases List.mem_cons.mp hn with rfl | hn
      · exact hcur.positive
      · obtain ⟨e, he, rfl⟩ := List.mem_map.mp hn
        exact hcur.above e he
    simp only [Data.record, Data.put, List.map_append, List.map_cons, List.map_nil]
    rw [← List.cons_append, List.pairwise_append]
    refine ⟨hg.sorted, List.pairwise_singleton _ _, fun a ha b hb => ?_⟩
    cases List.mem_singleton.mp hb
    exact hall a ha
  · rw [hq] at h
    cases h
  · simp [Data.record, Data.put, hwire, htail', frame]
  · revert ht
    cases q with
    | none => exact id
    | some q => cases q <;> exact id

end Steps

theorem writing_good : Preserved (protocol hmac sessionKey P) (fun p d => d.numbered < 2 ^ 64 → Good hmac sessionKey P p d)
    (fun p => ∀ env, freshEnv p = some env → P env) where
  outside hJ h env he := (h env he).elim (hJ env) id
  enter hJ h hI := by
    obtain ⟨env, rfl, rfl⟩ := h
    exact ⟨hJ, fun hlt => good_same (hI hlt) rfl (fun _ h => h)⟩
  inside := by
    intro p p' d d' hJ hI h hp'
    cases h with
    | refused _ _ _ | tooLarge _ _ _ | noDeadline _ _ | body _ _ | poisoned _ _ => cases hp'
    | signed env d hclean hfits =>
      have hP := hJ env rfl
      exact ⟨nofun, fun hlt => good_signed (hI (Nat.lt_of_succ_lt hlt)) hlt hP hclean hfits⟩
    | deadline env d =>
      refine ⟨nofun, fun hlt => ?_⟩
      have hg := hI hlt
      exact ⟨hg.seq, hg.sent, hg.sorted, hg.current, hg.tail⟩
    | header env d =>
      refine ⟨nofun, fun hlt => ?_⟩
      have hg := hI hlt
      refine good_put hg hg.current fun tail ht => ?_
      obtain rfl : tail = [] := ht
      exact List.nil_append _
    | headerCut env d n cause =>
      refine ⟨nofun, fun hlt => ?_⟩
      have hg := hI hlt
      have hfits := (hg.current env rfl).sent.fits
      refine good_put hg nofun fun tail ht => ?_
      obtain rfl : tail = [] := ht
      exact torn_header hfits (marshal_ne_nil env) n
    | bodyCut env d n cause hn =>
      refine ⟨nofun, fun hlt => ?_⟩
      have hg := hI hlt
      have hfits := (hg.current env rfl).sent.fits
      refine good_put hg nofun fun tail ht => ?_
      obtain rfl : tail = putUint32 (marshal env).length := ht
      exact torn_body hfits hn
    | bodyLate env d cause =>
      exact ⟨nofun, fun hlt => good_record (hI hlt) rfl torn_nil⟩
  leave := by
    intro p p' d d' hJ hI h hp'
    cases h with
    | refused env d hp => exact ⟨nofun, fun hlt => good_same (hI hlt) rfl (fun _ h => h)⟩
    | tooLarge env d hp => exact ⟨nofun, fun hlt => good_tooLarge (hI (Nat.lt_of_succ_lt hlt)) hlt⟩
    | signed _ _ _ _ | deadline _ _ | header _ _ | headerCut _ _ _ _ | bodyCut _ _ _ _ _ | bodyLate _ _ _ => cases hp'
    | noDeadline env d =>
      refine ⟨nofun, fun hlt => good_same (hI hlt) rfl fun tail ht => ?_⟩
      obtain rfl : tail = [] := ht
      exact ⟨torn_nil, fun _ => rfl⟩
    | body env d => exact ⟨nofun, fun hlt => good_record (hI hlt) rfl ⟨torn_nil, fun _ => rfl⟩⟩
    | poisoned cause d =>
      refine ⟨nofun, fun hlt => ?_⟩
      have hg := hI hlt
      obtain ⟨tail, hwire, ht⟩ := hg.tail
      exact ⟨hg.seq, hg.sent, hg.sorted, nofun, tail, hwire, ht, nofun⟩

end Sequential

end Breeze.Ipc.Writer
