import Breeze.Ipc.Writer

/-! What the peer of a connection receives, over every run of its senders. -/

namespace Breeze.Ipc.StreamIntegrity

open Breeze.Lib Decimal Utf8 GoJson Message Conn Framing Mutex Writer

section Requests

def ValidRequest : Request → Prop
  | .sendTyped id msgType _ => ValidUtf8 id ∧ ValidUtf8 msgType
  | .sendError id msgType errMsg => ValidUtf8 id ∧ ValidUtf8 msgType ∧ ValidUtf8 errMsg

structure Unsent (env : Envelope) : Prop where
  id : ValidUtf8 env.id
  type : ValidUtf8 env.type
  error : ValidUtf8 env.error
  payload : env.payload = none ∨ ∃ v, env.payload = some (marshalValue v)

lemma ValidRequest.unsent {req : Request} (h : ValidRequest req) {env : Envelope} (he : req.envelope = .ok env) :
    Unsent env := by
  cases req with
  | sendTyped id msgType payload =>
    cases payload with
    | error cause => cases he
    | ok v =>
      cases he
      exact ⟨h.1, h.2, rfl, Or.inr ⟨v, rfl⟩⟩
  | sendError id msgType errMsg =>
    cases he
    exact ⟨h.1, h.2.1, h.2.2, Or.inl rfl⟩

lemma validUtf8_hexEncode (s : Bytes) : ValidUtf8 (hexEncode s) := by
  have h : hexEncode s = Utf8.encode (s.flatMap fun b => [(b.toNat / 16).digitChar, (b.toNat % 16).digitChar]) := by
    simp only [hexEncode, Utf8.encode, List.flatMap_assoc]
    rfl
  rw [h]
  exact validUtf8_encode _

variable {hmac : Bytes → Bytes → Bytes} {sessionKey : Option Bytes}

lemma sendable_of_sent {P : Envelope → Prop} (hP : ∀ env, P env → Unsent env) {env : Envelope}
    (h : Sent hmac sessionKey P env) : Sendable hmac sessionKey env := by
  obtain ⟨⟨e₀, n, he, rfl⟩, hfits⟩ := h
  have hu := hP e₀ he
  exact ⟨⟨hu.id, hu.type, hu.error, validUtf8_hexEncode _, hu.payload⟩, rfl, hfits⟩

end Requests

section Runs

variable {ι : Type} [DecidableEq ι] {hmac : Bytes → Bytes → Bytes} {sessionKey : Option Bytes}

variable {P : Envelope → Prop} {I : Option Phase → Data → Prop} {J : Phase → Prop} {acts : List (Action ι)}

lemma runFrom_invariant (hIJ : Preserved (protocol hmac sessionKey P) I J) {s : State ι}
    (hs : Invariant (protocol hmac sessionKey P) I J (config s)) (ha : ∀ a ∈ acts, Brings P a) :
    Invariant (protocol hmac sessionKey P) I J (config (runFrom hmac sessionKey s acts)) := by
  induction acts generalizing s with
  | nil => exact hs
  | cons a acts ih =>
    have hstep := Move.invariant (protocol hmac sessionKey P) hIJ hs (step_move (ha a (by simp)) s)
    exact ih hstep (fun b hb => ha b (by simp [hb]))

omit [DecidableEq ι] in
lemma initial_invariant (hI : I none (config ({} : State ι)).data) (hJ : J .idle) :
    Invariant (protocol hmac sessionKey P) I J (config ({} : State ι)) :=
  ⟨fun g => by simp [config, protocol, holding], hI, fun _ => hJ⟩

lemma run_good (ha : ∀ a ∈ acts, Brings P a) (hlt : (run hmac sessionKey acts).numbered < 2 ^ 64) :
    ∃ p, Good hmac sessionKey P p (config (run hmac sessionKey acts)).data := by
  exact ⟨_, (runFrom_invariant writing_good (initial_invariant (fun _ => ⟨rfl, fun e he => (by cases he), List.pairwise_singleton _ _, nofun, [], rfl, torn_nil, fun _ => rfl⟩) nofun) ha).shared hlt⟩

lemma torn_tail {d : Data} {p : Option Phase} (hg : Good hmac sessionKey P p d) :
    ∃ tail, d.wire = d.written.flatMap (fun e => frame (marshal e)) ++ tail ∧ Torn tail := by
  obtain ⟨tail, hwire, ht⟩ := hg.tail
  refine ⟨tail, hwire, ?_⟩
  rcases p with _ | (_ | _ | _ | _ | env | env | env | cause)
  · exact ht.1
  · exact ht.1
  · exact ht.1
  · exact ht.1
  · exact ht.1
  · obtain rfl : tail = [] := ht
    exact torn_nil
  · obtain rfl : tail = [] := ht
    exact torn_nil
  · -- the header is there, the data is still to come
    obtain rfl : tail = putUint32 (marshal env).length := ht
    have h := torn_header (hg.current env rfl).sent.fits (marshal_ne_nil env) 4
    rwa [List.take_of_length_le (by simp)] at h
  · exact ht

variable (hmac sessionKey) in
theorem accepted_written (hP : ∀ env, P env → Unsent env)
    (ha : ∀ a ∈ acts, Brings P a) (hlt : (run hmac sessionKey acts).numbered < 2 ^ 64) :
    accepted hmac sessionKey (run hmac sessionKey acts).wire = (run hmac sessionKey acts).written.map delivered := by
  obtain ⟨p, hg⟩ := run_good ha hlt
  obtain ⟨tail, hwire, ht⟩ := torn_tail hg
  have hw : (run hmac sessionKey acts).wire = _ := hwire
  rw [hw]
  exact accepted_frames (fun e he => sendable_of_sent hP (hg.sent e he).1) ht hg.sorted

end Runs

section Failure

variable {ι : Type} [DecidableEq ι] {hmac : Bytes → Bytes → Bytes} {sessionKey : Option Bytes}

def Broken (c : Config ι Phase Data) : Prop := c.data.writePoisoned = true ∨ ∃ g cause, c.phase g = .failed cause

def Clean (p : Option Phase) (d : Data) : Prop := ∀ env, p.bind numberedEnv = some env → d.writePoisoned = false

variable {P : Envelope → Prop} {c : Config ι Phase Data} {g : ι}

lemma clean_preserved : Preserved (protocol hmac sessionKey P) Clean (fun _ => True) where
  outside _ _ := trivial
  enter := by
    rintro p p' d - ⟨env, rfl, rfl⟩ -
    exact ⟨trivial, nofun⟩
  inside := by
    intro p p' d d' _ hI h hp'
    refine ⟨trivial, ?_⟩
    cases h with
    | signed env d hclean hfits => exact fun _ _ => hclean
    | deadline env d | header env d => exact hI
    | _ => exact nofun
  leave _ _ h _ := ⟨trivial, nofun⟩

omit [DecidableEq ι] in
lemma broken_inside {p' : Phase} {d' : Data}
    (hc : Invariant (protocol hmac sessionKey P) Clean (fun _ => True) c) (hb : Broken c)
    (hg : holding (c.phase g) = true) (h : Writing hmac sessionKey (c.phase g) c.data p' d') :
    d'.wire = c.data.wire ∧ d'.writePoisoned = true := by
  have hfailed : c.data.writePoisoned = false → ∃ cause, c.phase g = .failed cause := by
    intro hclean
    obtain hp | ⟨k, cause, hk⟩ := hb
    · rw [hclean] at hp
      cases hp
    · -- the failed writer holds the lock, so it is the one that moves
      have hkmu := (hc.exclusive k).mp (by rw [hk]; rfl)
      rw [(hc.exclusive g).mp hg] at hkmu
      cases hkmu
      exact ⟨cause, hk⟩
  have hclean : ∀ env, numberedEnv (c.phase g) = some env → c.data.writePoisoned = false := by
    intro env henv
    have hs := hc.shared
    rw [hc.exclusive.active_eq hg] at hs
    exact hs env henv
  generalize hp : c.phase g = p at *
  generalize hd : c.data = d at *
  cases h with
  | refused env d h => exact ⟨rfl, h⟩
  | poisoned cause d => exact ⟨rfl, rfl⟩
  | tooLarge env d h | signed env d h hfits =>
    obtain ⟨cause, hcause⟩ := hfailed h
    cases hcause
  | _ =>
    obtain ⟨cause, hcause⟩ := hfailed (hclean _ rfl)
    cases hcause

lemma failed_update {phase : ι → Phase} {p : Phase} (hg : holding (phase g) = false)
    (h : ∃ k cause, phase k = .failed cause) : ∃ k cause, Function.update phase g p k = .failed cause := by
  obtain ⟨k, cause, hk⟩ := h
  have hkg : k ≠ g := by
    rintro rfl
    rw [hk] at hg
    cases hg
  exact ⟨k, cause, by rw [Function.update_of_ne hkg, hk]⟩

lemma move_broken {c' : Config ι Phase Data}
    (hc : Invariant (protocol hmac sessionKey P) Clean (fun _ => True) c) (hb : Broken c)
    (hm : Move (protocol hmac sessionKey P) c c') : c'.data.wire = c.data.wire ∧ Broken c' := by
  cases hm with
  | stay => exact ⟨rfl, hb⟩
  | outside hg hp h | enter hg hp hmu h => exact ⟨rfl, hb.imp id (failed_update hg)⟩
  | inside hg hp h | leave hg hp h =>
    obtain ⟨hw, hp⟩ := broken_inside hc hb hg h
    exact ⟨hw, Or.inl hp⟩

theorem wire_fixed_after_failure {s : State ι}
    (hs : Invariant (protocol hmac sessionKey fun _ => True) Clean (fun _ => True) (config s)) (hb : Broken (config s))
    (later : List (Action ι)) : (runFrom hmac sessionKey s later).wire = s.wire := by
  induction later generalizing s with
  | nil => rfl
  | cons a later ih =>
    have hm : Move (protocol hmac sessionKey fun _ => True) (config s) (config (step hmac sessionKey s a)) :=
      step_move (by cases a <;> simp [Brings]) s
    obtain ⟨hw, hb'⟩ := move_broken hs hb hm
    exact (ih (hm.invariant _ clean_preserved hs) hb').trans hw

end Failure

section Later

variable {ι : Type} [DecidableEq ι] {hmac : Bytes → Bytes → Bytes} {sessionKey : Option Bytes}

def WriteFails : Action ι → Prop
  | .advance _ (.writeError _ _) => True
  | _ => False

def Unfailed (p : Phase) : Prop := ∀ cause, p ≠ .failed cause

structure Intact (s : State ι) : Prop where
  clean : s.writePoisoned = false
  unfailed : ∀ g, Unfailed (s.phase g)

variable {s : State ι} {g : ι}

lemma Intact.update {s' : State ι} (h : Intact s) {p : Phase} (hw : s'.writePoisoned = s.writePoisoned)
    (hs' : s'.phase = Function.update s.phase g p) (hp : Unfailed p) : Intact s' := by
  refine ⟨hw.trans h.clean, ?_⟩
  rw [hs']
  exact forall_update h.unfailed hp

omit [DecidableEq ι] in
lemma Intact.poisonedErr (h : Intact s) : poisonedErr s = none := by
  simp [Conn.poisonedErr, h.clean]

lemma Intact.call (h : Intact s) (g : ι) (req : Request) : Intact (call s g req) := by
  simp only [Conn.call]
  split
  · exact h.update rfl rfl fun _ hf => by cases hf
  · exact h.update rfl rfl fun _ hf => by cases hf

section

variable (h : Intact s) (g : ι) (env : Envelope)

include h

lemma Intact.start : Intact (start s g env) := by
  simp only [Conn.start, h.poisonedErr]
  split
  · exact h.update rfl rfl fun _ hf => by cases hf
  · exact h.update rfl rfl fun _ hf => by cases hf

lemma Intact.acquire : Intact (acquire s g env) := by
  simp only [Conn.acquire]
  split
  · exact h
  · exact h.update rfl rfl fun _ hf => by cases hf

lemma Intact.number : Intact (number hmac sessionKey s g env) := by
  simp only [Conn.number, h.poisonedErr]
  split
  · exact h.update rfl rfl fun _ hf => by cases hf
  · exact h.update rfl rfl fun _ hf => by cases hf

end

lemma Intact.step (h : Intact s) {a : Action ι} (ha : ¬ WriteFails a) : Intact (step hmac sessionKey s a) := by
  cases a with
  | call g req =>
    cases hs : s.phase g with
    | idle => simpa only [Conn.step, hs] using h.call g req
    | _ => simpa only [Conn.step, hs] using h
  | advance g answer =>
    cases hs : s.phase g with
    | idle => simpa only [Conn.step, hs] using h
    | started env => simpa only [Conn.step, hs] using h.start g env
    | waiting env => simpa only [Conn.step, hs] using h.acquire g env
    | locked env => simpa only [Conn.step, hs] using h.number g env
    | failed cause => exact absurd hs (h.unfailed g cause)
    | _ =>
      simp only [Conn.step, hs]
      cases answer with
      | ok | deadlineError cause => exact h.update rfl rfl fun _ hf => by cases hf
      | writeError n cause => exact absurd trivial ha

lemma run_intact (h : Intact s) {acts : List (Action ι)} (ha : ∀ a ∈ acts, ¬ WriteFails a) :
    Intact (runFrom hmac sessionKey s acts) := by
  induction acts generalizing s with
  | nil => exact h
  | cons a acts ih => exact ih (h.step (ha a (by simp))) (fun b hb => ha b (by simp [hb]))

def sendNow (g : ι) (req : Request) : List (Action ι) := .call g req :: List.replicate 6 (.advance g .ok)

lemma sendNow_run (h : Intact s) (hidle : s.phase g = .idle) (hmu : s.mu = none) {req : Request}
    {env : Envelope} (hreq : req.envelope = .ok env) (hpayload : (env.payload.getD []).length ≤ maxMessageSize)
    (hfits : (marshal (sign hmac sessionKey env (s.sendSeq + 1))).length ≤ maxMessageSize) :
    (runFrom hmac sessionKey s (sendNow g req)).written = s.written ++ [sign hmac sessionKey env (s.sendSeq + 1)] ∧
      (runFrom hmac sessionKey s (sendNow g req)).numbered = s.numbered + 1 := by
  simp [runFrom, sendNow, List.replicate, Conn.step, hidle, Conn.call, hreq, Conn.moveTo, Conn.start, Conn.poisonedErr,
    h.clean, not_lt.mpr hpayload, Conn.acquire, hmu, Conn.number, not_lt.mpr hfits, setDeadline, writeHeader, writeBody,
    Conn.put, record, unlock, Conn.finish]

end Later

section Integrity

variable {ι : Type} [DecidableEq ι] (hmac : Bytes → Bytes → Bytes) (sessionKey : Option Bytes)

def CalledIn (acts : List (Action ι)) (env : Envelope) : Prop :=
  ∃ g req, Action.call g req ∈ acts ∧ ValidRequest req ∧ req.envelope = .ok env

variable {acts : List (Action ι)}

omit [DecidableEq ι] in
lemma CalledIn.unsent {env : Envelope} (h : CalledIn acts env) : Unsent env := by
  obtain ⟨g, req, -, hv, he⟩ := h
  exact hv.unsent he

omit [DecidableEq ι] in
lemma brings_calledIn (hvalid : ∀ g req, Action.call g req ∈ acts → ValidRequest req) :
    ∀ a ∈ acts, Brings (CalledIn acts) a := by
  intro a ha
  cases a with
  | call g req => exact fun env he => ⟨g, req, ha, hvalid g req ha, he⟩
  | advance g answer => trivial

lemma sendNow_accepted (hvalid : ∀ g req, Action.call g req ∈ acts → ValidRequest req)
    (hok : ∀ a ∈ acts, ¬ WriteFails a) {g : ι} {req : Request} {env : Envelope}
    (hidle : (run hmac sessionKey acts).phase g = .idle) (hmu : (run hmac sessionKey acts).mu = none)
    (hreq : req.envelope = .ok env) (hv : ValidRequest req) (hpayload : (env.payload.getD []).length ≤ maxMessageSize)
    (hfits : (marshal (sign hmac sessionKey env ((run hmac sessionKey acts).sendSeq + 1))).length ≤ maxMessageSize)
    (hfew : (run hmac sessionKey acts).numbered + 1 < 2 ^ 64) :
    accepted hmac sessionKey (runFrom hmac sessionKey (run hmac sessionKey acts) (sendNow g req)).wire =
      accepted hmac sessionKey (run hmac sessionKey acts).wire ++
        [delivered (sign hmac sessionKey env ((run hmac sessionKey acts).sendSeq + 1))] := by
  have hintact : Intact (run hmac sessionKey acts) := run_intact ⟨rfl, fun _ _ h => (by cases h)⟩ hok
  obtain ⟨hwritten, hnumbered⟩ := sendNow_run hintact hidle hmu hreq hpayload hfits
  -- the longer run is itself a run
  have hvalid' : ∀ k r, Action.call k r ∈ acts ++ sendNow g req → ValidRequest r := by
    intro k r hr
    rcases List.mem_append.mp hr with hr | hr
    · exact hvalid k r hr
    · simp only [sendNow, List.mem_cons, Action.call.injEq, List.mem_replicate, reduceCtorEq, and_false, or_false] at hr
      exact hr.2 ▸ hv
  have hrun : run hmac sessionKey (acts ++ sendNow g req) =
      runFrom hmac sessionKey (run hmac sessionKey acts) (sendNow g req) := List.foldl_append
  have hlong := accepted_written hmac sessionKey (fun env h => CalledIn.unsent h)
    (brings_calledIn hvalid') (by rw [hrun, hnumbered]; exact hfew)
  rw [hrun, hwritten, List.map_append] at hlong
  rw [hlong, accepted_written hmac sessionKey (fun env h => CalledIn.unsent h) (brings_calledIn hvalid) (by omega)]
  rfl

theorem stream_integrity {acts : List (Action ι)} (hvalid : ∀ g req, Action.call g req ∈ acts → ValidRequest req)
    (hfew : (run hmac sessionKey acts).numbered < 2 ^ 64) :
    (∃ tail, (run hmac sessionKey acts).wire =
        (run hmac sessionKey acts).written.flatMap (fun e => frame (marshal e)) ++ tail ∧ Torn tail) ∧
    (∀ e ∈ (run hmac sessionKey acts).written, ∃ g req env n, Action.call g req ∈ acts ∧ req.envelope = .ok env ∧
        e = sign hmac sessionKey env n) ∧
    accepted hmac sessionKey (run hmac sessionKey acts).wire = (run hmac sessionKey acts).written.map delivered ∧
    ((accepted hmac sessionKey (run hmac sessionKey acts).wire).map (·.seq)).Pairwise (· < ·) ∧
    (Broken (config (run hmac sessionKey acts)) → ∀ later,
        (runFrom hmac sessionKey (run hmac sessionKey acts) later).wire = (run hmac sessionKey acts).wire) ∧
    ((∀ a ∈ acts, ¬ WriteFails a) → ∀ g req env, (run hmac sessionKey acts).phase g = .idle →
        (run hmac sessionKey acts).mu = none → req.envelope = .ok env → ValidRequest req →
        (env.payload.getD []).length ≤ maxMessageSize →
        (marshal (sign hmac sessionKey env ((run hmac sessionKey acts).sendSeq + 1))).length ≤ maxMessageSize →
        (run hmac sessionKey acts).numbered + 1 < 2 ^ 64 →
        accepted hmac sessionKey (runFrom hmac sessionKey (run hmac sessionKey acts) (sendNow g req)).wire =
          accepted hmac sessionKey (run hmac sessionKey acts).wire ++
            [delivered (sign hmac sessionKey env ((run hmac sessionKey acts).sendSeq + 1))]) := by
  have hbrings := brings_calledIn hvalid
  obtain ⟨p, hg⟩ := run_good hbrings hfew
  have haccepted := accepted_written hmac sessionKey (fun env h => CalledIn.unsent h) hbrings hfew
  refine ⟨torn_tail hg, fun e he => ?_, haccepted, ?_, fun hb later => ?_, ?_⟩
  · obtain ⟨env, n, ⟨g, req, hmem, -, hreq⟩, rfl⟩ := (hg.sent e he).1.origin
    exact ⟨g, req, env, n, hmem, hreq, rfl⟩
  · rw [haccepted, List.map_map]
    exact (List.pairwise_cons.mp hg.sorted).2
  · exact wire_fixed_after_failure (runFrom_invariant clean_preserved (initial_invariant nofun trivial)
      (fun a _ => by cases a <;> simp [Brings])) hb later
  · intro hok g req env hidle hmu hreq hv hpayload hfits hlt
    exact sendNow_accepted hmac sessionKey hvalid hok hidle hmu hreq hv hpayload hfits hlt

def refuse : Request := .sendError (ascii "7") (ascii "command_result") (ascii "denied")

theorem stream_integrity_refusal :
    (run (fun _ m => m) none (sendNow () refuse)).numbered < 2 ^ 64 ∧
      accepted (fun _ m => m) none (run (fun _ m => m) none (sendNow () refuse)).wire =
        (run (fun _ m => m) none (sendNow () refuse)).written.map delivered := by
  have hvalid : ∀ g req, Action.call g req ∈ sendNow () refuse → ValidRequest req := by
    intro g req h
    simp only [sendNow, List.mem_cons, Action.call.injEq, List.mem_replicate, reduceCtorEq, and_false, or_false] at h
    rw [h.2]
    exact ⟨by decide, by decide, by decide⟩
  have hfew : (run (fun _ m => m) none (sendNow () refuse)).numbered < 2 ^ 64 := by decide +kernel
  exact ⟨hfew, (stream_integrity (fun _ m => m) none hvalid hfew).2.2.1⟩

/-- An error text that is not UTF-8 arrives changed, and an absent payload arrives as null. -/
theorem error_text_is_replaced :
    (accepted (fun _ m => m) none
        (run (fun _ m => m) none (sendNow () (.sendError (ascii "7") (ascii "command_result") [0xFF]))).wire).map
      (fun e => (e.error, e.payload)) = [(ascii "\uFFFD", some jsonNull)] ∧
    (run (fun _ m => m) none (sendNow () (.sendError (ascii "7") (ascii "command_result") [0xFF]))).written.map
      (fun e => (e.error, e.payload)) = [([0xFF], none)] := by
  decide +kernel

end Integrity

end Breeze.Ipc.StreamIntegrity
