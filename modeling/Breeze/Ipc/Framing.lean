import Breeze.Ipc.Conn

/-! What a reader makes of a stream of frames that may end in the middle of one. -/

namespace Breeze.Ipc.Framing

open Breeze.Lib Decimal Utf8 Message Conn List

@[simp] lemma putUint32_length (n : ℕ) : (putUint32 n).length = 4 := rfl

variable {n : ℕ} {data : Bytes}

lemma uint32_putUint32 (h : n < 2 ^ 32) : uint32 (putUint32 n) = n := by
  simp only [putUint32, uint32, foldl_cons, foldl_nil, UInt8.toNat_ofNat']
  omega

lemma readFull_append (a b : Bytes) : readFull a.length (a ++ b) = some (a, b) := by
  simp [readFull]

lemma readFull_short {s : Bytes} (h : s.length < n) : readFull n s = none := by
  simp [readFull, h]

lemma readFull_header (data rest : Bytes) : readFull 4 (frame data ++ rest) = some (putUint32 data.length, data ++ rest) := by
  rw [frame, append_assoc]
  exact readFull_append (putUint32 data.length) (data ++ rest)

def Torn (tail : Bytes) : Prop := ∃ data, data.length ≤ maxMessageSize ∧ tail <+: frame data ∧ tail ≠ frame data

lemma torn_nil : Torn [] := ⟨[], by simp [maxMessageSize], nil_prefix, by simp [frame, putUint32]⟩

lemma torn_header (h : data.length ≤ maxMessageSize) (hne : data ≠ []) (n : ℕ) : Torn ((putUint32 data.length).take n) := by
  refine ⟨data, h, (List.take_prefix n _).trans (prefix_append _ _), fun he => hne ?_⟩
  have hl := congrArg List.length he
  simp only [frame, length_take, length_append, putUint32_length] at hl
  exact List.length_eq_zero_iff.mp (by omega)

lemma torn_body (h : data.length ≤ maxMessageSize) (hn : n < data.length) : Torn (putUint32 data.length ++ data.take n) := by
  refine ⟨data, h, prefix_append_right_inj _ |>.mpr (List.take_prefix n data), fun he => ?_⟩
  have hl := congrArg List.length he
  simp only [frame, length_append, length_take] at hl
  omega

section Reading

variable (hmac : Bytes → Bytes → Bytes) (sessionKey : Option Bytes)

structure Sendable (env : Envelope) : Prop where
  wellFormed : WellFormed env
  signed : env.hmac = computeHMAC hmac sessionKey env
  fits : (marshal env).length ≤ maxMessageSize

variable {hmac sessionKey}

lemma marshal_ne_nil (env : Envelope) : marshal env ≠ [] := by
  have h : ∀ t, Utf8.encode ('{' :: t) ≠ [] := by
    intro t
    simp [Utf8.encode, encodeRune_ne_nil]
  exact h _

variable {recvSeq : UInt64} {tail : Bytes} {envs : List Envelope}

lemma recv_frame {env : Envelope} (h : Sendable hmac sessionKey env) (hseq : recvSeq < env.seq) (rest : Bytes) :
    recv hmac sessionKey recvSeq (frame (marshal env) ++ rest) =
      .ok { env := delivered env, recvSeq := env.seq, rest := rest } := by
  have hfits := h.fits
  have hlen : uint32 (putUint32 (marshal env).length) = (marshal env).length := by
    apply uint32_putUint32
    simp only [maxMessageSize] at hfits
    omega
  have hpos : (marshal env).length ≠ 0 := by simpa using marshal_ne_nil env
  have hmacEq : ¬ (delivered env).hmac ≠ computeHMAC hmac sessionKey (delivered env) := by
    simpa [computeHMAC, macInput, delivered] using h.signed
  have hzero : ¬ (delivered env).seq = 0 := by
    intro hz
    have : env.seq = 0 := hz
    rw [this] at hseq
    exact absurd hseq (by simp)
  have hold : ¬ (delivered env).seq ≤ recvSeq := UInt64.not_le.mpr hseq
  simp only [recv, readFull_header, hlen, readFull_append, unmarshal_marshal h.wellFormed]
  rw [if_neg (not_lt.mpr hfits), if_neg hpos, if_neg hmacEq, if_neg hzero, if_neg hold]
  rfl

variable (hmac sessionKey) in
lemma recv_torn (h : Torn tail) (recvSeq : UInt64) : ∃ e, recv hmac sessionKey recvSeq tail = .error e := by
  obtain ⟨data, hdata, ⟨cut, hcut⟩, hne⟩ := h
  have hlt : tail.length < (frame data).length := by
    rw [← hcut, length_append]
    have : cut ≠ [] := by
      rintro rfl
      exact hne (by simpa using hcut)
    have := List.length_pos_iff.mpr this
    omega
  by_cases h4 : tail.length < 4
  · exact ⟨_, by simp only [recv, readFull_short h4]; rfl⟩
  · -- the whole header is there, the data is not
    have hsplit : tail = putUint32 data.length ++ tail.drop 4 := by
      have htake : tail.take 4 = putUint32 data.length := by
        have hcut4 : (tail ++ cut).take 4 = tail.take 4 := take_append_of_le_length (by omega)
        rw [← hcut4, hcut, frame]
        exact take_left' (putUint32_length _)
      rw [← htake, take_append_drop]
    have hread : readFull 4 tail = some (putUint32 data.length, tail.drop 4) := by
      rw [hsplit]
      exact readFull_append (putUint32 data.length) _
    have hlen : uint32 (putUint32 data.length) = data.length := by
      apply uint32_putUint32
      simp only [maxMessageSize] at hdata
      omega
    have hshort : readFull data.length (tail.drop 4) = none := by
      apply readFull_short
      simp only [frame, length_append, putUint32_length] at hlt
      simp only [length_drop]
      omega
    simp only [recv, hread, hlen, hshort]
    rw [if_neg (not_lt.mpr hdata)]
    split
    · exact ⟨_, rfl⟩
    · exact ⟨_, rfl⟩

theorem recvLoop_frames (hs : ∀ e ∈ envs, Sendable hmac sessionKey e) (ht : Torn tail) (hseq : ((recvSeq :: envs.map (·.seq)).Pairwise (· < ·))) {fuel : ℕ} (hf : envs.length ≤ fuel) :
    recvLoop hmac sessionKey fuel recvSeq (envs.flatMap (fun e => frame (marshal e)) ++ tail) = envs.map delivered := by
  induction envs generalizing recvSeq fuel with
  | nil =>
    cases fuel with
    | zero => rfl
    | succ fuel =>
      obtain ⟨e, he⟩ := recv_torn hmac sessionKey ht recvSeq
      simp [recvLoop, he]
  | cons env envs ih =>
    cases fuel with
    | zero => simp at hf
    | succ fuel =>
      rw [map_cons, pairwise_cons] at hseq
      have hr := recv_frame (hs env (by simp)) (hseq.1 env.seq (by simp))
        (envs.flatMap (fun e => frame (marshal e)) ++ tail)
      rw [flatMap_cons, append_assoc, recvLoop, hr, map_cons]
      have hrest := ih (fun e he => hs e (by simp [he])) hseq.2 (by simpa using hf)
      simp [hrest]

theorem accepted_frames (hs : ∀ e ∈ envs, Sendable hmac sessionKey e) (ht : Torn tail)
    (hseq : ((0 :: envs.map (·.seq)).Pairwise (· < ·))) :
    accepted hmac sessionKey (envs.flatMap (fun e => frame (marshal e)) ++ tail) = envs.map delivered := by
  refine recvLoop_frames hs ht hseq ?_
  have hlen (l : List Envelope) : l.length ≤ (l.flatMap (fun e => frame (marshal e))).length := by
    induction l with
    | nil => simp
    | cons e l ih =>
      simp only [length_cons, flatMap_cons, length_append, frame, putUint32_length] at ih ⊢
      omega
  have h := hlen envs
  rw [length_append]
  omega

end Reading

end Breeze.Ipc.Framing
