import Breeze.Ipc.Message

/-! The framed connection (internal/ipc/protocol.go). Any number of goroutines send on one Conn; the scheduler
picks who moves next and how the socket answers. The peer reads the bytes with Recv. -/

namespace Breeze.Ipc.Conn

open Breeze.Lib Decimal Utf8 GoJson Message

def putUint32 (n : ℕ) : Bytes :=
  [UInt8.ofNat (n / 16777216), UInt8.ofNat (n / 65536), UInt8.ofNat (n / 256), UInt8.ofNat n]

def uint32 : Bytes → ℕ := List.foldl (fun acc b => acc * 256 + b.toNat) 0

def frame (data : Bytes) : Bytes := putUint32 data.length ++ data

def readFull (n : ℕ) (stream : Bytes) : Option (Bytes × Bytes) :=
  if n ≤ stream.length then some (stream.take n, stream.drop n) else none

def readCause (stream : Bytes) : String := if stream = [] then "EOF" else "unexpected EOF"

section Recv

variable (hmac : Bytes → Bytes → Bytes) (sessionKey : Option Bytes)

structure Received where
  env : Envelope
  recvSeq : UInt64
  rest : Bytes

def recv (recvSeq : UInt64) (stream : Bytes) : Except String Received :=
  match readFull 4 stream with
  | none => .error ("ipc: read header: " ++ readCause stream)
  | some (header, stream) =>
    let length := uint32 header
    if length > maxMessageSize then
      .error ("ipc: message too large: " ++ toString length ++ " > " ++ toString maxMessageSize)
    else if length = 0 then .error "ipc: zero-length message"
    else
      match readFull length stream with
      | none => .error ("ipc: read payload: " ++ readCause stream)
      | some (data, rest) =>
        match unmarshal data with
        | none => .error "ipc: unmarshal envelope: invalid"
        | some env =>
          if env.hmac ≠ computeHMAC hmac sessionKey env then .error "ipc: HMAC mismatch"
          else if env.seq = 0 then .error "ipc: invalid sequence number 0"
          else if env.seq ≤ recvSeq then
            .error ("ipc: sequence number " ++ toString env.seq ++ " <= last " ++ toString recvSeq ++
              " (replay/duplicate)")
          else .ok { env := env, recvSeq := env.seq, rest := rest }

def recvLoop : ℕ → UInt64 → Bytes → List Envelope
  | 0, _, _ => []
  | fuel + 1, recvSeq, stream =>
    match recv hmac sessionKey recvSeq stream with
    | .error _ => []
    | .ok r => r.env :: recvLoop fuel r.recvSeq r.rest

-- each accepted frame takes bytes from the stream, so its length is fuel enough
def accepted (stream : Bytes) : List Envelope := recvLoop hmac sessionKey stream.length 0 stream

end Recv

inductive Request where
  | sendTyped (id msgType : Bytes) (payload : Except String Value)
  | sendError (id msgType errMsg : Bytes)

def sendTyped (id msgType : Bytes) (payload : Except String Value) : Except String Envelope :=
  match payload with
  | .error cause => .error ("ipc: marshal payload: " ++ cause)
  | .ok v => .ok { id := id, type := msgType, payload := some (marshalValue v) }

def sendError (id msgType errMsg : Bytes) : Envelope := { id := id, type := msgType, error := errMsg }

def Request.envelope : Request → Except String Envelope
  | .sendTyped id msgType payload => Conn.sendTyped id msgType payload
  | .sendError id msgType errMsg => .ok (Conn.sendError id msgType errMsg)

/-- Where a goroutine stands in Send. From `locked` on it holds the write lock. -/
inductive Phase where
  | idle
  | started (env : Envelope)
  | waiting (env : Envelope)
  | locked (env : Envelope)
  | deadline (env : Envelope)
  | header (env : Envelope)
  | body (env : Envelope)
  | failed (cause : String)

inductive Answer where
  | ok
  | deadlineError (cause : String)
  | writeError (written : ℕ) (cause : String)

inductive Action (ι : Type) where
  | call (g : ι) (req : Request)
  | advance (g : ι) (answer : Answer)

structure State (ι : Type) where
  sendSeq : UInt64 := 0
  mu : Option ι := none
  writePoisoned : Bool := false
  firstWriteErr : Option String := none
  phase : ι → Phase := fun _ => .idle
  wire : Bytes := []
  written : List Envelope := []
  numbered : ℕ := 0
  returned : List (ι × Option String) := []

section Send

variable {ι : Type} [DecidableEq ι] (hmac : Bytes → Bytes → Bytes) (sessionKey : Option Bytes)

def poisonedErr (s : State ι) : Option String :=
  if s.writePoisoned then
    match s.firstWriteErr with
    | some cause => some ("ipc: connection poisoned by prior write error: " ++ cause)
    | none => some "ipc: connection poisoned by prior write error"
  else none

def moveTo (s : State ι) (g : ι) (p : Phase) : State ι := { s with phase := Function.update s.phase g p }

def finish (s : State ι) (g : ι) (result : Option String) : State ι :=
  { moveTo s g .idle with returned := s.returned ++ [(g, result)] }

def unlock (s : State ι) : State ι := { s with mu := none }

def poison (s : State ι) (cause : String) : State ι :=
  { s with writePoisoned := true, firstWriteErr := some (s.firstWriteErr.getD cause) }

def call (s : State ι) (g : ι) (req : Request) : State ι :=
  match req.envelope with
  | .error e => finish s g (some e)
  | .ok env => moveTo s g (.started env)

-- before the lock: the poison fast path and the payload's size
def start (s : State ι) (g : ι) (env : Envelope) : State ι :=
  match poisonedErr s with
  | some e => finish s g (some e)
  | none =>
    if (env.payload.getD []).length > maxMessageSize then
      finish s g (some ("ipc: payload too large: " ++ toString (env.payload.getD []).length ++ " > " ++
        toString maxMessageSize))
    else moveTo s g (.waiting env)

def acquire (s : State ι) (g : ι) (env : Envelope) : State ι :=
  match s.mu with
  | some _ => s
  | none => moveTo { s with mu := some g } g (.locked env)

def sign (env : Envelope) (seq : UInt64) : Envelope :=
  { env with seq := seq, hmac := computeHMAC hmac sessionKey { env with seq := seq } }

def number (s : State ι) (g : ι) (env : Envelope) : State ι :=
  match poisonedErr s with
  | some e => unlock (finish s g (some e))
  | none =>
    let env := sign hmac sessionKey env (s.sendSeq + 1)
    let s := { s with sendSeq := s.sendSeq + 1, numbered := s.numbered + 1 }
    if (marshal env).length > maxMessageSize then
      unlock (finish s g (some ("ipc: message too large: " ++ toString (marshal env).length ++ " > " ++
        toString maxMessageSize)))
    else moveTo s g (.deadline env)

def setDeadline (s : State ι) (g : ι) (env : Envelope) : Answer → State ι
  | .deadlineError cause => unlock (finish s g (some ("ipc: set write deadline: " ++ cause)))
  | _ => moveTo s g (.header env)

def put (s : State ι) (data : Bytes) : State ι := { s with wire := s.wire ++ data }

def record (s : State ι) (env : Envelope) : State ι := { s with written := s.written ++ [env] }

def writeHeader (s : State ι) (g : ι) (env : Envelope) : Answer → State ι
  | .writeError n cause =>
    moveTo (put s ((putUint32 (marshal env).length).take n)) g (.failed ("ipc: write header: " ++ cause))
  | _ => moveTo (put s (putUint32 (marshal env).length)) g (.body env)

-- a write may report an error although its last byte has gone out
def writeBody (s : State ι) (g : ι) (env : Envelope) : Answer → State ι
  | .writeError n cause =>
    let s := moveTo (put s ((marshal env).take n)) g (.failed ("ipc: write payload: " ++ cause))
    if (marshal env).length ≤ n then record s env else s
  | _ => unlock (finish (record (put s (marshal env)) env) g none)

def step (s : State ι) : Action ι → State ι
  | .call g req =>
    match s.phase g with
    | .idle => call s g req
    | _ => s
  | .advance g answer =>
    match s.phase g with
    | .idle => s
    | .started env => start s g env
    | .waiting env => acquire s g env
    | .locked env => number hmac sessionKey s g env
    | .deadline env => setDeadline s g env answer
    | .header env => writeHeader s g env answer
    | .body env => writeBody s g env answer
    | .failed cause => unlock (finish (poison s cause) g (some cause))

def runFrom (s : State ι) (acts : List (Action ι)) : State ι := acts.foldl (step hmac sessionKey) s

def run (acts : List (Action ι)) : State ι := runFrom hmac sessionKey {} acts

end Send

end Breeze.Ipc.Conn
