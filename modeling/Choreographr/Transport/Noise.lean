import Choreographr.Session.Types

/-!
# The encrypted stream

`sendMessage` cuts a message into fragments, puts a continuation flag in front of
each, encrypts it and writes it behind its length. `recvMessage` reads fragments until
one whose flag is clear. The flag is part of the plaintext; the length is not, and it
is checked before anything is read for it.

The cipher is outside the repository. `Snow` stands for the two directions of its
transport state: what the `n`-th message written becomes, and what the `n`-th message
read is taken for. The bytes that have arrived are a list, and its end is the end of
the connection.
-/

namespace Choreographr.Transport

open Session (Bytes)

def gcmTagLen : Nat := 16

def fragmentHeaderLen : Nat := 1

def maxPlaintextChunk : Nat := 65535 - gcmTagLen - fragmentHeaderLen

/-- The flag of a fragment that another one follows. -/
def fragmentContinuation : UInt8 := 0x01

def maxFrameSize : Nat := 64 * 1024 * 1024

structure Snow where
  /-- `TransportState::write_message`. -/
  writeMessage : Nat → Bytes → Bytes
  /-- `TransportState::read_message`. -/
  readMessage : Nat → Bytes → Option Bytes

inductive TransportError where
  | invalidFragment
  | connectionClosed
  | snow
deriving DecidableEq

/-- `u32::to_be_bytes`. -/
def toBeBytes (n : Nat) : Bytes :=
  [UInt8.ofNat (n / 2 ^ 24), UInt8.ofNat (n / 2 ^ 16), UInt8.ofNat (n / 2 ^ 8), UInt8.ofNat n]

/-- `u32::from_be_bytes`. -/
def fromBeBytes (bytes : Bytes) : Nat := bytes.foldl (fun n b => n * 256 + b.toNat) 0

/-! ## Sending -/

/-- `slice::chunks`. -/
def chunks (plaintext : Bytes) : List Bytes :=
  if plaintext = [] then []
  else plaintext.take maxPlaintextChunk :: chunks (plaintext.drop maxPlaintextChunk)
termination_by plaintext.length
decreasing_by
  have hPos : plaintext.length ≠ 0 := by simpa
  have hChunk : maxPlaintextChunk = 65518 := rfl
  rw [List.length_drop]
  omega

/-- A chunk is not the last one if it does not take all that is left. -/
def flagged (remaining : Nat) : List Bytes → List Bytes
  | [] => []
  | chunk :: rest =>
      ((if remaining > chunk.length then fragmentContinuation else 0) :: chunk) ::
        flagged (remaining - chunk.length) rest

/-- What is encrypted for a message. An empty one is a flag alone. -/
def fragments (plaintext : Bytes) : List Bytes :=
  if plaintext = [] then [[0]] else flagged plaintext.length (chunks plaintext)

/-- One fragment on the wire, as the `n`-th message. -/
def frame (snow : Snow) (n : Nat) (fragment : Bytes) : Bytes :=
  let ciphertext := snow.writeMessage n fragment
  toBeBytes ciphertext.length ++ ciphertext

def frames (snow : Snow) (n : Nat) : List Bytes → Bytes
  | [] => []
  | fragment :: rest => frame snow n fragment ++ frames snow (n + 1) rest

/-- The sending half of a stream: how many fragments it has encrypted, and what it has
written. -/
structure Sender where
  nonce : Nat := 0
  wire : Bytes := []

/-- A message over the limit is refused, and nothing of it is written. -/
def sendMessage (snow : Snow) (s : Sender) (plaintext : Bytes) : Sender × Option TransportError :=
  if plaintext.length > maxFrameSize then (s, some .invalidFragment)
  else
    ({ nonce := s.nonce + (fragments plaintext).length
       wire := s.wire ++ frames snow s.nonce (fragments plaintext) }, none)

def sendMessages (snow : Snow) (messages : List Bytes) : Sender :=
  messages.foldl (fun s plaintext => (sendMessage snow s plaintext).1) {}

/-! ## Receiving -/

/-- The receiving half of a stream: how many fragments it has decrypted, and what has
arrived. -/
structure Receiver where
  nonce : Nat := 0
  wire : Bytes

/-- Read so many bytes, unless the connection ends before. -/
def readExact (n : Nat) (wire : Bytes) : Except TransportError (Bytes × Bytes) :=
  if wire.length < n then .error .connectionClosed else .ok (wire.take n, wire.drop n)

/-- The bytes of one fragment: its length, then the checks of the length against the
largest fragment and the largest message, then the fragment. -/
def readFragment (received : Nat) (wire : Bytes) : Except TransportError (Bytes × Bytes) := do
  let (len, wire) ← readExact 4 wire
  let ctLen := fromBeBytes len
  if ctLen > maxPlaintextChunk + fragmentHeaderLen + gcmTagLen then .error .invalidFragment
  else if received + (ctLen - (gcmTagLen + fragmentHeaderLen)) > maxFrameSize then
    .error .invalidFragment
  else readExact ctLen wire

theorem length_of_readFragment {received : Nat} {wire ciphertext rest : Bytes}
    (h : readFragment received wire = .ok (ciphertext, rest)) : rest.length < wire.length := by
  unfold readFragment at h
  simp only [bind, Except.bind, readExact] at h
  split at h
  · cases h
  · rename_i hRead
    split at hRead
    · cases hRead
    · cases hRead
      split at h
      · cases h
      · split at h
        · cases h
        · split at h
          · cases h
          · cases h
            simp only [List.length_drop]
            omega

/-- Read fragments behind what is received, until one that none follows. -/
def recvLoop (snow : Snow) (plaintext : Bytes) (r : Receiver) :
    Except TransportError (Bytes × Receiver) :=
  match _h : readFragment plaintext.length r.wire with
  | .error e => .error e
  | .ok (ciphertext, rest) =>
      match snow.readMessage r.nonce ciphertext with
      | none => .error .snow
      | some [] => .error .invalidFragment
      | some (header :: payload) =>
          let plaintext := plaintext ++ payload
          let r' : Receiver := ⟨r.nonce + 1, rest⟩
          if header &&& fragmentContinuation ≠ 0 then recvLoop snow plaintext r'
          else .ok (plaintext, r')
termination_by r.wire.length
decreasing_by exact length_of_readFragment _h

def recvMessage (snow : Snow) (r : Receiver) : Except TransportError (Bytes × Receiver) :=
  recvLoop snow [] r

theorem length_of_recvLoop {snow : Snow} {plaintext message : Bytes} {r r' : Receiver}
    (h : recvLoop snow plaintext r = .ok (message, r')) : r'.wire.length < r.wire.length := by
  fun_induction recvLoop snow plaintext r with
  | case1 | case2 | case3 => cases h
  | case4 plaintext r ciphertext rest hRead header payload hMessage plaintext' r₁ hMore ih =>
    exact (ih h).trans (length_of_readFragment hRead)
  | case5 plaintext r ciphertext rest hRead header payload hMessage plaintext' r₁ hLast =>
    have hEq := (Prod.mk.inj (Except.ok.inj h)).2
    rw [← hEq]
    exact length_of_readFragment hRead

/-- The messages received before the first error, and the error. -/
def recvMessages (snow : Snow) (r : Receiver) : List Bytes × TransportError :=
  match _h : recvMessage snow r with
  | .error e => ([], e)
  | .ok (message, r') =>
      let rest := recvMessages snow r'
      (message :: rest.1, rest.2)
termination_by r.wire.length
decreasing_by exact length_of_recvLoop _h

end Choreographr.Transport
