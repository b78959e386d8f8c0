import Choreographr.Transport.Noise

/-!
# What the encrypted stream delivers

A receiver sees the fragments that were sent, from the first one on and in their order,
and nothing else (`readPlain_of_recvLoop`): a fragment that is altered, or that does not
come in its place, is rejected. The fragments of a message read back to the message and
to no other (`readPlain_fragments`), so what is received is a prefix of what was sent,
and all of it if the bytes arrive as they were written.
-/

namespace Choreographr.Transport

open Session (Bytes)

/-- What is relied on of the cipher, when the sender has encrypted these plaintexts. -/
structure Authentic (snow : Snow) (plaintexts : List Bytes) : Prop where
  /-- The authentication tag is appended. -/
  length : ∀ n p, p.length ≤ 65535 - gcmTagLen → (snow.writeMessage n p).length =
    p.length + gcmTagLen
  /-- The `n`-th ciphertext decrypts to the `n`-th plaintext. -/
  decrypts : ∀ n p, plaintexts[n]? = some p →
    snow.readMessage n (snow.writeMessage n p) = some p
  /-- Any other bytes in that position are rejected. -/
  rejects : ∀ n ciphertext p, snow.readMessage n ciphertext = some p →
    plaintexts[n]? = some p ∧ ciphertext = snow.writeMessage n p

/-! ## Fragments -/

/-- Read one message off a list of fragments, behind what is received. -/
def readPlain (received : Bytes) : List Bytes → Option (Bytes × List Bytes)
  | (header :: payload) :: rest =>
      if header &&& fragmentContinuation ≠ 0 then readPlain (received ++ payload) rest
      else some (received ++ payload, rest)
  | _ => none

theorem flatten_chunks (plaintext : Bytes) : (chunks plaintext).flatten = plaintext := by
  fun_induction chunks plaintext with
  | case1 => rfl
  | case2 plaintext hNe ih => rw [List.flatten_cons, ih, List.take_append_drop]

theorem length_le_of_mem_chunks {plaintext chunk : Bytes} (h : chunk ∈ chunks plaintext) :
    chunk.length ≤ maxPlaintextChunk := by
  fun_induction chunks plaintext with
  | case1 => cases h
  | case2 plaintext hNe ih =>
    rcases List.mem_cons.mp h with rfl | h
    · rw [List.length_take]
      exact Nat.min_le_left _ _
    · exact ih h

theorem ne_nil_of_mem_chunks {plaintext chunk : Bytes} (h : chunk ∈ chunks plaintext) :
    chunk ≠ [] := by
  fun_induction chunks plaintext with
  | case1 => cases h
  | case2 plaintext hNe ih =>
    rcases List.mem_cons.mp h with rfl | h
    · intro hNil
      rcases List.take_eq_nil_iff.mp hNil with hZero | hNil
      · cases hZero
      · exact hNe hNil
    · exact ih h

theorem chunks_ne_nil {plaintext : Bytes} (h : plaintext ≠ []) : chunks plaintext ≠ [] := by
  rw [chunks, if_neg h]
  exact List.cons_ne_nil _ _

/-- The flags say where the message ends. -/
theorem readPlain_flagged {cs : List Bytes} (hNe : cs ≠ []) (hChunks : ∀ c ∈ cs, c ≠ [])
    (received : Bytes) (rest : List Bytes) :
    readPlain received (flagged cs.flatten.length cs ++ rest) =
      some (received ++ cs.flatten, rest) := by
  induction cs generalizing received with
  | nil => exact absurd rfl hNe
  | cons c cs ih =>
    have hLength : (c :: cs).flatten.length = c.length + cs.flatten.length := by
      rw [List.flatten_cons, List.length_append]
    rw [flagged, hLength, Nat.add_sub_cancel_left, List.cons_append, readPlain]
    cases cs with
    | nil => simp [flagged]
    | cons d cs =>
      have hMore : c.length + (d :: cs).flatten.length > c.length := by
        have hPos := List.length_pos_iff.mpr (hChunks d (by simp))
        rw [List.flatten_cons, List.length_append]
        omega
      rw [if_pos hMore, if_pos (by decide), ih (List.cons_ne_nil _ _)
        (fun x hx => hChunks x (List.mem_cons_of_mem c hx)), List.append_assoc]
      rfl

theorem readPlain_fragments (plaintext received : Bytes) (rest : List Bytes) :
    readPlain received (fragments plaintext ++ rest) = some (received ++ plaintext, rest) := by
  unfold fragments
  split
  · rename_i hNil
    subst hNil
    simp [readPlain]
  · rename_i hNe
    have hFlatten := flatten_chunks plaintext
    have hRead := readPlain_flagged (chunks_ne_nil hNe) (fun c hc => ne_nil_of_mem_chunks hc)
      received rest
    rw [hFlatten] at hRead
    exact hRead

/-! ## What is received was sent -/

section Received

variable {snow : Snow} {plaintexts : List Bytes} {received message : Bytes} {r r' : Receiver}

/-- What the receiver takes for a message is what the fragments that were sent, from the
one it expects next, read back to. -/
theorem readPlain_of_recvLoop (hAuthentic : Authentic snow plaintexts)
    (h : recvLoop snow received r = .ok (message, r')) :
    readPlain received (plaintexts.drop r.nonce) = some (message, plaintexts.drop r'.nonce) := by
  fun_induction recvLoop snow received r with
  | case1 | case2 | case3 => cases h
  | case4 received r ciphertext rest hRead header payload hMessage received' r₁ hMore ih =>
    have hNext := (hAuthentic.rejects _ _ _ hMessage).1
    rw [List.drop_eq_getElem?_toList_append, hNext]
    show readPlain received ((header :: payload) :: plaintexts.drop (r.nonce + 1)) = _
    rw [readPlain, if_pos hMore]
    exact ih h
  | case5 received r ciphertext rest hRead header payload hMessage received' r₁ hLast =>
    have hNext := (hAuthentic.rejects _ _ _ hMessage).1
    obtain ⟨hReceived, hReceiver⟩ := Prod.mk.inj (Except.ok.inj h)
    rw [List.drop_eq_getElem?_toList_append, hNext, ← hReceived, ← hReceiver]
    show readPlain received ((header :: payload) :: plaintexts.drop (r.nonce + 1)) = _
    rw [readPlain, if_neg hLast]

theorem recvMessages_of_ok (h : recvMessage snow r = .ok (message, r')) :
    recvMessages snow r = (message :: (recvMessages snow r').1, (recvMessages snow r').2) := by
  rw [recvMessages]
  split
  · rename_i e hError
    rw [h] at hError
    cases hError
  · rename_i message₁ r₁ hOk
    rw [h] at hOk
    cases hOk
    rfl

theorem recvMessages_of_error {e : TransportError} (h : recvMessage snow r = .error e) :
    recvMessages snow r = ([], e) := by
  rw [recvMessages]
  split
  · rename_i e₁ hError
    rw [h] at hError
    cases hError
    rfl
  · rename_i message₁ r₁ hOk
    rw [h] at hOk
    cases hOk

/-- From a message on, what is received is a prefix of what was sent. -/
theorem recvMessages_prefix {messages : List Bytes} (hAuthentic : Authentic snow plaintexts)
    (hSent : plaintexts.drop r.nonce = messages.flatMap fragments) :
    (recvMessages snow r).1 <+: messages := by
  induction r using recvMessages.induct snow generalizing messages with
  | case1 r e hError =>
    rw [recvMessages_of_error hError]
    exact List.nil_prefix
  | case2 r message r' hRecv ih =>
    have hRead := readPlain_of_recvLoop hAuthentic hRecv
    rw [hSent] at hRead
    cases messages with
    | nil => cases hRead
    | cons m messages =>
      rw [List.flatMap_cons, readPlain_fragments, List.nil_append] at hRead
      obtain ⟨hMessage, hRest⟩ := Prod.mk.inj (Option.some.inj hRead)
      rw [recvMessages_of_ok hRecv, hMessage, List.cons_prefix_cons]
      exact ⟨rfl, ih hRest.symm⟩

end Received

/-! ## What was sent is received -/

section Sent

variable {snow : Snow} {plaintexts : List Bytes}

theorem fromBeBytes_toBeBytes {n : Nat} (h : n < 2 ^ 32) : fromBeBytes (toBeBytes n) = n := by
  simp only [toBeBytes, fromBeBytes, List.foldl_cons, List.foldl_nil, UInt8.toNat_ofNat']
  omega

theorem frames_append (snow : Snow) (n : Nat) (xs ys : List Bytes) :
    frames snow n (xs ++ ys) = frames snow n xs ++ frames snow (n + xs.length) ys := by
  induction xs generalizing n with
  | nil => rfl
  | cons x xs ih =>
    rw [List.cons_append, frames, frames, ih, List.append_assoc, List.length_cons,
      Nat.add_right_comm, Nat.add_assoc]

theorem readExact_append (xs ys : Bytes) : readExact xs.length (xs ++ ys) = .ok (xs, ys) := by
  unfold readExact
  rw [if_neg (by simp), List.take_left, List.drop_left]

theorem readFragment_frame (hAuthentic : Authentic snow plaintexts) {n received : Nat}
    {fragment : Bytes} (hLow : fragmentHeaderLen ≤ fragment.length)
    (hHigh : fragment.length ≤ maxPlaintextChunk + fragmentHeaderLen)
    (hSize : received + (fragment.length - fragmentHeaderLen) ≤ maxFrameSize) (wire : Bytes) :
    readFragment received (frame snow n fragment ++ wire) =
      .ok (snow.writeMessage n fragment, wire) := by
  have hTag : gcmTagLen = 16 := rfl
  have hHeader : fragmentHeaderLen = 1 := rfl
  have hChunk : maxPlaintextChunk = 65518 := rfl
  have hLength : (snow.writeMessage n fragment).length = fragment.length + gcmTagLen :=
    hAuthentic.length n fragment (by omega)
  have hPrefix : fromBeBytes (toBeBytes (snow.writeMessage n fragment).length) =
      (snow.writeMessage n fragment).length := fromBeBytes_toBeBytes (by omega)
  unfold readFragment frame
  rw [List.append_assoc]
  have hFour : readExact 4 (toBeBytes (snow.writeMessage n fragment).length ++
      (snow.writeMessage n fragment ++ wire)) =
      .ok (toBeBytes (snow.writeMessage n fragment).length, snow.writeMessage n fragment ++ wire) :=
    readExact_append _ _
  simp only [bind, Except.bind, hFour, hPrefix]
  rw [if_neg (by omega), if_neg (by omega), readExact_append]

theorem length_of_readPlain {fs rest : List Bytes} {received message : Bytes}
    (h : readPlain received fs = some (message, rest)) : received.length ≤ message.length := by
  fun_induction readPlain received fs with
  | case1 received header payload fs hMore ih =>
    have hRest := ih h
    rw [List.length_append] at hRest
    omega
  | case2 received header payload fs hLast =>
    cases h
    rw [List.length_append]
    omega
  | case3 => cases h

theorem recvLoop_of_fragment {received ciphertext rest payload : Bytes} {r : Receiver}
    {header : UInt8} (hRead : readFragment received.length r.wire = .ok (ciphertext, rest))
    (hMessage : snow.readMessage r.nonce ciphertext = some (header :: payload)) :
    recvLoop snow received r =
      if header &&& fragmentContinuation ≠ 0 then
        recvLoop snow (received ++ payload) ⟨r.nonce + 1, rest⟩
      else .ok (received ++ payload, ⟨r.nonce + 1, rest⟩) := by
  rw [recvLoop]
  split
  · rename_i e hError
    rw [hRead] at hError
    cases hError
  · rename_i ciphertext' rest' hOk
    rw [hRead] at hOk
    cases hOk
    rw [hMessage]

/-- The fragments of one message, on the wire as they were written. -/
theorem recvLoop_frames (hAuthentic : Authentic snow plaintexts) {fs rest : List Bytes}
    {received message : Bytes} {n : Nat}
    (hSent : plaintexts.drop n = fs ++ rest) (hRead : readPlain received fs = some (message, []))
    (hFragments : ∀ f ∈ fs, f.length ≤ maxPlaintextChunk + fragmentHeaderLen)
    (hSize : message.length ≤ maxFrameSize) (wire : Bytes) :
    recvLoop snow received ⟨n, frames snow n fs ++ wire⟩ =
      .ok (message, ⟨n + fs.length, wire⟩) := by
  induction fs generalizing received n with
  | nil => cases hRead
  | cons f fs ih =>
    cases f with
    | nil => cases hRead
    | cons header payload =>
      have hNext : plaintexts[n]? = some (header :: payload) := by
        rw [← List.head?_drop, hSent]
        rfl
      have hMessage := hAuthentic.decrypts n _ hNext
      have hReceived : received.length + payload.length ≤ message.length := by
        rw [readPlain] at hRead
        split at hRead
        · have hLength := length_of_readPlain hRead
          rwa [List.length_append] at hLength
        · cases hRead
          rw [List.length_append]
      have hFrame : readFragment received.length
          (frame snow n (header :: payload) ++ (frames snow (n + 1) fs ++ wire)) =
          .ok (snow.writeMessage n (header :: payload), frames snow (n + 1) fs ++ wire) := by
        apply readFragment_frame hAuthentic
        · rw [List.length_cons]
          exact Nat.le_add_left 1 _
        · exact hFragments _ List.mem_cons_self
        · rw [List.length_cons]
          exact hReceived.trans hSize
      rw [frames, List.append_assoc]
      rw [recvLoop_of_fragment (r := ⟨n, _⟩) hFrame hMessage]
      rw [readPlain] at hRead
      split at hRead
      · rename_i hMore
        rw [if_pos hMore, ih (n := n + 1) ?_ hRead (fun f hf => hFragments f (List.mem_cons_of_mem _ hf)),
          List.length_cons, Nat.add_right_comm, Nat.add_assoc]
        rw [← List.drop_drop, hSent]
        rfl
      · rename_i hLast
        obtain ⟨hEq, hNil⟩ := Prod.mk.inj (Option.some.inj hRead)
        rw [if_neg hLast, hEq, hNil]
        rfl

theorem length_flagged (remaining : Nat) (cs : List Bytes) :
    ∀ f ∈ flagged remaining cs, ∃ c ∈ cs, f.length = c.length + 1 := by
  induction cs generalizing remaining with
  | nil => simp [flagged]
  | cons c cs ih =>
    intro f hf
    rcases List.mem_cons.mp hf with rfl | hf
    · exact ⟨c, List.mem_cons_self, rfl⟩
    · obtain ⟨d, hd, hLength⟩ := ih _ f hf
      exact ⟨d, List.mem_cons_of_mem c hd, hLength⟩

theorem length_le_of_mem_fragments {plaintext f : Bytes} (h : f ∈ fragments plaintext) :
    f.length ≤ maxPlaintextChunk + fragmentHeaderLen := by
  unfold fragments at h
  split at h
  · rw [List.mem_singleton.mp h]
    decide
  · obtain ⟨c, hc, hLength⟩ := length_flagged _ _ f h
    rw [hLength]
    exact Nat.succ_le_succ (length_le_of_mem_chunks hc)

/-- All messages, on the wire as they were written. -/
theorem recvMessages_frames (hAuthentic : Authentic snow plaintexts) {messages : List Bytes}
    {n : Nat} (hSent : plaintexts.drop n = messages.flatMap fragments)
    (hSize : ∀ m ∈ messages, m.length ≤ maxFrameSize) :
    recvMessages snow ⟨n, frames snow n (messages.flatMap fragments)⟩ =
      (messages, .connectionClosed) := by
  induction messages generalizing n with
  | nil =>
    apply recvMessages_of_error
    unfold recvMessage
    rw [recvLoop]
    rfl
  | cons m messages ih =>
    rw [List.flatMap_cons] at hSent
    have hPlain : readPlain [] (fragments m) = some (m, []) := by
      have hRead := readPlain_fragments m [] []
      rwa [List.append_nil, List.nil_append] at hRead
    have hRecv := recvLoop_frames hAuthentic hSent hPlain
      (fun f hf => length_le_of_mem_fragments hf) (hSize m List.mem_cons_self)
      (frames snow (n + (fragments m).length) (messages.flatMap fragments))
    have hRest : plaintexts.drop (n + (fragments m).length) = messages.flatMap fragments := by
      rw [← List.drop_drop, hSent, List.drop_left]
    rw [List.flatMap_cons, frames_append, recvMessages_of_ok hRecv,
      ih hRest fun x hx => hSize x (List.mem_cons_of_mem m hx)]

/-- The messages that the sender does not refuse. -/
def accepted (messages : List Bytes) : List Bytes :=
  messages.filter fun m => m.length ≤ maxFrameSize

theorem foldl_sendMessage (snow : Snow) (messages : List Bytes) (s : Sender) :
    messages.foldl (fun s plaintext => (sendMessage snow s plaintext).1) s =
      { nonce := s.nonce + ((accepted messages).flatMap fragments).length
        wire := s.wire ++ frames snow s.nonce ((accepted messages).flatMap fragments) } := by
  induction messages generalizing s with
  | nil => simp [accepted, frames]
  | cons m messages ih =>
    rw [List.foldl_cons, ih]
    by_cases hSize : m.length ≤ maxFrameSize
    · have hAccepted : accepted (m :: messages) = m :: accepted messages := by
        simp [accepted, hSize]
      have hSend : (sendMessage snow s m).1 =
          { nonce := s.nonce + (fragments m).length
            wire := s.wire ++ frames snow s.nonce (fragments m) } := by
        rw [sendMessage, if_neg (by omega)]
      rw [hSend, hAccepted, List.flatMap_cons, frames_append, List.length_append, List.append_assoc,
        Nat.add_assoc]
    · have hAccepted : accepted (m :: messages) = accepted messages := by
        simp [accepted, hSize]
      have hSend : (sendMessage snow s m).1 = s := by
        rw [sendMessage, if_pos (by omega)]
      rw [hSend, hAccepted]

end Sent

/-! ## The contract of the stream -/

/-- For every sequence of messages given to `sendMessage`: what is received from the wire
as written is the sequence of the messages within the limit; a message over the limit
changes nothing; and what is received from any other bytes, up to the first error, is a
prefix of that sequence. -/
theorem noise_stream_delivers (snow : Snow) (messages : List Bytes)
    (hAuthentic : Authentic snow ((accepted messages).flatMap fragments)) :
    recvMessages snow ⟨0, (sendMessages snow messages).wire⟩ =
        (accepted messages, .connectionClosed) ∧
      (∀ s plaintext, maxFrameSize < plaintext.length →
        sendMessage snow s plaintext = (s, some .invalidFragment)) ∧
      ∀ wire, (recvMessages snow ⟨0, wire⟩).1 <+: accepted messages := by
  refine ⟨?_, fun s plaintext hSize => ?_, fun wire => ?_⟩
  · rw [sendMessages, foldl_sendMessage]
    exact recvMessages_frames hAuthentic rfl fun m hm =>
      of_decide_eq_true (List.mem_filter.mp hm).2
  · rw [sendMessage, if_pos hSize]
  · exact recvMessages_prefix hAuthentic rfl

/-- A cipher that appends a tag of the number and the place of a message. -/
def taggedSnow (plaintexts : List Bytes) : Snow where
  writeMessage n p := p ++ List.replicate gcmTagLen (UInt8.ofNat n)
  readMessage n ciphertext :=
    (plaintexts[n]?).filter fun p => ciphertext = p ++ List.replicate gcmTagLen (UInt8.ofNat n)

theorem authentic_taggedSnow (plaintexts : List Bytes) :
    Authentic (taggedSnow plaintexts) plaintexts where
  length n p _ := by simp [taggedSnow]
  decrypts n p h := by simp [taggedSnow, h]
  rejects n ciphertext p h := by
    have hSome := Option.filter_eq_some_iff.mp h
    exact ⟨hSome.1, of_decide_eq_true hSome.2⟩

theorem chunks_of_short {plaintext : Bytes} (hNe : plaintext ≠ [])
    (hShort : plaintext.length ≤ maxPlaintextChunk) : chunks plaintext = [plaintext] := by
  rw [chunks, if_neg hNe, List.take_of_length_le hShort, List.drop_eq_nil_of_le hShort, chunks,
    if_pos rfl]

/-- A message that takes two fragments. -/
def longMessage : Bytes := List.replicate (maxPlaintextChunk + 2) 104

theorem fragments_longMessage :
    fragments longMessage = [1 :: List.replicate maxPlaintextChunk 104, [0, 104, 104]] := by
  have hChunks : chunks longMessage = [List.replicate maxPlaintextChunk 104, [104, 104]] := by
    have hRest : chunks [104, 104] = [[104, 104]] := chunks_of_short (by decide) (by decide)
    rw [chunks, if_neg (by simp [longMessage]), longMessage, List.take_replicate,
      List.drop_replicate, Nat.add_sub_cancel_left, Nat.min_eq_left (Nat.le_add_right _ 2)]
    exact congrArg _ hRest
  have hLength : longMessage.length = maxPlaintextChunk + 2 := List.length_replicate
  rw [fragments, if_neg (by simp [longMessage]), hChunks, hLength]
  simp [flagged, fragmentContinuation]

def threeMessages : List Bytes := [[], longMessage, [105]]

theorem accepted_threeMessages : accepted threeMessages = threeMessages := by
  have hLength : longMessage.length ≤ maxFrameSize := by
    rw [longMessage, List.length_replicate]
    decide
  rw [accepted, List.filter_eq_self]
  intro m hm
  rcases List.mem_cons.mp hm with rfl | hm
  · rfl
  · rcases List.mem_cons.mp hm with rfl | hm
    · exact decide_eq_true hLength
    · rw [List.mem_singleton.mp hm]
      rfl

theorem noise_stream_delivers_three :
    (threeMessages.map fun m => (fragments m).length) = [1, 2, 1] ∧
      recvMessages (taggedSnow (threeMessages.flatMap fragments))
        ⟨0, (sendMessages (taggedSnow (threeMessages.flatMap fragments)) threeMessages).wire⟩ =
      (threeMessages, .connectionClosed) := by
  refine ⟨?_, ?_⟩
  · have hLast : fragments [105] = [[0, 105]] := by
      rw [fragments, if_neg (by decide), chunks_of_short (by decide) (by decide)]
      rfl
    rw [threeMessages, List.map_cons, List.map_cons, List.map_singleton, fragments_longMessage,
      hLast]
    rfl
  · have hStream := (noise_stream_delivers _ threeMessages (authentic_taggedSnow _)).1
    rwa [accepted_threeMessages] at hStream

end Choreographr.Transport
