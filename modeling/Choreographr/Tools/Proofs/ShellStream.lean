import Choreographr.Tools.Proofs.LineDrain
import Choreographr.Tools.Proofs.SanitizeText

/-!
# The record of a shell command and its stream

The merger sends the escaped output as far as the budget reaches, and then the marker. Where the
budget ends inside a character, its bytes are read as one replacement character, which may be
longer than they are; the room that the framing leaves is what that costs.
-/

namespace Choreographr.Tools

open Lib

variable {u : UnicodeTables} {channel : StreamChannel}

/-! ## The chunks of a stream -/

theorem clientText_append (xs ys : List (List UInt8)) :
    clientText (xs ++ ys) = clientText xs ++ clientText ys := List.flatMap_append

theorem clientText_singleton (chunk : List UInt8) : clientText [chunk] = lossyText chunk :=
  List.flatMap_singleton _ _

theorem cutText_zero (text : List Char) : cutText 0 text = [] := by
  rw [cutText, bytePrefix_zero, if_neg (by omega), List.append_nil]

/-- A channel that takes everything: the tool is not aborted, and the client stays. -/
def StreamChannel.Open (channel : StreamChannel) : Prop := ∀ sent, channel sent = true

namespace StreamByteCap

variable {limit used : Nat} {sent : List (List UInt8)} {chunk out : List UInt8}

theorem forward_open (hOpen : channel.Open) (s : StreamByteCap) (bytes : List UInt8) :
    s.forward channel bytes = ({ s with sent := s.sent ++ [bytes] }, true) :=
  if_pos (hOpen s.sent)

theorem push_fits (hOpen : channel.Open) (hSome : 0 < chunk.length)
    (hFits : used + chunk.length ≤ limit) :
    push ⟨⟨limit, used, false, false⟩, sent⟩ channel chunk out =
      (⟨⟨limit, used + chunk.length, false, false⟩, sent ++ [chunk]⟩, out ++ chunk, true) := by
  have hFit : ByteBudget.fit ⟨limit, used, false, false⟩ chunk.length =
      (⟨limit, used + chunk.length, false, false⟩, chunk.length) := by
    rw [ByteBudget.fit, if_neg (by dsimp only; omega)]
    exact if_neg (by dsimp only; omega)
  rw [push, hFit]
  simp [hSome, forward_open hOpen, ByteBudget.takeMarker]

/-- The chunk at which the budget ends is sent as far as it fits, and the marker behind it. -/
theorem push_cuts (hOpen : channel.Open) (hUsed : used ≤ limit)
    (hCut : limit < used + chunk.length) :
    push ⟨⟨limit, used, false, false⟩, sent⟩ channel chunk out =
      (⟨⟨limit, limit, true, true⟩, sent ++
          (if 0 < limit - used then [chunk.take (limit - used)] else []) ++
          [encode truncationSuffix]⟩,
        out ++ chunk.take (limit - used) ++ encode truncationSuffix, true) := by
  have hFit : ByteBudget.fit ⟨limit, used, false, false⟩ chunk.length =
      (⟨limit, limit, true, false⟩, limit - used) := by
    by_cases hFull : limit ≤ used
    · have hEq : used = limit := Nat.le_antisymm hUsed hFull
      rw [ByteBudget.fit, if_pos hFull, hEq, Nat.sub_self]
    · rw [ByteBudget.fit, if_neg hFull]
      exact if_pos (by dsimp only; omega)
  rw [push, hFit]
  by_cases hRoom : 0 < limit - used
  · simp [hRoom, forward_open hOpen, ByteBudget.takeMarker]
  · have hZero : limit - used = 0 := by omega
    simp [hZero, forward_open hOpen, ByteBudget.takeMarker]

theorem push_after :
    push ⟨⟨limit, limit, true, true⟩, sent⟩ channel chunk out =
      (⟨⟨limit, limit, true, true⟩, sent⟩, out, true) := by
  have hFit : ByteBudget.fit ⟨limit, limit, true, true⟩ chunk.length =
      (⟨limit, limit, true, true⟩, 0) := if_pos (Nat.le_refl limit)
  rw [push, hFit]
  simp [ByteBudget.takeMarker]

end StreamByteCap

theorem mergeLines_after {limit : Nat} {sent : List (List UInt8)} {full : List UInt8}
    (lines : List (List UInt8)) :
    mergeLines u channel ⟨⟨limit, limit, true, true⟩, sent⟩ full lines =
      (⟨⟨limit, limit, true, true⟩, sent⟩, full) := by
  induction lines with
  | nil => rfl
  | cons line rest ih =>
    rw [mergeLines, StreamByteCap.push_after]
    exact ih

/-- What is streamed of the escaped output: what fits in the budget, and then the marker if that
is not all of it. -/
structure Streamed (n : Nat) (escaped : List Char) (pieces marker : List (List UInt8)) : Prop where
  bytes : pieces.flatten = (encode escaped).take n
  text : clientText pieces = cutText n escaped
  marker : marker = if byteLen escaped ≤ n then [] else [encode truncationSuffix]

theorem mergeLines_streamed (hOpen : channel.Open) {texts : List (List Char)}
    (hSome : ∀ text ∈ texts, text ≠ []) {limit used : Nat} (hUsed : used ≤ limit)
    (sent : List (List UInt8)) (full : List UInt8) :
    ∃ pieces marker,
      Streamed (limit - used) (sanitizeTranscript u texts.flatten) pieces marker ∧
      (mergeLines u channel ⟨⟨limit, used, false, false⟩, sent⟩ full (texts.map encode)).1.sent =
        sent ++ pieces ++ marker ∧
      (mergeLines u channel ⟨⟨limit, used, false, false⟩, sent⟩ full (texts.map encode)).2 =
        full ++ pieces.flatten ++ marker.flatten := by
  induction texts generalizing used sent full with
  | nil =>
    refine ⟨[], [], ⟨?_, ?_, (if_pos (Nat.zero_le _)).symm⟩, ?_, ?_⟩
    · exact List.take_nil.symm
    · exact (cutText_of_le (Nat.zero_le _)).symm
    · rw [List.append_nil, List.append_nil]
      rfl
    · rw [List.flatten_nil, List.append_nil, List.append_nil]
      rfl
  | cons text rest ih =>
    have hRest : ∀ text' ∈ rest, text' ≠ [] := fun text' hMem =>
      hSome text' (List.mem_cons_of_mem text hMem)
    rw [List.map_cons, mergeLines, lossyText_encode, List.flatten_cons, sanitizeTranscript_append]
    have hHere : sanitizeTranscript u text ≠ [] :=
      mt (sanitizeTranscript_eq_nil_iff text).mp (hSome text List.mem_cons_self)
    generalize sanitizeTranscript u text = escaped at hHere
    have hLength := length_encode escaped
    have hPos : 0 < (encode escaped).length := by
      rw [hLength]
      exact Nat.pos_of_ne_zero (mt byteLen_eq_zero.mp hHere)
    by_cases hFits : used + (encode escaped).length ≤ limit
    · rw [StreamByteCap.push_fits hOpen hPos hFits]
      obtain ⟨pieces, marker, hStreamed, hSent, hFull⟩ :=
        ih hRest hFits (sent ++ [encode escaped]) (full ++ encode escaped)
      have hRoom : limit - (used + (encode escaped).length) = limit - used - byteLen escaped := by
        omega
      rw [hRoom] at hStreamed
      refine ⟨encode escaped :: pieces, marker, ⟨?_, ?_, ?_⟩, ?_, ?_⟩
      · have hAll : (encode escaped).take (limit - used) = encode escaped :=
          List.take_of_length_le (by omega)
        rw [List.flatten_cons, hStreamed.bytes, encode_append, List.take_append, hAll, hLength]
      · rw [cutText_append (by omega), ← hStreamed.text, clientText, List.flatMap_cons,
          lossyText_encode]
        rfl
      · rw [hStreamed.marker, byteLen_append]
        exact if_congr (by omega) rfl rfl
      · refine Eq.trans hSent ?_
        rw [List.append_assoc sent, List.singleton_append]
      · refine Eq.trans hFull ?_
        rw [List.flatten_cons, ← List.append_assoc full]
    · rw [StreamByteCap.push_cuts hOpen hUsed (Nat.lt_of_not_le hFits)]
      have hCut : limit - used < byteLen escaped := by omega
      have hTake : (encode escaped).take (limit - used) =
          (encode (escaped ++ sanitizeTranscript u rest.flatten)).take (limit - used) := by
        rw [encode_append, List.take_append_of_le_length (by omega)]
      have hMarker : [encode truncationSuffix] =
          if byteLen (escaped ++ sanitizeTranscript u rest.flatten) ≤ limit - used then []
          else [encode truncationSuffix] := by
        rw [byteLen_append, if_neg (by omega)]
      have hText : lossyText ((encode escaped).take (limit - used)) =
          cutText (limit - used) (escaped ++ sanitizeTranscript u rest.flatten) := by
        rw [lossyText_take, cutText_append_of_lt hCut]
      rw [if_pos rfl]
      dsimp only
      rw [mergeLines_after]
      by_cases hRoom : 0 < limit - used
      · rw [if_pos hRoom]
        refine ⟨[(encode escaped).take (limit - used)], [encode truncationSuffix],
          ⟨?_, ?_, hMarker⟩, rfl, ?_⟩
        · rw [List.flatten_singleton, hTake]
        · rw [clientText_singleton, hText]
        · rw [List.flatten_singleton, List.flatten_singleton]
      · have hZero : limit - used = 0 := by omega
        rw [if_neg hRoom]
        refine ⟨[], [encode truncationSuffix], ⟨?_, ?_, hMarker⟩, rfl, ?_⟩
        · rw [hZero]
          rfl
        · rw [hZero, cutText_zero]
          rfl
        · rw [hZero, List.flatten_singleton, List.take_zero]
          rfl

/-! ## The exit code -/

theorem showInt_ascii {n : Int} {c : Char} (h : c ∈ showInt n) : c.toNat < 128 := by
  have hDigit : ∀ {m : Nat}, c ∈ Nat.toDigits 10 m → c.toNat < 128 := by
    intro m hMem
    have hIs := Nat.isDigit_of_mem_toDigits (by decide) (by decide) hMem
    simp only [Char.isDigit, Bool.and_eq_true, decide_eq_true_eq, UInt32.le_iff_toNat_le] at hIs
    exact Nat.lt_of_le_of_lt hIs.2 (by decide)
  unfold showInt at h
  split at h
  · rcases List.mem_cons.mp h with rfl | hMem
    · decide
    · exact hDigit hMem
  · exact hDigit h

theorem length_showInt_le (code : Option Int32) : (showInt (exitCode code)).length ≤ 11 := by
  have hLow := (code.getD (-1)).le_toInt
  have hHigh := (code.getD (-1)).toInt_lt
  have hDigits : ∀ m : Nat, m < 10000000000 → (Nat.toDigits 10 m).length ≤ 10 := fun m hLt =>
    (Nat.length_toDigits_le_iff (k := 10) (by decide) (by decide)).mpr
      (Nat.lt_of_lt_of_le hLt (by decide))
  rw [exitCode]
  generalize (code.getD (-1)).toInt = n at hLow hHigh
  have hShort := hDigits n.natAbs (by omega)
  unfold showInt
  split
  · rw [List.length_cons]
    omega
  · omega

def exitFooter (n : Int) : List Char := "\n\nExit code: ".toList ++ showInt n

theorem byteLen_exitFooter (n : Int) : byteLen (exitFooter n) = 13 + (showInt n).length := by
  have hText : byteLen "\n\nExit code: ".toList = 13 := by decide
  have hDigits := byteLen_of_ascii fun _ hMem => @showInt_ascii n _ hMem
  calc byteLen (exitFooter n)
      = byteLen "\n\nExit code: ".toList + byteLen (showInt n) := byteLen_append _ _
    _ = 13 + (showInt n).length := congrArg₂ (fun a b => a + b) hText hDigits

/-! ## The record -/

/-- The text that the client has, and the body of the record. -/
def streamedText (n : Nat) (escaped : List Char) : List Char :=
  cutText n escaped ++ if byteLen escaped ≤ n then [] else truncationSuffix

theorem streamedText_of_le {n : Nat} {escaped : List Char} (h : byteLen escaped ≤ n) :
    streamedText n escaped = escaped := by
  rw [streamedText, cutText_of_le h, if_pos h, List.append_nil]

theorem streamedText_of_lt {n : Nat} {escaped : List Char} (h : n < byteLen escaped) :
    streamedText n escaped = cutText n escaped ++ truncationSuffix := by
  rw [streamedText, if_neg (Nat.not_le_of_lt h)]

theorem byteLen_cutText {n : Nat} {text : List Char} (h : n < byteLen text) :
    byteLen (cutText n text) =
      byteLen (bytePrefix n text) + if byteLen (bytePrefix n text) < n then 3 else 0 := by
  have hMark : byteLen ['\uFFFD'] = 3 := by decide
  rw [cutText, byteLen_append, Nat.min_eq_left (Nat.le_of_lt h)]
  split
  · rw [hMark]
  · rfl

theorem shellHeader_concat (displayCmd : List Char) :
    sanitizeTranscript u (shellHeader displayCmd) =
      sanitizeTranscript u ("$ ".toList ++ displayCmd) ++ ['\n'] := by
  have hNewline : FormatFree u ['\n'] :=
    formatFree_of_ascii (List.all_iff_forall_prop.mp (by decide))
  rw [shellHeader, sanitizeTranscript_append, sanitizeTranscript_of_formatFree hNewline]

theorem shellOutputFramingReservation_eq (displayCmd : List Char) :
    shellOutputFramingReservation u displayCmd =
      byteLen (sanitizeTranscript u (shellHeader displayCmd)) + 54 := by
  have hFooter : byteLen "\n\nExit code: -2147483648".toList = 24 := by decide +kernel
  rw [shellOutputFramingReservation, hFooter, byteLen_truncationSuffix]

/-- What the framing leaves is enough for the record of the streamed output. With an escaped
output that is cut inside a character the record is longer than what was reserved by as much as
the replacement character is longer than the bytes in front of the cut. -/
def FramingSuffices (u : UnicodeTables) (displayCmd output : List Char) (exit : Int) : Prop :=
  let header := byteLen (sanitizeTranscript u (shellHeader displayCmd))
  let escaped := sanitizeTranscript u output
  let reserved := shellOutputFramingReservation u displayCmd
  let limit := maxToolOutputBytes - reserved
  let inside := limit - byteLen (bytePrefix limit escaped)
  if reserved ≤ maxToolOutputBytes then
    byteLen escaped ≤ limit ∨ inside = 0 ∨ (showInt exit).length ≤ 8 + inside
  else if output = [] then header + 28 + (showInt exit).length ≤ maxToolOutputBytes
  else header + 43 + (showInt exit).length ≤ maxToolOutputBytes ∨
    header + 28 + (showInt exit).length = maxToolOutputBytes

/-- The cap of the record leaves the streamed text alone. -/
theorem framingSuffices_iff (displayCmd output : List Char) {exit : Int}
    (hDigits : (showInt exit).length ≤ 11) :
    FramingSuffices u displayCmd output exit ↔
      truncateToolOutputAt
          (sanitizeTranscript u (shellHeader displayCmd) ++
            streamedText (maxToolOutputBytes - shellOutputFramingReservation u displayCmd)
              (sanitizeTranscript u output))
          (maxToolOutputBytes - (byteLen (exitFooter exit) + byteLen truncationSuffix)) =
        sanitizeTranscript u (shellHeader displayCmd) ++
          streamedText (maxToolOutputBytes - shellOutputFramingReservation u displayCmd)
            (sanitizeTranscript u output) := by
  have hMax : maxToolOutputBytes = 131072 := rfl
  have hNil := @sanitizeTranscript_eq_nil_iff u output
  have hConcat := @shellHeader_concat u displayCmd
  unfold FramingSuffices
  dsimp only
  rw [truncateToolOutputAt_eq_self_iff, byteLen_exitFooter, byteLen_truncationSuffix,
    byteLen_append, shellOutputFramingReservation_eq]
  generalize sanitizeTranscript u (shellHeader displayCmd) = header at *
  generalize sanitizeTranscript u output = escaped at *
  generalize (showInt exit).length = digits at *
  have hSuffix := byteLen_truncationSuffix
  by_cases hRoom : byteLen header + 54 ≤ maxToolOutputBytes
  · rw [if_pos hRoom]
    generalize hLimit : maxToolOutputBytes - (byteLen header + 54) = limit
    by_cases hFits : byteLen escaped ≤ limit
    · rw [streamedText_of_le hFits]
      exact iff_of_true (.inl hFits) (.inl (by omega))
    have hLt := Nat.lt_of_not_le hFits
    have hLe := byteLen_bytePrefix_le limit escaped
    have hCut := byteLen_cutText hLt
    rw [or_iff_right hFits, streamedText_of_lt hLt, byteLen_append, hSuffix, hCut]
    -- A record that is cut at the cap is shorter than the stream.
    have hNoCut : ¬ ∃ kept, byteLen kept = maxToolOutputBytes - (13 + digits + 15) ∧
        header ++ (cutText limit escaped ++ truncationSuffix) = kept ++ truncationSuffix := by
      rintro ⟨kept, hKept, hSame⟩
      rw [← List.append_assoc] at hSame
      rw [← List.append_cancel_right hSame, byteLen_append, hCut] at hKept
      split at hKept <;> omega
    rw [or_iff_left hNoCut]
    split <;> omega
  · rw [if_neg hRoom, Nat.sub_eq_zero_of_le (Nat.le_of_not_le hRoom)]
    by_cases hEmpty : output = []
    · rw [if_pos hEmpty, hNil.mpr hEmpty, streamedText_of_le (Nat.le_refl 0), byteLen_nil,
        List.append_nil]
      -- The header ends with a newline, and the marker does not.
      have hNoCut : ¬ ∃ kept, byteLen kept = maxToolOutputBytes - (13 + digits + 15) ∧
          header = kept ++ truncationSuffix := by
        rintro ⟨kept, -, hSame⟩
        have hLast := congrArg List.getLast? (hConcat.symm.trans hSame)
        have hEnd : (kept ++ truncationSuffix).getLast? = some ']' := by
          rw [List.getLast?_append_of_ne_nil _ (by decide)]
          rfl
        rw [hEnd, List.getLast?_concat] at hLast
        cases hLast
      rw [or_iff_left hNoCut]
      omega
    · have hPos : 0 < byteLen escaped :=
        Nat.pos_of_ne_zero (mt byteLen_eq_zero.mp (mt hNil.mp hEmpty))
      rw [if_neg hEmpty, streamedText_of_lt hPos, cutText_zero, List.nil_append, hSuffix]
      have hKept : (∃ kept, byteLen kept = maxToolOutputBytes - (13 + digits + 15) ∧
          header ++ truncationSuffix = kept ++ truncationSuffix) ↔
            byteLen header = maxToolOutputBytes - (13 + digits + 15) := by
        constructor
        · rintro ⟨kept, hKept, hSame⟩
          rwa [List.append_cancel_right hSame]
        · exact fun hEq => ⟨header, hEq, rfl⟩
      rw [hKept]
      omega

theorem replacement_formatFree (hReplacement : u.isFormat '\uFFFD' = false) {escaped : List Char}
    (h : FormatFree u escaped) (n : Nat) : FormatFree u (streamedText n escaped) := by
  unfold streamedText cutText
  refine FormatFree.append ((h.bytePrefix n).append ?_) ?_
  · split
    · refine List.forall_mem_singleton.mpr ?_
      rw [isNonJoinerFormatChar, hReplacement, Bool.false_and]
    · exact fun _ hMem => absurd hMem List.not_mem_nil
  · split
    · exact fun _ hMem => absurd hMem List.not_mem_nil
    · exact truncationSuffix_formatFree

/-- What the client is told and what is recorded: the record is the header, the text that the
client has, and the footer; at most one marker was added to the output; and the record is within
the budget. -/
structure StreamMatchesRecord (u : UnicodeTables) (displayCmd output : List Char) (exit : Int)
    (streamed : List (List UInt8) × List Char) : Prop where
  body : streamed.2 = sanitizeTranscript u (shellHeader displayCmd) ++ clientText streamed.1 ++
    exitFooter exit
  marker : ∃ pieces marker, streamed.1 = pieces ++ marker ∧
    pieces.flatten <+: encode (sanitizeTranscript u output) ∧
    (marker = [] ∨ marker = [encode truncationSuffix])
  within : byteLen streamed.2 ≤ maxToolOutputBytes

theorem runShellStreaming_matches_iff (hReplacement : u.isFormat '\uFFFD' = false)
    (hOpen : channel.Open) {texts : List (List Char)} (hSome : ∀ text ∈ texts, text ≠ [])
    (displayCmd : List Char) (code : Option Int32) (timeoutMs : Nat) :
    StreamMatchesRecord u displayCmd texts.flatten (exitCode code)
        (runShellStreaming u channel displayCmd (texts.map encode) code timeoutMs) ↔
      FramingSuffices u displayCmd texts.flatten (exitCode code) := by
  have hMax : maxToolOutputBytes = 131072 := rfl
  rw [framingSuffices_iff displayCmd texts.flatten (length_showInt_le code)]
  generalize hLimit : maxToolOutputBytes - shellOutputFramingReservation u displayCmd = limit
  obtain ⟨pieces, marker, hStreamed, hSent, hFull⟩ :=
    @mergeLines_streamed u channel hOpen texts hSome limit 0 (Nat.zero_le limit) [] []
  rw [Nat.sub_zero] at hStreamed
  rw [List.nil_append] at hSent hFull
  generalize hRun : runShellStreaming u channel displayCmd (texts.map encode) code timeoutMs = run
  have hChunks : run.1 = pieces ++ marker := by
    rw [← hRun, ← hSent, ← hLimit]
    rfl
  -- The client's text and the decoded body.
  have hClient : clientText run.1 = streamedText limit (sanitizeTranscript u texts.flatten) := by
    rw [hChunks, clientText_append, hStreamed.text, hStreamed.marker, streamedText]
    split
    · rfl
    · rw [clientText_singleton, lossyText_encode]
  have hBody : lossyText (pieces.flatten ++ marker.flatten) =
      streamedText limit (sanitizeTranscript u texts.flatten) := by
    rw [hStreamed.bytes, hStreamed.marker, streamedText]
    split
    · rw [List.flatten_nil, List.append_nil, lossyText_take, List.append_nil]
    · rw [List.flatten_singleton]
      exact lossyText_take_append limit _ (by decide) _
  have hFree := replacement_formatFree hReplacement
    (@sanitizeTranscript_formatFree u texts.flatten) limit
  have hRecord : run.2 = truncateToolOutputAt
      (sanitizeTranscript u (shellHeader displayCmd) ++
        streamedText limit (sanitizeTranscript u texts.flatten))
      (maxToolOutputBytes - (byteLen (exitFooter (exitCode code)) + byteLen truncationSuffix)) ++
        exitFooter (exitCode code) := by
    have hFormat : run.2 = finishToolOutputSanitized u
        (shellHeader displayCmd ++ lossyText (pieces.flatten ++ marker.flatten))
        (some ("\nExit code: ".toList ++ showInt (exitCode code))) := by
      rw [← hRun, ← hFull, ← hLimit]
      rfl
    rw [hFormat, hBody, finishToolOutputSanitized, sanitizeTranscript_append,
      sanitizeTranscript_of_formatFree hFree]
    rfl
  constructor
  · intro h
    have hSame := h.body
    rw [hRecord, hClient] at hSame
    exact List.append_cancel_right hSame
  · intro h
    refine ⟨?_, ⟨pieces, marker, hChunks, ?_, ?_⟩, ?_⟩
    · rw [hRecord, hClient, h]
    · rw [hStreamed.bytes]
      exact List.take_prefix _ _
    · rw [hStreamed.marker]
      split
      · exact .inl rfl
      · exact .inr rfl
    · have hShort := length_showInt_le code
      have hCap := byteLen_truncateToolOutputAt_le (sanitizeTranscript u (shellHeader displayCmd) ++
        streamedText limit (sanitizeTranscript u texts.flatten))
        (maxToolOutputBytes - (byteLen (exitFooter (exitCode code)) + byteLen truncationSuffix))
      rw [hRecord, byteLen_append]
      rw [byteLen_exitFooter, byteLen_truncationSuffix] at hCap ⊢
      omega

/-! ## Two pipes -/

/-- The lines of a pipe are its stream with CRLF as LF, each of them a text. -/
structure DrainedAs (reads : List (List UInt8)) (stream : List Char) : Prop where
  folded : (lineDrain reads).flatten = encode (foldCrlf stream)
  boundaries : ∀ line ∈ lineDrain reads, ∃ text, line = encode text

theorem drainedAs {reads : List (List UInt8)} {stream : List Char}
    (h : reads.flatten = encode stream) : DrainedAs reads stream :=
  ⟨(lineDrain_spec h).1, fun line hMem => ((lineDrain_spec h).2 line hMem).2⟩

theorem Merges.mem {α : Type} {xs ys zs : List α} (h : Merges xs ys zs) :
    ∀ z ∈ zs, z ∈ xs ∨ z ∈ ys := by
  induction h with
  | done => exact fun _ hMem => absurd hMem List.not_mem_nil
  | left _ ih =>
    intro z hMem
    rcases List.mem_cons.mp hMem with rfl | hRest
    · exact .inl List.mem_cons_self
    · exact (ih z hRest).imp_left (List.mem_cons_of_mem _)
  | right _ ih =>
    intro z hMem
    rcases List.mem_cons.mp hMem with rfl | hRest
    · exact .inr List.mem_cons_self
    · exact (ih z hRest).imp_right (List.mem_cons_of_mem _)

theorem Merges.nil_right {α : Type} (xs : List α) : Merges xs [] xs := by
  induction xs with
  | nil => exact .done
  | cons x xs ih => exact .left ih

theorem lines_eq_encode {lines : List (List UInt8)}
    (h : ∀ line ∈ lines, line ≠ [] ∧ ∃ text, line = encode text) :
    lines = (lines.map lossyText).map encode ∧ ∀ text ∈ lines.map lossyText, text ≠ [] := by
  constructor
  · rw [List.map_map]
    refine (List.map_id lines).symm.trans (List.map_congr_left fun line hMem => ?_)
    obtain ⟨text, rfl⟩ := (h line hMem).2
    rw [Function.comp_apply, lossyText_encode]
    rfl
  · intro text hMem hNil
    obtain ⟨line, hLine, rfl⟩ := List.mem_map.mp hMem
    obtain ⟨hSome, text, rfl⟩ := h line hLine
    rw [lossyText_encode] at hNil
    rw [hNil] at hSome
    exact hSome rfl

theorem clientText_eq_flatten (lines : List (List UInt8)) :
    clientText lines = (lines.map lossyText).flatten := List.flatMap_def

/-- For all streams, reads and interleavings the lines are the streams with CRLF as LF, and the
record is what was streamed exactly if the framing suffices. -/
theorem shellStream_matches_iff (u : UnicodeTables) (hReplacement : u.isFormat '\uFFFD' = false)
    (channel : StreamChannel) (hOpen : channel.Open) (out err : List Char)
    (readsOut readsErr lines : List (List UInt8)) (hOut : readsOut.flatten = encode out)
    (hErr : readsErr.flatten = encode err)
    (hMerge : Merges (lineDrain readsOut) (lineDrain readsErr) lines)
    (displayCmd : List Char) (code : Option Int32) (timeoutMs : Nat) :
    (DrainedAs readsOut out ∧ DrainedAs readsErr err ∧
      StreamMatchesRecord u displayCmd (clientText lines) (exitCode code)
        (runShellStreaming u channel displayCmd lines code timeoutMs)) ↔
      FramingSuffices u displayCmd (clientText lines) (exitCode code) := by
  have hLines : ∀ line ∈ lines, line ≠ [] ∧ ∃ text, line = encode text := by
    intro line hMem
    rcases hMerge.mem line hMem with hLeft | hRight
    · exact (lineDrain_spec hOut).2 line hLeft
    · exact (lineDrain_spec hErr).2 line hRight
  obtain ⟨hTexts, hSome⟩ := lines_eq_encode hLines
  have hRun := runShellStreaming_matches_iff hReplacement hOpen hSome displayCmd code timeoutMs
  rw [← hTexts, ← clientText_eq_flatten] at hRun
  rw [← hRun]
  exact ⟨fun h => h.2.2, fun h => ⟨drainedAs hOut, drainedAs hErr, h⟩⟩

theorem okLine_matches :
    (DrainedAs [[0x6f, 0x6b, 0x0d], [0x0a]] "ok\r\n".toList ∧ DrainedAs [] [] ∧
      StreamMatchesRecord sampleTables "ls".toList (clientText [[0x6f, 0x6b, 0x0a]])
        (exitCode (some 0))
        (runShellStreaming sampleTables (fun _ => true) "ls".toList [[0x6f, 0x6b, 0x0a]] (some 0)
          1000)) ↔
      FramingSuffices sampleTables "ls".toList (clientText [[0x6f, 0x6b, 0x0a]])
        (exitCode (some 0)) := by
  have hLines : lineDrain [[0x6f, 0x6b, 0x0d], [0x0a]] = [[0x6f, 0x6b, 0x0a]] := by decide
  refine shellStream_matches_iff sampleTables rfl (fun _ => true) (fun _ => rfl)
    "ok\r\n".toList [] [[0x6f, 0x6b, 0x0d], [0x0a]] [] [[0x6f, 0x6b, 0x0a]] (by decide) rfl ?_
    "ls".toList (some 0) 1000
  rw [hLines]
  exact Merges.left Merges.done

/-! ## A cut inside a character -/

theorem foldCrlf_of_not_mem {text : List Char} (h : '\r' ∉ text) : foldCrlf text = text := by
  induction text with
  | nil => rfl
  | cons c rest ih =>
    rw [List.mem_cons, not_or] at h
    rw [foldCrlf, if_neg fun hCrlf => h.1 hCrlf.1.symm, ih h.2]

theorem clientText_lineDrain {reads : List (List UInt8)} {text : List Char}
    (h : reads.flatten = encode text) : clientText (lineDrain reads) = foldCrlf text := by
  have hSpec := lineDrain_spec h
  have hTexts := (lines_eq_encode hSpec.2).1
  have hEncode : ∀ texts : List (List Char), (texts.map encode).flatten = encode texts.flatten := by
    intro texts
    induction texts with
    | nil => rfl
    | cons text rest ih =>
      rw [List.map_cons, List.flatten_cons, ih, List.flatten_cons, encode_append]
  have hFlat := hSpec.1
  rw [hTexts, hEncode] at hFlat
  rw [clientText_eq_flatten, ← lossyText_encode (foldCrlf text), ← hFlat, lossyText_encode]

/-- Characters of two bytes: with a header of five bytes the budget ends inside one of them. -/
def accents : List Char := List.replicate 65507 'é'

/-- A read for each character. -/
def accentReads : List (List UInt8) := List.replicate 65507 (String.utf8EncodeChar 'é')

theorem accentReads_flatten : accentReads.flatten = encode accents := by
  rw [accentReads, accents, encode, List.flatMap_def, List.map_replicate]

theorem not_framingSuffices_accents :
    ¬ FramingSuffices sampleTables "ls".toList accents (exitCode (some (-1073741819))) := by
  have hMax : maxToolOutputBytes = 131072 := rfl
  have hSize : ('é').utf8Size = 2 := by decide
  have hDigits : (showInt (exitCode (some (-1073741819)))).length = 11 := by decide +kernel
  have hHeader : byteLen (sanitizeTranscript sampleTables (shellHeader "ls".toList)) = 5 := by
    decide +kernel
  have hFree : FormatFree sampleTables accents := by
    intro c hMem
    rw [List.eq_of_mem_replicate hMem]
    decide
  unfold FramingSuffices
  dsimp only
  rw [shellOutputFramingReservation_eq, hHeader, hDigits, sanitizeTranscript_of_formatFree hFree,
    accents, bytePrefix_replicate, byteLen_replicate, byteLen_replicate, hSize, hMax,
    if_pos (by omega)]
  omega

/-- The exit code of a crash on Windows: the record is cut once more, and what the client has is
no longer its body. -/
theorem accents_not_matched :
    accentReads.flatten = encode accents ∧
      Merges (lineDrain accentReads) (lineDrain []) (lineDrain accentReads) ∧
      shellOutputFramingReservation sampleTables "ls".toList ≤ maxToolOutputBytes ∧
      ¬ StreamMatchesRecord sampleTables "ls".toList (clientText (lineDrain accentReads))
        (exitCode (some (-1073741819)))
        (runShellStreaming sampleTables (fun _ => true) "ls".toList (lineDrain accentReads)
          (some (-1073741819)) 1000) := by
  refine ⟨accentReads_flatten, .nil_right _, by decide +kernel, ?_⟩
  obtain ⟨hTexts, hSome⟩ := lines_eq_encode (lineDrain_spec accentReads_flatten).2
  have hOpen : StreamChannel.Open fun _ => true := fun _ => rfl
  have hRun := @runShellStreaming_matches_iff sampleTables (fun _ => true) rfl hOpen _ hSome
    "ls".toList (some (-1073741819)) 1000
  have hPlain : '\r' ∉ accents := fun hMem =>
    absurd (List.eq_of_mem_replicate hMem) (by decide)
  have hText := clientText_lineDrain accentReads_flatten
  rw [foldCrlf_of_not_mem hPlain] at hText
  rw [← hTexts, ← clientText_eq_flatten, hText] at hRun
  rw [hText, hRun]
  exact not_framingSuffices_accents

end Choreographr.Tools
