import Choreographr.Tools.ShellStream

/-!
# The lines of a drained pipe

Whatever the reads are, the lines of a pipe are its stream with every CRLF as an LF, and every
line is a text: a character is held back until it is whole. A CR at the end of the buffer is held
back too, so the LF behind it finds it there.
-/

namespace Choreographr.Tools

open Lib

variable {c : Char} {acc part : List UInt8} {s : LineBuffer}

/-- The text with CRLF as LF. -/
def foldCrlf : List Char → List Char
  | [] => []
  | c :: rest => if c = '\r' ∧ rest.head? = some '\n' then foldCrlf rest else c :: foldCrlf rest

/-! ## Bytes of a text -/

theorem carriageReturn_mem (h : 0x0d ∈ String.utf8EncodeChar c) : c = '\r' :=
  Char.ext (UInt32.toNat_inj.mp (mem_encodeChar_ascii (by decide) h))

theorem lineFeed_mem (h : 0x0a ∈ String.utf8EncodeChar c) : c = '\n' :=
  Char.ext (UInt32.toNat_inj.mp (mem_encodeChar_ascii (by decide) h))

theorem encodeChar_ne_nil (c : Char) : String.utf8EncodeChar c ≠ [] := by
  have hPos := c.utf8Size_pos
  rw [← String.length_utf8EncodeChar] at hPos
  exact List.length_pos_iff.mp hPos

theorem encode_concat (text : List Char) (c : Char) :
    encode (text ++ [c]) = encode text ++ String.utf8EncodeChar c := by
  rw [encode_append, encode_cons]
  exact congrArg _ (List.append_nil _)

theorem getLast?_encodeChar (acc : List UInt8) (c : Char) :
    (acc ++ String.utf8EncodeChar c).getLast? = some 0x0d ↔ c = '\r' := by
  rw [List.getLast?_append_of_ne_nil _ (encodeChar_ne_nil c)]
  constructor
  · exact fun h => carriageReturn_mem (List.mem_of_getLast? h)
  · rintro rfl
    rfl

theorem getLast?_encode (text : List Char) :
    (encode text).getLast? = some 0x0d ↔ text.getLast? = some '\r' := by
  rcases List.eq_nil_or_concat text with rfl | ⟨front, c, rfl⟩
  · exact ⟨fun h => (by cases h), fun h => (by cases h)⟩
  · rw [List.concat_eq_append, encode_concat, getLast?_encodeChar, List.getLast?_concat,
      Option.some.injEq]

/-! ## What is held back -/

theorem expectedContinuations_eq {lead : UInt8} {more : List UInt8}
    (h : String.utf8EncodeChar c = lead :: more) :
    expectedContinuations lead = more.length ∧ isContinuation lead = false ∧
      ∀ b ∈ more, isContinuation b = true := by
  obtain ⟨lead', more', hShape, hMore, hLead⟩ := encodeChar_shape c
  rw [hShape] at h
  obtain ⟨rfl, rfl⟩ := List.cons.inj h
  refine ⟨?_, ?_, hMore⟩
  · unfold expectedContinuations
    split
    · omega
    split
    · omega
    split <;> omega
  · rw [isContinuation, Bool.and_eq_false_iff, decide_eq_false_iff_not, decide_eq_false_iff_not]
    omega

theorem unfinishedLen_walk {front more : List UInt8} {lead : UInt8}
    (hLead : isContinuation lead = false) (hMore : ∀ b ∈ more, isContinuation b = true) :
    unfinishedLen (front ++ lead :: more).reverse =
      if more.length < expectedContinuations lead then more.length + 1 else 0 := by
  have hBack : (front ++ lead :: more).reverse = more.reverse ++ lead :: front.reverse := by
    rw [List.reverse_append, List.reverse_cons, List.append_assoc, List.singleton_append]
  have hAll : ∀ b ∈ more.reverse, isContinuation b = true := fun b hMem =>
    hMore b (List.mem_reverse.mp hMem)
  have hWalk : (more.reverse ++ lead :: front.reverse).takeWhile isContinuation =
      more.reverse := by
    rw [List.takeWhile_append_of_pos hAll, List.takeWhile_cons_of_neg (by simp [hLead]),
      List.append_nil]
  rw [hBack, unfinishedLen, hWalk, List.drop_left, List.length_reverse]

theorem unfinishedLen_encode (text : List Char) : unfinishedLen (encode text).reverse = 0 := by
  rcases List.eq_nil_or_concat text with rfl | ⟨front, c, rfl⟩
  · rfl
  obtain ⟨lead, more, hShape, -⟩ := encodeChar_shape c
  obtain ⟨hExpected, hLead, hMore⟩ := expectedContinuations_eq hShape
  rw [List.concat_eq_append, encode_concat, hShape, unfinishedLen_walk hLead hMore]
  exact if_neg (by omega)

theorem partialTailLen_encode (text : List Char) :
    partialTailLen (encode text) = if text.getLast? = some '\r' then 1 else 0 := by
  unfold partialTailLen
  by_cases hLast : text.getLast? = some '\r'
  · obtain ⟨front, rfl⟩ := List.getLast?_eq_some_iff.mp hLast
    have hBack : (encode (front ++ ['\r'])).reverse.drop 1 = (encode front).reverse := by
      rw [encode_concat, List.reverse_append]
      rfl
    rw [if_pos ((getLast?_encode _).mpr hLast), if_pos hLast]
    dsimp only
    rw [hBack, unfinishedLen_encode]
  · rw [if_neg (mt (getLast?_encode _).mp hLast), if_neg hLast]
    exact unfinishedLen_encode text

/-- The bytes of a character that has begun are held back. -/
theorem partialTailLen_part (text : List Char) (h : BeginsChar part) (hSome : part ≠ []) :
    partialTailLen (encode text ++ part) = part.length := by
  obtain ⟨c, hLt, hPrefix⟩ := h
  obtain ⟨lead, more, hShape, -⟩ := encodeChar_shape c
  obtain ⟨hExpected, hLead, hMore⟩ := expectedContinuations_eq hShape
  rw [← String.length_utf8EncodeChar] at hLt
  rw [hShape] at hLt hPrefix
  obtain ⟨b, conts, rfl⟩ := List.exists_cons_of_ne_nil hSome
  obtain ⟨rfl, hConts⟩ := List.cons_prefix_cons.mp hPrefix
  rw [List.length_cons, List.length_cons] at hLt
  have hNoCr : (encode text ++ b :: conts).getLast? ≠ some 0x0d := by
    rw [List.getLast?_append_of_ne_nil _ hSome]
    intro hCr
    have hMem : 0x0d ∈ String.utf8EncodeChar c := by
      rw [hShape]
      exact hPrefix.subset (List.mem_of_getLast? hCr)
    rw [carriageReturn_mem hMem] at hShape
    have hNone : more = [] := (List.cons.inj hShape).2.symm
    rw [hNone, List.length_nil] at hLt
    omega
  have hWalk := @unfinishedLen_walk (encode text) conts b hLead fun x hMem =>
    hMore x (hConts.subset hMem)
  unfold partialTailLen
  rw [if_neg hNoCr]
  dsimp only
  rw [List.drop_zero, hWalk]
  exact if_pos (by omega)

/-! ## The buffer -/

/-- The stream so far, with a CR dropped in front of an LF. -/
def foldByte (acc : List UInt8) (b : UInt8) : List UInt8 :=
  (if b = 0x0a ∧ acc.getLast? = some 0x0d then acc.dropLast else acc) ++ [b]

/-- The lines and the buffer hold the stream so far. The lines are texts; the buffer is one, up to
the bytes of a character that has begun. -/
structure LineBuffer.Holds (s : LineBuffer) (acc part : List UInt8) : Prop where
  total : s.lines.flatten ++ s.pending = acc
  /-- A CR at the end is still in the buffer. -/
  keepsCr : s.pending = [] → acc.getLast? ≠ some 0x0d
  lines : ∀ line ∈ s.lines, line ≠ [] ∧ ∃ text, line = encode text
  pending : ∃ text, s.pending = encode text ++ part

theorem LineBuffer.Holds.lines_concat {line : List UInt8} (h : s.Holds acc part) (hSome : line ≠ [])
    (hText : ∃ text, line = encode text) :
    ∀ line' ∈ s.lines ++ [line], line' ≠ [] ∧ ∃ text, line' = encode text := by
  intro line' hMem
  rcases List.mem_append.mp hMem with hOld | hNew
  · exact h.lines line' hOld
  · rw [List.mem_singleton.mp hNew]
    exact ⟨hSome, hText⟩

/-- What is held back of a buffer: a CR, or the bytes of a character that has begun. -/
theorem partialTailLen_split (text : List Char) (hPart : part = [] ∨ BeginsChar part) :
    ∃ kept held, text = kept ++ held ∧ byteLen held ≤ 1 ∧
      partialTailLen (encode text ++ part) = (encode held ++ part).length ∧
      (encode held ++ part = [] → (encode text ++ part).getLast? ≠ some 0x0d) := by
  by_cases hNil : part = []
  · subst hNil
    simp only [List.append_nil]
    rw [partialTailLen_encode]
    by_cases hLast : text.getLast? = some '\r'
    · obtain ⟨front, rfl⟩ := List.getLast?_eq_some_iff.mp hLast
      refine ⟨front, ['\r'], rfl, by decide, ?_, fun h => absurd h (by decide)⟩
      rw [if_pos hLast]
      rfl
    · refine ⟨text, [], (List.append_nil text).symm, Nat.zero_le 1, if_neg hLast, fun _ => ?_⟩
      exact mt (getLast?_encode text).mp hLast
  · have hBegins := hPart.resolve_left hNil
    refine ⟨text, [], (List.append_nil text).symm, Nat.zero_le 1,
      partialTailLen_part text hBegins hNil, fun h => absurd h hNil⟩

/-- A flush forwards a text. -/
theorem LineBuffer.Holds.flush (h : s.Holds acc part) (hPart : part = [] ∨ BeginsChar part)
    (hLong : maxPendingLineBytes ≤ s.pending.length) : (flushPartialLine s).Holds acc part := by
  have hMax : maxPendingLineBytes = 16384 := rfl
  obtain ⟨text, hText⟩ := h.pending
  obtain ⟨kept, held, hSplit, hShort, hTail, hCr⟩ := partialTailLen_split text hPart
  rw [← hText] at hTail hCr
  have hPending : s.pending = encode kept ++ (encode held ++ part) := by
    rw [hText, hSplit, encode_append, List.append_assoc]
  have hLength := congrArg List.length hPending
  rw [List.length_append] at hLength
  have hPlace : s.pending.length - partialTailLen s.pending = (encode kept).length := by omega
  have hLine : s.pending.take (encode kept).length = encode kept := by
    rw [hPending, List.take_left]
  have hRest : s.pending.drop (encode kept).length = encode held ++ part := by
    rw [hPending, List.drop_left]
  have hSome : encode kept ≠ [] := by
    have hPartShort : part.length ≤ 3 := by
      rcases hPart with rfl | hBegins
      · exact Nat.zero_le 3
      · exact hBegins.length_le
    rw [List.length_append, length_encode held] at hLength
    refine List.length_pos_iff.mp ?_
    omega
  unfold flushPartialLine
  dsimp only
  rw [hPlace, hLine, hRest]
  refine ⟨?_, fun hNil => ?_, h.lines_concat hSome ⟨kept, rfl⟩, held, rfl⟩
  · rw [List.flatten_append, List.flatten_singleton, List.append_assoc, ← hPending]
    exact h.total
  · -- Nothing was held back, so the buffer did not end with a CR.
    have hPos := List.length_pos_iff.mpr hSome
    rw [← h.total, List.getLast?_append_of_ne_nil _ (List.length_pos_iff.mp (by omega))]
    exact hCr hNil

/-- One byte, with the bytes of the character that it goes on with. -/
theorem LineBuffer.Holds.forwardByte {part' : List UInt8} {b : UInt8} (h : s.Holds acc part)
    (hByte : b ≠ 0x0a) (hPart : part' = [] ∨ BeginsChar part')
    (hNext : ∀ text, ∃ text', encode text ++ (part ++ [b]) = encode text' ++ part') :
    (forwardByte s b).Holds (foldByte acc b) part' := by
  obtain ⟨text, hText⟩ := h.pending
  obtain ⟨text', hText'⟩ := hNext text
  have hHolds : (LineBuffer.mk (s.pending ++ [b]) s.lines).Holds (acc ++ [b]) part' := by
    refine ⟨?_, fun hNil => absurd hNil (by simp), h.lines, text', ?_⟩
    · rw [← h.total, List.append_assoc]
    · dsimp only
      rw [hText, List.append_assoc, hText']
  unfold Tools.forwardByte foldByte
  simp only [hByte, false_and, if_false]
  split
  · rename_i hLong
    exact hHolds.flush hPart hLong
  · exact hHolds

/-- An LF ends the line, and takes the CR in front of it away. -/
theorem LineBuffer.Holds.lineFeed (h : s.Holds acc []) :
    (Tools.forwardByte s 0x0a).Holds (foldByte acc 0x0a) [] := by
  obtain ⟨text, hText⟩ := h.pending
  rw [List.append_nil] at hText
  have hLast : acc.getLast? = some 0x0d ↔ s.pending.getLast? = some 0x0d := by
    rw [← h.total]
    by_cases hNil : s.pending = []
    · have hNot := h.keepsCr hNil
      rw [← h.total] at hNot
      rw [hNil] at hNot ⊢
      exact ⟨fun hCr => absurd hCr hNot, fun hCr => by cases hCr⟩
    · rw [List.getLast?_append_of_ne_nil _ hNil]
  have hLine : ∀ front : List Char, ∃ line, encode front ++ [0x0a] = encode line := fun front =>
    ⟨front ++ ['\n'], (encode_concat front '\n').symm⟩
  unfold Tools.forwardByte foldByte
  simp only [true_and, if_true, hLast]
  refine ⟨?_, fun _ hCr => ?_, h.lines_concat (by simp) ?_, [], rfl⟩
  · rw [List.append_nil, List.flatten_append, List.flatten_singleton, ← List.append_assoc]
    refine congrArg (fun front => front ++ [(0x0a : UInt8)]) ?_
    by_cases hCr : s.pending.getLast? = some 0x0d
    · have hSome : s.pending ≠ [] := fun hNil => by
        rw [hNil] at hCr
        cases hCr
      rw [if_pos hCr, if_pos hCr, ← h.total, List.dropLast_append_of_ne_nil hSome]
    · rw [if_neg hCr, if_neg hCr]
      exact h.total
  · rw [List.getLast?_concat] at hCr
    cases hCr
  · by_cases hCr : s.pending.getLast? = some 0x0d
    · rw [if_pos hCr]
      rw [hText] at hCr ⊢
      obtain ⟨front, rfl⟩ := List.getLast?_eq_some_iff.mp ((getLast?_encode text).mp hCr)
      obtain ⟨line, hEq⟩ := hLine front
      refine ⟨line, ?_⟩
      rw [encode_concat, ← hEq]
      exact congrArg (fun bytes => bytes ++ [(0x0a : UInt8)]) List.dropLast_concat
    · rw [if_neg hCr, hText]
      exact hLine text

/-- The bytes of a character. -/
theorem LineBuffer.Holds.char (rest : List UInt8) :
    ∀ {s : LineBuffer} {acc part : List UInt8}, s.Holds acc part →
      part ++ rest = String.utf8EncodeChar c → rest ≠ [] →
      (rest.foldl Tools.forwardByte s).Holds (rest.foldl foldByte acc) [] := by
  induction rest with
  | nil => exact fun _ _ hSome => absurd rfl hSome
  | cons b rest ih =>
    intro s acc part h hChar _
    have hMem : b ∈ String.utf8EncodeChar c := by
      rw [← hChar]
      exact List.mem_append_right part List.mem_cons_self
    rw [List.foldl_cons, List.foldl_cons]
    by_cases hLf : b = 0x0a
    · subst hLf
      rw [lineFeed_mem hMem] at hChar
      have hLength := congrArg List.length hChar
      rw [List.length_append, List.length_cons] at hLength
      change _ = 1 at hLength
      have hPart : part = [] := List.length_eq_zero_iff.mp (by omega)
      have hRest : rest = [] := List.length_eq_zero_iff.mp (by omega)
      rw [hPart] at h
      rw [hRest]
      exact h.lineFeed
    rw [List.append_cons] at hChar
    by_cases hLast : rest = []
    · rw [hLast, List.append_nil] at hChar
      rw [hLast]
      refine h.forwardByte hLf (.inl rfl) fun text => ⟨text ++ [c], ?_⟩
      rw [hChar, encode_concat, List.append_nil]
    · have hPos := List.length_pos_iff.mpr hLast
      have hLength := congrArg List.length hChar
      rw [List.length_append, String.length_utf8EncodeChar] at hLength
      have hBegins : BeginsChar (part ++ [b]) := ⟨c, by omega, rest, hChar⟩
      exact ih (h.forwardByte hLf (.inr hBegins) fun text => ⟨text, rfl⟩) hChar hLast

theorem LineBuffer.Holds.text (h : s.Holds acc []) (text : List Char) :
    ((encode text).foldl Tools.forwardByte s).Holds ((encode text).foldl foldByte acc) [] := by
  induction text generalizing s acc with
  | nil => exact h
  | cons c rest ih =>
    rw [encode_cons, List.foldl_append, List.foldl_append]
    exact ih (LineBuffer.Holds.char _ h (List.nil_append _) (encodeChar_ne_nil c))

/-! ## The whole stream -/

theorem foldl_foldByte_char (acc : List UInt8) (c : Char) :
    (String.utf8EncodeChar c).foldl foldByte acc =
      (if c = '\n' ∧ acc.getLast? = some 0x0d then acc.dropLast else acc) ++
        String.utf8EncodeChar c := by
  by_cases hLf : c = '\n'
  · subst hLf
    simp [String.utf8EncodeChar, foldByte]
  · have hOther : ∀ (bytes acc : List UInt8), (0x0a ∉ bytes) →
        bytes.foldl foldByte acc = acc ++ bytes := by
      intro bytes
      induction bytes with
      | nil => exact fun acc _ => (List.append_nil acc).symm
      | cons b rest ih =>
        intro acc hNone
        rw [List.mem_cons, not_or] at hNone
        rw [List.foldl_cons, ih _ hNone.2, foldByte, if_neg fun h => hNone.1 h.1.symm,
          List.append_assoc, List.singleton_append]
    rw [if_neg fun h => hLf h.1]
    exact hOther _ acc (mt lineFeed_mem hLf)

theorem foldl_foldByte_encode (text : List Char) (acc : List UInt8) :
    (encode text).foldl foldByte acc =
      (if text.head? = some '\n' ∧ acc.getLast? = some 0x0d then acc.dropLast else acc) ++
        encode (foldCrlf text) := by
  induction text generalizing acc with
  | nil =>
    rw [if_neg (by simp)]
    exact (List.append_nil acc).symm
  | cons c rest ih =>
    rw [encode_cons, List.foldl_append, foldl_foldByte_char, ih, foldCrlf]
    simp only [getLast?_encodeChar, List.head?_cons, Option.some.injEq]
    generalize (if c = '\n' ∧ acc.getLast? = some 0x0d then acc.dropLast else acc) = front
    by_cases hCrlf : c = '\r' ∧ rest.head? = some '\n'
    · rw [if_pos hCrlf, if_pos hCrlf.symm, hCrlf.1]
      exact congrArg (fun bytes => bytes ++ encode (foldCrlf rest)) List.dropLast_concat
    · rw [if_neg hCrlf, if_neg (mt And.symm hCrlf), encode_cons, List.append_assoc]

/-- The lines of a drained pipe are texts, and together they are its stream with CRLF as LF. -/
theorem lineDrain_spec {reads : List (List UInt8)} {text : List Char}
    (h : reads.flatten = encode text) :
    (lineDrain reads).flatten = encode (foldCrlf text) ∧
      ∀ line ∈ lineDrain reads, line ≠ [] ∧ ∃ t, line = encode t := by
  have hStart : (LineBuffer.mk [] []).Holds [] [] :=
    ⟨rfl, fun _ h => (by cases h), fun _ hMem => absurd hMem List.not_mem_nil, [], rfl⟩
  have hEnd := hStart.text text
  have hFold := foldl_foldByte_encode text []
  rw [if_neg (by simp), List.nil_append] at hFold
  rw [hFold] at hEnd
  have hReads : reads.foldl forwardCompleteLines ⟨[], []⟩ =
      (encode text).foldl forwardByte ⟨[], []⟩ := by
    rw [← h, List.foldl_flatten]
    rfl
  unfold lineDrain
  dsimp only
  rw [hReads]
  generalize (encode text).foldl forwardByte ⟨[], []⟩ = s at hEnd
  obtain ⟨rest, hRest⟩ := hEnd.pending
  rw [List.append_nil] at hRest
  by_cases hNil : s.pending = []
  · have hTotal := hEnd.total
    rw [hNil, List.append_nil] at hTotal
    rw [hNil, List.isEmpty_nil, if_pos rfl]
    exact ⟨hTotal, hEnd.lines⟩
  · rw [if_neg fun h => hNil (List.isEmpty_iff.mp h), List.flatten_append, List.flatten_singleton]
    exact ⟨hEnd.total, hEnd.lines_concat hNil ⟨rest, hRest⟩⟩

end Choreographr.Tools
