import Choreographr.Lib.CharText

/-!
# UTF-8

`encode` writes a text as bytes. `decodeText` reads characters as long as there are any and
returns what it cannot read. Of a text that was cut inside a character it returns the whole
characters in front of the cut, and the bytes that are left are the beginning of a character.
-/

namespace Choreographr.Lib

variable {bytes part : List UInt8} {c : Char} {n : Nat}

def encode (text : List Char) : List UInt8 := text.flatMap String.utf8EncodeChar

/-- The character that the bytes begin with. -/
def decodeChar? (bytes : List UInt8) : Option Char := bytes.toByteArray.utf8DecodeChar? 0

theorem length_encode (text : List Char) : (encode text).length = byteLen text := by
  induction text with
  | nil => rfl
  | cons c rest ih =>
    rw [encode, List.flatMap_cons, ← encode, List.length_append, ih, byteLen_cons,
      String.length_utf8EncodeChar]

theorem encode_append (xs ys : List Char) : encode (xs ++ ys) = encode xs ++ encode ys :=
  List.flatMap_append

theorem encode_cons (c : Char) (text : List Char) :
    encode (c :: text) = String.utf8EncodeChar c ++ encode text := rfl

/-! ## Reading one character -/

theorem decodeChar?_encodeChar_append (c : Char) (bytes : List UInt8) :
    decodeChar? (String.utf8EncodeChar c ++ bytes) = some c := by
  rw [decodeChar?, List.toByteArray_append]
  exact ByteArray.utf8DecodeChar?_utf8EncodeChar_append

theorem exists_of_decodeChar? (h : decodeChar? bytes = some c) :
    ∃ rest, bytes = String.utf8EncodeChar c ++ rest := by
  obtain ⟨rest, hRest⟩ := ByteArray.exists_of_utf8DecodeChar?_eq_some h
  refine ⟨rest.data.toList, ?_⟩
  have hData := congrArg (fun b => b.data.toList) hRest
  simpa using hData

theorem decodeChar?_nil : decodeChar? [] = none := by
  cases h : decodeChar? [] with
  | none => rfl
  | some c =>
    obtain ⟨rest, hRest⟩ := exists_of_decodeChar? h
    have hLength := congrArg List.length hRest
    have hPos := c.utf8Size_pos
    rw [List.length_nil, List.length_append, String.length_utf8EncodeChar] at hLength
    omega

/-- A part of a character is none. -/
theorem decodeChar?_take (c : Char) (h : n < c.utf8Size) :
    decodeChar? ((String.utf8EncodeChar c).take n) = none := by
  cases hChar : decodeChar? ((String.utf8EncodeChar c).take n) with
  | none => rfl
  | some d =>
    obtain ⟨rest, hRest⟩ := exists_of_decodeChar? hChar
    have hWhole : decodeChar? (String.utf8EncodeChar c ++ []) = some d := by
      rw [List.append_nil, ← List.take_append_drop n (String.utf8EncodeChar c), hRest,
        List.append_assoc]
      exact decodeChar?_encodeChar_append d _
    rw [decodeChar?_encodeChar_append] at hWhole
    cases hWhole
    have hLength := congrArg List.length hRest
    rw [List.length_take, List.length_append, String.length_utf8EncodeChar] at hLength
    omega

theorem drop_length_lt_of_decodeChar? (h : decodeChar? bytes = some c) :
    (bytes.drop c.utf8Size).length < bytes.length := by
  obtain ⟨rest, rfl⟩ := exists_of_decodeChar? h
  have hPos := c.utf8Size_pos
  rw [List.length_drop, List.length_append, String.length_utf8EncodeChar]
  omega

/-! ## Reading a text -/

/-- The characters that can be read, and the bytes behind them. -/
def decodeText (bytes : List UInt8) : List Char × List UInt8 :=
  match _hChar : decodeChar? bytes with
  | none => ([], bytes)
  | some c =>
      (c :: (decodeText (bytes.drop c.utf8Size)).1, (decodeText (bytes.drop c.utf8Size)).2)
termination_by bytes.length
decreasing_by
  all_goals exact drop_length_lt_of_decodeChar? _hChar

theorem decodeText_of_none (h : decodeChar? bytes = none) : decodeText bytes = ([], bytes) := by
  rw [decodeText]
  split
  · rfl
  · rename_i hSome
    rw [h] at hSome
    cases hSome

theorem decodeText_encodeChar_append (c : Char) (bytes : List UInt8) :
    decodeText (String.utf8EncodeChar c ++ bytes) =
      (c :: (decodeText bytes).1, (decodeText bytes).2) := by
  rw [decodeText]
  split
  · rename_i hNone
    rw [decodeChar?_encodeChar_append] at hNone
    cases hNone
  · rename_i hSome
    rw [decodeChar?_encodeChar_append] at hSome
    cases hSome
    rw [← String.length_utf8EncodeChar, List.drop_left]

theorem decodeText_encode_append (text : List Char) (bytes : List UInt8) :
    decodeText (encode text ++ bytes) = (text ++ (decodeText bytes).1, (decodeText bytes).2) := by
  induction text with
  | nil => rfl
  | cons c rest ih =>
    rw [encode_cons, List.append_assoc, decodeText_encodeChar_append, ih, List.cons_append]

theorem decodeText_encode (text : List Char) : decodeText (encode text) = (text, []) := by
  have h := decodeText_encode_append text []
  rwa [List.append_nil, decodeText_of_none decodeChar?_nil, List.append_nil] at h

/-- The bytes begin a character and do not finish it. -/
def BeginsChar (bytes : List UInt8) : Prop :=
  ∃ c : Char, bytes.length < c.utf8Size ∧ bytes <+: String.utf8EncodeChar c

theorem BeginsChar.decodeText (h : BeginsChar bytes) : decodeText bytes = ([], bytes) := by
  obtain ⟨c, hLt, hPrefix⟩ := h
  refine decodeText_of_none ?_
  rw [List.prefix_iff_eq_take.mp hPrefix]
  exact decodeChar?_take c hLt

/-- A cut text is its whole characters and the beginning of the next one. -/
theorem take_encode (n : Nat) (text : List Char) :
    ∃ part, (encode text).take n = encode (bytePrefix n text) ++ part ∧
      (part = [] ∨ BeginsChar part) := by
  induction text generalizing n with
  | nil => exact ⟨[], by simp [encode, bytePrefix], .inl rfl⟩
  | cons c rest ih =>
    rw [encode_cons, bytePrefix, List.take_append, String.length_utf8EncodeChar]
    split
    · rename_i hFits
      obtain ⟨part, hTake, hPart⟩ := ih (n - c.utf8Size)
      refine ⟨part, ?_, hPart⟩
      rw [List.take_of_length_le (by rwa [String.length_utf8EncodeChar]), hTake, encode_cons,
        List.append_assoc]
    · rename_i hCut
      refine ⟨(String.utf8EncodeChar c).take n, ?_, .inr ⟨c, ?_, List.take_prefix _ _⟩⟩
      · rw [Nat.sub_eq_zero_of_le (by omega), List.take_zero, List.append_nil]
        rfl
      · rw [List.length_take, String.length_utf8EncodeChar]
        omega

theorem decodeText_take_encode (n : Nat) (text : List Char) :
    (decodeText ((encode text).take n)).1 = bytePrefix n text ∧
      ((decodeText ((encode text).take n)).2 = [] ∨
        BeginsChar (decodeText ((encode text).take n)).2) := by
  obtain ⟨part, hTake, hPart⟩ := take_encode n text
  rw [hTake, decodeText_encode_append]
  rcases hPart with rfl | hBegins
  · rw [decodeText_of_none decodeChar?_nil]
    exact ⟨List.append_nil _, .inl rfl⟩
  · rw [hBegins.decodeText]
    exact ⟨List.append_nil _, .inr hBegins⟩

/-! ## Cut characters -/

/-- The length of a character by its first byte, above one. -/
def charWidth (first : UInt8) : Nat :=
  if 0xc2 ≤ first.toNat ∧ first.toNat ≤ 0xdf then 2
  else if 0xe0 ≤ first.toNat ∧ first.toNat ≤ 0xef then 3
  else if 0xf0 ≤ first.toNat ∧ first.toNat ≤ 0xf4 then 4
  else 0

/-- The second bytes that may follow a first one. -/
def isSecond (first second : UInt8) : Bool :=
  let low := if first.toNat = 0xe0 then 0xa0 else if first.toNat = 0xf0 then 0x90 else 0x80
  let high := if first.toNat = 0xed then 0x9f else if first.toNat = 0xf4 then 0x8f else 0xbf
  low ≤ second.toNat && second.toNat ≤ high

def isContinuation (b : UInt8) : Bool := 0x80 ≤ b.toNat && b.toNat ≤ 0xbf

/-- The bytes end inside a character: no more bytes are wrong than are missing. -/
def isCutChar : List UInt8 → Bool
  | [first] => 2 ≤ charWidth first
  | [first, second] => 3 ≤ charWidth first && isSecond first second
  | [first, second, third] =>
      4 ≤ charWidth first && isSecond first second && isContinuation third
  | _ => false

theorem toNat_not_surrogate (c : Char) :
    c.toNat < 0xd800 ∨ (0xdfff < c.toNat ∧ c.toNat < 0x110000) := c.valid

theorem BeginsChar.isCutChar (h : BeginsChar bytes) (hSome : bytes ≠ []) :
    isCutChar bytes = true := by
  obtain ⟨c, hLt, hPrefix⟩ := h
  have hVal : c.val.toNat = c.toNat := rfl
  have hNat : ∀ n : Nat, (UInt8.ofNat n).toNat = n % 256 := fun n => by simp
  have hValid := toNat_not_surrogate c
  rw [← String.length_utf8EncodeChar] at hLt
  unfold String.utf8EncodeChar at hLt hPrefix
  dsimp only at hLt hPrefix
  rw [hVal] at hLt hPrefix
  by_cases hOne : c.toNat ≤ 0x7f
  · rw [if_pos hOne] at hLt
    rw [List.length_singleton] at hLt
    exact absurd (List.length_eq_zero_iff.mp (Nat.lt_one_iff.mp hLt)) hSome
  rw [if_neg hOne] at hLt hPrefix
  by_cases hTwo : c.toNat ≤ 0x7ff
  · rw [if_pos hTwo] at hLt hPrefix
    rcases bytes with _ | ⟨first, _ | ⟨second, rest⟩⟩
    · exact absurd rfl hSome
    · obtain ⟨rfl, -⟩ := List.cons_prefix_cons.mp hPrefix
      simp only [Lib.isCutChar, charWidth, hNat, decide_eq_true_eq]
      split <;> omega
    · simp only [List.length_cons, List.length_nil] at hLt
      omega
  rw [if_neg hTwo] at hLt hPrefix
  by_cases hThree : c.toNat ≤ 0xffff
  · rw [if_pos hThree] at hLt hPrefix
    have hWidth : charWidth (UInt8.ofNat (c.toNat / 4096 % 16 + 0xe0)) = 3 := by
      rw [charWidth, if_neg (by rw [hNat]; omega), if_pos (by rw [hNat]; omega)]
    rcases bytes with _ | ⟨first, _ | ⟨second, _ | ⟨third, rest⟩⟩⟩
    · exact absurd rfl hSome
    · obtain ⟨rfl, -⟩ := List.cons_prefix_cons.mp hPrefix
      simp only [Lib.isCutChar, hWidth, decide_eq_true_eq]
      omega
    · obtain ⟨rfl, hRest⟩ := List.cons_prefix_cons.mp hPrefix
      obtain ⟨rfl, -⟩ := List.cons_prefix_cons.mp hRest
      simp only [Lib.isCutChar, hWidth, isSecond, hNat, Bool.and_eq_true, decide_eq_true_eq]
      refine ⟨Nat.le_refl 3, ?_, ?_⟩
      · split <;> [skip; split] <;> omega
      · split <;> [skip; split] <;> omega
    · simp only [List.length_cons, List.length_nil] at hLt
      omega
  · rw [if_neg hThree] at hLt hPrefix
    have hWidth : charWidth (UInt8.ofNat (c.toNat / 262144 % 8 + 0xf0)) = 4 := by
      rw [charWidth, if_neg (by rw [hNat]; omega), if_neg (by rw [hNat]; omega),
        if_pos (by rw [hNat]; omega)]
    have hSecond : isSecond (UInt8.ofNat (c.toNat / 262144 % 8 + 0xf0))
        (UInt8.ofNat (c.toNat / 4096 % 64 + 0x80)) = true := by
      simp only [isSecond, hNat, Bool.and_eq_true, decide_eq_true_eq]
      constructor
      · split <;> [skip; split] <;> omega
      · split <;> [skip; split] <;> omega
    rcases bytes with _ | ⟨first, _ | ⟨second, _ | ⟨third, _ | ⟨fourth, rest⟩⟩⟩⟩
    · exact absurd rfl hSome
    · obtain ⟨rfl, -⟩ := List.cons_prefix_cons.mp hPrefix
      simp only [Lib.isCutChar, hWidth, decide_eq_true_eq]
      omega
    · obtain ⟨rfl, hRest⟩ := List.cons_prefix_cons.mp hPrefix
      obtain ⟨rfl, -⟩ := List.cons_prefix_cons.mp hRest
      simp only [Lib.isCutChar, hWidth, hSecond, Bool.and_true, decide_eq_true_eq]
      omega
    · obtain ⟨rfl, hRest⟩ := List.cons_prefix_cons.mp hPrefix
      obtain ⟨rfl, hRest'⟩ := List.cons_prefix_cons.mp hRest
      obtain ⟨rfl, -⟩ := List.cons_prefix_cons.mp hRest'
      simp only [Lib.isCutChar, hWidth, hSecond, isContinuation, hNat, Bool.and_true,
        Bool.and_eq_true, decide_eq_true_eq]
      omega
    · simp only [List.length_cons, List.length_nil] at hLt
      omega

/-! ## Lossy reading -/

/-- How many bytes one replacement character stands for: those that could begin a character, or
one. -/
def brokenLen (bytes : List UInt8) : Nat :=
  if isCutChar (bytes.take 3) then 3 else if isCutChar (bytes.take 2) then 2 else 1

theorem brokenLen_pos (bytes : List UInt8) : 0 < brokenLen bytes := by
  unfold brokenLen
  split
  · exact Nat.succ_pos 2
  · split
    · exact Nat.succ_pos 1
    · exact Nat.one_pos

/-- `String::from_utf8_lossy`: what cannot be read becomes U+FFFD. -/
def lossyText (bytes : List UInt8) : List Char :=
  match _hChar : decodeChar? bytes with
  | some c => c :: lossyText (bytes.drop c.utf8Size)
  | none =>
      if _hNil : bytes = [] then []
      else '\uFFFD' :: lossyText (bytes.drop (brokenLen bytes))
termination_by bytes.length
decreasing_by
  · exact drop_length_lt_of_decodeChar? _hChar
  · have hPos := brokenLen_pos bytes
    have hSome := List.length_pos_iff.mpr _hNil
    rw [List.length_drop]
    omega

theorem lossyText_nil : lossyText [] = [] := by
  rw [lossyText]
  split
  · rename_i hSome
    rw [decodeChar?_nil] at hSome
    cases hSome
  · exact dif_pos rfl

theorem lossyText_of_none (hChar : decodeChar? bytes = none) (hSome : bytes ≠ []) :
    lossyText bytes = '\uFFFD' :: lossyText (bytes.drop (brokenLen bytes)) := by
  rw [lossyText]
  split
  · rename_i c hHere
    rw [hChar] at hHere
    cases hHere
  · exact dif_neg hSome

theorem lossyText_encode_append (text : List Char) (bytes : List UInt8) :
    lossyText (encode text ++ bytes) = text ++ lossyText bytes := by
  induction text with
  | nil => rfl
  | cons c rest ih =>
    rw [encode_cons, List.append_assoc, List.cons_append, ← ih, lossyText]
    split
    · rename_i d hChar
      rw [decodeChar?_encodeChar_append] at hChar
      obtain rfl := Option.some.inj hChar
      rw [← String.length_utf8EncodeChar c, List.drop_left]
    · rename_i hNone
      rw [decodeChar?_encodeChar_append] at hNone
      cases hNone

theorem lossyText_encode (text : List Char) : lossyText (encode text) = text := by
  have h := lossyText_encode_append text []
  rwa [List.append_nil, lossyText_nil, List.append_nil] at h

/-! ## ASCII -/

/-- A byte below 128 is a character of its own. -/
theorem mem_encodeChar_ascii {b : UInt8} (hByte : b.toNat < 128) (h : b ∈ String.utf8EncodeChar c) :
    c.toNat = b.toNat := by
  have hVal : c.val.toNat = c.toNat := rfl
  have hNat : ∀ n : Nat, (UInt8.ofNat n).toNat = n % 256 := fun n => by simp
  unfold String.utf8EncodeChar at h
  dsimp only at h
  rw [hVal] at h
  split at h
  · obtain rfl := List.mem_singleton.mp h
    rw [hNat]
    omega
  split at h
  · simp only [List.mem_cons, List.not_mem_nil, or_false] at h
    rcases h with rfl | rfl <;> rw [hNat] at hByte <;> omega
  split at h
  · simp only [List.mem_cons, List.not_mem_nil, or_false] at h
    rcases h with rfl | rfl | rfl <;> rw [hNat] at hByte <;> omega
  · simp only [List.mem_cons, List.not_mem_nil, or_false] at h
    rcases h with rfl | rfl | rfl | rfl <;> rw [hNat] at hByte <;> omega

theorem mem_encode_ascii (hAscii : c.toNat < 128) {text : List Char}
    (h : UInt8.ofNat c.toNat ∈ encode text) : c ∈ text := by
  have hByte : (UInt8.ofNat c.toNat).toNat = c.toNat := by
    rw [UInt8.toNat_ofNat']
    omega
  obtain ⟨d, hMem, hIn⟩ := List.mem_flatMap.mp h
  have hSame := mem_encodeChar_ascii (by omega) hIn
  rw [hByte] at hSame
  have hEq : d = c := Char.ext (UInt32.toNat_inj.mp hSame)
  exact hEq ▸ hMem

theorem encode_ascii (hAscii : c.toNat < 128) (rest : List Char) :
    encode (c :: rest) = UInt8.ofNat c.toNat :: encode rest := by
  have hVal : c.val.toNat = c.toNat := rfl
  rw [encode_cons, String.utf8EncodeChar, hVal, if_pos (by omega)]
  rfl

/-! ## The beginning of a character -/

/-- How a character is written: its first byte tells how many continuation bytes follow. -/
theorem encodeChar_shape (c : Char) :
    ∃ lead more, String.utf8EncodeChar c = lead :: more ∧
      (∀ b ∈ more, isContinuation b = true) ∧
      ((more.length = 0 ∧ lead.toNat < 0x80) ∨
        (more.length = 1 ∧ 0xc0 ≤ lead.toNat ∧ lead.toNat ≤ 0xdf) ∨
        (more.length = 2 ∧ 0xe0 ≤ lead.toNat ∧ lead.toNat ≤ 0xef) ∨
        (more.length = 3 ∧ 0xf0 ≤ lead.toNat ∧ lead.toNat ≤ 0xf7)) := by
  have hVal : c.val.toNat = c.toNat := rfl
  have hNat : ∀ n : Nat, (UInt8.ofNat n).toNat = n % 256 := fun n => by simp
  have hValid := toNat_not_surrogate c
  have hMore : ∀ n : Nat, isContinuation (UInt8.ofNat (n % 64 + 0x80)) = true := by
    intro n
    simp only [isContinuation, hNat, Bool.and_eq_true, decide_eq_true_eq]
    omega
  unfold String.utf8EncodeChar
  dsimp only
  rw [hVal]
  split
  · exact ⟨_, [], rfl, by simp, .inl ⟨rfl, by rw [hNat]; omega⟩⟩
  split
  · refine ⟨_, _, rfl, ?_, .inr (.inl ⟨rfl, ?_⟩)⟩
    · exact List.forall_mem_singleton.mpr (hMore _)
    · rw [hNat]
      omega
  split
  · refine ⟨_, _, rfl, ?_, .inr (.inr (.inl ⟨rfl, ?_⟩))⟩
    · exact List.forall_mem_cons.mpr ⟨hMore _, List.forall_mem_singleton.mpr (hMore _)⟩
    · rw [hNat]
      omega
  · refine ⟨_, _, rfl, ?_, .inr (.inr (.inr ⟨rfl, ?_⟩))⟩
    · exact List.forall_mem_cons.mpr ⟨hMore _,
        List.forall_mem_cons.mpr ⟨hMore _, List.forall_mem_singleton.mpr (hMore _)⟩⟩
    · rw [hNat]
      omega

theorem BeginsChar.decodeChar? (h : BeginsChar part) : decodeChar? part = none := by
  obtain ⟨c, hLt, hPrefix⟩ := h
  rw [List.prefix_iff_eq_take.mp hPrefix]
  exact decodeChar?_take c hLt

/-- An ASCII byte does not continue a character that has begun. -/
theorem BeginsChar.decodeChar?_append (h : BeginsChar part) (hSome : part ≠ []) {b : UInt8}
    (hAscii : b.toNat < 128) (rest : List UInt8) : Lib.decodeChar? (part ++ b :: rest) = none := by
  cases hChar : Lib.decodeChar? (part ++ b :: rest) with
  | none => rfl
  | some d =>
    obtain ⟨more, hMore⟩ := exists_of_decodeChar? hChar
    have hPos := List.length_pos_iff.mpr hSome
    rcases Nat.lt_or_ge part.length d.utf8Size with hInside | hBefore
    · -- The character would contain the ASCII byte.
      have hMem : b ∈ String.utf8EncodeChar d := by
        rw [← String.length_utf8EncodeChar] at hInside
        have hAt := congrArg (fun bytes => bytes[part.length]?) hMore
        rw [List.getElem?_append_right (Nat.le_refl _), Nat.sub_self, List.getElem?_cons_zero,
          List.getElem?_append_left hInside] at hAt
        exact List.mem_of_getElem? hAt.symm
      have hSame := mem_encodeChar_ascii hAscii hMem
      have hOne := encode_ascii (c := d) (by omega) []
      rw [encode_cons] at hOne
      have hLength := congrArg List.length hOne
      rw [List.length_append, String.length_utf8EncodeChar] at hLength
      change d.utf8Size + 0 = 0 + 1 at hLength
      omega
    · have hFront : String.utf8EncodeChar d <+: part := by
        refine List.prefix_of_prefix_length_le ⟨more, hMore.symm⟩ (List.prefix_append _ _) ?_
        rwa [String.length_utf8EncodeChar]
      obtain ⟨back, rfl⟩ := hFront
      have hNone := h.decodeChar?
      rw [decodeChar?_encodeChar_append] at hNone
      cases hNone

theorem BeginsChar.length_le (h : BeginsChar part) : part.length ≤ 3 := by
  obtain ⟨c, hLt, -⟩ := h
  have hFour := c.utf8Size_le_four
  omega

/-- What has begun is read as one replacement character, at the end of the bytes. -/
theorem BeginsChar.lossyText (h : BeginsChar part) (hSome : part ≠ []) :
    lossyText part = ['\uFFFD'] := by
  have hAll : part.drop (brokenLen part) = [] := by
    rw [brokenLen, List.take_of_length_le h.length_le, if_pos (h.isCutChar hSome)]
    exact List.drop_of_length_le h.length_le
  rw [lossyText_of_none h.decodeChar? hSome, hAll, lossyText_nil]

/-- So it is in front of an ASCII character. -/
theorem BeginsChar.lossyText_append (h : BeginsChar part) (hSome : part ≠ [])
    (hAscii : c.toNat < 128) (rest : List Char) :
    Lib.lossyText (part ++ encode (c :: rest)) = '\uFFFD' :: c :: rest := by
  have hByte : (UInt8.ofNat c.toNat).toNat = c.toNat := by
    rw [UInt8.toNat_ofNat']
    omega
  have hChar := encode_ascii hAscii rest
  have hBroken : brokenLen (part ++ encode (c :: rest)) = part.length := by
    have hCut := h.isCutChar hSome
    have hLength := h.length_le
    have hOther : isContinuation (UInt8.ofNat c.toNat) = false := by
      rw [isContinuation, hByte]
      exact Bool.and_eq_false_imp.mpr fun h => by simp at h; omega
    have hSecond : ∀ first, isSecond first (UInt8.ofNat c.toNat) = false := by
      intro first
      simp only [isSecond, hByte]
      split <;> [skip; split] <;> simp <;> omega
    rw [hChar]
    rcases part with _ | ⟨x, _ | ⟨y, _ | ⟨z, more⟩⟩⟩
    · exact absurd rfl hSome
    · cases encode rest <;> simp [brokenLen, Lib.isCutChar, hSecond]
    · simp [brokenLen, Lib.isCutChar, hOther] at hCut ⊢
      exact hCut
    · have hNil : more = [] := by
        simp only [List.length_cons] at hLength
        exact List.length_eq_zero_iff.mp (by omega)
      subst hNil
      simp [brokenLen, hCut]
  have hNone : Lib.decodeChar? (part ++ encode (c :: rest)) = none := by
    rw [hChar]
    exact h.decodeChar?_append hSome (by rw [hByte]; exact hAscii) _
  rw [lossyText_of_none hNone (by simp [hSome]), hBroken, List.drop_left, lossyText_encode]

/-! ## Cut texts -/

/-- What is read of the first bytes of a text. -/
def cutText (n : Nat) (text : List Char) : List Char :=
  bytePrefix n text ++
    if byteLen (bytePrefix n text) < min n (byteLen text) then ['\uFFFD'] else []

theorem cutText_of_le {text : List Char} (h : byteLen text ≤ n) : cutText n text = text := by
  rw [cutText, bytePrefix_of_le h, if_neg (by omega), List.append_nil]

theorem cutText_append {xs ys : List Char} (h : byteLen xs ≤ n) :
    cutText n (xs ++ ys) = xs ++ cutText (n - byteLen xs) ys := by
  rw [cutText, cutText, bytePrefix_append h, byteLen_append, byteLen_append, List.append_assoc]
  have hCut : byteLen xs + byteLen (bytePrefix (n - byteLen xs) ys) <
      min n (byteLen xs + byteLen ys) ↔
        byteLen (bytePrefix (n - byteLen xs) ys) < min (n - byteLen xs) (byteLen ys) := by
    omega
  simp only [hCut]

theorem cutText_append_of_lt {xs ys : List Char} (h : n < byteLen xs) :
    cutText n (xs ++ ys) = cutText n xs := by
  have hSame : min n (byteLen xs + byteLen ys) = min n (byteLen xs) := by omega
  rw [cutText, cutText, bytePrefix_append_of_lt h, byteLen_append, hSame]

theorem take_encode_cases (n : Nat) (text : List Char) :
    ∃ part, (encode text).take n = encode (bytePrefix n text) ++ part ∧
      byteLen (bytePrefix n text) + part.length = min n (byteLen text) ∧
      (part = [] ∨ BeginsChar part) := by
  obtain ⟨part, hTake, hPart⟩ := take_encode n text
  refine ⟨part, hTake, ?_, hPart⟩
  have hLength := congrArg List.length hTake
  rw [List.length_take, List.length_append, length_encode, length_encode] at hLength
  omega

theorem lossyText_take (n : Nat) (text : List Char) :
    lossyText ((encode text).take n) = cutText n text := by
  obtain ⟨part, hTake, hLength, hPart⟩ := take_encode_cases n text
  rw [hTake, lossyText_encode_append, cutText]
  by_cases hNil : part = []
  · rw [hNil, List.length_nil] at hLength
    rw [hNil, lossyText_nil, if_neg (by omega)]
  · have hPos := List.length_pos_iff.mpr hNil
    rw [(hPart.resolve_left hNil).lossyText hNil, if_pos (by omega)]

theorem lossyText_take_append (n : Nat) (text : List Char) (hAscii : c.toNat < 128)
    (rest : List Char) :
    lossyText ((encode text).take n ++ encode (c :: rest)) = cutText n text ++ c :: rest := by
  obtain ⟨part, hTake, hLength, hPart⟩ := take_encode_cases n text
  rw [hTake, List.append_assoc, lossyText_encode_append, cutText, List.append_assoc]
  by_cases hNil : part = []
  · rw [hNil, List.length_nil] at hLength
    rw [hNil, List.nil_append, lossyText_encode, if_neg (by omega), List.nil_append]
  · have hPos := List.length_pos_iff.mpr hNil
    rw [(hPart.resolve_left hNil).lossyText_append hNil hAscii, if_pos (by omega)]
    rfl

end Choreographr.Lib
