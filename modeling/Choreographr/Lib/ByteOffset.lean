import Choreographr.Lib.CharText

/-!
# Byte offsets into a text

An offset is a character boundary when the text has a front of that many bytes. Cutting, inserting
and removing at offsets is defined exactly there.
-/

namespace Choreographr.Lib

/-- The text on both sides of an offset, if it is a character boundary. -/
def splitAtByte : Nat → List Char → Option (List Char × List Char)
  | 0, text => some ([], text)
  | _ + 1, [] => none
  | n + 1, c :: rest =>
      if c.utf8Size ≤ n + 1 then
        (splitAtByte (n + 1 - c.utf8Size) rest).map fun s => (c :: s.1, s.2)
      else none

/-- The text between two offsets. -/
def byteSlice (text : List Char) (start stop : Nat) : Option (List Char) :=
  (splitAtByte start text).bind fun s =>
    if start ≤ stop then (splitAtByte (stop - start) s.2).map fun t => t.1 else none

/-- The text with another one put in at an offset. -/
def insertAt (text : List Char) (offset : Nat) (new : List Char) : Option (List Char) :=
  (splitAtByte offset text).map fun s => s.1 ++ new ++ s.2

/-- The text without what is between two offsets. -/
def drainBytes (text : List Char) (start stop : Nat) : Option (List Char) :=
  (splitAtByte start text).bind fun s =>
    if start ≤ stop then (splitAtByte (stop - start) s.2).map fun t => s.1 ++ t.2 else none

/-- The offset is a character boundary of the text. -/
def IsBoundary (text : List Char) (offset : Nat) : Prop :=
  ∃ before after, text = before ++ after ∧ byteLen before = offset

variable {text before after : List Char} {offset : Nat}

theorem splitAtByte_append (before after : List Char) :
    splitAtByte (byteLen before) (before ++ after) = some (before, after) := by
  induction before with
  | nil => rw [byteLen_nil, List.nil_append, splitAtByte]
  | cons c rest ih =>
    have hPos := c.utf8Size_pos
    obtain ⟨n, hN⟩ : ∃ n, byteLen (c :: rest) = n + 1 :=
      ⟨byteLen (c :: rest) - 1, by rw [byteLen_cons]; omega⟩
    have hRest : n + 1 - c.utf8Size = byteLen rest := by
      rw [byteLen_cons] at hN
      omega
    rw [hN, List.cons_append, splitAtByte, if_pos (by rw [← hN, byteLen_cons]; omega), hRest, ih]
    rfl

theorem splitAtByte_eq_some :
    splitAtByte offset text = some (before, after) ↔
      text = before ++ after ∧ byteLen before = offset := by
  constructor
  · intro h
    induction text generalizing offset before with
    | nil =>
      cases offset with
      | zero =>
        cases h
        exact ⟨rfl, rfl⟩
      | succ n => cases h
    | cons c rest ih =>
      cases offset with
      | zero =>
        cases h
        exact ⟨rfl, rfl⟩
      | succ n =>
        simp only [splitAtByte] at h
        split at h
        · obtain ⟨⟨front, back⟩, hRest, hPair⟩ := Option.map_eq_some_iff.mp h
          cases hPair
          obtain ⟨rfl, hLength⟩ := ih hRest
          have hFront : byteLen front = n + 1 - c.utf8Size := hLength
          refine ⟨rfl, ?_⟩
          show byteLen (c :: front) = n + 1
          rw [byteLen_cons]
          omega
        · cases h
  · rintro ⟨rfl, rfl⟩
    exact splitAtByte_append before after

theorem splitAtByte_eq_none : splitAtByte offset text = none ↔ ¬ IsBoundary text offset := by
  cases h : splitAtByte offset text with
  | none =>
    refine iff_of_true rfl ?_
    rintro ⟨before, after, hText, hLength⟩
    rw [splitAtByte_eq_some.mpr ⟨hText, hLength⟩] at h
    cases h
  | some s =>
    refine iff_of_false (by simp) fun hNot => hNot ⟨s.1, s.2, ?_⟩
    exact splitAtByte_eq_some.mp h

theorem byteSlice_append (xs ys zs : List Char) :
    byteSlice (xs ++ ys ++ zs) (byteLen xs) (byteLen xs + byteLen ys) = some ys := by
  rw [byteSlice, List.append_assoc, splitAtByte_append, Option.bind_some,
    if_pos (Nat.le_add_right _ _), Nat.add_sub_cancel_left, splitAtByte_append]
  rfl

theorem insertAt_append (before after new : List Char) :
    insertAt (before ++ after) (byteLen before) new = some (before ++ new ++ after) := by
  rw [insertAt, splitAtByte_append]
  rfl

theorem drainBytes_append (xs ys zs : List Char) :
    drainBytes (xs ++ ys ++ zs) (byteLen xs) (byteLen xs + byteLen ys) = some (xs ++ zs) := by
  rw [drainBytes, List.append_assoc, splitAtByte_append, Option.bind_some,
    if_pos (Nat.le_add_right _ _), Nat.add_sub_cancel_left, splitAtByte_append]
  rfl

theorem drainBytes_of_not_boundary {stop : Nat} (h : ¬ IsBoundary text offset) :
    drainBytes text offset stop = none := by
  rw [drainBytes, splitAtByte_eq_none.mpr h]
  rfl

theorem isBoundary_append (before after : List Char) :
    IsBoundary (before ++ after) (byteLen before) := ⟨before, after, rfl, rfl⟩

theorem IsBoundary.le (h : IsBoundary text offset) : offset ≤ byteLen text := by
  obtain ⟨before, after, rfl, rfl⟩ := h
  rw [byteLen_append]
  exact Nat.le_add_right _ _

/-- An offset inside a character is no boundary. -/
theorem not_isBoundary_inside (before after : List Char) {c : Char} {n : Nat} (hPos : 0 < n)
    (hInside : n < c.utf8Size) : ¬ IsBoundary (before ++ c :: after) (byteLen before + n) := by
  rintro ⟨front, back, hText, hLength⟩
  rcases List.append_eq_append_iff.mp hText with ⟨more, rfl, hBack⟩ | ⟨more, rfl, hBack⟩
  · rw [byteLen_append] at hLength
    cases more with
    | nil =>
      rw [byteLen_nil] at hLength
      omega
    | cons d more =>
      obtain ⟨rfl, -⟩ := List.cons.inj hBack
      rw [byteLen_cons] at hLength
      omega
  · rw [byteLen_append] at hLength
    omega

end Choreographr.Lib
