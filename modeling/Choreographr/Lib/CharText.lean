import Mathlib.Data.List.Basic
import Mathlib.Algebra.Ring.Nat

/-!
# Texts measured in bytes

A text is the list of its characters; its length is that of its UTF-8 encoding. `bytePrefix`
cuts a text at the last character boundary that is not above a number of bytes.
-/

namespace Choreographr.Lib

/-- The length of the UTF-8 encoding. -/
def byteLen (text : List Char) : Nat := (text.map Char.utf8Size).sum

@[simp] theorem byteLen_nil : byteLen [] = 0 := rfl

@[simp] theorem byteLen_cons (c : Char) (text : List Char) :
    byteLen (c :: text) = c.utf8Size + byteLen text := by
  simp [byteLen]

@[simp] theorem byteLen_append (xs ys : List Char) :
    byteLen (xs ++ ys) = byteLen xs + byteLen ys := by
  simp [byteLen]

theorem byteLen_replicate (n : Nat) (c : Char) :
    byteLen (List.replicate n c) = n * c.utf8Size := by
  simp [byteLen]

theorem byteLen_eq_zero {text : List Char} : byteLen text = 0 ↔ text = [] := by
  cases text with
  | nil => simp
  | cons c rest =>
    have hPos := c.utf8Size_pos
    simp only [byteLen_cons, reduceCtorEq, iff_false]
    omega

theorem byteLen_le_four_mul (text : List Char) : byteLen text ≤ 4 * text.length := by
  induction text with
  | nil => exact Nat.le_refl 0
  | cons c rest ih =>
    have hFour := c.utf8Size_le_four
    rw [byteLen_cons, List.length_cons]
    omega

/-- The longest prefix of at most `cap` bytes. -/
def bytePrefix (cap : Nat) : List Char → List Char
  | [] => []
  | c :: rest => if c.utf8Size ≤ cap then c :: bytePrefix (cap - c.utf8Size) rest else []

variable {cap : Nat} {text xs ys : List Char}

theorem bytePrefix_isPrefix (cap : Nat) (text : List Char) : bytePrefix cap text <+: text := by
  induction text generalizing cap with
  | nil => exact List.prefix_refl []
  | cons c rest ih =>
    simp only [bytePrefix]
    split
    · exact List.prefix_cons_inj c |>.mpr (ih _)
    · exact List.nil_prefix

theorem byteLen_bytePrefix_le (cap : Nat) (text : List Char) :
    byteLen (bytePrefix cap text) ≤ cap := by
  induction text generalizing cap with
  | nil => exact Nat.zero_le cap
  | cons c rest ih =>
    simp only [bytePrefix]
    split
    · have hRest := ih (cap - c.utf8Size)
      rw [byteLen_cons]
      omega
    · exact Nat.zero_le cap

theorem bytePrefix_zero (text : List Char) : bytePrefix 0 text = [] :=
  byteLen_eq_zero.mp (Nat.le_zero.mp (byteLen_bytePrefix_le 0 text))

/-- A cut loses less than one character. -/
theorem lt_byteLen_bytePrefix (h : cap < byteLen text) :
    cap < byteLen (bytePrefix cap text) + 4 := by
  induction text generalizing cap with
  | nil => exact absurd h (Nat.not_lt_zero cap)
  | cons c rest ih =>
    have hFour := c.utf8Size_le_four
    rw [byteLen_cons] at h
    simp only [bytePrefix]
    split
    · have hRest := @ih (cap - c.utf8Size) (by omega)
      rw [byteLen_cons]
      omega
    · rw [byteLen_nil]
      omega

theorem bytePrefix_append (h : byteLen xs ≤ cap) :
    bytePrefix cap (xs ++ ys) = xs ++ bytePrefix (cap - byteLen xs) ys := by
  induction xs generalizing cap with
  | nil => rfl
  | cons c rest ih =>
    rw [byteLen_cons] at h
    rw [List.cons_append, bytePrefix, if_pos (by omega), ih (by omega), byteLen_cons, Nat.sub_sub]
    rfl

/-- What follows does not matter once the text itself is too long. -/
theorem bytePrefix_append_of_lt (h : cap < byteLen xs) :
    bytePrefix cap (xs ++ ys) = bytePrefix cap xs := by
  induction xs generalizing cap with
  | nil => exact absurd h (Nat.not_lt_zero cap)
  | cons c rest ih =>
    rw [byteLen_cons] at h
    rw [List.cons_append, bytePrefix, bytePrefix]
    split
    · rw [ih (by omega)]
    · rfl

theorem bytePrefix_of_le (h : byteLen text ≤ cap) : bytePrefix cap text = text := by
  have hSplit := @bytePrefix_append _ _ [] h
  rwa [List.append_nil, bytePrefix, List.append_nil] at hSplit

theorem bytePrefix_bytePrefix_append (cap : Nat) (text more : List Char) :
    bytePrefix cap (bytePrefix cap text ++ more) =
      bytePrefix cap text ++ bytePrefix (cap - byteLen (bytePrefix cap text)) more :=
  bytePrefix_append (byteLen_bytePrefix_le cap text)

theorem bytePrefix_replicate (cap n : Nat) (c : Char) :
    bytePrefix cap (List.replicate n c) = List.replicate (min n (cap / c.utf8Size)) c := by
  have hPos := c.utf8Size_pos
  induction n generalizing cap with
  | zero => simp [bytePrefix]
  | succ n ih =>
    rw [List.replicate_succ, bytePrefix]
    split
    · rename_i hFits
      have hDiv := Nat.div_eq_sub_div hPos hFits
      rw [ih, ← List.replicate_succ]
      congr 1
      omega
    · rename_i hLong
      rw [Nat.div_eq_of_lt (Nat.lt_of_not_le hLong), Nat.min_zero]
      rfl

/-- An element of two lists in a row stands in the first or in the second. -/
theorem append_eq_append_cons {α : Type} {xs ys before after : List α} {a : α}
    (h : xs ++ ys = before ++ a :: after) :
    (∃ back, xs = before ++ a :: back ∧ after = back ++ ys) ∨
      ∃ front, before = xs ++ front ∧ ys = front ++ a :: after := by
  rcases List.append_eq_append_iff.mp h with ⟨front, hBefore, hYs⟩ | ⟨back, hXs, hBack⟩
  · exact .inr ⟨front, hBefore, hYs⟩
  · cases back with
    | nil =>
      rw [List.append_nil] at hXs
      exact .inr ⟨[], by rw [hXs, List.append_nil], hBack.symm⟩
    | cons b back =>
      obtain ⟨rfl, hAfter⟩ := List.cons.inj hBack
      exact .inl ⟨back, hXs, hAfter⟩

end Choreographr.Lib
