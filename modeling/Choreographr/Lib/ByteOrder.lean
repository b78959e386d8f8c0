import Mathlib.Data.List.Lex
import Mathlib.Data.Prod.Lex
import Mathlib.Order.Lattice

/-!
# Texts in byte order

Stores compare text keys byte by byte. `ByteKey` is a text with that order: the
dictionary order of its UTF-8 bytes. The keys between `p` and `p ++ t` are those
that start with `p` and go on below `t` (`between_append_iff`), whatever the
alphabet.
-/

namespace Choreographr.Lib

section Dictionary

variable {α : Type} [LinearOrder α] {p k r t : List α}

theorem append_lt_append_iff : p ++ r < p ++ t ↔ r < t := by
  induction p with
  | nil => rfl
  | cons x p ih =>
    rw [List.cons_append, List.cons_append, List.cons_lt_cons_iff]
    simp [ih]

theorem le_append : p ≤ p ++ r := by
  have h : ¬ p ++ r < p ++ [] := by
    rw [append_lt_append_iff]
    exact List.not_lt_nil r
  rw [List.append_nil] at h
  exact not_lt.mp h

/-- A list between `p` and an extension of `p` starts with `p`. -/
theorem prefix_of_between (hLow : p ≤ k) (hHigh : k < p ++ t) : p <+: k := by
  replace hLow := not_lt.mpr hLow
  induction p generalizing k with
  | nil => exact List.nil_prefix
  | cons x p ih =>
    cases k with
    | nil => exact absurd (List.nil_lt_cons x p) hLow
    | cons y k =>
      rw [List.cons_lt_cons_iff, not_or, not_and] at hLow
      rw [List.cons_append, List.cons_lt_cons_iff] at hHigh
      rcases hHigh with hLt | ⟨rfl, hHigh⟩
      · exact absurd hLt hLow.1
      · rw [List.cons_prefix_cons]
        exact ⟨rfl, ih hHigh (hLow.2 rfl)⟩

theorem between_append_iff : p ≤ k ∧ k < p ++ t ↔ ∃ r, k = p ++ r ∧ r < t := by
  constructor
  · rintro ⟨hLow, hHigh⟩
    obtain ⟨r, rfl⟩ := prefix_of_between hLow hHigh
    exact ⟨r, rfl, append_lt_append_iff.mp hHigh⟩
  · rintro ⟨r, rfl, hLt⟩
    exact ⟨le_append, append_lt_append_iff.mpr hLt⟩

end Dictionary

/-- A text, ordered by its UTF-8 bytes. -/
structure ByteKey where
  text : String
deriving DecidableEq

namespace ByteKey

def bytes (k : ByteKey) : List Nat := k.text.toUTF8.data.toList.map UInt8.toNat

theorem bytes_injective : Function.Injective bytes := by
  rintro ⟨s⟩ ⟨t⟩ h
  have hToNat : Function.Injective UInt8.toNat := fun _ _ => UInt8.toNat_inj.mp
  have hList := List.map_injective_iff.mpr hToNat h
  have hArray : s.toUTF8 = t.toUTF8 := by
    apply ByteArray.ext
    exact Array.toList_inj.mp hList
  rw [String.toByteArray_inj.mp hArray]

instance : LinearOrder ByteKey := LinearOrder.lift' bytes bytes_injective

theorem le_iff {k l : ByteKey} : k ≤ l ↔ k.bytes ≤ l.bytes := Iff.rfl

theorem lt_iff {k l : ByteKey} : k < l ↔ k.bytes < l.bytes := Iff.rfl

theorem bytes_append (s t : String) :
    (mk (s ++ t)).bytes = (mk s).bytes ++ (mk t).bytes := by
  simp [bytes]

theorem empty_le (k : ByteKey) : mk "" ≤ k := by
  rw [le_iff, ← not_lt]
  exact List.not_lt_nil _

end ByteKey

end Choreographr.Lib
