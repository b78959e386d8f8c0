import Choreographr.Client.SessionView
import Choreographr.Lib.Occurrences
import Choreographr.Tools.Proofs.Sanitize

/-!
# The live cap and the final cap

The content that a client accumulates is at every moment the cut of the whole text so far. A cut
text is longer than the cap, as the marker is longer than what a cut can lose, so the marker is
appended only once.
-/

namespace Choreographr.Client

open Lib Tools

/-- One more chunk. -/
theorem pushCapped_truncateToolOutput (text data : List Char) :
    pushCapped (truncateToolOutput text) data = truncateToolOutput (text ++ data) := by
  have hCap : maxStreamedToolContentBytes = maxToolOutputBytes := rfl
  unfold truncateToolOutput truncateToolOutputAt pushCapped
  rw [hCap, byteLen_append]
  rcases Nat.lt_trichotomy (byteLen text) maxToolOutputBytes with hBelow | hExact | hAbove
  · rw [if_pos hBelow.le, if_neg (Nat.not_le.mpr hBelow)]
    by_cases hFits : byteLen data ≤ maxToolOutputBytes - byteLen text
    · rw [if_pos hFits, if_pos (by omega)]
    · rw [if_neg hFits, if_neg (by omega), bytePrefix_append hBelow.le]
  · rw [if_pos hExact.le, if_pos hExact.ge]
    by_cases hNone : data = []
    · subst hNone
      rw [if_neg (fun h => h.2 rfl), if_pos (by rw [byteLen_nil]; omega), List.append_nil]
    · have hPos : 0 < byteLen data := Nat.pos_of_ne_zero fun h => hNone (byteLen_eq_zero.mp h)
      rw [if_pos ⟨hExact, hNone⟩, if_neg (by omega), bytePrefix_append hExact.le, hExact,
        Nat.sub_self, bytePrefix_zero, List.append_nil]
  · have hLong := lt_byteLen_bytePrefix hAbove
    have hMarked : maxToolOutputBytes <
        byteLen (bytePrefix maxToolOutputBytes text ++ truncationSuffix) := by
      rw [byteLen_append, byteLen_truncationSuffix]
      omega
    rw [if_neg (Nat.not_le.mpr hAbove), if_pos hMarked.le, if_neg (fun h => hMarked.ne' h.1),
      if_neg (by omega), bytePrefix_append_of_lt hAbove]

theorem foldl_pushCapped (text : List Char) (chunks : List (List Char)) :
    chunks.foldl pushCapped (truncateToolOutput text) =
      truncateToolOutput (text ++ chunks.flatten) := by
  induction chunks generalizing text with
  | nil => rw [List.flatten_nil, List.append_nil, List.foldl_nil]
  | cons data rest ih =>
    rw [List.foldl_cons, pushCapped_truncateToolOutput, ih, List.flatten_cons, List.append_assoc]

/-- Where the marker stands in a capped text: where the part that is kept has it, and at the end
if the text was cut. -/
theorem occursAt_truncateToolOutput_iff (text : List Char) (p : Nat) :
    OccursAt truncationSuffix (truncateToolOutput text) p ↔
      OccursAt truncationSuffix (bytePrefix maxToolOutputBytes text) p ∨
        (maxToolOutputBytes < byteLen text ∧
          p = (bytePrefix maxToolOutputBytes text).length) := by
  unfold truncateToolOutput truncateToolOutputAt
  split
  · rename_i hFits
    rw [bytePrefix_of_le hFits, or_iff_left (fun h => absurd hFits (Nat.not_le.mpr h.1))]
  · rename_i hLong
    have hMarker : truncationSuffix = '\n' :: truncationSuffix.tail := by decide
    have hFresh : '\n' ∉ truncationSuffix.tail := by decide
    rw [and_iff_right (Nat.lt_of_not_le hLong), hMarker]
    exact occursAt_append_self_iff hFresh p

/-- However a text is split, the accumulated content is the cut of the whole text. Next to the
markers that its kept part has of itself, it has one more if and only if the text exceeds the
cap. -/
theorem pushCapped_chunks (chunks : List (List Char)) :
    chunks.foldl pushCapped [] = truncateToolOutput chunks.flatten ∧
      ∀ (p : Nat), OccursAt truncationSuffix (chunks.foldl pushCapped []) p ↔
        OccursAt truncationSuffix (bytePrefix maxToolOutputBytes chunks.flatten) p ∨
          (maxToolOutputBytes < byteLen chunks.flatten ∧
            p = (bytePrefix maxToolOutputBytes chunks.flatten).length) := by
  have hFold : chunks.foldl pushCapped [] = truncateToolOutput chunks.flatten :=
    foldl_pushCapped [] chunks
  refine ⟨hFold, ?_⟩
  intro p
  rw [hFold]
  exact occursAt_truncateToolOutput_iff chunks.flatten p

end Choreographr.Client
