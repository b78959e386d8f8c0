import Choreographr.Tools.Series

/-!
# Substitution in one pass

The literal placeholder of a step is an opening, the decimal index and a closing. The scan finds
it when it is what stands behind the first opening up to the first closing. It misses one that
begins inside the text it reads as an index, and it takes other spellings of an index, signed or
padded with zeros, for the same placeholder.
-/

namespace Choreographr.Tools

open Lib Protocols

variable {idx : Nat} {behind inner rest result text xs : List Char}

/-! ## What the substitution is to give -/

def stepPlaceholder (idx : Nat) : List Char :=
  placeholderOpen ++ Nat.toDigits 10 idx ++ placeholderClose

/-- Every literal placeholder of a completed step is replaced by its output, and every other
character is kept. -/
inductive Replaced (outputs : StepOutputs) : List Char → List Char → Prop
  | nil : Replaced outputs [] []
  | output {idx : Nat} {output : String} {text result : List Char} :
      outputs.get idx = some output → Replaced outputs text result →
      Replaced outputs (stepPlaceholder idx ++ text) (output.toList ++ result)
  | keep {c : Char} {text result : List Char} :
      (∀ idx, outputs.get idx ≠ none → ¬ stepPlaceholder idx <+: c :: text) →
      Replaced outputs text result → Replaced outputs (c :: text) (c :: result)

mutual

/-- Rewrite the strings of a value. -/
def mapStrings (f : String → String) : Json → Json
  | .str text => .str (f text)
  | .obj fields => .obj (mapFieldStrings f fields)
  | .arr items => .arr (mapItemStrings f items)
  | .null => .null
  | .bool value => .bool value
  | .int value => .int value
  | .float text => .float text

def mapFieldStrings (f : String → String) : List (String × Json) → List (String × Json)
  | [] => []
  | (key, value) :: rest => (key, mapStrings f value) :: mapFieldStrings f rest

def mapItemStrings (f : String → String) : List Json → List Json
  | [] => []
  | value :: rest => mapStrings f value :: mapItemStrings f rest

end

mutual

/-- The strings of a value. -/
def stringsOf : Json → List String
  | .str text => [text]
  | .obj fields => fieldStrings fields
  | .arr items => itemStrings items
  | _ => []

def fieldStrings : List (String × Json) → List String
  | [] => []
  | (_, value) :: rest => stringsOf value ++ fieldStrings rest

def itemStrings : List Json → List String
  | [] => []
  | value :: rest => stringsOf value ++ itemStrings rest

end

/-- The value has the shape of the arguments, and each string is the replaced one. -/
def SubstitutedArgs (outputs : StepOutputs) (args result : Json) : Prop :=
  ∃ f : String → String, result = mapStrings f args ∧
    ∀ text ∈ stringsOf args, Replaced outputs text.toList (f text).toList

/-! ## What the scan reads -/

/-- The texts that the scan reads as indices: from an opening to the first closing behind it. -/
def scannedIndices (text : List Char) : List (List Char) :=
  match _hOpen : splitFirst placeholderOpen text with
  | none => []
  | some (_, behind) =>
      match _hClose : splitFirst placeholderClose behind with
      | none => []
      | some (inner, rest) => inner :: scannedIndices rest
termination_by text.length
decreasing_by
  exact (length_lt_of_splitFirst placeholderClose_ne_nil _hClose).trans
    (length_lt_of_splitFirst placeholderOpen_ne_nil _hOpen)

/-- A text that is read as an index is a decimal one, or it is no number and does not end with
the beginning of the placeholder of a completed step. -/
def ReadsLiterally (completed : Nat → Prop) (inner : List Char) : Prop :=
  match parseUsize inner with
  | some idx => inner = Nat.toDigits 10 idx
  | none => ∀ idx, completed idx → ¬ placeholderOpen ++ Nat.toDigits 10 idx <:+ inner

/-! ## Numbers -/

theorem toDigits_isDigit {c : Char} (h : c ∈ Nat.toDigits 10 idx) : c.isDigit = true := Nat.isDigit_of_mem_toDigits (by decide) (by decide) h

theorem parseUsize_toDigits (h : idx ≤ usizeMax) : parseUsize (Nat.toDigits 10 idx) = some idx := by
  have hPlus : (Nat.toDigits 10 idx).head? ≠ some '+' := by
    intro hHead
    have hDigit := toDigits_isDigit (List.mem_of_mem_head? hHead)
    exact absurd hDigit (by decide)
  have hAll : (Nat.toDigits 10 idx).all Char.isDigit = true :=
    List.all_eq_true.mpr fun c hMem => toDigits_isDigit hMem
  simp only [parseUsize, if_neg hPlus, Nat.ofDigitChars_ten_toDigits]
  exact if_pos ⟨Nat.toDigits_ne_nil, hAll, h⟩

theorem toDigits_injective {m n : Nat} (h : Nat.toDigits 10 m = Nat.toDigits 10 n) : m = n := by
  have hValue := congrArg (fun digits => Nat.ofDigitChars 10 digits 0) h
  simpa only [Nat.ofDigitChars_ten_toDigits] using hValue

/-- No bracket stands in a number. -/
theorem parseUsize_chars (h : parseUsize inner = some idx) :
    ∀ c ∈ inner, c = '+' ∨ c.isDigit = true := by
  intro c hMem
  by_cases hPlus : inner.head? = some '+'
  · simp only [parseUsize, if_pos hPlus] at h
    split at h
    · rename_i hDigits
      cases inner with
      | nil => cases hMem
      | cons a rest =>
        rcases List.mem_cons.mp hMem with rfl | hRest
        · exact .inl (Option.some.inj hPlus)
        · exact .inr (List.all_eq_true.mp hDigits.2.1 c hRest)
    · cases h
  · simp only [parseUsize, if_neg hPlus] at h
    split at h
    · rename_i hDigits
      exact .inr (List.all_eq_true.mp hDigits.2.1 c hMem)
    · cases h

/-! ## Where a literal placeholder stands -/

/-- Up to the first closing, a closing does not start. -/
def ClosesFirst (xs rest : List Char) : Prop :=
  ∀ p < xs.length, ¬ OccursAt placeholderClose (xs ++ (placeholderClose ++ rest)) p

theorem not_close_of_free {ys : List Char} (h : '\x7d' ∉ xs) {p : Nat} (hLt : p < xs.length) :
    ¬ OccursAt placeholderClose (xs ++ ys) p := by
  rintro ⟨more, hMore⟩
  rw [List.drop_append_of_le_length hLt.le] at hMore
  have hHead := congrArg List.head? hMore
  rw [List.drop_eq_getElem_cons hLt] at hHead
  have hBracket : '\x7d' = xs[p] := Option.some.inj hHead
  exact h (hBracket ▸ List.getElem_mem hLt)

theorem digits_free (idx : Nat) : '\x7d' ∉ placeholderOpen ++ Nat.toDigits 10 idx := by
  intro hMem
  rcases List.mem_append.mp hMem with hOpen | hDigit
  · exact absurd hOpen (by decide)
  · exact absurd (toDigits_isDigit hDigit) (by decide)

/-- A placeholder in front of a text that closes first is the whole of it. -/
theorem stepPlaceholder_prefix_iff (hFirst : ClosesFirst xs rest) (idx : Nat) :
    stepPlaceholder idx <+: xs ++ (placeholderClose ++ rest) ↔
      xs = placeholderOpen ++ Nat.toDigits 10 idx := by
  constructor
  · rintro ⟨more, hMore⟩
    rw [stepPlaceholder, List.append_assoc] at hMore
    have hFree := digits_free idx
    generalize placeholderOpen ++ Nat.toDigits 10 idx = ys at hMore hFree
    -- Neither closing comes before the other.
    have hLength : xs.length = ys.length := by
      rcases Nat.lt_trichotomy xs.length ys.length with hLt | hEq | hGt
      · exfalso
        refine @not_close_of_free _ (placeholderClose ++ more) hFree _ hLt ?_
        rw [hMore, OccursAt, List.drop_left]
        exact List.prefix_append _ _
      · exact hEq
      · exfalso
        refine hFirst ys.length hGt ?_
        rw [← hMore, OccursAt, List.drop_left]
        exact List.prefix_append _ _
    exact (List.append_inj hMore.symm hLength).1
  · rintro rfl
    rw [stepPlaceholder, ← List.append_assoc]
    exact List.prefix_append _ _

theorem ClosesFirst.drop (h : ClosesFirst xs rest) (p : Nat) : ClosesFirst (xs.drop p) rest := by
  intro q hLt hOccurs
  rw [List.length_drop] at hLt
  refine h (p + q) (by omega) ?_
  rw [OccursAt, List.drop_append_of_le_length (by omega), ← List.drop_drop,
    ← List.drop_append_of_le_length (by rw [List.length_drop]; omega)]
  exact hOccurs

theorem closesFirst_open_append (h : ClosesFirst inner rest) :
    ClosesFirst (placeholderOpen ++ inner) rest := by
  intro p hLt hOccurs
  rw [List.append_assoc] at hOccurs
  rcases Nat.lt_or_ge p placeholderOpen.length with hIn | hBehind
  · exact not_close_of_free (by decide) hIn hOccurs
  · rw [List.length_append] at hLt
    refine h (p - placeholderOpen.length) (by omega) ?_
    rw [OccursAt, List.drop_append, List.drop_eq_nil_of_le hBehind, List.nil_append] at hOccurs
    exact hOccurs

theorem placeholderOpen_eq :
    placeholderOpen = ['\x7b', '\x7b', 's', 't', 'e', 'p', '_'] := by decide

theorem placeholderOpen_prefix_head (h : placeholderOpen <+: text) : text.head? = some '\x7b' := by
  obtain ⟨more, rfl⟩ := h
  rw [placeholderOpen_eq]
  rfl

theorem open_of_stepPlaceholder (h : stepPlaceholder idx <+: text) : placeholderOpen <+: text := by
  rw [stepPlaceholder, List.append_assoc] at h
  exact (List.prefix_append _ _).trans h

/-- Between an opening and the first closing behind it, a placeholder starts with the opening and
is all of it, or it starts inside and ends with it. -/
theorem stepPlaceholder_occursAt (hFirst : ClosesFirst inner rest) {p : Nat}
    (h : OccursAt (stepPlaceholder idx)
      (placeholderOpen ++ inner ++ (placeholderClose ++ rest)) p)
    (hLt : p < (placeholderOpen ++ inner ++ placeholderClose).length) :
    (p = 0 ∧ inner = Nat.toDigits 10 idx) ∨
      (7 ≤ p ∧ inner.drop (p - 7) = placeholderOpen ++ Nat.toDigits 10 idx) := by
  have hSeven : placeholderOpen.length = 7 := by decide
  rw [List.length_append] at hLt
  rcases Nat.lt_or_ge p (placeholderOpen ++ inner).length with hIn | hOut
  · rw [OccursAt, List.drop_append_of_le_length hIn.le] at h
    have hEq := (stepPlaceholder_prefix_iff ((closesFirst_open_append hFirst).drop p) idx).mp h
    rcases Nat.lt_or_ge p 7 with hOpen | hInner
    · rcases Nat.eq_zero_or_pos p with rfl | hPos
      · exact .inl ⟨rfl, List.append_cancel_left hEq⟩
      · -- An opening does not start inside of an opening.
        exfalso
        rw [placeholderOpen_eq] at hEq
        have hCases : p = 1 ∨ p = 2 ∨ p = 3 ∨ p = 4 ∨ p = 5 ∨ p = 6 := by omega
        rcases hCases with rfl | rfl | rfl | rfl | rfl | rfl <;> simp at hEq
    · right
      rw [List.drop_append, List.drop_eq_nil_of_le (by omega), List.nil_append] at hEq
      exact ⟨hInner, hSeven ▸ hEq⟩
  · exfalso
    have hTwo : placeholderClose.length = 2 := by decide
    have hHead := placeholderOpen_prefix_head (open_of_stepPlaceholder h)
    obtain ⟨k, rfl⟩ : ∃ k, p = (placeholderOpen ++ inner).length + k :=
      ⟨p - (placeholderOpen ++ inner).length, by omega⟩
    have hCases : k = 0 ∨ k = 1 := by omega
    rw [← List.drop_drop, List.drop_left] at hHead
    rcases hCases with rfl | rfl
    · exact absurd hHead (by simp [placeholderClose])
    · exact absurd hHead (by simp [placeholderClose])

/-! ## Replacing step by step -/

variable {outputs : StepOutputs}

/-- Where no placeholder of a completed step starts, the text is kept. -/
theorem replaced_append_iff {ys : List Char}
    (hNone : ∀ p < xs.length, ∀ idx, outputs.get idx ≠ none →
      ¬ OccursAt (stepPlaceholder idx) (xs ++ ys) p) :
    Replaced outputs (xs ++ ys) result ↔
      ∃ result', result = xs ++ result' ∧ Replaced outputs ys result' := by
  induction xs generalizing result with
  | nil => simp
  | cons c xs ih =>
    have hTail : ∀ p < xs.length, ∀ idx, outputs.get idx ≠ none →
        ¬ OccursAt (stepPlaceholder idx) (xs ++ ys) p :=
      fun p hLt => hNone (p + 1) (Nat.succ_lt_succ hLt)
    have hHere : ∀ idx, outputs.get idx ≠ none → ¬ stepPlaceholder idx <+: c :: (xs ++ ys) :=
      fun idx hIdx => hNone 0 (Nat.succ_pos _) idx hIdx
    constructor
    · intro h
      rw [List.cons_append] at h
      generalize hText : c :: (xs ++ ys) = text at h
      cases h with
      | nil => cases hText
      | @output idx out rest result hOut hRest =>
        refine absurd (hText ▸ List.prefix_append _ _) (hHere idx ?_)
        rw [hOut]
        exact Option.some_ne_none out
      | keep hKeep hRest =>
        cases hText
        obtain ⟨result', rfl, hYs⟩ := (ih hTail).mp hRest
        exact ⟨result', rfl, hYs⟩
    · rintro ⟨result', rfl, hYs⟩
      exact .keep hHere ((ih hTail).mpr ⟨result', rfl, hYs⟩)

theorem stepPlaceholder_prefix_cancel {idx' : Nat}
    (h : stepPlaceholder idx <+: stepPlaceholder idx' ++ text) : idx = idx' := by
  have hFirst : ClosesFirst (placeholderOpen ++ Nat.toDigits 10 idx') text :=
    fun p hLt => not_close_of_free (digits_free idx') hLt
  rw [stepPlaceholder.eq_def idx', List.append_assoc] at h
  have hEq := (stepPlaceholder_prefix_iff hFirst idx).mp h
  exact (toDigits_injective (List.append_cancel_left hEq)).symm

/-- At the placeholder of a completed step its output is put in. -/
theorem replaced_output_iff {output : String} (hOut : outputs.get idx = some output) :
    Replaced outputs (stepPlaceholder idx ++ text) result ↔
      ∃ result', result = output.toList ++ result' ∧ Replaced outputs text result' := by
  constructor
  · intro h
    generalize hText : stepPlaceholder idx ++ text = whole at h
    cases h with
    | nil =>
      rw [stepPlaceholder, placeholderOpen_eq] at hText
      cases hText
    | @output idx' out rest result hOut' hRest =>
      have hSame : idx = idx' := stepPlaceholder_prefix_cancel (hText ▸ List.prefix_append _ _)
      subst hSame
      rw [hOut] at hOut'
      cases hOut'
      rw [List.append_cancel_left hText]
      exact ⟨_, rfl, hRest⟩
    | keep hKeep hRest =>
      refine absurd (hText ▸ List.prefix_append _ _) (hKeep idx ?_)
      rw [hOut]
      exact Option.some_ne_none output
  · rintro ⟨result', rfl, hText⟩
    exact .output hOut hText

theorem replaced_nil_iff : Replaced outputs [] result ↔ result = [] := by
  constructor
  · intro h
    generalize hText : ([] : List Char) = text at h
    cases h with
    | nil => rfl
    | output hOut hRest =>
      rw [stepPlaceholder, placeholderOpen_eq] at hText
      cases hText
    | keep hKeep hRest => cases hText
  · rintro rfl
    exact .nil

theorem replaced_iff_eq (hNone : ∀ p < text.length, ∀ idx, outputs.get idx ≠ none →
      ¬ OccursAt (stepPlaceholder idx) text p) : Replaced outputs text result ↔ result = text := by
  have hSplit := @replaced_append_iff result text outputs [] (by rwa [List.append_nil])
  rw [List.append_nil] at hSplit
  rw [hSplit]
  simp [replaced_nil_iff]

theorem close_of_stepPlaceholder {p : Nat} (h : OccursAt (stepPlaceholder idx) text p) :
    OccursAt placeholderClose text (p + (placeholderOpen ++ Nat.toDigits 10 idx).length) := by
  obtain ⟨more, hMore⟩ := h
  rw [OccursAt, ← List.drop_drop, ← hMore, stepPlaceholder, List.append_assoc _ _ more,
    List.drop_left]
  exact List.prefix_append _ _

/-- Whether a step is completed. -/
def StepOutputs.completed (outputs : StepOutputs) (idx : Nat) : Prop := outputs.get idx ≠ none

theorem parseUsize_completed (h : outputs.completed idx) :
    parseUsize (Nat.toDigits 10 idx) = some idx :=
  parseUsize_toDigits (outputs.bounded idx h)

theorem open_not_suffix_of_parse {idx' n : Nat} (hParse : parseUsize inner = some idx)
    (hInside : inner.drop n = placeholderOpen ++ Nat.toDigits 10 idx') : False := by
  have hMem : '\x7b' ∈ inner := by
    refine List.mem_of_mem_drop (i := n) ?_
    rw [hInside, placeholderOpen_eq]
    exact List.mem_cons_self
  rcases parseUsize_chars hParse _ hMem with hPlus | hDigit
  · exact absurd hPlus (by decide)
  · exact absurd hDigit (by decide)

section Scan

variable {inner rest : List Char}

theorem replaced_kept_iff (hFirst : ClosesFirst inner rest)
    (hWhole : ∀ idx, outputs.completed idx → inner ≠ Nat.toDigits 10 idx)
    (hInside : ∀ idx, outputs.completed idx → ∀ n,
      inner.drop n ≠ placeholderOpen ++ Nat.toDigits 10 idx) :
    Replaced outputs (placeholderOpen ++ inner ++ (placeholderClose ++ rest)) result ↔
      ∃ result', result = placeholderOpen ++ inner ++ placeholderClose ++ result' ∧
        Replaced outputs rest result' := by
  rw [← List.append_assoc]
  refine replaced_append_iff ?_
  intro p hLt idx hIdx hOccurs
  rw [List.append_assoc] at hOccurs
  rcases stepPlaceholder_occursAt hFirst hOccurs hLt with ⟨-, hEq⟩ | ⟨-, hEq⟩
  · exact hWhole idx hIdx hEq
  · exact hInside idx hIdx _ hEq

/-- A placeholder that is read literally is replaced as it should be. -/
theorem replaced_resolve_iff (hFirst : ClosesFirst inner rest)
    (hReads : ReadsLiterally outputs.completed inner) :
    Replaced outputs (placeholderOpen ++ inner ++ (placeholderClose ++ rest))
        (resolvePlaceholder outputs inner ++ result) ↔ Replaced outputs rest result := by
  unfold ReadsLiterally at hReads
  unfold resolvePlaceholder
  cases hParse : parseUsize inner with
  | some idx =>
    simp only [hParse] at hReads ⊢
    cases hOut : outputs.get idx with
    | some output =>
      have hText : placeholderOpen ++ inner ++ (placeholderClose ++ rest) =
          stepPlaceholder idx ++ rest := by
        rw [hReads, stepPlaceholder]
        simp only [List.append_assoc]
      rw [hText, replaced_output_iff hOut]
      simp
    | none =>
      rw [replaced_kept_iff hFirst ?_ fun idx' _ n hEq => open_not_suffix_of_parse hParse hEq,
        ← hReads]
      · simp
      · intro idx' hIdx' hEq
        have hAgain := parseUsize_completed hIdx'
        rw [← hEq, hParse] at hAgain
        cases hAgain
        exact hIdx' hOut
  | none =>
    simp only [hParse] at hReads ⊢
    rw [replaced_kept_iff hFirst ?_ ?_]
    · simp
    · intro idx hIdx hEq
      have hAgain := parseUsize_completed hIdx
      rw [← hEq, hParse] at hAgain
      cases hAgain
    · intro idx hIdx n hEq
      exact hReads idx hIdx (hEq ▸ List.drop_suffix n inner)

/-- Outputs that cannot be mistaken for the beginning of a placeholder. -/
def Telling (outputs : StepOutputs) : Prop :=
  ∀ idx output, outputs.get idx = some output →
    ∃ c more, output.toList = c :: more ∧ c ≠ '\x7b'

/-- A placeholder that is not read literally is not replaced as it should be. -/
theorem not_replaced_resolve (hTelling : Telling outputs) (hFirst : ClosesFirst inner rest)
    (hReads : ¬ ReadsLiterally outputs.completed inner) :
    ¬ Replaced outputs (placeholderOpen ++ inner ++ (placeholderClose ++ rest))
        (resolvePlaceholder outputs inner ++ result) := by
  intro h
  unfold ReadsLiterally at hReads
  unfold resolvePlaceholder at h
  have hOpenHead : ∀ {output : String} {xs ys : List Char} {idx : Nat},
      outputs.get idx = some output → output.toList ++ xs ≠ placeholderOpen ++ ys := by
    intro output xs ys idx hOut hEq
    obtain ⟨c, more, hChars, hNe⟩ := hTelling idx output hOut
    rw [hChars, placeholderOpen_eq] at hEq
    exact hNe (List.cons.inj hEq).1
  cases hParse : parseUsize inner with
  | some idx =>
    simp only [hParse] at hReads h
    have hWhole : ∀ idx', outputs.completed idx' → inner ≠ Nat.toDigits 10 idx' := by
      intro idx' hIdx' hEq
      have hAgain := parseUsize_completed hIdx'
      rw [← hEq, hParse] at hAgain
      cases hAgain
      exact hReads hEq
    rw [replaced_kept_iff hFirst hWhole fun idx' _ n hEq => open_not_suffix_of_parse hParse hEq]
      at h
    obtain ⟨result', hEq, -⟩ := h
    cases hOut : outputs.get idx with
    | some output =>
      simp only [hOut, List.append_assoc] at hEq
      exact hOpenHead hOut hEq
    | none =>
      simp only [hOut] at hEq
      -- Two indices without a bracket, each up to the first closing.
      have hFree : '\x7d' ∉ placeholderOpen ++ inner := by
        intro hMem
        rcases List.mem_append.mp hMem with hOpen | hInner
        · exact absurd hOpen (by decide)
        · rcases parseUsize_chars hParse _ hInner with hPlus | hDigit
          · exact absurd hPlus (by decide)
          · exact absurd hDigit (by decide)
      have hCloses : ClosesFirst (placeholderOpen ++ inner) result' :=
        fun p hLt => not_close_of_free hFree hLt
      rw [List.append_assoc (placeholderOpen ++ inner)] at hEq
      have hSame := (stepPlaceholder_prefix_iff hCloses idx).mp ⟨result, hEq⟩
      exact hReads (List.append_cancel_left hSame)
  | none =>
    simp only [hParse] at hReads h
    push Not at hReads
    obtain ⟨idx, hIdx, before, hBefore⟩ := hReads
    obtain ⟨output, hOut⟩ := Option.ne_none_iff_exists'.mp hIdx
    subst hBefore
    have hText : placeholderOpen ++ (before ++ (placeholderOpen ++ Nat.toDigits 10 idx)) ++
        (placeholderClose ++ rest) =
          (placeholderOpen ++ before) ++ (stepPlaceholder idx ++ rest) := by
      simp only [stepPlaceholder, List.append_assoc]
    have hKept : ∀ p < (placeholderOpen ++ before).length, ∀ idx', outputs.get idx' ≠ none →
        ¬ OccursAt (stepPlaceholder idx')
          ((placeholderOpen ++ before) ++ (stepPlaceholder idx ++ rest)) p := by
      intro p hLt idx' hIdx' hOccurs
      rw [← hText] at hOccurs
      have hSeven : placeholderOpen.length = 7 := by decide
      have hLt' : p < (placeholderOpen ++ (before ++ (placeholderOpen ++ Nat.toDigits 10 idx)) ++
          placeholderClose).length := by
        simp only [List.length_append] at hLt ⊢
        omega
      rcases stepPlaceholder_occursAt hFirst hOccurs hLt' with ⟨-, hEq⟩ | ⟨hLe, hEq⟩
      · -- A number has no brackets.
        have hMem : '\x7b' ∈ Nat.toDigits 10 idx' := by
          rw [← hEq, placeholderOpen_eq]
          simp
        exact absurd (toDigits_isDigit hMem) (by decide)
      · -- The later opening would stand inside the index of the earlier one.
        rw [List.length_append] at hLt
        rw [List.drop_append_of_le_length (by omega)] at hEq
        obtain ⟨c, more, hMore⟩ : ∃ c more, before.drop (p - 7) = c :: more := by
          refine List.exists_cons_of_ne_nil ?_
          rw [Ne, List.drop_eq_nil_iff]
          omega
        rw [hMore, placeholderOpen_eq, List.cons_append, List.cons_append] at hEq
        obtain ⟨-, hTail⟩ := List.cons.inj hEq
        cases more with
        | nil => simp at hTail
        | cons d more =>
          rw [List.cons_append, List.cons_append] at hTail
          obtain ⟨-, hRest⟩ := List.cons.inj hTail
          have hMem : '\x7b' ∈ ['s', 't', 'e', 'p', '_'] ++ Nat.toDigits 10 idx' := by
            have hIn : '\x7b' ∈ more ++ ('\x7b' :: '\x7b' ::
                (['s', 't', 'e', 'p', '_'] ++ Nat.toDigits 10 idx)) := by simp
            rw [hRest] at hIn
            exact hIn
          rcases List.mem_append.mp hMem with hOpen | hDigit
          · exact absurd hOpen (by decide)
          · exact absurd (toDigits_isDigit hDigit) (by decide)
    rw [hText, replaced_append_iff hKept] at h
    obtain ⟨result', hEq, hRest⟩ := h
    obtain ⟨result'', rfl, -⟩ := (replaced_output_iff hOut).mp hRest
    simp only [List.append_assoc, List.append_cancel_left_eq] at hEq
    exact hOpenHead hOut hEq.symm

end Scan

/-! ## A whole string -/

theorem splitFirst_closesFirst (h : splitFirst placeholderClose behind = some (inner, rest)) :
    behind = inner ++ (placeholderClose ++ rest) ∧ ClosesFirst inner rest := by
  obtain ⟨hText, hFirst⟩ := splitFirst_eq_some h
  refine ⟨hText, ?_⟩
  unfold ClosesFirst
  rwa [← hText]

theorem replaced_before_iff {before : List Char}
    (h : splitFirst placeholderOpen text = some (before, behind)) :
    Replaced outputs text (before ++ result) ↔
      Replaced outputs (placeholderOpen ++ behind) result := by
  obtain ⟨rfl, hFirst⟩ := splitFirst_eq_some h
  rw [replaced_append_iff fun p hLt idx _ hOccurs =>
    hFirst p hLt (open_of_stepPlaceholder hOccurs)]
  simp

theorem replaced_unclosed (h : splitFirst placeholderClose behind = none) :
    Replaced outputs (placeholderOpen ++ behind) (placeholderOpen ++ behind) := by
  refine (replaced_iff_eq ?_).mpr rfl
  intro p _ idx _ hOccurs
  have hSeven : placeholderOpen.length = 7 := by decide
  have hClose := close_of_stepPlaceholder hOccurs
  rw [List.length_append, hSeven] at hClose
  refine splitFirst_eq_none placeholderClose_ne_nil h (p + (Nat.toDigits 10 idx).length) ?_
  rw [OccursAt, List.drop_append, List.drop_eq_nil_of_le (by omega), List.nil_append, hSeven]
    at hClose
  rw [OccursAt]
  have hOffset : p + (7 + (Nat.toDigits 10 idx).length) - 7 =
      p + (Nat.toDigits 10 idx).length := by omega
  rwa [hOffset] at hClose

theorem replaced_unopened (h : splitFirst placeholderOpen text = none) :
    Replaced outputs text text :=
  (replaced_iff_eq fun p _ _ _ hOccurs =>
    splitFirst_eq_none placeholderOpen_ne_nil h p (open_of_stepPlaceholder hOccurs)).mpr rfl

theorem scannedIndices_unopened (hOpen : splitFirst placeholderOpen text = none) :
    scannedIndices text = [] := by
  rw [scannedIndices]
  split
  · rfl
  · rename_i hSome
    rw [hOpen] at hSome
    cases hSome

theorem scannedIndices_unclosed {before : List Char}
    (hOpen : splitFirst placeholderOpen text = some (before, behind))
    (hClose : splitFirst placeholderClose behind = none) : scannedIndices text = [] := by
  rw [scannedIndices]
  split
  · rfl
  · rename_i hSome
    rw [hOpen] at hSome
    cases hSome
    split
    · rfl
    · rename_i hClosed
      rw [hClose] at hClosed
      cases hClosed

theorem scannedIndices_closed {before : List Char}
    (hOpen : splitFirst placeholderOpen text = some (before, behind))
    (hClose : splitFirst placeholderClose behind = some (inner, rest)) :
    scannedIndices text = inner :: scannedIndices rest := by
  rw [scannedIndices]
  split
  · rename_i hNone
    rw [hOpen] at hNone
    cases hNone
  · rename_i hSome
    rw [hOpen] at hSome
    cases hSome
    split
    · rename_i hNone
      rw [hClose] at hNone
      cases hNone
    · rename_i hClosed
      rw [hClose] at hClosed
      cases hClosed
      rfl

theorem replaced_substituteText (text : List Char)
    (hReads : ∀ inner ∈ scannedIndices text, ReadsLiterally outputs.completed inner) :
    Replaced outputs text (substituteText outputs text) := by
  fun_induction substituteText outputs text with
  | case1 text hOpen => exact replaced_unopened hOpen
  | case2 text before behind hOpen hClose =>
    rw [List.append_assoc]
    exact (replaced_before_iff hOpen).mpr (replaced_unclosed hClose)
  | case3 text before behind hOpen inner rest hClose ih =>
    rw [scannedIndices_closed hOpen hClose] at hReads
    obtain ⟨hText, hFirst⟩ := splitFirst_closesFirst hClose
    rw [List.append_assoc, replaced_before_iff hOpen, hText, ← List.append_assoc,
      replaced_resolve_iff hFirst (hReads inner List.mem_cons_self)]
    exact ih fun inner' hMem => hReads inner' (List.mem_cons_of_mem inner hMem)

/-- A string with a placeholder that is not read literally is not. -/
theorem readsLiterally_of_replaced (hTelling : Telling outputs) (text : List Char)
    (h : Replaced outputs text (substituteText outputs text)) :
    ∀ inner ∈ scannedIndices text, ReadsLiterally outputs.completed inner := by
  fun_induction substituteText outputs text with
  | case1 text hOpen =>
    rw [scannedIndices_unopened hOpen]
    exact fun inner hMem => absurd hMem List.not_mem_nil
  | case2 text before behind hOpen hClose =>
    rw [scannedIndices_unclosed hOpen hClose]
    exact fun inner hMem => absurd hMem List.not_mem_nil
  | case3 text before behind hOpen inner rest hClose ih =>
    obtain ⟨hText, hFirst⟩ := splitFirst_closesFirst hClose
    rw [List.append_assoc, replaced_before_iff hOpen, hText, ← List.append_assoc] at h
    have hHead : ReadsLiterally outputs.completed inner := by
      by_contra hNot
      exact not_replaced_resolve hTelling hFirst hNot h
    rw [replaced_resolve_iff hFirst hHead] at h
    rw [scannedIndices_closed hOpen hClose]
    intro inner' hMem
    rcases List.mem_cons.mp hMem with rfl | hRest
    · exact hHead
    · exact ih h inner' hRest

/-! ## A whole value -/

mutual

theorem substituteArgs_eq (outputs : StepOutputs) : ∀ args, substituteArgs outputs args =
    mapStrings (fun text => String.ofList (substituteText outputs text.toList)) args
  | .str _ | .null | .bool _ | .int _ | .float _ => by simp only [substituteArgs, mapStrings]
  | .obj fields => by rw [substituteArgs, mapStrings, substituteFields_eq outputs fields]
  | .arr items => by rw [substituteArgs, mapStrings, substituteItems_eq outputs items]

theorem substituteFields_eq (outputs : StepOutputs) : ∀ fields, substituteFields outputs fields =
    mapFieldStrings (fun text => String.ofList (substituteText outputs text.toList)) fields
  | [] => by rw [substituteFields, mapFieldStrings]
  | (_, value) :: rest => by
    rw [substituteFields, mapFieldStrings, substituteArgs_eq outputs value,
      substituteFields_eq outputs rest]

theorem substituteItems_eq (outputs : StepOutputs) : ∀ items, substituteItems outputs items =
    mapItemStrings (fun text => String.ofList (substituteText outputs text.toList)) items
  | [] => by rw [substituteItems, mapItemStrings]
  | value :: rest => by
    rw [substituteItems, mapItemStrings, substituteArgs_eq outputs value,
      substituteItems_eq outputs rest]

end

mutual

/-- The strings of a result tell how they were rewritten. -/
theorem eq_of_mapStrings {f g : String → String} : ∀ {args}, mapStrings f args = mapStrings g args →
    ∀ text ∈ stringsOf args, f text = g text
  | .str text, h, text', hMem => by
    simp only [mapStrings, Json.str.injEq] at h
    rw [stringsOf, List.mem_singleton] at hMem
    rw [hMem, h]
  | .obj fields, h, text, hMem => by
    simp only [mapStrings, Json.obj.injEq] at h
    rw [stringsOf] at hMem
    exact eq_of_mapFieldStrings h text hMem
  | .arr items, h, text, hMem => by
    simp only [mapStrings, Json.arr.injEq] at h
    rw [stringsOf] at hMem
    exact eq_of_mapItemStrings h text hMem
  | .null, _, _, hMem | .bool _, _, _, hMem | .int _, _, _, hMem | .float _, _, _, hMem => by
    simp [stringsOf] at hMem

theorem eq_of_mapFieldStrings {f g : String → String} :
    ∀ {fields}, mapFieldStrings f fields = mapFieldStrings g fields →
      ∀ text ∈ fieldStrings fields, f text = g text
  | [], _, _, hMem => by simp [fieldStrings] at hMem
  | (key, value) :: rest, h, text, hMem => by
    simp only [mapFieldStrings, List.cons.injEq, Prod.mk.injEq, true_and] at h
    rw [fieldStrings, List.mem_append] at hMem
    rcases hMem with hHead | hRest
    · exact eq_of_mapStrings h.1 text hHead
    · exact eq_of_mapFieldStrings h.2 text hRest

theorem eq_of_mapItemStrings {f g : String → String} :
    ∀ {items}, mapItemStrings f items = mapItemStrings g items →
      ∀ text ∈ itemStrings items, f text = g text
  | [], _, _, hMem => by simp [itemStrings] at hMem
  | value :: rest, h, text, hMem => by
    simp only [mapItemStrings, List.cons.injEq] at h
    rw [itemStrings, List.mem_append] at hMem
    rcases hMem with hHead | hRest
    · exact eq_of_mapStrings h.1 text hHead
    · exact eq_of_mapItemStrings h.2 text hRest

end

theorem substitutedArgs_iff (outputs : StepOutputs) (args : Json) :
    SubstitutedArgs outputs args (substituteArgs outputs args) ↔
      ∀ text ∈ stringsOf args,
        Replaced outputs text.toList (substituteText outputs text.toList) := by
  rw [substituteArgs_eq]
  constructor
  · rintro ⟨f, hArgs, hReplaced⟩ text hMem
    have hText := eq_of_mapStrings hArgs text hMem
    have hDone := hReplaced text hMem
    rwa [← hText, String.toList_ofList] at hDone
  · intro h
    refine ⟨_, rfl, ?_⟩
    intro text hMem
    rw [String.toList_ofList]
    exact h text hMem

/-- The substitution is right whatever the completed steps have put out. -/
def Faithful (args : Json) (outputs : StepOutputs) : Prop :=
  ∀ outputs' : StepOutputs, (∀ idx, outputs'.completed idx ↔ outputs.completed idx) →
    SubstitutedArgs outputs' args (substituteArgs outputs' args)

theorem readsLiterally_congr {completed completed' : Nat → Prop}
    (h : ∀ idx, completed' idx ↔ completed idx) (inner : List Char) :
    ReadsLiterally completed' inner ↔ ReadsLiterally completed inner := by
  unfold ReadsLiterally
  cases parseUsize inner with
  | some idx => rfl
  | none => exact forall_congr' fun idx => imp_congr (h idx) Iff.rfl

/-- The same steps with an output that is told apart from every placeholder. -/
def dashes (outputs : StepOutputs) : StepOutputs where
  get idx := (outputs.get idx).map fun _ => "-"
  bounded idx h := outputs.bounded idx fun hNone => h (by rw [hNone]; rfl)

theorem dashes_completed (outputs : StepOutputs) (idx : Nat) :
    (dashes outputs).completed idx ↔ outputs.completed idx := by
  simp [StepOutputs.completed, dashes]

theorem dashes_telling (outputs : StepOutputs) : Telling (dashes outputs) := by
  intro idx output hOut
  obtain ⟨_, -, rfl⟩ := Option.map_eq_some_iff.mp hOut
  exact ⟨'-', [], by decide, by decide⟩

/-- A value is substituted faithfully if and only if every placeholder that the scan reads in its
strings is read literally. -/
theorem substituteArgs_faithful_iff (args : Json) (outputs : StepOutputs) :
    Faithful args outputs ↔
      ∀ text ∈ stringsOf args, ∀ inner ∈ scannedIndices text.toList,
        ReadsLiterally outputs.completed inner := by
  constructor
  · intro h text hText inner hInner
    have hDone := (substitutedArgs_iff _ args).mp (h _ (dashes_completed outputs)) text hText
    have hReads := readsLiterally_of_replaced (dashes_telling outputs) _ hDone inner hInner
    exact (readsLiterally_congr (dashes_completed outputs) inner).mp hReads
  · intro h outputs' hSame
    refine (substitutedArgs_iff outputs' args).mpr fun text hText => ?_
    refine replaced_substituteText text.toList fun inner hInner => ?_
    exact (readsLiterally_congr hSame inner).mpr (h text hText inner hInner)

def noOutputs : StepOutputs where
  get _ := none
  bounded _ h := absurd rfl h

/-- A placeholder of an unknown step, with zeros in front. -/
def paddedText : String := "\x7b\x7bstep_007\x7d\x7d"

theorem paddedText_not_substituted :
    ¬ SubstitutedArgs noOutputs (.str paddedText)
      (substituteArgs noOutputs (.str paddedText)) := by
  intro h
  have hTelling : Telling noOutputs := fun _ _ hOut => absurd hOut (Option.some_ne_none _).symm
  have hText := (substitutedArgs_iff noOutputs (.str paddedText)).mp h paddedText
    (by rw [stringsOf]; exact List.mem_cons_self)
  have hScanned : "007".toList ∈ scannedIndices paddedText.toList := by
    have hOpen : splitFirst placeholderOpen paddedText.toList =
        some ([], "007\x7d\x7d".toList) := by decide
    have hClose : splitFirst placeholderClose "007\x7d\x7d".toList = some ("007".toList, []) := by
      decide
    rw [scannedIndices_closed hOpen hClose]
    exact List.mem_cons_self
  have hReads := readsLiterally_of_replaced hTelling _ hText _ hScanned
  have hParse : parseUsize "007".toList = some 7 := by decide
  simp only [ReadsLiterally, hParse] at hReads
  exact absurd hReads (by decide)

end Choreographr.Tools
