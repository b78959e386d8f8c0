import Mathlib.Data.List.Basic

/-!
# Readers of lines

A reader takes the lines off a stream that arrives in pieces. A `LineMachine` says what
it does with a line: keep it, return a result, or close the stream, with a result or
silently. A silent close does not end the call: the reader still asks for a piece, and
at the end of the stream it returns what it has kept.

`walk` is what the machine makes of the whole stream. The results of the calls are those
of the walk (`nextAfter_eq`); only what is left at a silent close depends on the pieces.
-/

namespace Choreographr.Lib

variable {α σ ρ : Type} [DecidableEq α]

/-! ## Lines -/

/-- The first line and what is behind its separator. -/
def cutLine (sep : α) : List α → Option (List α × List α)
  | [] => none
  | a :: rest =>
      if a = sep then some ([], rest)
      else (cutLine sep rest).map fun (cut : List α × List α) => (a :: cut.1, cut.2)

theorem cutLine_eq_none_iff {sep : α} {xs : List α} : cutLine sep xs = none ↔ sep ∉ xs := by
  induction xs with
  | nil => simp [cutLine]
  | cons a rest ih =>
    rw [cutLine]
    split
    · rename_i hSep
      simp [hSep]
    · rename_i hSep
      simp [ih, Ne.symm hSep]

theorem cutLine_eq_some_iff {sep : α} {xs line rest : List α} :
    cutLine sep xs = some (line, rest) ↔ xs = line ++ sep :: rest ∧ sep ∉ line := by
  induction xs generalizing line with
  | nil => simp [cutLine]
  | cons a more ih =>
    rw [cutLine]
    split
    · rename_i hSep
      constructor
      · intro h
        cases h
        exact ⟨by rw [hSep]; rfl, List.not_mem_nil⟩
      · rintro ⟨hEq, hLine⟩
        cases line with
        | nil =>
          cases hEq
          rfl
        | cons b line =>
          cases hEq
          exact absurd (hSep ▸ List.mem_cons_self) hLine
    · rename_i hSep
      rw [Option.map_eq_some_iff]
      constructor
      · rintro ⟨⟨line', rest'⟩, hCut, hEq⟩
        cases hEq
        obtain ⟨hMore, hLine⟩ := ih.mp hCut
        refine ⟨by rw [hMore]; rfl, ?_⟩
        rw [List.mem_cons, not_or]
        exact ⟨Ne.symm hSep, hLine⟩
      · rintro ⟨hEq, hLine⟩
        cases line with
        | nil =>
          cases hEq
          exact absurd rfl hSep
        | cons b line =>
          cases hEq
          rw [List.mem_cons, not_or] at hLine
          exact ⟨(line, rest), ih.mpr ⟨rfl, hLine.2⟩, rfl⟩

theorem cutLine_shrinks {sep : α} {xs line rest : List α}
    (h : cutLine sep xs = some (line, rest)) : rest.length < xs.length := by
  rw [(cutLine_eq_some_iff.mp h).1, List.length_append, List.length_cons]
  omega

/-- A line that is cut off a list is cut off a longer one. -/
theorem cutLine_append {sep : α} {xs line rest : List α} (h : cutLine sep xs = some (line, rest))
    (ys : List α) : cutLine sep (xs ++ ys) = some (line, rest ++ ys) := by
  obtain ⟨rfl, hLine⟩ := cutLine_eq_some_iff.mp h
  exact cutLine_eq_some_iff.mpr ⟨by rw [List.append_assoc]; rfl, hLine⟩

/-! ## Machines -/

/-- What becomes of a line. -/
inductive LineStep (σ ρ : Type) where
  | more (s : σ)
  | emit (r : ρ) (s : σ)
  /-- Close the stream without a result. -/
  | stop (s : σ)
  /-- Close the stream with a result. -/
  | emitStop (r : ρ) (s : σ)

namespace LineStep

def state : LineStep σ ρ → σ
  | more s => s
  | emit _ s => s
  | stop s => s
  | emitStop _ s => s

def result : LineStep σ ρ → Option ρ
  | emit r _ => some r
  | emitStop r _ => some r
  | _ => none

/-- The line closes the stream. -/
def stops : LineStep σ ρ → Bool
  | stop _ => true
  | emitStop _ _ => true
  | _ => false

end LineStep

structure LineMachine (α σ ρ : Type) where
  sep : α
  /-- A line without its separator. -/
  onLine : σ → List α → LineStep σ ρ
  /-- The end of the stream. -/
  onEnd : σ → Option ρ × σ

/-- What is left when no line is. -/
inductive Ending (α σ : Type) where
  | live (s : σ)
  /-- A line closed the stream silently. -/
  | silent (s : σ) (rest : List α)
  | closed

namespace LineMachine

variable (M : LineMachine α σ ρ)

/-- The results of the lines of a stream, and how they end. -/
def walk (s : σ) (stream : List α) : List ρ × Ending α σ :=
  match h : cutLine M.sep stream with
  | none => ([], .live s)
  | some (line, rest) =>
      have := cutLine_shrinks h
      match M.onLine s line with
      | .more s => walk s rest
      | .emit r s => (r :: (walk s rest).1, (walk s rest).2)
      | .stop s => ([], .silent s rest)
      | .emitStop r _ => ([r], .closed)
termination_by stream.length

end LineMachine

structure LineReader (α σ : Type) where
  pending : List α
  state : σ
  finished : Bool := false

namespace LineReader

variable (M : LineMachine α σ ρ)

/-- Take lines off `pending` until one brings a result or closes the stream. -/
def drain (r : LineReader α σ) : Option ρ × LineReader α σ :=
  match h : cutLine M.sep r.pending with
  | none => (none, r)
  | some (line, rest) =>
      have := cutLine_shrinks h
      match M.onLine r.state line with
      | .more s => drain { r with pending := rest, state := s }
      | .emit x s => (some x, { r with pending := rest, state := s })
      | .stop s => (none, { pending := rest, state := s, finished := true })
      | .emitStop x s => (some x, { pending := rest, state := s, finished := true })
termination_by r.pending.length

/-- A read that finds nothing. -/
def atEnd (r : LineReader α σ) : Option ρ × LineReader α σ :=
  ((M.onEnd r.state).1, { r with state := (M.onEnd r.state).2, finished := true })

/-- One call: drain, then read, until there is a result or the stream is closed. -/
def next (r : LineReader α σ) (reads : List (List α)) :
    Option ρ × LineReader α σ × List (List α) :=
  if r.finished then (none, r, reads)
  else
    match r.drain M, reads with
    | (some x, r'), reads => (some x, r', reads)
    | (none, r'), [] => ((r'.atEnd M).1, (r'.atEnd M).2, [])
    | (none, r'), [] :: reads => ((r'.atEnd M).1, (r'.atEnd M).2, reads)
    | (none, r'), (a :: bytes) :: reads =>
        next { r' with pending := r'.pending ++ a :: bytes } reads
termination_by reads.length

/-- The reader and the reads after `n` calls. -/
def after (r : LineReader α σ) (reads : List (List α)) : Nat → LineReader α σ × List (List α)
  | 0 => (r, reads)
  | n + 1 => ((r.after reads n).1.next M (r.after reads n).2).2

/-- The result of call `n`. -/
def nextAfter (r : LineReader α σ) (reads : List (List α)) (n : Nat) : Option ρ :=
  ((r.after M reads n).1.next M (r.after M reads n).2).1

end LineReader

/-! ## Walks -/

namespace LineMachine

/-- The walk from what becomes of a line. -/
def walkFrom (M : LineMachine α σ ρ) (rest : List α) : LineStep σ ρ → List ρ × Ending α σ
  | .more s => M.walk s rest
  | .emit r s => (r :: (M.walk s rest).1, (M.walk s rest).2)
  | .stop s => ([], .silent s rest)
  | .emitStop r _ => ([r], .closed)

variable {M : LineMachine α σ ρ} {s s' : σ} {line rest stream : List α}

theorem walk_none (h : M.sep ∉ stream) : M.walk s stream = ([], .live s) := by
  rw [walk]
  split
  · rfl
  · rename_i hCut
    rw [cutLine_eq_none_iff.mpr h] at hCut
    cases hCut

theorem walk_cut (hCut : cutLine M.sep stream = some (line, rest)) :
    M.walk s stream = M.walkFrom rest (M.onLine s line) := by
  rw [walk]
  split
  · rename_i hNone
    rw [hCut] at hNone
    cases hNone
  · rename_i hSome
    rw [hCut] at hSome
    cases hSome
    cases M.onLine s line <;> rfl

/-- What is left at a silent close is behind a separator. -/
theorem walk_silent {M : LineMachine α σ ρ} {s : σ} {stream : List α}
    (h : (M.walk s stream).2 = .silent s' rest) : ∃ front, stream = front ++ M.sep :: rest := by
  fun_induction walk M s stream with
  | case1 s stream hCut => cases h
  | case2 s stream line more hCut _ s₁ hStep ih =>
    obtain ⟨front, hFront⟩ := ih h
    refine ⟨line ++ M.sep :: front, ?_⟩
    rw [(cutLine_eq_some_iff.mp hCut).1, hFront]
    simp
  | case3 s stream line more hCut _ r s₁ hStep ih =>
    obtain ⟨front, hFront⟩ := ih h
    refine ⟨line ++ M.sep :: front, ?_⟩
    rw [(cutLine_eq_some_iff.mp hCut).1, hFront]
    simp
  | case4 s stream line more hCut _ s₁ hStep =>
    cases h
    exact ⟨line, (cutLine_eq_some_iff.mp hCut).1⟩
  | case5 s stream line more hCut _ r s₁ hStep => cases h

end LineMachine

/-! ## Lists of lines -/

/-- The lines, each with its separator. -/
def joinLines (sep : α) (lines : List (List α)) : List α := lines.flatMap (· ++ [sep])

omit [DecidableEq α] in
theorem joinLines_cons (sep : α) (line : List α) (lines : List (List α)) (rest : List α) :
    joinLines sep (line :: lines) ++ rest = line ++ sep :: (joinLines sep lines ++ rest) := by
  simp [joinLines]

omit [DecidableEq α] in
theorem joinLines_append (sep : α) (lines lines' : List (List α)) :
    joinLines sep (lines ++ lines') = joinLines sep lines ++ joinLines sep lines' :=
  List.flatMap_append

/-- A stream is a list of lines up to its end, or up to the first line of some kind. -/
theorem exists_lines (sep : α) (kind : List α → Bool) (stream : List α) :
    ∃ lines, (∀ line ∈ lines, sep ∉ line ∧ kind line = false) ∧
      ((∃ tail, sep ∉ tail ∧ stream = joinLines sep lines ++ tail) ∨
        ∃ line rest, sep ∉ line ∧ kind line = true ∧
          stream = joinLines sep (lines ++ [line]) ++ rest) := by
  induction hLength : stream.length using Nat.strongRecOn generalizing stream with
  | _ n ih =>
    cases hCut : cutLine sep stream with
    | none =>
      exact ⟨[], by simp, .inl ⟨stream, cutLine_eq_none_iff.mp hCut, rfl⟩⟩
    | some cut =>
      obtain ⟨line, rest⟩ := cut
      obtain ⟨hEq, hLine⟩ := cutLine_eq_some_iff.mp hCut
      cases hKind : kind line with
      | true =>
        refine ⟨[], by simp, .inr ⟨line, rest, hLine, hKind, ?_⟩⟩
        simp [joinLines, hEq]
      | false =>
        obtain ⟨lines, hLines, hStream⟩ :=
          ih rest.length (hLength ▸ cutLine_shrinks hCut) rest rfl
        refine ⟨line :: lines, ?_, ?_⟩
        · intro line' hMem
          rcases List.mem_cons.mp hMem with rfl | hMem
          · exact ⟨hLine, hKind⟩
          · exact hLines line' hMem
        · rcases hStream with ⟨tail, hTail, hRest⟩ | ⟨last, rest', hLast, hKindLast, hRest⟩
          · exact .inl ⟨tail, hTail, by rw [joinLines_cons, ← hRest, hEq]⟩
          · refine .inr ⟨last, rest', hLast, hKindLast, ?_⟩
            rw [List.cons_append, joinLines_cons, ← hRest, hEq]

namespace LineMachine

/-- The state behind some lines. -/
def stateAfter (M : LineMachine α σ ρ) (s : σ) (lines : List (List α)) : σ :=
  lines.foldl (fun s line => (M.onLine s line).state) s

/-- The results of some lines. -/
def resultsOf (M : LineMachine α σ ρ) (s : σ) : List (List α) → List ρ
  | [] => []
  | line :: lines => (M.onLine s line).result.toList ++ resultsOf M (M.onLine s line).state lines

variable {M : LineMachine α σ ρ}

/-- A walk over lines that do not close the stream. -/
theorem walk_lines {lines : List (List α)}
    (hLines : ∀ line ∈ lines, M.sep ∉ line ∧ ∀ s, (M.onLine s line).stops = false) (s : σ)
    (rest : List α) :
    M.walk s (joinLines M.sep lines ++ rest) =
      (M.resultsOf s lines ++ (M.walk (M.stateAfter s lines) rest).1,
        (M.walk (M.stateAfter s lines) rest).2) := by
  induction lines generalizing s with
  | nil => rfl
  | cons line lines ih =>
    obtain ⟨hLine, hStops⟩ := hLines line List.mem_cons_self
    have hRest := fun s => ih (fun l hl => hLines l (List.mem_cons_of_mem _ hl)) s
    rw [joinLines_cons, walk_cut (cutLine_eq_some_iff.mpr ⟨rfl, hLine⟩), resultsOf, stateAfter,
      List.foldl_cons]
    have hOpen := hStops s
    cases hStep : M.onLine s line with
    | more s' => exact hRest s'
    | emit r s' =>
      rw [walkFrom, hRest s']
      rfl
    | stop s' =>
      rw [hStep] at hOpen
      cases hOpen
    | emitStop r s' =>
      rw [hStep] at hOpen
      cases hOpen

end LineMachine

namespace LineReader

variable {M : LineMachine α σ ρ} {r r₀ : LineReader α σ} {behind : List α}

/-- What a drain does, in terms of the walk over `pending` and what follows it. -/
inductive Drained (M : LineMachine α σ ρ) (r : LineReader α σ) (behind : List α) :
    Option ρ → LineReader α σ → Prop
  | starved (r' : LineReader α σ) (hOpen : r'.finished = false) (hPending : M.sep ∉ r'.pending)
      (hWalk : M.walk r.state (r.pending ++ behind) =
        M.walk r'.state (r'.pending ++ behind)) : Drained M r behind none r'
  | silent (r' : LineReader α σ) (hClosed : r'.finished = true)
      (hWalk : M.walk r.state (r.pending ++ behind) =
        ([], .silent r'.state (r'.pending ++ behind))) : Drained M r behind none r'
  | result (x : ρ) (r' : LineReader α σ) (hOpen : r'.finished = false)
      (hWalk : M.walk r.state (r.pending ++ behind) =
        (x :: (M.walk r'.state (r'.pending ++ behind)).1,
          (M.walk r'.state (r'.pending ++ behind)).2)) : Drained M r behind (some x) r'
  | last (x : ρ) (r' : LineReader α σ) (hClosed : r'.finished = true)
      (hWalk : M.walk r.state (r.pending ++ behind) = ([x], .closed)) :
      Drained M r behind (some x) r'

theorem Drained.congr {out : Option ρ} {r' : LineReader α σ} (h : Drained M r₀ behind out r')
    (hWalk : M.walk r.state (r.pending ++ behind) = M.walk r₀.state (r₀.pending ++ behind)) :
    Drained M r behind out r' := by
  cases h with
  | starved _ hOpen hPending hEq => exact .starved r' hOpen hPending (hWalk.trans hEq)
  | silent _ hClosed hEq => exact .silent r' hClosed (hWalk.trans hEq)
  | result x _ hOpen hEq => exact .result x r' hOpen (hWalk.trans hEq)
  | last x _ hClosed hEq => exact .last x r' hClosed (hWalk.trans hEq)

theorem drain_drained (hOpen : r.finished = false) (behind : List α) :
    Drained M r behind (r.drain M).1 (r.drain M).2 := by
  fun_induction drain M r with
  | case1 r hCut => exact .starved r hOpen (cutLine_eq_none_iff.mp hCut) rfl
  | case2 r line rest hCut _ s hStep ih =>
    refine (ih hOpen).congr ?_
    rw [LineMachine.walk_cut (cutLine_append hCut behind), hStep]
    rfl
  | case3 r line rest hCut _ x s hStep =>
    refine .result x _ hOpen ?_
    rw [LineMachine.walk_cut (cutLine_append hCut behind), hStep]
    rfl
  | case4 r line rest hCut _ s hStep =>
    refine .silent _ rfl ?_
    rw [LineMachine.walk_cut (cutLine_append hCut behind), hStep]
    rfl
  | case5 r line rest hCut _ x s hStep =>
    refine .last x _ rfl ?_
    rw [LineMachine.walk_cut (cutLine_append hCut behind), hStep]
    rfl

theorem drained_of_eq {out : Option ρ} {r' : LineReader α σ} (hOpen : r.finished = false)
    (hDrain : r.drain M = (out, r')) (behind : List α) : Drained M r behind out r' := by
  have hDrained := drain_drained (M := M) hOpen behind
  rw [hDrain] at hDrained
  exact hDrained

/-! ## Calls -/

/-- What the end of the stream adds to the results of a walk: what is kept, unless a
silent close was followed by another read. -/
def leftover (M : LineMachine α σ ρ) (reads : List (List α)) : Ending α σ → Option ρ
  | .live s => (M.onEnd s).1
  | .silent s rest =>
      if reads.getLast?.all (rest.length < ·.length) then (M.onEnd s).1 else none
  | .closed => none

/-- The results a reader still has to return. -/
def toCome (M : LineMachine α σ ρ) (r : LineReader α σ) (reads : List (List α)) : List ρ :=
  if r.finished then []
  else
    (M.walk r.state (r.pending ++ reads.flatten)).1 ++
      (leftover M reads (M.walk r.state (r.pending ++ reads.flatten)).2).toList

variable {reads : List (List α)}

theorem toCome_of_finished (h : r.finished = true) : toCome M r reads = [] := by
  rw [toCome, if_pos h]

theorem toCome_of_open (h : r.finished = false) :
    toCome M r reads = (M.walk r.state (r.pending ++ reads.flatten)).1 ++
      (leftover M reads (M.walk r.state (r.pending ++ reads.flatten)).2).toList := by
  rw [toCome, if_neg (by simp [h])]

/-- A line behind a read that ended within a line is within the later reads. -/
theorem leftover_read {bytes : List α} (hPending : M.sep ∉ r.pending) (s : σ) :
    leftover M reads (M.walk s (r.pending ++ (bytes :: reads).flatten)).2 =
      leftover M (bytes :: reads) (M.walk s (r.pending ++ (bytes :: reads).flatten)).2 := by
  cases hEnding : (M.walk s (r.pending ++ (bytes :: reads).flatten)).2 with
  | live s' => rfl
  | closed => rfl
  | silent s' rest =>
    cases reads with
    | cons next more => rfl
    | nil =>
      obtain ⟨front, hFront⟩ := LineMachine.walk_silent hEnding
      rw [List.flatten_cons, List.flatten_nil, List.append_nil] at hFront
      have hBehind : rest.length < bytes.length := by
        have hBefore : r.pending.length ≤ front.length := by
          by_contra hShort
          apply hPending
          have hAt : (r.pending ++ bytes)[front.length]? = some M.sep := by
            rw [hFront, List.getElem?_append_right (Nat.le_refl _), Nat.sub_self]
            rfl
          rw [List.getElem?_append_left (by omega)] at hAt
          exact List.mem_of_getElem? hAt
        have hLength := congrArg List.length hFront
        rw [List.length_append, List.length_append, List.length_cons] at hLength
        omega
      simp [leftover, hBehind]

/-- A call returns the first of the results to come and leaves the others. -/
theorem next_toCome (hReads : ∀ bytes ∈ reads, bytes ≠ []) :
    (r.next M reads).1 = (toCome M r reads).head? ∧
      toCome M (r.next M reads).2.1 (r.next M reads).2.2 = (toCome M r reads).tail ∧
      ∀ bytes ∈ (r.next M reads).2.2, bytes ≠ [] := by
  fun_induction next M r reads with
  | case1 r reads hFinished =>
    rw [toCome_of_finished hFinished]
    exact ⟨rfl, rfl, hReads⟩
  | case2 r hOpen x r' reads hDrain =>
    rw [Bool.not_eq_true] at hOpen
    have hDrained := drained_of_eq hOpen hDrain reads.flatten
    rw [toCome_of_open hOpen]
    refine ⟨?_, ?_, hReads⟩
    · cases hDrained with
      | result _ _ hOpen' hWalk => rw [hWalk]; rfl
      | last _ _ hClosed hWalk => rw [hWalk]; rfl
    · cases hDrained with
      | result _ _ hOpen' hWalk =>
        rw [hWalk, toCome_of_open hOpen']
        rfl
      | last _ _ hClosed hWalk =>
        rw [hWalk, toCome_of_finished hClosed]
        rfl
  | case3 r hOpen r' hDrain =>
    rw [Bool.not_eq_true] at hOpen
    have hDrained := drained_of_eq hOpen hDrain []
    have hToCome : toCome M r [] = (M.onEnd r'.state).1.toList := by
      rw [toCome_of_open hOpen, List.flatten_nil]
      cases hDrained with
      | starved _ hOpen' hPending hWalk =>
        rw [hWalk, List.append_nil, LineMachine.walk_none hPending]
        rfl
      | silent _ hClosed hWalk =>
        rw [hWalk]
        rfl
    rw [hToCome, toCome_of_finished rfl]
    refine ⟨?_, ?_, by simp⟩
    · cases hEnd : (M.onEnd r'.state).1 <;> simp [atEnd, hEnd]
    · cases (M.onEnd r'.state).1 <;> rfl
  | case4 r hOpen r' reads hDrain => exact absurd rfl (hReads [] List.mem_cons_self)
  | case5 r hOpen r' a bytes reads hDrain ih =>
    rw [Bool.not_eq_true] at hOpen
    have hDrained := drained_of_eq hOpen hDrain ((a :: bytes) :: reads).flatten
    have hToCome : toCome M { r' with pending := r'.pending ++ a :: bytes } reads =
        toCome M r ((a :: bytes) :: reads) := by
      rw [toCome_of_open hOpen]
      cases hDrained with
      | starved _ hOpen' hPending hWalk =>
        rw [toCome_of_open (r := { r' with pending := r'.pending ++ a :: bytes }) hOpen', hWalk,
          ← leftover_read hPending, List.flatten_cons, ← List.append_assoc]
      | silent _ hClosed hWalk =>
        have hRead : ¬((a :: bytes) :: reads).getLast?.all
            ((r'.pending ++ ((a :: bytes) :: reads).flatten).length < ·.length) = true := by
          obtain ⟨front, last, hLast⟩ := List.eq_nil_or_concat ((a :: bytes) :: reads) |>.resolve_left
            (List.cons_ne_nil _ _)
          rw [hLast, List.concat_eq_append]
          simp
          omega
        rw [toCome_of_finished (r := { r' with pending := r'.pending ++ a :: bytes }) hClosed,
          hWalk]
        simp only [leftover, if_neg hRead]
        rfl
    rw [← hToCome]
    exact ih fun more hMore => hReads more (List.mem_cons_of_mem _ hMore)

/-- After `n` calls the first `n` results are gone. -/
theorem after_toCome (hReads : ∀ bytes ∈ reads, bytes ≠ []) (n : Nat) :
    toCome M (r.after M reads n).1 (r.after M reads n).2 = (toCome M r reads).drop n ∧
      ∀ bytes ∈ (r.after M reads n).2, bytes ≠ [] := by
  induction n with
  | zero => exact ⟨rfl, hReads⟩
  | succ n ih =>
    obtain ⟨-, hTail, hNonempty⟩ := next_toCome (M := M) (r := (r.after M reads n).1) ih.2
    refine ⟨?_, hNonempty⟩
    rw [after, hTail, ih.1, List.tail_drop]

/-- The calls return the results to come, one by one, and then none. -/
theorem nextAfter_eq (hReads : ∀ bytes ∈ reads, bytes ≠ []) (n : Nat) :
    r.nextAfter M reads n = (toCome M r reads)[n]? := by
  obtain ⟨hToCome, hNonempty⟩ := after_toCome (M := M) (r := r) hReads n
  rw [nextAfter, (next_toCome hNonempty).1, hToCome, List.head?_drop]

end LineReader

end Choreographr.Lib
