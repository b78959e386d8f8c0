import Choreographr.Protocols.Anthropic
import Choreographr.Session.State

/-!
# Token sums and the limit of the counters

A `u32` sum that does not fit panics where overflow checks are compiled in, and wraps where they
are not. The counts of a reply are added by the adapter, by the accumulation of the worker, and
by the reconstruction on load; the total of a session is the largest of its counters, so all
sums are exact as long as the total fits.
-/

namespace Choreographr.Session

open Protocols.Anthropic

/-! ## Sums that may overflow -/

/-- The result of `+`, if it has one. -/
def addU32 (checks : Bool) (a b : UInt32) : Option UInt32 :=
  if checks && decide (2 ^ 32 ≤ a.toNat + b.toNat) then none else some (a + b)

/-- `TokenUsage::accumulate` -/
def accumulateChecked (checks : Bool) (a b : TokenUsage) : Option TokenUsage := do
  let inputTokens ← addU32 checks a.inputTokens b.inputTokens
  let outputTokens ← addU32 checks a.outputTokens b.outputTokens
  let totalTokens ← addU32 checks a.totalTokens b.totalTokens
  let cachedTokens ← addU32 checks a.cachedTokens b.cachedTokens
  let cacheWriteTokens ← addU32 checks a.cacheWriteTokens b.cacheWriteTokens
  some ⟨inputTokens, outputTokens, totalTokens, cachedTokens, cacheWriteTokens⟩

/-- `anthropic_token_usage` -/
def anthropicUsageChecked (checks : Bool) (u : UsageInfo) : Option TokenUsage := do
  let withRead ← addU32 checks u.inputTokens u.cacheReadInputTokens
  let promptTokens ← addU32 checks withRead u.cacheCreationInputTokens
  let totalTokens ← addU32 checks promptTokens u.outputTokens
  some ⟨promptTokens, u.outputTokens, totalTokens, u.cacheReadInputTokens,
    u.cacheCreationInputTokens⟩

/-- The counter of the worker and that of the session, after the replies of a request each of
which may have reported its usage. The session merges the worker's counter after each reply. -/
def accumulateReplies (checks : Bool) (worker session : TokenUsage) :
    List (Option UsageInfo) → Option (TokenUsage × TokenUsage)
  | [] => some (worker, session)
  | none :: rest => accumulateReplies checks worker (session.mergeMax worker) rest
  | some info :: rest => do
      let usage ← anthropicUsageChecked checks info
      let worker ← accumulateChecked checks worker usage
      accumulateReplies checks worker (session.mergeMax worker) rest

/-- `reconstruct_accumulated_usage` on the usages of the turns -/
def reconstructChecked (checks : Bool) (total : TokenUsage) :
    List (Option TokenUsage) → Option TokenUsage
  | [] => some total
  | none :: rest => reconstructChecked checks total rest
  | some usage :: rest => do
      let total ← accumulateChecked checks total usage
      reconstructChecked checks total rest

/-- The usages that the turns record. -/
def recordedUsages (checks : Bool) : List (Option UsageInfo) → Option (List (Option TokenUsage))
  | [] => some []
  | none :: rest => (recordedUsages checks rest).map (none :: ·)
  | some info :: rest => do
      let usage ← anthropicUsageChecked checks info
      let usages ← recordedUsages checks rest
      some (some usage :: usages)

/-! ## Mathematical sums -/

/-- The five counts as numbers. -/
structure Counts where
  input : Nat := 0
  output : Nat := 0
  total : Nat := 0
  cached : Nat := 0
  cacheWrite : Nat := 0
deriving DecidableEq

namespace Counts

def add (a b : Counts) : Counts where
  input := a.input + b.input
  output := a.output + b.output
  total := a.total + b.total
  cached := a.cached + b.cached
  cacheWrite := a.cacheWrite + b.cacheWrite

/-- No count exceeds the total. -/
structure Bounded (c : Counts) : Prop where
  input : c.input ≤ c.total
  output : c.output ≤ c.total
  cached : c.cached ≤ c.total
  cacheWrite : c.cacheWrite ≤ c.total

theorem zero_add (a : Counts) : Counts.add {} a = a := by
  simp only [add, Nat.zero_add]

theorem add_assoc (a b c : Counts) : (a.add b).add c = a.add (b.add c) := by
  simp only [add, Nat.add_assoc]

theorem Bounded.add {a b : Counts} (ha : a.Bounded) (hb : b.Bounded) : (a.add b).Bounded :=
  ⟨Nat.add_le_add ha.input hb.input, Nat.add_le_add ha.output hb.output,
    Nat.add_le_add ha.cached hb.cached, Nat.add_le_add ha.cacheWrite hb.cacheWrite⟩

end Counts

def TokenUsage.counts (u : TokenUsage) : Counts where
  input := u.inputTokens.toNat
  output := u.outputTokens.toNat
  total := u.totalTokens.toNat
  cached := u.cachedTokens.toNat
  cacheWrite := u.cacheWriteTokens.toNat

/-- What a report of the provider counts: its input is what is behind the last breakpoint. -/
def reportCounts (u : UsageInfo) : Counts where
  input := u.inputTokens.toNat + u.cacheReadInputTokens.toNat + u.cacheCreationInputTokens.toNat
  output := u.outputTokens.toNat
  total := u.inputTokens.toNat + u.cacheReadInputTokens.toNat +
    u.cacheCreationInputTokens.toNat + u.outputTokens.toNat
  cached := u.cacheReadInputTokens.toNat
  cacheWrite := u.cacheCreationInputTokens.toNat

def sumCounts : List (Option UsageInfo) → Counts
  | [] => {}
  | none :: rest => sumCounts rest
  | some info :: rest => (reportCounts info).add (sumCounts rest)

/-- Every path to the counter of a session gives the sums of what was reported. -/
def SumsExact (checks : Bool) (replies : List (Option UsageInfo)) : Prop :=
  (∃ total, accumulateReplies checks {} {} replies = some (total, total) ∧
    total.counts = sumCounts replies) ∧
  ∃ usages total, recordedUsages checks replies = some usages ∧
    reconstructChecked checks {} usages = some total ∧ total.counts = sumCounts replies

/-! ## Sums that fit -/

theorem addU32_of_lt (checks : Bool) {a b : UInt32} (h : a.toNat + b.toNat < 2 ^ 32) :
    addU32 checks a b = some (a + b) ∧ (a + b).toNat = a.toNat + b.toNat := by
  refine ⟨?_, ?_⟩
  · have hNot : decide (2 ^ 32 ≤ a.toNat + b.toNat) = false := decide_eq_false (by omega)
    simp only [addU32, hNot, Bool.and_false, Bool.false_eq_true, if_false]
  · rw [UInt32.toNat_add, Nat.mod_eq_of_lt h]

theorem anthropicUsageChecked_of_lt (checks : Bool) {u : UsageInfo}
    (h : (reportCounts u).total < 2 ^ 32) :
    ∃ usage, anthropicUsageChecked checks u = some usage ∧ usage.counts = reportCounts u := by
  simp only [reportCounts] at h
  obtain ⟨hRead, hRead'⟩ := addU32_of_lt checks (a := u.inputTokens)
    (b := u.cacheReadInputTokens) (by omega)
  obtain ⟨hPrompt, hPrompt'⟩ := addU32_of_lt checks (b := u.cacheCreationInputTokens)
    (a := u.inputTokens + u.cacheReadInputTokens) (by omega)
  obtain ⟨hTotal, hTotal'⟩ := addU32_of_lt checks (b := u.outputTokens)
    (a := u.inputTokens + u.cacheReadInputTokens + u.cacheCreationInputTokens) (by omega)
  refine ⟨⟨u.inputTokens + u.cacheReadInputTokens + u.cacheCreationInputTokens, u.outputTokens,
    u.inputTokens + u.cacheReadInputTokens + u.cacheCreationInputTokens + u.outputTokens,
    u.cacheReadInputTokens, u.cacheCreationInputTokens⟩, ?_, ?_⟩
  · simp only [anthropicUsageChecked, hRead, hPrompt, hTotal, Option.bind_eq_bind,
      Option.bind_some]
  · simp only [TokenUsage.counts, reportCounts, hTotal', hPrompt', hRead']

theorem accumulateChecked_of_lt (checks : Bool) {a b : TokenUsage} (ha : a.counts.Bounded)
    (hb : b.counts.Bounded) (h : a.counts.total + b.counts.total < 2 ^ 32) :
    accumulateChecked checks a b = some (a.accumulate b) ∧
      (a.accumulate b).counts = a.counts.add b.counts ∧ a ≤ a.accumulate b := by
  obtain ⟨ha₁, ha₂, ha₃, ha₄⟩ := ha
  obtain ⟨hb₁, hb₂, hb₃, hb₄⟩ := hb
  simp only [TokenUsage.counts] at ha₁ ha₂ ha₃ ha₄ hb₁ hb₂ hb₃ hb₄ h
  have hFits : TokenUsage.Fits a b := ⟨by omega, by omega, h, by omega, by omega⟩
  obtain ⟨h₁, h₂, h₃, h₄, h₅⟩ := hFits
  refine ⟨?_, ?_, TokenUsage.le_accumulate ⟨h₁, h₂, h₃, h₄, h₅⟩⟩
  · simp only [accumulateChecked, (addU32_of_lt checks h₁).1, (addU32_of_lt checks h₂).1,
      (addU32_of_lt checks h₃).1, (addU32_of_lt checks h₄).1, (addU32_of_lt checks h₅).1,
      Option.bind_eq_bind, Option.bind_some]
    rfl
  · simp only [TokenUsage.counts, TokenUsage.accumulate, TokenUsage.map₂, Counts.add,
      (addU32_of_lt checks h₁).2, (addU32_of_lt checks h₂).2, (addU32_of_lt checks h₃).2,
      (addU32_of_lt checks h₄).2, (addU32_of_lt checks h₅).2]

theorem reportCounts_bounded (u : UsageInfo) : (reportCounts u).Bounded := by
  constructor <;> simp only [reportCounts] <;> omega

theorem accumulate_reply (checks : Bool) {acc : TokenUsage} {info : UsageInfo}
    {rest : List (Option UsageInfo)} (hBounded : acc.counts.Bounded)
    (h : acc.counts.total + (sumCounts (some info :: rest)).total < 2 ^ 32) :
    ∃ usage, anthropicUsageChecked checks info = some usage ∧
      accumulateChecked checks acc usage = some (acc.accumulate usage) ∧
      acc ≤ acc.accumulate usage ∧ (acc.accumulate usage).counts.Bounded ∧
      (acc.accumulate usage).counts.total + (sumCounts rest).total < 2 ^ 32 ∧
      (acc.accumulate usage).counts.add (sumCounts rest) =
        acc.counts.add (sumCounts (some info :: rest)) := by
  simp only [sumCounts, Counts.add] at h
  obtain ⟨usage, hUsage, hCounts⟩ := anthropicUsageChecked_of_lt checks (u := info) (by omega)
  have hUsageBounded : usage.counts.Bounded := hCounts ▸ reportCounts_bounded info
  obtain ⟨hAcc, hSum, hLe⟩ := accumulateChecked_of_lt checks hBounded hUsageBounded
    (by rw [hCounts]; omega)
  refine ⟨usage, hUsage, hAcc, hLe, hSum ▸ hBounded.add hUsageBounded, ?_, ?_⟩
  · rw [hSum, hCounts]
    simp only [Counts.add]
    omega
  · rw [hSum, hCounts, Counts.add_assoc, sumCounts]

theorem accumulateReplies_exact (checks : Bool) {acc : TokenUsage}
    {replies : List (Option UsageInfo)} (hBounded : acc.counts.Bounded)
    (h : acc.counts.total + (sumCounts replies).total < 2 ^ 32) :
    ∃ total, accumulateReplies checks acc acc replies = some (total, total) ∧
      total.counts = acc.counts.add (sumCounts replies) := by
  induction replies generalizing acc with
  | nil => exact ⟨acc, rfl, rfl⟩
  | cons reply rest ih =>
    cases reply with
    | none =>
      obtain ⟨total, hRun, hTotal⟩ := ih hBounded h
      refine ⟨total, ?_, hTotal⟩
      rw [accumulateReplies, TokenUsage.mergeMax_of_le (TokenUsage.le_rfl acc), hRun]
    | some info =>
      obtain ⟨usage, hUsage, hAcc, hLe, hNextBounded, hNext, hSum⟩ :=
        accumulate_reply checks hBounded h
      obtain ⟨total, hRun, hTotal⟩ := ih hNextBounded hNext
      refine ⟨total, ?_, ?_⟩
      · simp only [accumulateReplies, hUsage, hAcc, Option.bind_eq_bind, Option.bind_some,
          TokenUsage.mergeMax_of_le hLe, hRun]
      · rw [hTotal, hSum]

theorem reconstructChecked_exact (checks : Bool) {acc : TokenUsage}
    {replies : List (Option UsageInfo)} (hBounded : acc.counts.Bounded)
    (h : acc.counts.total + (sumCounts replies).total < 2 ^ 32) :
    ∃ usages total, recordedUsages checks replies = some usages ∧
      reconstructChecked checks acc usages = some total ∧
      total.counts = acc.counts.add (sumCounts replies) := by
  induction replies generalizing acc with
  | nil => exact ⟨[], acc, rfl, rfl, rfl⟩
  | cons reply rest ih =>
    cases reply with
    | none =>
      obtain ⟨usages, total, hRecorded, hRun, hTotal⟩ := ih hBounded h
      exact ⟨none :: usages, total, by rw [recordedUsages, hRecorded]; rfl, hRun, hTotal⟩
    | some info =>
      obtain ⟨usage, hUsage, hAcc, -, hNextBounded, hNext, hSum⟩ :=
        accumulate_reply checks hBounded h
      obtain ⟨usages, total, hRecorded, hRun, hTotal⟩ := ih hNextBounded hNext
      refine ⟨some usage :: usages, total, ?_, ?_, ?_⟩
      · simp only [recordedUsages, hUsage, hRecorded, Option.bind_eq_bind, Option.bind_some]
      · simp only [reconstructChecked, hAcc, hRun, Option.bind_eq_bind, Option.bind_some]
      · rw [hTotal, hSum]

/-! ## When the sums are exact -/

/-- The sums of a session are exact, whether overflow checks are compiled in or not, if and only
if its total number of tokens fits in a counter. -/
theorem token_sums_exact (checks : Bool) (replies : List (Option UsageInfo)) :
    SumsExact checks replies ↔ (sumCounts replies).total < 2 ^ 32 := by
  constructor
  · rintro ⟨⟨total, -, hTotal⟩, -⟩
    rw [← hTotal]
    exact total.totalTokens.toNat_lt
  · intro h
    have hZero : (({} : TokenUsage).counts).Bounded :=
      ⟨Nat.le_refl 0, Nat.le_refl 0, Nat.le_refl 0, Nat.le_refl 0⟩
    have hFits : ({} : TokenUsage).counts.total + (sumCounts replies).total < 2 ^ 32 := by
      have hNil : ({} : TokenUsage).counts.total = 0 := rfl
      omega
    have hAdd : Counts.add ({} : TokenUsage).counts (sumCounts replies) = sumCounts replies :=
      Counts.zero_add (sumCounts replies)
    obtain ⟨total, hRun, hTotal⟩ := accumulateReplies_exact checks hZero hFits
    obtain ⟨usages, loaded, hRecorded, hLoad, hLoaded⟩ :=
      reconstructChecked_exact checks hZero hFits
    exact ⟨⟨total, hRun, hTotal.trans hAdd⟩, usages, loaded, hRecorded, hLoad, hLoaded.trans hAdd⟩

def longReply : UsageInfo where
  inputTokens := 2147483648

/-- Two replies over a prompt of `2 ^ 31` tokens. -/
theorem longReplies_not_exact :
    ¬ ∀ (checks : Bool) (replies : List (Option UsageInfo)), SumsExact checks replies := by
  intro h
  obtain ⟨⟨total, hRun, hTotal⟩, -⟩ := h false [some longReply, some longReply]
  have hSum : total.totalTokens.toNat = (sumCounts [some longReply, some longReply]).total :=
    congrArg Counts.total hTotal
  have hLt : total.totalTokens.toNat < 2 ^ 32 := total.totalTokens.toNat_lt
  rw [hSum] at hLt
  exact absurd hLt (by decide)

end Choreographr.Session
