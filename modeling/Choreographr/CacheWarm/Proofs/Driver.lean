import Choreographr.CacheWarm.Driver
import Choreographr.Lib.Counting

/-!
# Pings and the lifetime of the cache

A plan fires between the clock value it was armed at and the end of the lifetime of a cache that
was refreshed then. The thread arms again when a ping returns, so a ping is in time when the plan
in force was armed soon after a request or a ping that did refresh the cache.
-/

namespace Choreographr.CacheWarm

open Catalog Lib

/-! ## The times of a plan -/

/-- The first ping and its deadline, and no subtraction goes below zero. -/
structure WarmTimes (ttl : UInt32) (now nextWarmAt refreshDeadline : Nat) : Prop where
  later : now < nextWarmAt
  ordered : nextWarmAt ≤ refreshDeadline
  alive : refreshDeadline < now + fromSecs ttl.toNat
  tenth : ttl / 10 ≤ ttl
  least : minTtlSecs ≤ ttl
  delay : warmDelaySecs ttl ≤ ttl

theorem toNat_warmDelaySecs {ttl : UInt32} (h : minTtlSecs < ttl) :
    (warmDelaySecs ttl).toNat = min (ttl.toNat - ttl.toNat / 10) (ttl.toNat - 10) := by
  have hMin : minTtlSecs.toNat = 10 := rfl
  have hLong : minTtlSecs.toNat < ttl.toNat := UInt32.lt_iff_toNat_lt.mp h
  have hTenth : (ttl / 10).toNat = ttl.toNat / 10 := UInt32.toNat_div ttl 10
  have hNinety : (ttl - ttl / 10).toNat = ttl.toNat - ttl.toNat / 10 := by
    rw [UInt32.toNat_sub_of_le _ _ (UInt32.le_iff_toNat_le.mpr (by omega)), hTenth]
  have hBefore : (ttl - minTtlSecs).toNat = ttl.toNat - 10 := by
    rw [UInt32.toNat_sub_of_le _ _ (UInt32.le_iff_toNat_le.mpr (by omega)), hMin]
  rw [warmDelaySecs]
  split
  · rename_i hOrder
    rw [UInt32.le_iff_toNat_le, hNinety, hBefore] at hOrder
    rw [hNinety]
    omega
  · rename_i hOrder
    rw [UInt32.le_iff_toNat_le, hNinety, hBefore] at hOrder
    rw [hBefore]
    omega

theorem warmTimes_spec {ttl : UInt32} (h : minTtlSecs < ttl) (now : Nat) :
    WarmTimes ttl now (warmTimes ttl now).1 (warmTimes ttl now).2 := by
  have hMin : minTtlSecs.toNat = 10 := rfl
  have hLong : minTtlSecs.toNat < ttl.toNat := UInt32.lt_iff_toNat_lt.mp h
  have hDelay := toNat_warmDelaySecs h
  have hTenth : (ttl / 10).toNat = ttl.toNat / 10 := UInt32.toNat_div ttl 10
  have hLess : warmDelaySecs ttl ≤ ttl := UInt32.le_iff_toNat_le.mpr (by omega)
  have hHalf : ((ttl - warmDelaySecs ttl) / 2).toNat =
      (ttl.toNat - (warmDelaySecs ttl).toNat) / 2 := by
    rw [UInt32.toNat_div, UInt32.toNat_sub_of_le _ _ hLess]
    rfl
  constructor
  · simp only [warmTimes, fromSecs]
    omega
  · exact Nat.le_add_right _ _
  · simp only [warmTimes, fromSecs, hHalf]
    omega
  · exact UInt32.le_iff_toNat_le.mpr (by omega)
  · exact UInt32.le_iff_toNat_le.mpr (by omega)
  · exact hLess

theorem minTtl_lt_of_eligible {policy : WarmPolicy} {facts : WarmFacts}
    (h : ineligibility policy facts = none) :
    ∃ ttl, ttlSecs facts.cacheTtl facts.retention = some ttl ∧ minTtlSecs < ttl := by
  unfold ineligibility at h
  split at h
  · cases h
  split at h
  · cases h
  split at h
  · cases h
  split at h
  · cases h
  split at h
  · cases h
  · rename_i ttl hTtl
    split at h
    · cases h
    · rename_i hLong
      refine ⟨ttl, hTtl, ?_⟩
      rw [UInt32.le_iff_toNat_le] at hLong
      exact UInt32.lt_iff_toNat_lt.mpr (by omega)

theorem WarmPolicy.arm_eligible {policy : WarmPolicy} {facts : WarmFacts} (now : Nat)
    (h : ineligibility policy facts = none) :
    ∃ ttl, ttlSecs facts.cacheTtl facts.retention = some ttl ∧
      (policy.arm facts now).state = .armed (warmTimes ttl now).1 (warmTimes ttl now).2 ∧
      WarmTimes ttl now (warmTimes ttl now).1 (warmTimes ttl now).2 := by
  obtain ⟨ttl, hTtl, hLong⟩ := minTtl_lt_of_eligible h
  refine ⟨ttl, hTtl, ?_, warmTimes_spec hLong now⟩
  rw [arm, h, hTtl]

theorem WarmPolicy.arm_state {policy : WarmPolicy} {facts : WarmFacts} {now next deadline : Nat}
    (h : (policy.arm facts now).state = .armed next deadline) :
    ∃ ttl, ttlSecs facts.cacheTtl facts.retention = some ttl ∧
      deadline = (warmTimes ttl now).2 := by
  cases hEligible : ineligibility policy facts with
  | some reason =>
    rw [arm, hEligible] at h
    cases h
  | none =>
    obtain ⟨ttl, hTtl, hState, -⟩ := arm_eligible now hEligible
    rw [hState] at h
    injection h with _ hDeadline
    exact ⟨ttl, hTtl, hDeadline.symm⟩

theorem WarmPlan.poll_ping {f : FloatOps} {plan : WarmPlan} {now : Nat}
    (h : plan.poll f now = .ping) :
    ∃ next deadline, plan.state = .armed next deadline ∧ next ≤ now ∧ now ≤ deadline := by
  unfold poll at h
  split at h
  · cases h
  · rename_i next deadline hState
    split at h
    · cases h
    split at h
    · cases h
    · exact ⟨next, deadline, hState, by omega, by omega⟩

/-! ## What refreshes the cache -/

section

variable {P : Type}

/-- A plan was put in force at `now`; the request or the ping before it refreshed the cache at
`refreshed`, unless the ping failed. -/
structure Arming (P : Type) where
  request : WarmRequest P
  refreshed : Option Nat
  now : Nat

def Event.arming : Event P → Option (Arming P)
  | .armed request sentAt now => some { request, refreshed := some sentAt, now }
  | .pinged _ _ => none
  | .answered request refreshed now => some { request, refreshed, now }
  | .skipped _ => none
  | .returned => none

def Arming.refresh (a : Arming P) : Option (WarmRequest P × Nat) :=
  a.refreshed.map fun time => (a.request, time)

def lastArming (events : List (Event P)) : Option (Arming P) :=
  (events.filterMap Event.arming).getLast?

/-- The latest real request or successful ping, with the request it was made for. -/
def lastRefresh (events : List (Event P)) : Option (WarmRequest P × Nat) :=
  ((events.filterMap Event.arming).filterMap Arming.refresh).getLast?

/-- Every ping comes before the cache of the request that it replays has expired. -/
def OnTime (events : List (Event P)) : Prop :=
  ∀ before request now after, events = before ++ .pinged request now :: after →
    ∃ ttl time, ttlSecs request.facts.cacheTtl request.facts.retention = some ttl ∧
      lastRefresh before = some (request, time) ∧ now < time + fromSecs ttl.toNat

/-- Nothing happens behind the end of the thread. -/
def Ends (events : List (Event P)) : Prop :=
  ∀ before after, events = before ++ .returned :: after → after = []

/-- Less time had passed since the refresh than the deadline of the plan leaves of the lifetime. -/
def Arming.InTime (a : Arming P) : Prop :=
  ∃ time, a.refreshed = some time ∧
    ∀ ttl, ttlSecs a.request.facts.cacheTtl a.request.facts.retention = some ttl →
      (warmTimes ttl a.now).2 < time + fromSecs ttl.toNat

/-- Whenever a ping is sent, the plan in force was armed in time. -/
def PingsInTime (events : List (Event P)) : Prop :=
  ∀ before request now after, events = before ++ .pinged request now :: after →
    ∀ a, lastArming before = some a → a.InTime

theorem lastArming_append (events : List (Event P)) (e : Event P) :
    lastArming (events ++ [e]) = e.arming.or (lastArming events) := by
  rw [lastArming, List.filterMap_append, List.filterMap_cons, List.filterMap_nil]
  cases e.arming with
  | none => simp [lastArming]
  | some a => simp

theorem lastRefresh_of_lastArming {events : List (Event P)} {a : Arming P} {time : Nat}
    (h : lastArming events = some a) (hTime : a.refreshed = some time) :
    lastRefresh events = some (a.request, time) := by
  obtain ⟨before, hBefore⟩ := List.getLast?_eq_some_iff.mp h
  have hRefresh : a.refresh = some (a.request, time) := by rw [Arming.refresh, hTime]; rfl
  rw [lastRefresh, hBefore, List.filterMap_append, List.filterMap_cons, hRefresh,
    List.filterMap_nil, List.getLast?_concat]

/-! ## One step -/

variable {f : FloatOps} {policy : WarmPolicy}

/-- What one step of the thread can do. -/
inductive Moves (f : FloatOps) (policy : WarmPolicy) (s s' : Warmer P) : List (Event P) → Prop
  | quiet : s'.armed = s.armed → (s'.phase = .returned ↔ s.phase = .returned) →
      Moves f policy s s' []
  | armed {request : WarmRequest P} {sentAt now : Nat} : s.phase ≠ .returned →
      s'.armed = some (armAt policy request now) → s'.phase ≠ .returned →
      Moves f policy s s' [.armed request sentAt now]
  | pinged {armed : Armed P} {now : Nat} : s.phase ≠ .returned → s.armed = some armed →
      armed.plan.poll f now = .ping → s'.armed = none → s'.phase ≠ .returned →
      Moves f policy s s' [.pinged armed.request now]
  | answered {request : WarmRequest P} {refreshed : Option Nat} {now : Nat} :
      s.phase ≠ .returned → s'.armed = some (armAt policy request now) → s'.phase ≠ .returned →
      Moves f policy s s' [.answered request refreshed now]
  | skipped {reason : SkipReason} : s.phase ≠ .returned → s'.armed = none →
      s'.phase ≠ .returned → Moves f policy s s' [.skipped reason]
  | returned : s.phase ≠ .returned → s'.armed = s.armed → s'.phase = .returned →
      Moves f policy s s' [.returned]

theorem moves_evaluate {s : Warmer P} (hPhase : s.phase = .top) (now : Nat) :
    Moves f policy s (s.evaluate f now).1 (s.evaluate f now).2 := by
  have hRunning : s.phase ≠ .returned := by rw [hPhase]; exact fun h => by cases h
  unfold Warmer.evaluate
  split
  · exact .quiet rfl (iff_of_false (fun h => by cases h) hRunning)
  · rename_i armed hArmed
    split
    · rename_i hPoll
      exact .pinged hRunning hArmed hPoll rfl (fun h => by cases h)
    · exact .skipped hRunning rfl hRunning
    · exact .quiet rfl (iff_of_false (fun h => by cases h) hRunning)

theorem moves_receive {s s' : Warmer P} {os : List (Event P)} {timer : Option Nat} {now : Nat}
    (hPhase : s.phase = .waiting timer) (h : s.receive policy now = some (s', os)) :
    Moves f policy s s' os := by
  have hRunning : s.phase ≠ .returned := by rw [hPhase]; exact fun h => by cases h
  unfold Warmer.receive at h
  split at h
  · cases h
    exact .armed hRunning rfl (fun h => by cases h)
  · cases h
    exact .returned hRunning rfl rfl
  · split at h
    · cases h
      exact .returned hRunning rfl rfl
    · cases h

theorem moves_of_take {s s' : Warmer P} {a : Step P} {os : List (Event P)}
    (h : s.take f policy a = some (s', os)) : Moves f policy s s' os := by
  cases a with
  | send command now =>
    cases h
    exact .quiet rfl Iff.rfl
  | cancel now =>
    cases h
    exact .quiet rfl Iff.rfl
  | evaluate now =>
    simp only [Warmer.take] at h
    split at h
    · rename_i hPhase
      have hMoves := @moves_evaluate P f policy _ hPhase now
      rwa [Option.some.inj h] at hMoves
    · cases h
    · cases h
    · cases h
  | receive now =>
    simp only [Warmer.take] at h
    split at h
    · cases h
    · rename_i timer hPhase
      exact moves_receive hPhase h
    · cases h
    · cases h
  | timer now =>
    simp only [Warmer.take] at h
    split at h
    · cases h
    · cases h
    · rename_i time hPhase
      split at h
      · cases h
        refine .quiet rfl (iff_of_false (fun h => by cases h) ?_)
        rw [hPhase]
        exact fun h => by cases h
      · cases h
    · cases h
    · cases h
  | pingReturns refreshed now =>
    simp only [Warmer.take] at h
    split at h
    · cases h
    · cases h
    · rename_i request since hPhase
      split at h
      · cases h
        exact .answered (by rw [hPhase]; exact fun h => by cases h) rfl (fun h => by cases h)
      · cases h
    · cases h

theorem moves_of_step {s s' : Warmer P} {a : Step P} {os : List (Event P)}
    (h : (warmerLoop f policy).step s a = some (s', os)) : Moves f policy s s' os := by
  simp only [warmerLoop] at h
  split at h
  · have hMoves := moves_of_take h
    cases hMoves with
    | quiet hArmed hPhase => exact .quiet hArmed hPhase
    | armed hRunning hArmed hPhase => exact .armed hRunning hArmed hPhase
    | pinged hRunning hHeld hPoll hArmed hPhase => exact .pinged hRunning hHeld hPoll hArmed hPhase
    | answered hRunning hArmed hPhase => exact .answered hRunning hArmed hPhase
    | skipped hRunning hArmed hPhase => exact .skipped hRunning hArmed hPhase
    | returned hRunning hArmed hPhase => exact .returned hRunning hArmed hPhase
  · cases h

/-! ## Runs -/

/-- What the events of a run say about the state, and about each ping. -/
structure Follows (f : FloatOps) (policy : WarmPolicy) (events : List (Event P)) (s : Warmer P) :
    Prop where
  armed : ∀ a, s.armed = some a →
    ∃ arming, lastArming events = some arming ∧ a = armAt policy arming.request arming.now
  pings : ∀ before request now after, events = before ++ .pinged request now :: after →
    ∃ arming, lastArming before = some arming ∧ arming.request = request ∧
      (armAt policy request arming.now).plan.poll f now = .ping
  ends : Ends events
  returned : Event.returned ∈ events → s.phase = .returned

variable {events : List (Event P)} {s s' : Warmer P}

/-- What an event other than a ping and the end adds. -/
theorem Follows.append (h : Follows f policy events s) {e : Event P}
    (hRunning : s.phase ≠ .returned) (hReturned : e = .returned → s'.phase = .returned)
    (hArmed : ∀ a, s'.armed = some a →
      ∃ arming, lastArming (events ++ [e]) = some arming ∧
        a = armAt policy arming.request arming.now)
    (hPing : ∀ request now, e = .pinged request now → ∃ arming, lastArming events = some arming ∧
      arming.request = request ∧ (armAt policy request arming.now).plan.poll f now = .ping) :
    Follows f policy (events ++ [e]) s' where
  armed := hArmed
  pings := by
    intro before request now after hSplit
    rcases append_singleton_eq_split hSplit with ⟨rfl, hEvent, -⟩ | ⟨after', -, hOld⟩
    · exact hPing request now hEvent
    · exact h.pings before request now after' hOld
  ends := by
    intro before after hSplit
    rcases append_singleton_eq_split hSplit with ⟨-, -, hLast⟩ | ⟨after', -, hOld⟩
    · exact hLast
    · refine absurd (h.returned ?_) hRunning
      rw [hOld]
      exact List.mem_append_right _ List.mem_cons_self
  returned := by
    intro hMem
    rcases List.mem_append.mp hMem with hOld | hNew
    · exact absurd (h.returned hOld) hRunning
    · exact hReturned (List.mem_singleton.mp hNew).symm

theorem Follows.step (h : Follows f policy events s) {os : List (Event P)}
    (hMoves : Moves f policy s s' os) : Follows f policy (events ++ os) s' := by
  cases hMoves with
  | quiet hArmed hPhase =>
    rw [List.append_nil]
    exact ⟨fun a hHeld => h.armed a (hArmed.symm.trans hHeld), h.pings, h.ends,
      fun hMem => hPhase.mpr (h.returned hMem)⟩
  | @armed request sentAt now hRunning hArmed _ =>
    refine h.append hRunning (fun hEvent => by cases hEvent) (fun a hHeld => ?_)
      (fun _ _ hEvent => by cases hEvent)
    refine ⟨{ request, refreshed := some sentAt, now }, lastArming_append _ _, ?_⟩
    exact Option.some.inj (hHeld.symm.trans hArmed)
  | @pinged armed now hRunning hHeld hPoll hArmed _ =>
    refine h.append hRunning (fun hEvent => by cases hEvent) (fun a hSome => ?_)
      (fun request time hEvent => ?_)
    · rw [hArmed] at hSome
      cases hSome
    · injection hEvent with hRequest hTime
      obtain ⟨arming, hLast, hPlan⟩ := h.armed armed hHeld
      subst hRequest hTime
      have hSame : arming.request = armed.request := by rw [hPlan]; rfl
      refine ⟨arming, hLast, hSame, ?_⟩
      rw [← hSame, ← hPlan]
      exact hPoll
  | @answered request refreshed now hRunning hArmed _ =>
    refine h.append hRunning (fun hEvent => by cases hEvent) (fun a hHeld => ?_)
      (fun _ _ hEvent => by cases hEvent)
    refine ⟨{ request, refreshed, now }, lastArming_append _ _, ?_⟩
    exact Option.some.inj (hHeld.symm.trans hArmed)
  | skipped hRunning hArmed _ =>
    refine h.append hRunning (fun hEvent => by cases hEvent) (fun a hHeld => ?_)
      (fun _ _ hEvent => by cases hEvent)
    rw [hArmed] at hHeld
    cases hHeld
  | returned hRunning hArmed hPhase =>
    refine h.append hRunning (fun _ => hPhase) (fun a hHeld => ?_)
      (fun _ _ hEvent => by cases hEvent)
    rw [lastArming_append]
    exact h.armed a (hArmed.symm.trans hHeld)

theorem follows_of_exec {steps : List (Step P)}
    (h : (warmerLoop f policy).exec {} steps = some (s, events)) : Follows f policy events s := by
  refine Machine.exec_invariant (P := Follows f policy) (fun hInv hStep => ?_) ?_ h
  · exact hInv.step (moves_of_step hStep)
  · constructor
    · intro a hHeld
      cases hHeld
    · intro before request now after hSplit
      exact absurd hSplit (by simp)
    · intro before after hSplit
      exact absurd hSplit (by simp)
    · intro hMem
      cases hMem

/-- Pings are in time, none is sent once the thread has returned, and every eligible request gets a
plan whose times lie within the lifetime of its cache. -/
structure WarmsInTime (policy : WarmPolicy) (events : List (Event P)) : Prop where
  onTime : OnTime events
  ends : Ends events
  plans : ∀ facts now, ineligibility policy facts = none →
    ∃ ttl next deadline, ttlSecs facts.cacheTtl facts.retention = some ttl ∧
      (policy.arm facts now).state = .armed next deadline ∧ WarmTimes ttl now next deadline

theorem warmerLoop_inTime (f : FloatOps) (policy : WarmPolicy) (steps : List (Step P))
    (s : Warmer P) (events : List (Event P))
    (hRun : (warmerLoop f policy).exec {} steps = some (s, events))
    (hInTime : PingsInTime events) : WarmsInTime policy events := by
  have hFollows := follows_of_exec hRun
  refine ⟨fun before request now after hSplit => ?_, hFollows.ends, fun facts now hEligible => ?_⟩
  · obtain ⟨arming, hLast, rfl, hPoll⟩ := hFollows.pings before request now after hSplit
    obtain ⟨next, deadline, hState, -, hLe⟩ := WarmPlan.poll_ping hPoll
    obtain ⟨ttl, hTtl, hDeadline⟩ := WarmPolicy.arm_state hState
    obtain ⟨time, hTime, hAlive⟩ := hInTime before arming.request now after hSplit arming hLast
    refine ⟨ttl, time, hTtl, lastRefresh_of_lastArming hLast hTime, ?_⟩
    have hBefore := hAlive ttl hTtl
    omega
  · obtain ⟨ttl, hTtl, hState, hTimes⟩ := WarmPolicy.arm_eligible now hEligible
    exact ⟨ttl, _, _, hTtl, hState, hTimes⟩

end

/-! ## Two runs -/

/-- No price is given, so no operation is used. -/
def sampleFloats : FloatOps where
  ofNat _ := 0
  add _ _ := 0
  sub _ _ := 0
  mul _ _ := 0
  div _ _ := 0
  lt _ _ := false
  le _ _ := false

def samplePolicy : WarmPolicy where
  mode := .streaming
  meter := .tokens
  promptCacheEnabled := true
  minPrefixTokens := 32000
  minExpectedSavings := 0

def sampleRequest : WarmRequest Unit where
  payload := ()
  facts :=
    { cacheTtl := some { shortSecs := some 300 }
      retention := .short
      prefixTokens := 50000
      cost := none
      replayable := true
      affinityDowngraded := false }

/-- A request is armed, and its ping is sent at 270 s. -/
def firstPing : List (Step Unit) :=
  [.evaluate 0, .send (.arm sampleRequest) 0, .receive 0, .evaluate 0, .timer 270000000000,
    .evaluate 270000000000]

/-- The ping returns at 271 s, and the next one is sent at 541 s. -/
def secondPing (refreshed : Option Nat) : List (Step Unit) :=
  [.pingReturns refreshed 271000000000, .evaluate 271000000000, .timer 541000000000,
    .evaluate 541000000000]

def pingEvents (refreshed : Option Nat) : List (Event Unit) :=
  [.armed sampleRequest 0 0, .pinged sampleRequest 270000000000,
    .answered sampleRequest refreshed 271000000000, .pinged sampleRequest 541000000000]

theorem secondPing_events (refreshed : Option Nat)
    (h : refreshed = none ∨ refreshed = some 270000000000) :
    ∃ s, (warmerLoop sampleFloats samplePolicy).exec {} (firstPing ++ secondPing refreshed) =
      some (s, pingEvents refreshed) := by
  have hCheck : (warmerLoop sampleFloats samplePolicy).check {}
      (firstPing ++ secondPing refreshed)
      (fun _ os => decide (os = pingEvents refreshed)) = true := by
    rcases h with rfl | rfl
    · decide +kernel
    · decide +kernel
  obtain ⟨s, os, hExec, hEvents⟩ := Machine.exists_of_check hCheck
  obtain rfl := of_decide_eq_true hEvents
  exact ⟨s, hExec⟩

theorem sampleArming_inTime {refreshed now : Nat}
    (h : (warmTimes 300 now).2 < refreshed + fromSecs 300) :
    ({ request := sampleRequest, refreshed := some refreshed, now } : Arming Unit).InTime := by
  refine ⟨refreshed, rfl, fun ttl hTtl => ?_⟩
  obtain rfl : 300 = ttl := Option.some.inj hTtl
  exact h

theorem pingEvents_inTime : PingsInTime (pingEvents (some 270000000000)) := by
  intro before request now after hSplit a hLast
  rcases before with _ | ⟨e₁, _ | ⟨e₂, _ | ⟨e₃, _ | ⟨e₄, rest⟩⟩⟩⟩
  · cases hSplit
  · cases hSplit
    obtain rfl := Option.some.inj hLast
    exact sampleArming_inTime (by decide)
  · cases hSplit
  · cases hSplit
    obtain rfl := Option.some.inj hLast
    exact sampleArming_inTime (by decide)
  · cases rest with
    | nil => cases hSplit
    | cons e₅ rest => cases hSplit

/-- A ping that succeeds. -/
theorem answeredPings_inTime :
    ∃ s, (warmerLoop sampleFloats samplePolicy).exec {}
        (firstPing ++ secondPing (some 270000000000)) = some (s, pingEvents (some 270000000000)) ∧
      WarmsInTime samplePolicy (pingEvents (some 270000000000)) := by
  obtain ⟨s, hRun⟩ := secondPing_events (some 270000000000) (.inr rfl)
  exact ⟨s, hRun, warmerLoop_inTime sampleFloats samplePolicy _ s _ hRun pingEvents_inTime⟩

/-- After a ping that fails, the next one is sent when the cache has expired. -/
theorem failedPing_late :
    ¬ ∀ (f : FloatOps) (policy : WarmPolicy) (steps : List (Step Unit)) (s : Warmer Unit)
      (events : List (Event Unit)), (warmerLoop f policy).exec {} steps = some (s, events) →
      WarmsInTime policy events := by
  intro h
  obtain ⟨s, hRun⟩ := secondPing_events none (.inl rfl)
  obtain ⟨ttl, time, hTtl, hRefresh, hTime⟩ :=
    (h sampleFloats samplePolicy _ s _ hRun).onTime ((pingEvents none).take 3) sampleRequest
      541000000000 [] rfl
  obtain rfl : 300 = ttl := Option.some.inj hTtl
  obtain rfl : 0 = time := congrArg Prod.snd (Option.some.inj hRefresh)
  exact absurd hTime (by decide)

end Choreographr.CacheWarm
