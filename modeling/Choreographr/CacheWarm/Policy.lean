import Choreographr.Catalog.Entry

/-!
# The cache-warming policy

While a long tool call blocks, the last request is sent again with a capped output to refresh the
prompt cache of the provider. The policy schedules such a ping at a clock value between the last
request and the end of the lifetime of the cache, and declines when it does not pay. Clock values
are numbers of nanoseconds. Prices are 64-bit floats, whose operations are a parameter.
-/

namespace Choreographr.CacheWarm

open Catalog

/-- `f64`, as bit patterns. -/
structure FloatOps where
  ofNat : Nat → UInt64
  add : UInt64 → UInt64 → UInt64
  sub : UInt64 → UInt64 → UInt64
  mul : UInt64 → UInt64 → UInt64
  div : UInt64 → UInt64 → UInt64
  lt : UInt64 → UInt64 → Bool
  le : UInt64 → UInt64 → Bool

variable (f : FloatOps)

def minTtlSecs : UInt32 := 10

/-- `Duration::from_secs` -/
def fromSecs (secs : Nat) : Nat := secs * 1000000000

inductive MeterKind where
  | payg | tokens | requests | flat | unknown
deriving DecidableEq

inductive CacheWarmingMode where
  | off | streaming
deriving DecidableEq

inductive RetentionTier where
  | short | long
deriving DecidableEq

structure WarmPolicy where
  mode : CacheWarmingMode
  meter : MeterKind
  promptCacheEnabled : Bool
  minPrefixTokens : UInt32
  minExpectedSavings : UInt64
deriving DecidableEq

structure WarmFacts where
  cacheTtl : Option PromptCacheTtl
  retention : RetentionTier
  prefixTokens : UInt32
  cost : Option ModelCost
  replayable : Bool
  affinityDowngraded : Bool
deriving DecidableEq

inductive SkipReason where
  | modeOff | cachingDisabled | noTtl | ttlTooShort | notReplayable | meterIncompatible
  | belowThreshold | economicsUnavailable | deadlineMissed | affinityUnavailable
deriving DecidableEq

inductive PlanState where
  | inactive (reason : SkipReason)
  | armed (nextWarmAt refreshDeadline : Nat)
deriving DecidableEq

structure WarmPlan where
  policy : WarmPolicy
  facts : WarmFacts
  state : PlanState
deriving DecidableEq

inductive Action where
  | wait (duration : Nat)
  | ping
  | stop (reason : SkipReason)
deriving DecidableEq

structure Economics where
  warmCost : UInt64
  missCost : UInt64
  expectedSavings : UInt64

/-! ## Arming -/

def ttlSecs (ttl : Option PromptCacheTtl) (retention : RetentionTier) : Option UInt32 :=
  match ttl, retention with
  | none, _ => none
  | some ttl, .long => ttl.longSecs.or ttl.shortSecs
  | some ttl, .short => ttl.shortSecs

def ineligibility (policy : WarmPolicy) (facts : WarmFacts) : Option SkipReason :=
  if policy.mode = .off then some .modeOff
  else if policy.promptCacheEnabled = false then some .cachingDisabled
  else if facts.affinityDowngraded then some .affinityUnavailable
  else if facts.replayable = false then some .notReplayable
  else
    match ttlSecs facts.cacheTtl facts.retention with
    | none => some .noTtl
    | some secs => if secs ≤ minTtlSecs then some .ttlTooShort else none

def warmDelaySecs (ttl : UInt32) : UInt32 :=
  let ninetyPercent := ttl - ttl / 10
  let tenBefore := ttl - minTtlSecs
  if ninetyPercent ≤ tenBefore then ninetyPercent else tenBefore

/-- The clock values of the first ping and of the deadline for it. -/
def warmTimes (ttl : UInt32) (now : Nat) : Nat × Nat :=
  let delay := warmDelaySecs ttl
  let nextWarmAt := now + fromSecs delay.toNat
  let remaining := ttl - delay
  (nextWarmAt, nextWarmAt + fromSecs (remaining / 2).toNat)

def WarmPolicy.arm (policy : WarmPolicy) (facts : WarmFacts) (now : Nat) : WarmPlan :=
  match ineligibility policy facts with
  | some reason => { policy, facts, state := .inactive reason }
  | none =>
      match ttlSecs facts.cacheTtl facts.retention with
      | none => { policy, facts, state := .inactive .noTtl }
      | some ttl =>
          { policy, facts, state := .armed (warmTimes ttl now).1 (warmTimes ttl now).2 }

/-! ## Deciding -/

def economics (cost : Option ModelCost) (prefixTokens : UInt32) : Option Economics :=
  match cost with
  | none => none
  | some cost =>
      let million := f.ofNat 1000000
      let perMillion := f.div (f.ofNat prefixTokens.toNat) million
      let cacheRead := cost.cacheRead.getD (f.ofNat 0)
      let warmCost := f.add (f.mul cacheRead perMillion) (f.div cost.output million)
      let writePrice :=
        match cost.cacheWrite with
        | some write => if f.lt (f.ofNat 0) write then write else cost.input
        | none => cost.input
      let missCost := f.mul (f.sub writePrice cacheRead) perMillion
      some { warmCost, missCost, expectedSavings := f.sub missCost warmCost }

/-- `none` lets the ping through. -/
def gate (policy : WarmPolicy) (facts : WarmFacts) (economics : Option Economics) :
    Option SkipReason :=
  match policy.meter with
  | .payg =>
      match economics with
      | none => some .economicsUnavailable
      | some econ =>
          if f.le policy.minExpectedSavings econ.expectedSavings then none
          else some .belowThreshold
  | .tokens => if policy.minPrefixTokens ≤ facts.prefixTokens then none else some .belowThreshold
  | .requests => some .meterIncompatible
  | .flat => some .meterIncompatible
  | .unknown => some .meterIncompatible

/-- `decide`, as far as the driver goes by it. -/
def WarmPlan.poll (plan : WarmPlan) (now : Nat) : Action :=
  match plan.state with
  | .inactive reason => .stop reason
  | .armed nextWarmAt refreshDeadline =>
      if refreshDeadline < now then .stop .deadlineMissed
      else if now < nextWarmAt then .wait (nextWarmAt - now)
      else
        let economics := economics f plan.facts.cost plan.facts.prefixTokens
        match gate f plan.policy plan.facts economics with
        | none => .ping
        | some reason => .stop reason

end Choreographr.CacheWarm
