import Choreographr.CacheWarm.Policy
import Choreographr.Lib.Machine

/-!
# The warmer thread

The thread takes requests to warm from the control channel, waits for the time of the next ping,
sends it, and arms the plan again at the clock value at which the ping returns. The sending of a
ping and its return are two steps; commands that arrive in between wait in the channel.
-/

namespace Choreographr.CacheWarm

open Lib

/-- The request that a ping replays; its messages and routing data are of any type. -/
structure WarmRequest (P : Type) where
  payload : P
  facts : WarmFacts
deriving DecidableEq

inductive Command (P : Type) where
  | arm (request : WarmRequest P)
  | stop
deriving DecidableEq

structure Armed (P : Type) where
  plan : WarmPlan
  request : WarmRequest P
deriving DecidableEq

/-- Where the thread stands. -/
inductive Phase (P : Type) where
  /-- At the top of the loop. -/
  | top
  /-- In the wait, with the clock value of the timer if a plan is armed. -/
  | waiting (timer : Option Nat)
  /-- In `do_ping`, since a clock value. -/
  | pinging (request : WarmRequest P) (since : Nat)
  | returned
deriving DecidableEq

structure Warmer (P : Type) where
  armed : Option (Armed P) := none
  phase : Phase P := .top
  /-- The control channel, each command with the clock value at which it was sent. -/
  control : List (Command P × Nat) := []
  cancelled : Bool := false
  clock : Nat := 0
deriving DecidableEq

/-- The steps of the thread and of those who send to it, each at a clock value. -/
inductive Step (P : Type) where
  | send (command : Command P) (now : Nat)
  | cancel (now : Nat)
  /-- The top of the loop. -/
  | evaluate (now : Nat)
  /-- A command or a cancel wakes the thread. -/
  | receive (now : Nat)
  | timer (now : Nat)
  /-- The ping returns; if it succeeded, the provider read the cache at `refreshed`. -/
  | pingReturns (refreshed : Option Nat) (now : Nat)
deriving DecidableEq

def Step.now {P : Type} : Step P → Nat
  | .send _ now => now
  | .cancel now => now
  | .evaluate now => now
  | .receive now => now
  | .timer now => now
  | .pingReturns _ now => now

/-- What happens in a run. -/
inductive Event (P : Type) where
  /-- An `Arm` that was sent at `sentAt` is taken. -/
  | armed (request : WarmRequest P) (sentAt now : Nat)
  | pinged (request : WarmRequest P) (now : Nat)
  | answered (request : WarmRequest P) (refreshed : Option Nat) (now : Nat)
  | skipped (reason : SkipReason)
  | returned
deriving DecidableEq

variable {P : Type} (f : FloatOps) (policy : WarmPolicy)

/-- The plan for a request, armed at a clock value. -/
def armAt (request : WarmRequest P) (now : Nat) : Armed P :=
  { plan := policy.arm request.facts now, request }

namespace Warmer

/-- The top of the loop. -/
def evaluate (s : Warmer P) (now : Nat) : Warmer P × List (Event P) :=
  match s.armed with
  | none => ({ s with phase := .waiting none }, [])
  | some armed =>
      match armed.plan.poll f now with
      | .ping =>
          ({ s with armed := none, phase := .pinging armed.request now },
            [.pinged armed.request now])
      | .stop reason => ({ s with armed := none }, [.skipped reason])
      | .wait duration => ({ s with phase := .waiting (some (now + duration)) }, [])

/-- The select: commands come first, then a cancel. -/
def receive (s : Warmer P) (now : Nat) : Option (Warmer P × List (Event P)) :=
  match s.control with
  | (.arm request, sentAt) :: rest =>
      some ({ s with armed := some (armAt policy request now), phase := .top, control := rest },
        [.armed request sentAt now])
  | (.stop, _) :: rest => some ({ s with phase := .returned, control := rest }, [.returned])
  | [] => if s.cancelled then some ({ s with phase := .returned }, [.returned]) else none

def take (s : Warmer P) : Step P → Option (Warmer P × List (Event P))
  | .send command now => some ({ s with control := s.control ++ [(command, now)] }, [])
  | .cancel _ => some ({ s with cancelled := true }, [])
  | .evaluate now =>
      match s.phase with
      | .top => some (s.evaluate f now)
      | .waiting _ => none
      | .pinging _ _ => none
      | .returned => none
  | .receive now =>
      match s.phase with
      | .top => none
      | .waiting _ => s.receive policy now
      | .pinging _ _ => none
      | .returned => none
  | .timer now =>
      match s.phase with
      | .top => none
      | .waiting none => none
      | .waiting (some time) =>
          if s.control = [] ∧ s.cancelled = false ∧ time ≤ now then
            some ({ s with phase := .top }, [])
          else none
      | .pinging _ _ => none
      | .returned => none
  | .pingReturns refreshed now =>
      match s.phase with
      | .top => none
      | .waiting _ => none
      | .pinging request since =>
          if (refreshed.all fun time => since ≤ time ∧ time ≤ now) = true then
            some ({ s with armed := some (armAt policy request now), phase := .top },
              [.answered request refreshed now])
          else none
      | .returned => none

end Warmer

/-- The clock does not go back. -/
def warmerLoop : Machine (Warmer P) (Step P) (Event P) where
  step s a :=
    if s.clock ≤ a.now then ({ s with clock := a.now } : Warmer P).take f policy a else none

end Choreographr.CacheWarm
