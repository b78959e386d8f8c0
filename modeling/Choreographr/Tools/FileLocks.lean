import Choreographr.Lib.Machine
import Mathlib.Algebra.Ring.Nat
import Mathlib.Data.List.Destutter
import Mathlib.Data.List.Sort

/-!
# File mutation locks

Every mutation of a file runs under the lock of the file's key. The registry maps a key to its
mutex; a call reserves a handle for each of its keys, takes the mutexes in the order of the keys,
runs its closure, and prunes on the way out. A mutex is the number of its allocation. What
`mutation_key` finds on the disk is not modelled: calls come with their keys.
-/

namespace Choreographr.Tools

open Lib

variable {K : Type} [LinearOrder K]

/-! ## The registry -/

/-- `FileLocks`: key and mutex of each entry, and the number of the next mutex. -/
structure FileLocks (K : Type) where
  map : List (K × Nat) := []
  next : Nat := 0

namespace FileLocks

/-- `Arc::clone(map.entry(key).or_default())` -/
def reserveKey (locks : FileLocks K) (key : K) : Nat × FileLocks K :=
  match locks.map.lookup key with
  | some lock => (lock, locks)
  | none => (locks.next, ⟨locks.map ++ [(key, locks.next)], locks.next + 1⟩)

def reserve (locks : FileLocks K) : List K → List Nat × FileLocks K
  | [] => ([], locks)
  | key :: rest =>
      let (lock, locks) := locks.reserveKey key
      let (handles, locks) := locks.reserve rest
      (lock :: handles, locks)

def remove (locks : FileLocks K) (key : K) : FileLocks K :=
  { locks with map := locks.map.filter fun e => e.1 ≠ key }

end FileLocks

/-! ## Calls -/

/-- Where a call of `with_many` stands. A number says how many of the keys, or of their handles,
are dealt with. -/
inductive Phase where
  | reserving
  | acquiring (n : Nat)
  | running
  /-- The guards are dropped; after a panic they poison their mutexes. -/
  | releasing (n : Nat) (panicked : Bool)
  /-- `Cleanup::drop`, which has the lock of the map. -/
  | pruning (n : Nat)
  /-- The handles of `Cleanup` are dropped. -/
  | dropping (n : Nat)
  | done
deriving DecidableEq

structure Call (K : Type) where
  keys : List K
  handles : List Nat := []
  phase : Phase := .reserving

namespace Call

variable (call : Call K)

/-- The mutexes that the call has a guard of. -/
def held : List Nat :=
  match call.phase with
  | .acquiring n => call.handles.take n
  | .running => call.handles
  | .releasing n _ => call.handles.drop n
  | _ => []

/-- The handles that are reserved and not yet dropped. -/
def live : List Nat :=
  match call.phase with
  | .reserving => []
  | .dropping n => call.handles.drop n
  | .done => []
  | _ => call.handles

/-- The reserved keys that the call has yet to prune, each with its mutex. -/
def unpruned : List (K × Nat) :=
  match call.phase with
  | .acquiring _ => call.keys.zip call.handles
  | .running => call.keys.zip call.handles
  | .releasing _ _ => call.keys.zip call.handles
  | .pruning n => (call.keys.zip call.handles).drop n
  | _ => []

/-- The key and the mutex that the call is to take next. -/
def awaited : Option (K × Nat) :=
  match call.phase with
  | .acquiring n => (call.keys.zip call.handles)[n]?
  | _ => none

/-- The call is to take the lock of the map next. -/
def wantsMap : Bool :=
  match call.phase with
  | .reserving => true
  | .releasing n _ => call.handles.length ≤ n
  | _ => false

def hasMap : Bool :=
  match call.phase with
  | .pruning _ => true
  | _ => false

end Call

/-- The keys of `with_file_locks`, sorted and without repetitions. -/
def sortedKeys (keys : List K) : List K := (keys.insertionSort (· ≤ ·)).destutter (· ≠ ·)

/-! ## All calls of the process -/

structure LockState (K : Type) where
  registry : FileLocks K := {}
  calls : List (Call K) := []
  poisoned : Nat → Bool := fun _ => false

inductive TryLock where
  | guard
  | poisoned
  | wouldBlock

inductive LockAction (K : Type) where
  | withFileLock (key : K)
  | withFileLocks (keys : List K)
  /-- A call takes its next step; the flag says whether its closure panics. -/
  | step (i : Nat) (panicked : Bool)

namespace LockState

variable (s : LockState K)

def spawn (keys : List K) : LockState K := { s with calls := s.calls ++ [{ keys }] }

def setPhase (i : Nat) (phase : Phase) : LockState K :=
  { s with calls := s.calls.modify i fun call => { call with phase } }

/-- `Arc::strong_count`: the entries and the handles of a mutex. -/
def strongCount (lock : Nat) : Nat :=
  s.registry.map.countP (fun e => e.2 = lock) +
    (s.calls.map fun call => call.live.count lock).sum

def mapLocked : Bool := s.calls.any Call.hasMap

/-- `Mutex::try_lock` -/
def tryLock (lock : Nat) : TryLock :=
  if s.calls.any fun call => call.held.contains lock then .wouldBlock
  else if s.poisoned lock then .poisoned
  else .guard

def reserve (i : Nat) (call : Call K) : LockState K :=
  let (handles, registry) := s.registry.reserve call.keys
  { s with registry, calls := s.calls.set i { call with handles, phase := .acquiring 0 } }

def poison (lock : Nat) (panicked : Bool) : LockState K :=
  { s with poisoned := Function.update s.poisoned lock (s.poisoned lock || panicked) }

/-- The entry of a key goes when the map and the caller are its only owners. -/
def pruneEntry (key : K) : LockState K :=
  match s.registry.map.lookup key with
  | some lock =>
      if s.strongCount lock = 2 then { s with registry := s.registry.remove key } else s
  | none => s

/-- `with_many`, step by step. A call that has to wait does not step. -/
def stepCall (i : Nat) (call : Call K) (panics : Bool) : Option (LockState K) :=
  match call.phase with
  | .reserving => if s.mapLocked then none else some (s.reserve i call)
  | .acquiring n =>
      match call.handles[n]? with
      | none => some (s.setPhase i .running)
      | some lock =>
          match s.tryLock lock with
          | .guard => some (s.setPhase i (.acquiring (n + 1)))
          -- An earlier holder has panicked: the guard is taken all the same.
          | .poisoned => some (s.setPhase i (.acquiring (n + 1)))
          | .wouldBlock => none
  | .running => some (s.setPhase i (.releasing 0 panics))
  | .releasing n panicked =>
      match call.handles[n]? with
      | some lock => some ((s.setPhase i (.releasing (n + 1) panicked)).poison lock panicked)
      | none => if s.mapLocked then none else some (s.setPhase i (.pruning 0))
  | .pruning n =>
      match call.keys[n]? with
      | some key => some ((s.pruneEntry key).setPhase i (.pruning (n + 1)))
      | none => some (s.setPhase i (.dropping 0))
  | .dropping n =>
      match call.handles[n]? with
      | some _ => some (s.setPhase i (.dropping (n + 1)))
      | none => some (s.setPhase i .done)
  | .done => none

def next : LockAction K → Option (LockState K)
  | .withFileLock key => some (s.spawn [key])
  | .withFileLocks keys => some (s.spawn (sortedKeys keys))
  | .step i panics => (s.calls[i]?).bind fun call => s.stepCall i call panics

/-- No call is in progress. -/
def Idle : Prop := ∀ call ∈ s.calls, call.phase = .done

instance : Decidable s.Idle := inferInstanceAs (Decidable (∀ call ∈ s.calls, call.phase = .done))

/-- Call `i` cannot go on before call `j` has. -/
def WaitsFor (i j : Nat) : Prop :=
  ∃ call other, s.calls[i]? = some call ∧ s.calls[j]? = some other ∧
    ((∃ e, call.awaited = some e ∧ e.2 ∈ other.held) ∨
      (call.wantsMap = true ∧ other.hasMap = true))

/-- Calls with a common key never run their closures at the same time. -/
def Exclusive : Prop :=
  ∀ (i j : Nat) call other, s.calls[i]? = some call → s.calls[j]? = some other → i ≠ j →
    call.phase = .running → other.phase = .running → call.keys.Disjoint other.keys

/-- No calls wait for each other in a cycle. -/
def DeadlockFree : Prop := ∀ i, ¬ Relation.TransGen s.WaitsFor i i

end LockState

def lockMachine (K : Type) [LinearOrder K] : Machine (LockState K) (LockAction K) Empty :=
  ⟨fun s a => (s.next a).map fun s' => (s', [])⟩

/-! ## The order of the last steps -/

namespace LockState

variable (s : LockState K)

/-- What is pruned is a key that another call has yet to prune, or of which no other call has a
handle any more. -/
def prunesCleanly : LockAction K → Bool
  | .step i _ =>
      match s.calls[i]? with
      | none => true
      | some call =>
          match call.phase with
          | .pruning n =>
              match call.handles[n]? with
              | none => true
              | some lock =>
                  (s.calls.eraseIdx i).any (fun other =>
                    (other.unpruned.map Prod.snd).contains lock) ||
                  (s.calls.eraseIdx i).all fun other => !other.live.contains lock
          | _ => true
  | _ => true

end LockState

end Choreographr.Tools
