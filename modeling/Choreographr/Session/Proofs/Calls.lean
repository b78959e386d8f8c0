import Choreographr.Session.Proofs.Answers

/-!
# Where the calls of a turn come from

The calls of a turn are part of its answer, and what the session writes itself calls
nothing. So a property of the calls of every reply holds of the calls of every turn
(`systemCalls_exec`).
-/

namespace Choreographr.Session

open Lib

/-- The calls of every turn satisfy `P`. -/
def CallsFrom (P : List AssistantToolCallRecord → Prop) (turns : Turns) : Prop :=
  ∀ id t, turns.get? id = some t → P t.toolCalls

/-- The calls of every stored turn of the session satisfy `P`. -/
def RowCalls (env : Env) (P : List AssistantToolCallRecord → Prop) (db : Db) : Prop :=
  ∀ tid row, db.turns.get? (turnKey env.sessionId tid) = some row → P row.toolCalls

theorem RowCalls.load {env : Env} {P : List AssistantToolCallRecord → Prop} {db : Db}
    (h : RowCalls env P db) :
    CallsFrom P (OrdMap.empty.insertAll (db.readTurns env.sessionId)) :=
  RowAnswers.load (P := fun answer => P answer.toolCalls) h

/-- The reply of an event has calls that satisfy `P`. -/
def WorkerEvent.RepliesWith (P : List AssistantToolCallRecord → Prop) (e : WorkerEvent) : Prop :=
  ∀ r, e = .toolUse r → P (r.toolCalls.map ChatToolCall.toRecord)

/-- The calls of every turn the system holds satisfy `P`. -/
structure SystemCalls (env : Env) (P : List AssistantToolCallRecord → Prop) (s : System) :
    Prop where
  main : CallsFrom P s.main.turns
  rows : RowCalls env P s.db
  worker : ∀ w, s.worker = some w →
    CallsFrom P w.session.turns ∧ CallsFrom P w.initialSnapshot.turns
  inbox : ∀ streamId snapshot, .requestFinished streamId snapshot ∈ s.inbox →
    CallsFrom P snapshot.turns

/-- The replies of an action have calls that satisfy `P`. -/
def Action.RepliesWith (P : List AssistantToolCallRecord → Prop) (a : Action) : Prop :=
  ∀ e, a = .worker e → e.RepliesWith P

theorem systemCalls_exec {env : Env} {P : List AssistantToolCallRecord → Prop} (hNil : P [])
    {config : SessionConfig} {slug : Option String} {actions : List Action} {s : System}
    {os : List Output}
    (h : (system env).exec (System.init env config slug) actions = some (s, os))
    (hReplies : ∀ a ∈ actions, a.RepliesWith P) : SystemCalls env P s := by
  have hAnswers := systemAnswers_exec (P := fun answer => P answer.toolCalls) (fun _ => hNil) h
    fun a ha e he => ⟨fun _ _ => hNil, fun r hr => hReplies a ha e he r hr⟩
  exact ⟨hAnswers.main, hAnswers.rows, hAnswers.worker, hAnswers.inbox⟩

end Choreographr.Session
