import Choreographr.Keystore.Proofs.Locked
import Choreographr.Keystore.Proofs.Locks

/-!
# Rotated refresh tokens

A refresh token that an exchange has replaced is spent. It may still be stored, but only while
the save of that exchange waits in the queue, and its thread holds the lock of the account
until the save was handled. So nobody else can load it in between. A credential that was
stored or removed meanwhile carries another token, and the save finds that and is dropped.
Two assumptions are made: a save is not refused, and a token that is brought for a key, by a
login or by the provider, is not one that the key has had before.
-/

namespace Choreographr.Keystore

open Lib

variable {cr : Crypto} {env : Outcome} {d d' : Daemon} {account key token : String}
  {es : List Event} {c : Command} {rest : List Command} {r : Refresher} {index : Nat}

/-! ## The assumptions -/

/-- A save is refused only when the account has no provider grant any more. -/
def State.savesSucceed (cr : Crypto) (s : State) : Action → Bool
  | .handle env =>
      match s.inbox.head? with
      | some (.saveOauthToken _ save) =>
          !s.daemon.locked &&
            match s.daemon.credentials save.account with
            | some (.oauth grant) =>
                decide (grant.kind ≠ .provider) ||
                  decide ((s.daemon.handleSaveOauthToken cr env save).2 = .ok ())
            | _ => true
      | _ => true
  | _ => true

def State.fresh (s : State) (key : String) : Option String → Bool
  | none => true
  | some token => !s.issued key token

/-- A login, a rotation and a save of an MCP connection bring a token the key has not had. -/
def State.bringsFresh (s : State) : Action → Bool
  | .post (.saveCredential service c) => s.fresh service c.refreshToken
  | .mcpSave key c _ => s.fresh key c.refreshToken
  | .advance index (.tokens response) =>
      match s.refreshers[index]? with
      | some r =>
          match r.phase with
          | .exchange _ material =>
              decide (response.refreshToken = some material.refreshToken) ||
                s.fresh r.account response.refreshToken
          | _ => true
      | none => true
  | _ => true

/-! ## Where a refresh token is -/

/-- The refresh token that the database holds for an account. -/
def Daemon.storedToken (cr : Crypto) (d : Daemon) (account : String) : Option String :=
  (d.stored cr account).bind ServiceCredential.refreshToken

/-- The refresh token that a thread has loaded. -/
def Phase.token? : Phase → Option String
  | loaded _ answer => answer.material.map RefreshMaterial.refreshToken
  | exchange _ material => some material.refreshToken
  | awaitSave _ save => save.expectedRefreshToken
  | _ => none

/-- The thread waits for its save. -/
def Phase.isAwaitSave : Phase → Bool
  | awaitSave _ _ => true
  | _ => false

/-- The new refresh token that a queued command brings for an account. -/
def Command.arrival (account : String) : Command → Option String
  | saveCredential service c => if service = account then c.refreshToken else none
  | oauthSave key c _ => if key = account then c.refreshToken else none
  | saveOauthToken _ save =>
      if save.account = account ∧ save.rotatedRefreshToken ≠ save.expectedRefreshToken then
        save.rotatedRefreshToken
      else none
  | _ => none

def arrivals (account : String) (inbox : List Command) : List String :=
  inbox.filterMap (Command.arrival account)

def Command.isSave : Command → Bool
  | saveOauthToken _ _ => true
  | _ => false

/-- An exchange has replaced the token. -/
def Spent (os : List Event) (account token : String) : Prop := Event.rotated account token ∈ os

/-- No thread has loaded the token for the account. -/
def State.Unloaded (s : State) (account token : String) : Prop :=
  ∀ (i : Nat) r, s.refreshers[i]? = some r → r.account = account → r.phase.token? ≠ some token

/-! ## The invariant -/

structure State.Core (cr : Crypto) (os : List Event) (s : State) : Prop where
  mirrors : s.daemon.Mirrors cr
  clear : s.daemon.Clear
  unbound : s.daemon.binding = none → s.daemon.blobs = Table.empty
  loads : ∀ i account, Command.loadOauthToken i account ∈ s.inbox →
    ∃ r, s.refreshers[i]? = some r ∧ r.account = account
  saves : ∀ i save, Command.saveOauthToken i save ∈ s.inbox →
    ∃ r lock, s.refreshers[i]? = some r ∧ r.phase = .awaitSave lock save ∧
      save.account = r.account ∧ save.expectedRefreshToken ≠ none
  once : s.inbox.Pairwise fun c c' => ∀ i save save', c = .saveOauthToken i save →
    c' ≠ .saveOauthToken i save'
  issuedStored : ∀ account token, s.daemon.storedToken cr account = some token →
    s.issued account token = true
  issuedLoaded : ∀ (i : Nat) r token, s.refreshers[i]? = some r → r.phase.token? = some token →
    s.issued r.account token = true
  issuedSpent : ∀ account token, Spent os account token → s.issued account token = true
  issuedArrivals : ∀ account, ∀ token ∈ arrivals account s.inbox, s.issued account token = true
  distinct : ∀ account, (arrivals account s.inbox).Nodup
  arriving : ∀ account, ∀ token ∈ arrivals account s.inbox, ¬Spent os account token ∧
    s.daemon.storedToken cr account ≠ some token ∧ s.Unloaded account token
  unspent : ∀ (i : Nat) r token, s.refreshers[i]? = some r → r.phase.token? = some token →
    r.phase.isAwaitSave = false → ¬Spent os r.account token
  kind : ∀ (i : Nat) r token, s.refreshers[i]? = some r → r.phase.token? = some token →
    s.daemon.storedToken cr r.account = some token →
    ∃ grant, s.daemon.stored cr r.account = some (.oauth grant) ∧ grant.kind = .provider
  replaced : ∀ (i : Nat) r token, s.refreshers[i]? = some r → r.replaced = true →
    r.phase.token? = some token → s.daemon.storedToken cr r.account ≠ some token

/-- A spent token is stored only while the save that replaces it is queued. -/
def State.Pending (cr : Crypto) (os : List Event) (s : State) : Prop :=
  ∀ account token, s.daemon.storedToken cr account = some token → Spent os account token →
    ∃ i save fresh, Command.saveOauthToken i save ∈ s.inbox ∧ save.account = account ∧
      save.expectedRefreshToken = some token ∧ save.rotatedRefreshToken = some fresh ∧
      fresh ≠ token

/-! ## The lists of a queue -/

theorem arrivals_cons (account : String) (c : Command) (inbox : List Command) :
    arrivals account (c :: inbox) = (c.arrival account).toList ++ arrivals account inbox := by
  cases h : c.arrival account <;> simp [arrivals, h]

theorem arrivals_append (account : String) (inbox : List Command) (c : Command) :
    arrivals account (inbox ++ [c]) = arrivals account inbox ++ (c.arrival account).toList := by
  cases h : c.arrival account <;> simp [arrivals, h]

theorem arrival_saveOauthToken {i : Nat} {save : SaveToken}
    (h : (Command.saveOauthToken i save).arrival account = some token) :
    save.account = account ∧ save.rotatedRefreshToken ≠ save.expectedRefreshToken ∧
      save.rotatedRefreshToken = some token := by
  change (if save.account = account ∧ save.rotatedRefreshToken ≠ save.expectedRefreshToken then
    save.rotatedRefreshToken else none) = some token at h
  by_cases hNew : save.account = account ∧ save.rotatedRefreshToken ≠ save.expectedRefreshToken
  · rw [if_pos hNew] at h
    exact ⟨hNew.1, hNew.2, h⟩
  · rw [if_neg hNew] at h
    cases h

namespace State

variable {s s' : State} {os : List Event}

/-! ## What a queue, a thread and a trace may do -/

/-- Events that are no rotations. -/
theorem Core.append (h : s.Core cr os) (hEs : ∀ account token, Event.rotated account token ∉ es) :
    s.Core cr (os ++ es) := by
  have hSpent : ∀ account token, Spent (os ++ es) account token ↔ Spent os account token := by
    intro account token
    constructor
    · intro hMem
      exact (List.mem_append.mp hMem).resolve_right (hEs account token)
    · exact fun hMem => List.mem_append_left es hMem
  refine { h with
    issuedSpent := ?_
    arriving := ?_
    unspent := ?_ }
  · exact fun account token hTok => h.issuedSpent account token ((hSpent _ _).mp hTok)
  · intro account token hMem
    rw [hSpent]
    exact h.arriving account token hMem
  · intro i r token hGet hToken hPhase
    rw [hSpent]
    exact h.unspent i r token hGet hToken hPhase

theorem Pending.append (h : s.Pending cr os)
    (hEs : ∀ account token, Event.rotated account token ∉ es) : s.Pending cr (os ++ es) := by
  intro account token hStored hSpent
  exact h account token hStored ((List.mem_append.mp hSpent).resolve_right (hEs account token))

/-- A command that brings no token joins the queue. -/
theorem Core.send (h : s.Core cr os) (hSave : c.isSave = false)
    (hArrival : ∀ account, c.arrival account = none)
    (hLoad : ∀ i account, c = .loadOauthToken i account →
      ∃ r, s.refreshers[i]? = some r ∧ r.account = account) : (s.send c).Core cr os := by
  have hSame : ∀ account, arrivals account (s.send c).inbox = arrivals account s.inbox := by
    intro account
    rw [State.send, arrivals_append, hArrival]
    exact List.append_nil _
  refine { h with
    loads := ?_
    saves := ?_
    once := ?_
    issuedArrivals := ?_
    distinct := ?_
    arriving := ?_ }
  · intro i account hMem
    rcases List.mem_append.mp hMem with hOld | hNew
    · exact h.loads i account hOld
    · exact hLoad i account (List.mem_singleton.mp hNew).symm
  · intro i save hMem
    rcases List.mem_append.mp hMem with hOld | hNew
    · exact h.saves i save hOld
    · rw [← List.mem_singleton.mp hNew] at hSave
      cases hSave
  · refine List.pairwise_append.mpr ⟨h.once, List.pairwise_singleton _ _, ?_⟩
    intro c' _ c'' hNew i save save' _ hEq
    rw [List.mem_singleton.mp hNew] at hEq
    rw [hEq] at hSave
    cases hSave
  · intro account
    rw [hSame]
    exact h.issuedArrivals account
  · intro account
    rw [hSame]
    exact h.distinct account
  · intro account
    rw [hSame]
    exact h.arriving account

/-- A command leaves the queue. -/
theorem Core.pop (h : s.Core cr os) (hInbox : s.inbox = c :: rest) :
    State.Core cr os { s with inbox := rest } := by
  have hMem : ∀ c' ∈ rest, c' ∈ s.inbox := by
    intro c' hRest
    rw [hInbox]
    exact List.mem_cons_of_mem c hRest
  have hArrivals : ∀ account, ∀ token ∈ arrivals account rest, token ∈ arrivals account s.inbox := by
    intro account token hToken
    rw [hInbox, arrivals_cons]
    exact List.mem_append_right _ hToken
  refine { h with
    loads := fun i account hLoad => h.loads i account (hMem _ hLoad)
    saves := fun i save hSave => h.saves i save (hMem _ hSave)
    once := ?_
    issuedArrivals := fun account token hToken =>
      h.issuedArrivals account token (hArrivals account token hToken)
    distinct := ?_
    arriving := fun account token hToken =>
      h.arriving account token (hArrivals account token hToken) }
  · have hOnce := h.once
    rw [hInbox] at hOnce
    exact hOnce.of_cons
  · intro account
    have hDistinct := h.distinct account
    rw [hInbox, arrivals_cons] at hDistinct
    exact (List.nodup_append.mp hDistinct).2.1

theorem Core.arrives (h : s.Core cr os) (hInbox : s.inbox = c :: rest)
    (hArrival : c.arrival account = some token) :
    ¬Spent os account token ∧ s.issued account token = true ∧ token ∉ arrivals account rest ∧
      s.Unloaded account token := by
  have hMem : token ∈ arrivals account s.inbox := by
    rw [hInbox, arrivals_cons, hArrival]
    exact List.mem_append_left _ List.mem_cons_self
  have hDistinct := h.distinct account
  rw [hInbox, arrivals_cons, hArrival] at hDistinct
  obtain ⟨hSpent, -, hUnloaded⟩ := h.arriving account token hMem
  exact ⟨hSpent, h.issuedArrivals account token hMem, (List.nodup_cons.mp hDistinct).1, hUnloaded⟩

/-- The daemon changes, but not the tokens it stores. -/
theorem Core.setDaemon (h : s.Core cr os) (hMirrors : d'.Mirrors cr) (hClear : d'.Clear)
    (hUnbound : d'.binding = none → d'.blobs = Table.empty)
    (hToken : ∀ account, d'.storedToken cr account = s.daemon.storedToken cr account)
    (hKind : ∀ account, (∃ grant, s.daemon.stored cr account = some (.oauth grant) ∧
      grant.kind = .provider) → ∃ grant, d'.stored cr account = some (.oauth grant) ∧
        grant.kind = .provider) : State.Core cr os { s with daemon := d' } := by
  refine { h with
    mirrors := hMirrors
    clear := hClear
    unbound := hUnbound
    issuedStored := ?_
    arriving := ?_
    kind := ?_
    replaced := ?_ }
  · intro account token hStored
    exact h.issuedStored account token ((hToken account).symm.trans hStored)
  · intro account token hMem
    obtain ⟨hSpent, hStored, hUnloaded⟩ := h.arriving account token hMem
    exact ⟨hSpent, fun hEq => hStored ((hToken account).symm.trans hEq), hUnloaded⟩
  · intro i r token hGet hPhase hStored
    exact hKind r.account (h.kind i r token hGet hPhase ((hToken _).symm.trans hStored))
  · intro i r token hGet hReplaced hPhase hStored
    exact h.replaced i r token hGet hReplaced hPhase ((hToken _).symm.trans hStored)

/-- The daemon stores another token for one key, or none. -/
theorem Core.store (h : s.Core cr os) (key : String) (hMirrors : d'.Mirrors cr)
    (hClear : d'.Clear) (hUnbound : d'.binding = none → d'.blobs = Table.empty)
    (hOthers : ∀ account, account ≠ key → d'.stored cr account = s.daemon.stored cr account)
    (hNew : ∀ token, d'.storedToken cr key = some token →
      s.issued key token = true ∧ token ∉ arrivals key s.inbox ∧ s.Unloaded key token) :
    State.Core cr os { s with daemon := d' } := by
  have hToken : ∀ account, account ≠ key →
      d'.storedToken cr account = s.daemon.storedToken cr account := by
    intro account hNe
    rw [Daemon.storedToken, Daemon.storedToken, hOthers account hNe]
  refine { h with
    mirrors := hMirrors
    clear := hClear
    unbound := hUnbound
    issuedStored := ?_
    arriving := ?_
    kind := ?_
    replaced := ?_ }
  · intro account token hStored
    by_cases hEq : account = key
    · subst hEq
      exact (hNew token hStored).1
    · exact h.issuedStored account token ((hToken account hEq).symm.trans hStored)
  · intro account token hMem
    obtain ⟨hSpent, hStored, hUnloaded⟩ := h.arriving account token hMem
    refine ⟨hSpent, ?_, hUnloaded⟩
    intro hNow
    by_cases hEq : account = key
    · subst hEq
      exact (hNew token hNow).2.1 hMem
    · exact hStored ((hToken account hEq).symm.trans hNow)
  · intro i r token hGet hPhase hStored
    by_cases hEq : r.account = key
    · subst hEq
      exact absurd hPhase ((hNew token hStored).2.2 i r hGet rfl)
    · obtain ⟨grant, hGrant, hKind⟩ :=
        h.kind i r token hGet hPhase ((hToken _ hEq).symm.trans hStored)
      exact ⟨grant, (hOthers _ hEq).trans hGrant, hKind⟩
  · intro i r token hGet hReplaced hPhase hStored
    by_cases hEq : r.account = key
    · subst hEq
      exact (hNew token hStored).2.2 i r hGet rfl hPhase
    · exact h.replaced i r token hGet hReplaced hPhase ((hToken _ hEq).symm.trans hStored)

/-! ## What the threads may do -/

/-- What is known of the token that a thread has loaded. -/
structure ThreadOk (cr : Crypto) (os : List Event) (s : State) (r : Refresher) : Prop where
  issued : ∀ token, r.phase.token? = some token → s.issued r.account token = true
  arriving : ∀ token, r.phase.token? = some token → token ∉ arrivals r.account s.inbox
  unspent : ∀ token, r.phase.token? = some token → r.phase.isAwaitSave = false →
    ¬Spent os r.account token
  kind : ∀ token, r.phase.token? = some token →
    s.daemon.storedToken cr r.account = some token →
    ∃ grant, s.daemon.stored cr r.account = some (.oauth grant) ∧ grant.kind = .provider
  replaced : ∀ token, r.replaced = true → r.phase.token? = some token →
    s.daemon.storedToken cr r.account ≠ some token

theorem Core.threadOk (h : s.Core cr os) {i : Nat} (hGet : s.refreshers[i]? = some r) :
    s.ThreadOk cr os r where
  issued token := h.issuedLoaded i r token hGet
  arriving token hToken hMem := (h.arriving r.account token hMem).2.2 i r hGet rfl hToken
  unspent token := h.unspent i r token hGet
  kind token := h.kind i r token hGet
  replaced token := h.replaced i r token hGet

theorem ThreadOk.of_none (hToken : r.phase.token? = none) : s.ThreadOk cr os r := by
  constructor <;> simp [hToken]

/-- A thread that keeps its token. -/
theorem ThreadOk.keep {r' : Refresher} (h : s.ThreadOk cr os r) (hAccount : r'.account = r.account)
    (hToken : r'.phase.token? = r.phase.token?)
    (hPhase : r'.phase.isAwaitSave = false → r.phase.isAwaitSave = false)
    (hReplaced : r'.replaced = true → r.replaced = true ∨ ∀ token,
      r.phase.token? = some token → s.daemon.storedToken cr r.account ≠ some token) :
    s.ThreadOk cr os r' := by
  constructor
  · rw [hAccount, hToken]
    exact h.issued
  · rw [hAccount, hToken]
    exact h.arriving
  · rw [hAccount, hToken]
    exact fun token hTok hWaits => h.unspent token hTok (hPhase hWaits)
  · rw [hAccount, hToken]
    exact h.kind
  · rw [hAccount, hToken]
    intro token hFlag hTok
    rcases hReplaced hFlag with hBefore | hNow
    · exact h.replaced token hBefore hTok
    · exact hNow token hTok

/-- The rule for a step of the threads: what each has loaded is in order, and one whose save is
queued goes on waiting. -/
theorem Core.threads (h : s.Core cr os) {rs : List Refresher} (locks : Locks)
    (hBack : ∀ (i : Nat) r, rs[i]? = some r → s.ThreadOk cr os r)
    (hForth : ∀ (i : Nat) r, s.refreshers[i]? = some r → ∃ r', rs[i]? = some r' ∧
      r'.account = r.account ∧ ∀ save, Command.saveOauthToken i save ∈ s.inbox →
        r'.phase = r.phase) :
    State.Core cr os { s with refreshers := rs, locks := locks } := by
  refine { h with
    loads := ?_
    saves := ?_
    issuedLoaded := fun i r token hGet => (hBack i r hGet).issued token
    arriving := ?_
    unspent := fun i r token hGet => (hBack i r hGet).unspent token
    kind := fun i r token hGet => (hBack i r hGet).kind token
    replaced := fun i r token hGet => (hBack i r hGet).replaced token }
  · intro i account hMem
    obtain ⟨r, hGet, hAccount⟩ := h.loads i account hMem
    obtain ⟨r', hGet', hSame, -⟩ := hForth i r hGet
    exact ⟨r', hGet', hSame.trans hAccount⟩
  · intro i save hMem
    obtain ⟨r, lock, hGet, hPhase, hAccount, hExpected⟩ := h.saves i save hMem
    obtain ⟨r', hGet', hSame, hKept⟩ := hForth i r hGet
    exact ⟨r', lock, hGet', (hKept save hMem).trans hPhase, hAccount.trans hSame.symm, hExpected⟩
  · intro account token hMem
    obtain ⟨hSpent, hStored, -⟩ := h.arriving account token hMem
    refine ⟨hSpent, hStored, ?_⟩
    rintro i r hGet rfl hToken
    exact (hBack i r hGet).arriving token hToken hMem

theorem Core.modifyThread (h : s.Core cr os) (locks : Locks) {f : Refresher → Refresher}
    (hGet : s.refreshers[index]? = some r) (hOk : s.ThreadOk cr os (f r))
    (hAccount : (f r).account = r.account)
    (hWaits : ∀ save, Command.saveOauthToken index save ∈ s.inbox → (f r).phase = r.phase) :
    State.Core cr os { s with refreshers := s.refreshers.modify index f, locks := locks } := by
  have hHere : ∀ {q}, s.refreshers[index]? = some q → q = r :=
    fun hOld => Option.some.inj (hOld.symm.trans hGet)
  refine h.threads locks ?_ ?_
  · intro i r' hNew
    obtain ⟨q, hOld, rfl | ⟨rfl, rfl⟩⟩ := getElem?_modify_cases hNew
    · exact h.threadOk hOld
    · obtain rfl := hHere hOld
      exact hOk
  · intro i q hOld
    refine ⟨if index = i then f q else q, by rw [List.getElem?_modify, hOld]; rfl, ?_⟩
    split
    · rename_i hEq
      subst hEq
      obtain rfl := hHere hOld
      exact ⟨hAccount, hWaits⟩
    · exact ⟨rfl, fun _ _ => rfl⟩

/-- A thread that waits for no save moves on, and keeps its token or drops it. -/
theorem Core.setPhase (h : s.Core cr os) {phase : Phase} (locks : Locks)
    (hGet : s.refreshers[index]? = some r) (hBefore : r.phase.isAwaitSave = false)
    (hToken : phase.token? = none ∨ phase.token? = r.phase.token?) :
    State.Core cr os { s.setPhase index phase with locks := locks } := by
  refine h.modifyThread locks hGet ?_ rfl ?_
  · rcases hToken with hNone | hSame
    · exact .of_none hNone
    · exact (h.threadOk hGet).keep rfl hSame (fun _ => hBefore) .inl
  · intro save hMem
    obtain ⟨q, lock, hOld, hPhase, -⟩ := h.saves index save hMem
    obtain rfl : q = r := Option.some.inj (hOld.symm.trans hGet)
    rw [hPhase] at hBefore
    cases hBefore

/-- The threads of an account learn that its credential was replaced, once none of them has
loaded the token that is stored now. -/
theorem Core.noteReplaced (h : s.Core cr os)
    (hNew : ∀ token, s.daemon.storedToken cr account = some token → s.Unloaded account token) :
    (s.noteReplaced account).Core cr os := by
  refine h.threads s.locks ?_ ?_
  · intro i r' hGet
    rw [List.getElem?_map] at hGet
    obtain ⟨r, hOld, rfl⟩ := Option.map_eq_some_iff.mp hGet
    by_cases hEq : r.account = account
    · rw [if_pos hEq]
      refine (h.threadOk hOld).keep rfl rfl id fun _ => .inr ?_
      intro token hToken hStored
      rw [hEq] at hStored
      exact hNew token hStored i r hOld hEq hToken
    · rw [if_neg hEq]
      exact h.threadOk hOld
  · intro i r hOld
    refine ⟨if r.account = account then { r with replaced := true } else r,
      by rw [List.getElem?_map, hOld]; rfl, ?_, ?_⟩
    · split <;> rfl
    · intro save _
      split <;> rfl

theorem Core.setLocks (h : s.Core cr os) (locks : Locks) :
    State.Core cr os { s with locks := locks } :=
  h.threads _ (fun _ _ hGet => h.threadOk hGet)
    fun _ r hGet => ⟨r, hGet, rfl, fun _ _ => rfl⟩

/-! ## New tokens -/

theorem issued_issue (key : String) (token : Option String) (account tok : String) :
    (s.issue key token).issued account tok = true ↔
      account = key ∧ token = some tok ∨ s.issued account tok = true := by
  cases token with
  | none => simp [State.issue]
  | some t =>
    by_cases hKey : account = key
    · subst hKey
      by_cases hTok : tok = t
      · simp [State.issue, hTok]
      · simp [State.issue, hTok, Ne.symm hTok]
    · simp [State.issue, hKey]

theorem fresh_some (h : s.fresh key (some token) = true) : s.issued key token = false := by
  simpa [State.fresh] using h

/-- A command that brings a fresh token for a key joins the queue. -/
theorem Core.bring (h : s.Core cr os) (key : String) (token : Option String)
    (hFresh : ∀ account tok, c.arrival account = some tok →
      account = key ∧ token = some tok ∧ s.issued key tok = false)
    (hLoad : ∀ i account, c ≠ .loadOauthToken i account)
    (hSave : ∀ i save, c = .saveOauthToken i save →
      (∃ r lock, s.refreshers[i]? = some r ∧ r.phase = .awaitSave lock save ∧
        save.account = r.account ∧ save.expectedRefreshToken ≠ none) ∧
      ∀ save', Command.saveOauthToken i save' ∉ s.inbox) :
    ((s.send c).issue key token).Core cr os := by
  have hNew : ∀ account tok, tok ∈ (c.arrival account).toList →
      account = key ∧ token = some tok ∧ s.issued account tok = false := by
    intro account tok hMem
    obtain ⟨hKey, hToken, hUnissued⟩ := hFresh account tok (Option.mem_toList.mp hMem)
    exact ⟨hKey, hToken, hKey ▸ hUnissued⟩
  have hNotIssued : ∀ {account tok}, s.issued account tok = false → s.issued account tok ≠ true :=
    fun hFalse hTrue => by
      rw [hFalse] at hTrue
      cases hTrue
  have hArrivals : ∀ account, arrivals account ((s.send c).issue key token).inbox =
      arrivals account s.inbox ++ (c.arrival account).toList := by
    intro account
    rw [issue_inbox, State.send, arrivals_append]
  have hSame : ((s.send c).issue key token).refreshers = s.refreshers ∧
      ((s.send c).issue key token).daemon = s.daemon := by
    refine ⟨?_, issue_daemon _ _⟩
    unfold State.issue
    split <;> rfl
  have hIssued : ∀ account tok, s.issued account tok = true →
      ((s.send c).issue key token).issued account tok = true :=
    fun account tok hOld => (issued_issue key token account tok).mpr (.inr hOld)
  have hUnloaded : ∀ account tok, s.Unloaded account tok →
      ((s.send c).issue key token).Unloaded account tok := by
    intro account tok hOld i r hGet
    rw [hSame.1] at hGet
    exact hOld i r hGet
  constructor
  · rw [hSame.2]
    exact h.mirrors
  · rw [hSame.2]
    exact h.clear
  · rw [hSame.2]
    exact h.unbound
  · intro i account hMem
    rw [issue_inbox] at hMem
    rw [hSame.1]
    rcases List.mem_append.mp hMem with hOld | hPosted
    · exact h.loads i account hOld
    · exact absurd (List.mem_singleton.mp hPosted).symm (hLoad i account)
  · intro i save hMem
    rw [issue_inbox] at hMem
    rw [hSame.1]
    rcases List.mem_append.mp hMem with hOld | hPosted
    · exact h.saves i save hOld
    · exact (hSave i save (List.mem_singleton.mp hPosted).symm).1
  · rw [issue_inbox]
    refine List.pairwise_append.mpr ⟨h.once, List.pairwise_singleton _ _, ?_⟩
    intro c' hOld c'' hPosted i save save' hEq hEq'
    rw [List.mem_singleton.mp hPosted] at hEq'
    rw [hEq] at hOld
    exact (hSave i save' hEq').2 save hOld
  · rw [hSame.2]
    exact fun account tok hStored => hIssued _ _ (h.issuedStored account tok hStored)
  · rw [hSame.1]
    exact fun i r tok hGet hTok => hIssued _ _ (h.issuedLoaded i r tok hGet hTok)
  · exact fun account tok hSpent => hIssued _ _ (h.issuedSpent account tok hSpent)
  · intro account tok hMem
    rw [hArrivals] at hMem
    rcases List.mem_append.mp hMem with hOld | hPosted
    · exact hIssued _ _ (h.issuedArrivals account tok hOld)
    · obtain ⟨hKey, hToken, -⟩ := hNew account tok hPosted
      exact (issued_issue key token account tok).mpr (.inl ⟨hKey, hToken⟩)
  · intro account
    rw [hArrivals]
    refine List.nodup_append.mpr ⟨h.distinct account, ?_, ?_⟩
    · cases c.arrival account <;> simp
    · rintro tok hOld tok' hPosted rfl
      exact hNotIssued (hNew account tok hPosted).2.2 (h.issuedArrivals account tok hOld)
  · intro account tok hMem
    rw [hArrivals] at hMem
    rw [hSame.2]
    rcases List.mem_append.mp hMem with hOld | hPosted
    · obtain ⟨hSpent, hStored, hFree⟩ := h.arriving account tok hOld
      exact ⟨hSpent, hStored, hUnloaded account tok hFree⟩
    · have hUnissued := hNotIssued (hNew account tok hPosted).2.2
      refine ⟨fun hSpent => hUnissued (h.issuedSpent account tok hSpent),
        fun hStored => hUnissued (h.issuedStored account tok hStored),
        hUnloaded account tok ?_⟩
      rintro i r hGet rfl hTok
      exact hUnissued (h.issuedLoaded i r tok hGet hTok)
  · rw [hSame.1]
    exact h.unspent
  · rw [hSame.1, hSame.2]
    exact h.kind
  · rw [hSame.1, hSame.2]
    exact h.replaced

/-- The exchange of a thread has replaced a token that no other thread will present. -/
theorem Core.spend (h : s.Core cr os) (hIssued : s.issued account token = true)
    (hQueue : token ∉ arrivals account s.inbox)
    (hThreads : ∀ (i : Nat) r, s.refreshers[i]? = some r → r.account = account →
      r.phase.token? = some token → r.phase.isAwaitSave = true) :
    s.Core cr (os ++ [.rotated account token]) := by
  have hSpent : ∀ account' token', Spent (os ++ [.rotated account token]) account' token' →
      Spent os account' token' ∨ account' = account ∧ token' = token := by
    intro account' token' hMem
    rcases List.mem_append.mp hMem with hOld | hNew
    · exact .inl hOld
    · cases List.mem_singleton.mp hNew
      exact .inr ⟨rfl, rfl⟩
  refine { h with
    issuedSpent := ?_
    arriving := ?_
    unspent := ?_ }
  · intro account' token' hMem
    rcases hSpent account' token' hMem with hOld | ⟨rfl, rfl⟩
    · exact h.issuedSpent account' token' hOld
    · exact hIssued
  · intro account' token' hMem
    obtain ⟨hBefore, hStored, hUnloaded⟩ := h.arriving account' token' hMem
    refine ⟨?_, hStored, hUnloaded⟩
    intro hNow
    rcases hSpent account' token' hNow with hOld | ⟨rfl, rfl⟩
    · exact hBefore hOld
    · exact hQueue hMem
  · intro i r token' hGet hTok hPhase hNow
    rcases hSpent r.account token' hNow with hOld | ⟨hAccount, rfl⟩
    · exact h.unspent i r token' hGet hTok hPhase hOld
    · rw [hThreads i r hGet hAccount hTok] at hPhase
      cases hPhase

theorem Pending.mono (h : s.Pending cr os) (s' : State)
    (hToken : ∀ account, s'.daemon.storedToken cr account = s.daemon.storedToken cr account)
    (hSaves : ∀ i save, Command.saveOauthToken i save ∈ s.inbox →
      Command.saveOauthToken i save ∈ s'.inbox) : s'.Pending cr os := by
  intro account token hStored hSpent
  obtain ⟨i, save, fresh, hMem, hRest⟩ := h account token ((hToken account).symm.trans hStored) hSpent
  exact ⟨i, save, fresh, hSaves i save hMem, hRest⟩

/-! ## The steps of a thread -/

theorem held?_of_token? {phase : Phase} (h : phase.token? = some token) :
    ∃ lock, phase.held? = some lock := by
  cases phase with
  | loaded lock load => exact ⟨lock, rfl⟩
  | exchange lock material => exact ⟨lock, rfl⟩
  | awaitSave lock save => exact ⟨lock, rfl⟩
  | _ => cases h

/-- What a step of a thread owes to the trace. -/
structure Safe (cr : Crypto) (os : List Event) (s : State) : Prop where
  core : s.Core cr os
  pending : s.Pending cr os

theorem Safe.move (h : s.Safe cr os) {phase : Phase} (locks : Locks)
    (hGet : s.refreshers[index]? = some r) (hBefore : r.phase.isAwaitSave = false)
    (hToken : phase.token? = none ∨ phase.token? = r.phase.token?)
    (hEs : ∀ account token, Event.rotated account token ∉ es) :
    State.Safe cr (os ++ es) { s.setPhase index phase with locks := locks } :=
  ⟨(h.core.setPhase locks hGet hBefore hToken).append hEs,
    (h.pending.mono { s.setPhase index phase with locks := locks } (fun _ => rfl)
      fun _ _ => id).append hEs⟩

theorem Safe.send (h : s.Safe cr os) (hSave : c.isSave = false)
    (hArrival : ∀ account, c.arrival account = none)
    (hLoad : ∀ i account, c = .loadOauthToken i account →
      ∃ r, s.refreshers[i]? = some r ∧ r.account = account) : (s.send c).Safe cr os :=
  ⟨h.core.send hSave hArrival hLoad,
    h.pending.mono _ (fun _ => rfl) fun _ _ hMem => List.mem_append_left _ hMem⟩

theorem decideRefresh_ok {load : TokenLoad} {force : Bool} {now : Int} {material : RefreshMaterial}
    (h : decideRefresh load force now = .ok material) : load.material = some material := by
  unfold decideRefresh at h
  split at h
  · cases h
  · split at h
    · cases h
    · rename_i hMaterial
      split at h
      · cases h
      · cases h
        exact hMaterial

/-- The provider has answered an exchange with tokens. -/
theorem Safe.exchange (h : s.Safe cr os) (hLocks : s.LocksOk) {lock : Nat}
    {material : RefreshMaterial} {response : OAuthTokenResponse}
    (hGet : s.refreshers[index]? = some r) (hPhase : r.phase = .exchange lock material)
    (hFresh : response.refreshToken = some material.refreshToken ∨
      s.fresh r.account response.refreshToken = true) :
    State.Safe cr
      (os ++ if response.refreshToken.any (fun t => t ≠ material.refreshToken) then
        [.rotated r.account material.refreshToken] else [])
      (((s.setPhase index (.awaitSave lock (saveOf r.account material r.now response))).send
        (.saveOauthToken index (saveOf r.account material r.now response))).issue r.account
          response.refreshToken) := by
  have hToken : r.phase.token? = some material.refreshToken := by rw [hPhase]; rfl
  have hSet : (s.setPhase index
      (.awaitSave lock (saveOf r.account material r.now response))).Core cr os :=
    h.core.setPhase s.locks hGet (by rw [hPhase]; rfl) (.inr (by rw [hPhase]; rfl))
  have hNoSave : ∀ save', Command.saveOauthToken index save' ∉ s.inbox := by
    intro save' hMem
    obtain ⟨q, lock', hOld, hWaits, -⟩ := h.core.saves index save' hMem
    obtain rfl : q = r := Option.some.inj (hOld.symm.trans hGet)
    rw [hPhase] at hWaits
    cases hWaits
  have hBring := hSet.bring r.account response.refreshToken
    (c := .saveOauthToken index (saveOf r.account material r.now response))
    (by
      intro account tok hArrival
      obtain ⟨hAccount, hNew, hTok⟩ := arrival_saveOauthToken hArrival
      change response.refreshToken ≠ some material.refreshToken at hNew
      change response.refreshToken = some tok at hTok
      rw [hTok] at hFresh
      refine ⟨hAccount.symm, hTok, fresh_some (hFresh.resolve_left ?_)⟩
      exact fun hSame => hNew (hTok.trans hSame))
    (by simp)
    (by
      intro i save hEq
      cases hEq
      refine ⟨⟨_, lock, setPhase_getElem? hGet, ?_, ?_, by simp [saveOf]⟩, hNoSave⟩
      · rw [if_pos rfl]
      · rw [if_pos rfl]
        rfl)
  have hInbox : ∀ i save, Command.saveOauthToken i save ∈ s.inbox →
      Command.saveOauthToken i save ∈
        (((s.setPhase index (.awaitSave lock (saveOf r.account material r.now response))).send
          (.saveOauthToken index (saveOf r.account material r.now response))).issue r.account
            response.refreshToken).inbox := by
    intro i save hMem
    rw [issue_inbox]
    exact List.mem_append_left _ hMem
  have hPending := h.pending.mono
    (((s.setPhase index (.awaitSave lock (saveOf r.account material r.now response))).send
      (.saveOauthToken index (saveOf r.account material r.now response))).issue r.account
        response.refreshToken) (fun _ => by rw [issue_daemon]; rfl) hInbox
  split
  · rename_i hRotated
    obtain ⟨fresh, hResponse, hNe⟩ := (Option.any_eq_true _ _).mp hRotated
    constructor
    · refine hBring.spend ?_ ?_ ?_
      · exact (issued_issue _ _ _ _).mpr (.inr (h.core.issuedLoaded index r _ hGet hToken))
      · intro hMem
        exact (hBring.arriving _ _ hMem).2.2 index _
          (by
            unfold State.issue
            split <;> exact setPhase_getElem? hGet)
          (by rw [if_pos rfl])
          (by rw [if_pos rfl]; rfl)
      · intro i q hNew hAccount hTok
        have hOldThreads : (s.setPhase index (.awaitSave lock
            (saveOf r.account material r.now response))).refreshers[i]? = some q := by
          unfold State.issue at hNew
          split at hNew <;> exact hNew
        obtain ⟨q', hOld, ⟨hNeq, rfl⟩ | ⟨rfl, rfl⟩⟩ := setPhase_cases hOldThreads
        · obtain ⟨lock', hHeld⟩ := held?_of_token? hTok
          have hHeld' : r.phase.held? = some lock := by rw [hPhase]; rfl
          exact absurd (hLocks.holder_unique hGet hOld hHeld' hHeld hAccount.symm) hNeq
        · rfl
    · intro account token hStored hSpent
      rcases List.mem_append.mp hSpent with hOld | hNew
      · exact hPending account token hStored hOld
      · cases List.mem_singleton.mp hNew
        refine ⟨index, saveOf r.account material r.now response, fresh, ?_, rfl, rfl, hResponse,
          by simpa using hNe⟩
        rw [issue_inbox]
        exact List.mem_append_right _ List.mem_cons_self
  · rw [List.append_nil]
    exact ⟨hBring, hPending⟩

theorem Safe.advance (h : s.Safe cr os) (hLocks : s.LocksOk) {result : ExchangeResult}
    (hFresh : s.bringsFresh (.advance index result) = true)
    (hStep : s.advance index result = some (s', es)) :
    s'.Safe cr (os ++ es) ∧
      ∀ account token, Event.presented account token ∈ es → ¬Spent os account token := by
  unfold State.advance at hStep
  split at hStep
  · cases hStep
  · rename_i r hGet
    split at hStep
    · rename_i hPhase
      cases hStep
      exact ⟨h.move _ hGet (by rw [hPhase]; rfl) (.inl rfl) (by simp), by simp⟩
    · rename_i lock hPhase
      split at hStep
      · cases hStep
        refine ⟨h.move _ hGet (by rw [hPhase]; rfl) (.inl ?_) (by simp), by simp⟩
        split <;> rfl
      · cases hStep
    · rename_i lock hPhase
      cases hStep
      refine ⟨?_, by simp⟩
      have hMove : State.Safe cr (os ++ [])
          { s.setPhase index (.awaitLoad lock) with locks := s.locks } :=
        h.move s.locks hGet (by rw [hPhase]; rfl) (.inl rfl) (by simp)
      refine hMove.send rfl (fun _ => rfl) ?_
      intro i account hEq
      cases hEq
      refine ⟨_, setPhase_getElem? hGet, ?_⟩
      rw [if_pos rfl]
    · cases hStep
    · rename_i lock load hPhase
      split at hStep
      · cases hStep
        exact ⟨h.move s.locks hGet (by rw [hPhase]; rfl) (.inl rfl) (by simp), by simp⟩
      · rename_i material hDecide
        cases hStep
        have hToken : r.phase.token? = some material.refreshToken := by
          rw [hPhase]
          change load.material.map RefreshMaterial.refreshToken = _
          rw [decideRefresh_ok hDecide]
          rfl
        refine ⟨h.move s.locks hGet (by rw [hPhase]; rfl) (.inr hToken.symm) (by simp),
          ?_⟩
        intro account token hMem
        cases List.mem_singleton.mp hMem
        exact h.core.unspent index r _ hGet hToken (by rw [hPhase]; rfl)
    · rename_i lock material hPhase
      have hBefore : r.phase.isAwaitSave = false := by rw [hPhase]; rfl
      split at hStep
      · rename_i response
        cases hStep
        constructor
        · refine h.exchange hLocks hGet hPhase ?_
          simpa [State.bringsFresh, hGet, hPhase] using hFresh
        · intro account token hMem
          split at hMem
          · cases List.mem_singleton.mp hMem
          · cases hMem
      · cases hStep
        refine ⟨?_, by simp⟩
        exact (h.move s.locks hGet hBefore (.inl rfl) (by simp)).send rfl
          (fun _ => rfl) (by simp)
      · cases hStep
        refine ⟨?_, by simp⟩
        exact (h.move s.locks hGet hBefore (.inl rfl) (by simp)).send rfl
          (fun _ => rfl) (by simp)
      · cases hStep
        exact ⟨h.move s.locks hGet hBefore (.inl rfl) (by simp), by simp⟩
    · cases hStep
    · cases hStep
    · rename_i lock hPhase
      cases hStep
      exact ⟨h.move _ hGet (by rw [hPhase]; rfl) (.inl rfl) (by simp), by simp⟩
    · rename_i lock hPhase
      cases hStep
      refine ⟨h.move s.locks hGet (by rw [hPhase]; rfl) (.inl ?_) (by simp), by simp⟩
      split <;> rfl
    · rename_i hPhase
      cases hStep
      exact ⟨h.move _ hGet (by rw [hPhase]; rfl) (.inl rfl) (by simp), by simp⟩
    · cases hStep

/-! ## The commands of the loop -/

/-- What a thread is answered when it loads the grant of its account. -/
theorem material_of_load {material : RefreshMaterial} (hMirrors : d.Mirrors cr) (hClear : d.Clear)
    (h : (d.oauthTokenLoad account).material = some material) :
    d.storedToken cr account = some material.refreshToken ∧
      ∃ grant, d.stored cr account = some (.oauth grant) ∧ grant.kind = .provider := by
  change ((d.credentials account).bind ServiceCredential.asOauth).bind OAuthGrant.material =
    some material at h
  obtain ⟨grant, hGrant, hMaterial⟩ := Option.bind_eq_some_iff.mp h
  obtain ⟨c, hCredential, hOauth⟩ := Option.bind_eq_some_iff.mp hGrant
  have hOpen : d.locked = false := by
    cases hLocked : d.locked with
    | false => rfl
    | true =>
      rw [(hClear hLocked).1] at hCredential
      cases hCredential
  obtain ⟨pub, hBinding, hSame⟩ := hMirrors hOpen
  have hStored : d.stored cr account = some c := by
    rw [Daemon.stored_of_binding hBinding, ← hSame, hCredential]
  obtain rfl : c = .oauth grant := by
    cases c with
    | oauth g =>
      cases hOauth
      rfl
    | _ => cases hOauth
  unfold OAuthGrant.material at hMaterial
  split at hMaterial
  · cases hMaterial
  · rename_i hKind
    split at hMaterial
    · rename_i token endpoint encoding hToken _ _
      cases hMaterial
      refine ⟨?_, grant, hStored, by simpa using hKind⟩
      rw [Daemon.storedToken, hStored]
      exact hToken
    · cases hMaterial

/-- The loop answers a load: the token it hands out is not spent, for the save of an exchange
that has spent it would be queued, and its thread would hold the lock. -/
theorem Safe.load (h : s.Safe cr os) (hLocks : s.LocksOk)
    (hInbox : s.inbox = .loadOauthToken index account :: rest) :
    State.Safe cr os (({ s with inbox := rest } : State).handleCommand cr env
      (.loadOauthToken index account)).1 := by
  obtain ⟨r, hGet, hAccount⟩ := h.core.loads index account (hInbox ▸ List.mem_cons_self)
  have hPop := h.core.pop hInbox
  have hSaves : ∀ i save, Command.saveOauthToken i save ∈ s.inbox →
      Command.saveOauthToken i save ∈ rest := by
    intro i save hMem
    rw [hInbox] at hMem
    exact (List.mem_cons.mp hMem).resolve_left (by simp)
  refine ⟨?_, h.pending.mono _ (fun _ => rfl) hSaves⟩
  refine hPop.modifyThread s.locks hGet ?_ (answerLoad_shrinks r _).1 ?_
  · unfold Refresher.answerLoad
    split
    · rename_i lock hPhase
      refine ⟨?_, ?_, ?_, ?_, by simp⟩
      all_goals
        intro token hToken
        obtain ⟨material, hMaterial, rfl⟩ := Option.map_eq_some_iff.mp hToken
        obtain ⟨hStored, hKind⟩ := material_of_load h.core.mirrors h.core.clear hMaterial
        rw [hAccount]
      · exact h.core.issuedStored account _ hStored
      · exact fun hMem => (hPop.arriving account _ hMem).2.1 hStored
      · intro _ hSpent
        obtain ⟨j, save, fresh, hSave, hFor, -⟩ := h.pending account _ hStored hSpent
        obtain ⟨q, lock', hOld, hWaits, hSame, -⟩ := h.core.saves j save hSave
        have hHeld : r.phase.held? = some lock := by rw [hPhase]; rfl
        have hHeld' : q.phase.held? = some lock' := by rw [hWaits]; rfl
        have hIndex : index = j := hLocks.holder_unique hGet hOld hHeld hHeld'
          (hAccount.trans (hFor.symm.trans hSame))
        subst hIndex
        obtain rfl : q = r := Option.some.inj (hOld.symm.trans hGet)
        rw [hPhase] at hWaits
        cases hWaits
      · exact fun _ => hKind
    · exact hPop.threadOk hGet
  · intro save hMem
    obtain ⟨q, lock, hOld, hWaits, -⟩ := hPop.saves index save hMem
    obtain rfl : q = r := Option.some.inj (hOld.symm.trans hGet)
    simp [Refresher.answerLoad, hWaits]

theorem Core.saver (h : s.Core cr os) {save : SaveToken}
    (hInbox : s.inbox = .saveOauthToken index save :: rest) :
    ∃ r lock, s.refreshers[index]? = some r ∧ r.phase = .awaitSave lock save ∧
      save.account = r.account ∧ save.expectedRefreshToken ≠ none :=
  h.saves index save (hInbox ▸ List.mem_cons_self)

theorem Core.answerSave (h : s.Core cr os) {save : SaveToken}
    (hInbox : s.inbox = .saveOauthToken index save :: rest) :
    State.Core cr os { s with
      inbox := rest
      refreshers := s.refreshers.modify index Refresher.answerSave } := by
  obtain ⟨r, lock, hGet, hPhase, -⟩ := h.saver hInbox
  have hPop := h.pop hInbox
  have hOnce := h.once
  rw [hInbox] at hOnce
  refine hPop.modifyThread s.locks hGet ?_ (answerSave_shrinks r).1 ?_
  · refine .of_none ?_
    simp [Refresher.answerSave, hPhase, Phase.token?]
  · intro save' hMem
    exact absurd rfl ((List.pairwise_cons.mp hOnce).1 _ hMem index save save' rfl)

theorem Unloaded.answerSave (h : s.Unloaded account token) (index : Nat) (rest : List Command) :
    State.Unloaded { s with
      inbox := rest
      refreshers := s.refreshers.modify index Refresher.answerSave } account token := by
  intro i r' hNew hAccount hToken
  obtain ⟨q, hOld, rfl | ⟨rfl, rfl⟩⟩ := getElem?_modify_cases hNew
  · exact h i r' hOld hAccount hToken
  · refine h index q hOld ((answerSave_shrinks q).1.symm.trans hAccount) ?_
    unfold Refresher.answerSave at hToken
    split at hToken
    · cases hToken
    · exact hToken

theorem stored_of_credentials (hMirrors : d.Mirrors cr) (hOpen : d.locked = false)
    (account : String) : d.stored cr account = d.credentials account := by
  obtain ⟨pub, hBinding, hSame⟩ := hMirrors hOpen
  rw [Daemon.stored_of_binding hBinding, hSame]

/-- A save that finds the token it expects and succeeds stores the rotated token. -/
theorem Safe.save (h : s.Safe cr os) {save : SaveToken}
    (hInbox : s.inbox = .saveOauthToken index save :: rest)
    (hSucceeds : s.savesSucceed cr (.handle env) = true) :
    State.Safe cr os { s with
      inbox := rest
      refreshers := s.refreshers.modify index Refresher.answerSave
      daemon := (s.daemon.handleSaveOauthToken cr env save).1 } := by
  obtain ⟨r, lock, hGet, hPhase, hAccount, -⟩ := h.core.saver hInbox
  have hAnswered := h.core.answerSave hInbox
  have hChange := s.daemon.after_change cr env (.saveOauthToken index save)
  have hClear := hChange.clear h.core.clear
  have hMirrors := hChange.mirrors h.core.mirrors
  rw [Daemon.after] at hClear hMirrors
  -- A queued save for a spent token is still queued, unless it is this one.
  have hQueued : ∀ account token, s.daemon.storedToken cr account = some token →
      Spent os account token → (∃ i save fresh, Command.saveOauthToken i save ∈ rest ∧
        save.account = account ∧ save.expectedRefreshToken = some token ∧
        save.rotatedRefreshToken = some fresh ∧ fresh ≠ token) ∨
      save.account = account ∧ save.expectedRefreshToken = some token ∧
        ∃ fresh, save.rotatedRefreshToken = some fresh ∧ fresh ≠ token := by
    intro account token hStored hSpent
    obtain ⟨i, save', fresh, hMem, hFor, hExpected, hRotated, hNe⟩ :=
      h.pending account token hStored hSpent
    rw [hInbox] at hMem
    rcases List.mem_cons.mp hMem with hHead | hRest
    · cases hHead
      exact .inr ⟨hFor, hExpected, fresh, hRotated, hNe⟩
    · exact .inl ⟨i, save', fresh, hRest, hFor, hExpected, hRotated, hNe⟩
  simp only [savesSucceed, hInbox, List.head?_cons, Bool.and_eq_true, Bool.not_eq_true'] at hSucceeds
  obtain ⟨hOpen, hAccepted⟩ := hSucceeds
  have hClearText := stored_of_credentials h.core.mirrors hOpen save.account
  rcases s.daemon.handleSaveOauthToken_cases cr env save with
    ⟨hSame, hDropped⟩ | ⟨grant, hGrant, hKind, hUnchanged, hEnd⟩
  · rw [hSame]
    refine ⟨hAnswered, ?_⟩
    intro account token hStored hSpent
    refine (hQueued account token hStored hSpent).resolve_right ?_
    rintro ⟨rfl, hExpected, -⟩
    have hToken : r.phase.token? = some token := by
      rw [hPhase]
      exact hExpected
    rw [hAccount] at hStored
    obtain ⟨grant, hGrant, hKind⟩ := h.core.kind index r token hGet hToken hStored
    rw [← hAccount, hClearText] at hGrant
    rw [hGrant] at hAccepted
    simp only [hKind, ne_eq, not_true_eq_false, decide_false, Bool.false_or,
      decide_eq_true_eq] at hAccepted
    rcases hDropped with hRefused | ⟨current, hCurrent, hChanged⟩
    · exact hRefused hAccepted
    · rw [hGrant] at hCurrent
      cases hCurrent
      rw [Daemon.storedToken, ← hAccount, hClearText, hGrant] at hStored
      have hStored' : (ServiceCredential.oauth grant).refreshToken = some token := hStored
      rw [hExpected, refreshTokenUnchanged, hStored'] at hChanged
      simp at hChanged
  · have hStoredGrant : s.daemon.stored cr save.account = some (.oauth grant) :=
      hClearText.trans hGrant
    have hStoredToken : s.daemon.storedToken cr save.account = grant.refreshToken := by
      rw [Daemon.storedToken, hStoredGrant]
      rfl
    rcases hEnd with ⟨hCached, hSameGrant⟩ | hStored
    · have hStoredSame : ∀ account,
          (s.daemon.handleSaveOauthToken cr env save).1.stored cr account =
            s.daemon.stored cr account :=
        fun account => Daemon.stored_congr hCached.binding (congrFun hCached.blobs account)
      have hTokenSame : ∀ account,
          (s.daemon.handleSaveOauthToken cr env save).1.storedToken cr account =
            s.daemon.storedToken cr account := by
        intro account
        rw [Daemon.storedToken, Daemon.storedToken, hStoredSame]
      constructor
      · refine hAnswered.setDaemon hMirrors hClear ?_ hTokenSame ?_
        · rw [hCached.binding, hCached.blobs]
          exact h.core.unbound
        · intro account hProvider
          rw [hStoredSame]
          exact hProvider
      · intro account token hNow hSpent
        rw [hTokenSame] at hNow
        refine (hQueued account token hNow hSpent).resolve_right ?_
        rintro ⟨rfl, -, fresh, hRotated, hNe⟩
        have hToken := congrArg OAuthGrant.refreshToken hSameGrant
        rw [hStoredToken] at hNow
        rw [Daemon.refreshedGrant, hRotated, hNow] at hToken
        exact hNe (Option.some.inj hToken)
    · have hNewToken : (s.daemon.handleSaveOauthToken cr env save).1.storedToken cr save.account =
          save.rotatedRefreshToken.or grant.refreshToken := by
        rw [Daemon.storedToken, hStored.stored_self]
        rfl
      by_cases hArrives : ∃ token, (Command.saveOauthToken index save).arrival save.account =
          some token
      · obtain ⟨token, hArrival⟩ := hArrives
        obtain ⟨hUnspent, hIssued, hRest, hUnloaded⟩ := h.core.arrives hInbox hArrival
        obtain ⟨-, -, hRotated⟩ := arrival_saveOauthToken hArrival
        rw [hRotated] at hNewToken
        have hOthers : ∀ account, account ≠ save.account →
            (s.daemon.handleSaveOauthToken cr env save).1.stored cr account =
              s.daemon.stored cr account := fun account hNe => hStored.stored_of_ne hNe
        constructor
        · refine hAnswered.store save.account hMirrors hClear
            (fun hNone => absurd hNone hStored.isBound) hOthers ?_
          intro token' hToken'
          obtain rfl : token = token' := Option.some.inj (hNewToken.symm.trans hToken')
          exact ⟨hIssued, hRest, hUnloaded.answerSave index rest⟩
        · intro account token' hNow hSpent
          by_cases hEq : account = save.account
          · subst hEq
            obtain rfl : token = token' := Option.some.inj (hNewToken.symm.trans hNow)
            exact absurd hSpent hUnspent
          · change (s.daemon.handleSaveOauthToken cr env save).1.storedToken cr account = _ at hNow
            rw [Daemon.storedToken, hOthers account hEq] at hNow
            exact (hQueued account token' hNow hSpent).resolve_right fun hThis =>
              hEq hThis.1.symm
      · have hSameToken : save.rotatedRefreshToken.or grant.refreshToken = grant.refreshToken := by
          cases hRotated : save.rotatedRefreshToken with
          | none => rfl
          | some fresh =>
            have hExpected : save.expectedRefreshToken = some fresh := by
              by_contra hNe
              refine hArrives ⟨fresh, ?_⟩
              simp [Command.arrival, hRotated, Ne.symm hNe]
            rw [hExpected, refreshTokenUnchanged, decide_eq_true_eq] at hUnchanged
            exact hUnchanged.symm
        rw [hSameToken, ← hStoredToken] at hNewToken
        have hTokenSame : ∀ account,
            (s.daemon.handleSaveOauthToken cr env save).1.storedToken cr account =
              s.daemon.storedToken cr account := by
          intro account
          by_cases hEq : account = save.account
          · rw [hEq]
            exact hNewToken
          · rw [Daemon.storedToken, Daemon.storedToken, hStored.stored_of_ne hEq]
        constructor
        · refine hAnswered.setDaemon hMirrors hClear (fun hNone => absurd hNone hStored.isBound)
            hTokenSame ?_
          intro account hProvider
          by_cases hEq : account = save.account
          · rw [hEq]
            exact ⟨_, hStored.stored_self, hKind⟩
          · rw [hStored.stored_of_ne hEq]
            exact hProvider
        · intro account token hNow hSpent
          rw [hTokenSame] at hNow
          refine (hQueued account token hNow hSpent).resolve_right ?_
          rintro ⟨rfl, hExpected, fresh, hRotated, hNe⟩
          refine hArrives ⟨fresh, ?_⟩
          simp [Command.arrival, hRotated, hExpected, hNe]

theorem Safe.pop (h : s.Safe cr os) (hInbox : s.inbox = c :: rest) (hSave : c.isSave = false) :
    State.Safe cr os { s with inbox := rest } := by
  refine ⟨h.core.pop hInbox, h.pending.mono _ (fun _ => rfl) ?_⟩
  intro i save hMem
  rw [hInbox] at hMem
  refine (List.mem_cons.mp hMem).resolve_left ?_
  rintro rfl
  cases hSave

theorem Safe.setDaemon (h : s.Safe cr os) (hMirrors : d'.Mirrors cr) (hClear : d'.Clear)
    (hUnbound : d'.binding = none → d'.blobs = Table.empty)
    (hStored : ∀ account, d'.stored cr account = s.daemon.stored cr account) :
    State.Safe cr os { s with daemon := d' } := by
  have hToken : ∀ account, d'.storedToken cr account = s.daemon.storedToken cr account := by
    intro account
    rw [Daemon.storedToken, Daemon.storedToken, hStored]
  refine ⟨h.core.setDaemon hMirrors hClear hUnbound hToken ?_, h.pending.mono _ hToken fun _ _ => id⟩
  intro account hProvider
  rw [hStored]
  exact hProvider

/-- The credential of a key is replaced by one whose token is new to every thread, or removed,
and the threads of the key learn it. -/
theorem Safe.replace (h : s.Safe cr os) (hMirrors : d'.Mirrors cr) (hClear : d'.Clear)
    (hUnbound : d'.binding = none → d'.blobs = Table.empty)
    (hOthers : ∀ account, account ≠ key → d'.stored cr account = s.daemon.stored cr account)
    (hNew : ∀ token, d'.storedToken cr key = some token → ¬Spent os key token ∧
      s.issued key token = true ∧ token ∉ arrivals key s.inbox ∧ s.Unloaded key token) :
    (({ s with daemon := d' } : State).noteReplaced key).Safe cr os := by
  constructor
  · refine (h.core.store _ hMirrors hClear hUnbound hOthers fun token hToken =>
      (hNew token hToken).2).noteReplaced ?_
    exact fun token hToken => (hNew token hToken).2.2.2
  · intro account token hStored hSpent
    by_cases hEq : account = key
    · subst hEq
      exact absurd hSpent (hNew token hStored).1
    · change d'.storedToken cr account = some token at hStored
      rw [Daemon.storedToken, hOthers account hEq] at hStored
      exact h.pending account token hStored hSpent

theorem Safe.prune (h : s.Safe cr os) : s.prune.Safe cr os :=
  ⟨h.core.setLocks _, h.pending.mono s.prune (fun _ => rfl) fun _ _ => id⟩

theorem Safe.stored (h : s.Safe cr os) (hInbox : s.inbox = c :: rest) (hSave : c.isSave = false)
    {credential : ServiceCredential} (hArrival : c.arrival key = credential.refreshToken)
    (hClear : d'.Clear) (hStored : Daemon.Stored cr s.daemon d' key credential) :
    (({ s with inbox := rest, daemon := d' } : State).noteReplaced key).Safe cr os := by
  refine Safe.replace (s := { s with inbox := rest }) (h.pop hInbox hSave)
    (hStored.mirrors h.core.mirrors) hClear (fun hNone => absurd hNone hStored.isBound)
    (fun account hNe => hStored.stored_of_ne hNe) ?_
  intro token hToken
  rw [Daemon.storedToken, hStored.stored_self] at hToken
  exact h.core.arrives hInbox (hArrival.trans hToken)

theorem Safe.removed (h : s.Safe cr os) (hInbox : s.inbox = c :: rest) (hSave : c.isSave = false)
    (hClear : d'.Clear) (hRemoved : Daemon.Removed s.daemon d' key) :
    (({ s with inbox := rest, daemon := d' } : State).noteReplaced key).Safe cr os := by
  refine Safe.replace (s := { s with inbox := rest }) (h.pop hInbox hSave)
    (hRemoved.mirrors h.core.mirrors) hClear (hRemoved.unbound h.core.unbound)
    (fun account hNe => hRemoved.stored_of_ne hNe) ?_
  intro token hToken
  rw [Daemon.storedToken, hRemoved.stored_self] at hToken
  cases hToken

end State

/-! ## Commands that store what was stored -/

namespace Daemon

theorem publishMcpOauthKey_stored (key account : String) :
    (d.publishMcpOauthKey key).stored cr account = d.stored cr account :=
  stored_congr (by simp) (by simp)

theorem unlockTail_stored {key : List UInt8} (h : d.unlockTail cr env key = .ok d')
    (account : String) : d'.stored cr account = d.stored cr account := by
  obtain ⟨-, hBinding, hBlobs, -⟩ := unlockTail_ok h
  exact stored_congr hBinding (congrFun hBlobs account)

theorem bindKeystore_stored {key : List UInt8} (h : d.bindKeystore cr env key = .ok d')
    (hUnbound : d.binding = none → d.blobs = Table.empty) (account : String) :
    d'.stored cr account = d.stored cr account := by
  obtain ⟨hBinding, rfl⟩ := bindKeystore_ok h
  rcases hBinding with hNone | hSome
  · rw [stored, stored, hNone, hUnbound hNone]
    rfl
  · exact stored_congr hSome.symm rfl

theorem handleUnlock_stored (cr : Crypto) (env : Outcome) (key : List UInt8) :
    (∀ account, (d.handleUnlock cr env key).1.stored cr account = d.stored cr account) ∧
      ((d.binding = none → d.blobs = Table.empty) →
        (d.handleUnlock cr env key).1.binding = none →
          (d.handleUnlock cr env key).1.blobs = Table.empty) := by
  rcases d.handleUnlock_cases cr env key with ⟨e, hEq⟩ | ⟨d', hEq, -, hTail⟩
  · rw [hEq]
    exact ⟨fun _ => rfl, id⟩
  · rw [hEq]
    refine ⟨unlockTail_stored hTail, ?_⟩
    obtain ⟨-, hBinding, hBlobs, -⟩ := unlockTail_ok hTail
    rw [hBinding, hBlobs]
    exact id

theorem handleBindKeystoreInner_stored (cr : Crypto) (env : Outcome) (key : List UInt8)
    (hUnbound : d.binding = none → d.blobs = Table.empty) :
    (∀ account, (d.handleBindKeystoreInner cr env key).1.stored cr account =
      d.stored cr account) ∧
      ((d.handleBindKeystoreInner cr env key).1.binding = none →
        (d.handleBindKeystoreInner cr env key).1.blobs = Table.empty) := by
  rcases d.handleBindKeystoreInner_cases cr env key with
    ⟨e, hEq⟩ | ⟨bound, hBound, ⟨e, hEq⟩ | ⟨d', hTail, hEq⟩⟩
  · rw [hEq]
    exact ⟨fun _ => rfl, hUnbound⟩
  · rw [hEq]
    refine ⟨bindKeystore_stored hBound hUnbound, ?_⟩
    rw [(bindKeystore_ok hBound).2]
    simp
  · rw [hEq]
    refine ⟨fun account => (unlockTail_stored hTail account).trans
      (bindKeystore_stored hBound hUnbound account), ?_⟩
    obtain ⟨-, hBinding, -⟩ := unlockTail_ok hTail
    rw [hBinding, (bindKeystore_ok hBound).2]
    simp

end Daemon

namespace State

variable {s s' : State} {os : List Event}

/-- Every command keeps the invariant. -/
theorem Safe.handleCommand (h : s.Safe cr os) (hLocks : s.LocksOk) {command : Command}
    (hInbox : s.inbox = command :: rest) (hSucceeds : s.savesSucceed cr (.handle env) = true) :
    (({ s with inbox := rest } : State).handleCommand cr env command).1.Safe cr os := by
  have hClear := (s.daemon.after_change cr env command).clear h.core.clear
  have hMirrors := (s.daemon.after_change cr env command).mirrors h.core.mirrors
  cases command with
  | unlock key =>
    obtain ⟨hStored, hUnbound⟩ := s.daemon.handleUnlock_stored cr env key
    have hSet := (h.pop hInbox rfl).setDaemon hMirrors hClear (hUnbound h.core.unbound) hStored
    rw [Daemon.after] at hSet
    simp only [State.handleCommand]
    split <;> rename_i hEq <;> rw [hEq] at hSet <;> exact hSet
  | bind key =>
    obtain ⟨hStored, hUnbound⟩ := s.daemon.handleBindKeystoreInner_stored cr env
      key h.core.unbound
    have hSet := (h.pop hInbox rfl).setDaemon hMirrors hClear hUnbound hStored
    rw [Daemon.after] at hSet
    simp only [State.handleCommand]
    split <;> rename_i hEq <;> rw [hEq] at hSet <;> exact hSet
  | lock =>
    exact (h.pop hInbox rfl).setDaemon hMirrors hClear h.core.unbound fun _ => rfl
  | saveCredential service c =>
    simp only [State.handleCommand]
    rcases s.daemon.handleSaveCredential_cases cr env service c with
      ⟨e, hEq⟩ | ⟨d', hEq, hStored⟩
    · rw [hEq]
      exact h.pop hInbox rfl
    · rw [Daemon.after, hEq] at hClear
      rw [hEq]
      exact h.stored hInbox rfl (by simp [Command.arrival]) hClear hStored
  | removeCredential service =>
    simp only [State.handleCommand]
    rcases s.daemon.handleRemoveCredential_cases env service with
      ⟨e, hEq⟩ | ⟨d', hEq, hRemoved⟩
    · rw [hEq]
      exact h.pop hInbox rfl
    · rw [Daemon.after, hEq] at hClear
      rw [hEq]
      exact h.removed hInbox rfl hClear hRemoved
  | loadOauthToken index account => exact h.load hLocks hInbox
  | saveOauthToken index save => exact h.save hInbox hSucceeds
  | markOauthDead account token =>
    have hSame : (s.daemon.handleMarkOauthDead account).binding = s.daemon.binding ∧
        (s.daemon.handleMarkOauthDead account).blobs = s.daemon.blobs := by
      unfold Daemon.handleMarkOauthDead
      split <;> exact ⟨rfl, rfl⟩
    refine (h.pop hInbox rfl).setDaemon hMirrors hClear ?_ fun account' =>
      Daemon.stored_congr hSame.1 (congrFun hSame.2 account')
    change (s.daemon.handleMarkOauthDead account).binding = none →
      (s.daemon.handleMarkOauthDead account).blobs = Table.empty
    rw [hSame.1, hSame.2]
    exact h.core.unbound
  | oauthSave key c expected =>
    simp only [State.handleCommand]
    rcases s.daemon.handleOauthSave_cases cr env key c expected with
      hEq | ⟨hEq, -⟩ | ⟨d', hEq, hStored⟩
    · rw [Daemon.after, hEq] at hClear hMirrors
      rw [hEq]
      refine (h.pop hInbox rfl).setDaemon hMirrors hClear (by simpa using h.core.unbound) ?_
      exact fun account => Daemon.publishMcpOauthKey_stored key account
    · rw [hEq]
      exact h.pop hInbox rfl
    · rw [Daemon.after, hEq] at hClear
      rw [hEq]
      exact (h.stored hInbox rfl (by simp [Command.arrival]) hClear hStored).prune
  | oauthClear key =>
    simp only [State.handleCommand]
    rcases s.daemon.handleOauthClear_cases env key with hEq | ⟨d', hEq, hRemoved⟩
    · rw [hEq]
      exact h.pop hInbox rfl
    · rw [Daemon.after, hEq] at hClear
      rw [hEq]
      exact (h.removed hInbox rfl hClear hRemoved).prune
  | mcpAuthRejected key token =>
    have hSame : (s.daemon.handleMcpAuthRejected key).binding = s.daemon.binding ∧
        (s.daemon.handleMcpAuthRejected key).blobs = s.daemon.blobs := by
      unfold Daemon.handleMcpAuthRejected
      split
      · exact ⟨rfl, rfl⟩
      · exact ⟨by simp, by simp⟩
    refine (h.pop hInbox rfl).setDaemon hMirrors hClear ?_ fun account' =>
      Daemon.stored_congr hSame.1 (congrFun hSame.2 account')
    change (s.daemon.handleMcpAuthRejected key).binding = none →
      (s.daemon.handleMcpAuthRejected key).blobs = Table.empty
    rw [hSame.1, hSame.2]
    exact h.core.unbound

/-- No loop command is an exchange. -/
theorem handleCommand_events {command : Command} (h : s.handleCommand cr env command = (s', es))
    (account token : String) :
    Event.rotated account token ∉ es ∧ Event.presented account token ∉ es := by
  by_cases hUnlock : ∃ key, command = .unlock key
  · obtain ⟨key, rfl⟩ := hUnlock
    simp only [State.handleCommand] at h
    split at h <;>
    · cases h
      simp
  · by_cases hBind : ∃ key, command = .bind key
    · obtain ⟨key, rfl⟩ := hBind
      simp only [State.handleCommand] at h
      split at h <;>
      · cases h
        simp
    · obtain rfl := handleCommand_answers (fun key hEq => hUnlock ⟨key, hEq⟩)
        (fun key hEq => hBind ⟨key, hEq⟩) h
      simp

theorem Safe.append (h : s.Safe cr os) (hEs : ∀ account token, Event.rotated account token ∉ es) :
    s.Safe cr (os ++ es) :=
  ⟨h.core.append hEs, h.pending.append hEs⟩

/-- A login, or a save of an MCP connection, joins the queue. -/
theorem Safe.bring (h : s.Safe cr os) {token : Option String} (hSave : c.isSave = false)
    (hLoad : ∀ i account, c ≠ .loadOauthToken i account)
    (hArrival : ∀ account tok, c.arrival account = some tok → account = key ∧ token = some tok)
    (hFresh : s.fresh key token = true) : ((s.send c).issue key token).Safe cr os := by
  constructor
  · refine h.core.bring key token ?_ hLoad ?_
    · intro account tok hTok
      obtain ⟨hKey, rfl⟩ := hArrival account tok hTok
      exact ⟨hKey, rfl, fresh_some hFresh⟩
    · rintro i save rfl
      cases hSave
  · refine h.pending.mono _ (fun _ => by rw [issue_daemon]; rfl) ?_
    intro i save hMem
    rw [issue_inbox]
    exact List.mem_append_left _ hMem

theorem Safe.setReadView (h : s.Safe cr os) (view : Table ServiceCredential) :
    State.Safe cr os { s with daemon := { s.daemon with readView := view } } :=
  h.setDaemon (h.core.mirrors.readView view) h.core.clear h.core.unbound fun _ => rfl

theorem Safe.begin (h : s.Safe cr os) (r : Refresher) :
    State.Safe cr os { s with refreshers := s.refreshers ++ [{ r with phase := .acquire }] } := by
  refine ⟨h.core.threads s.locks ?_ ?_, h.pending.mono _ (fun _ => rfl) fun _ _ => id⟩
  · intro i r' hGet
    rcases getElem?_concat_cases hGet with hOld | ⟨-, rfl⟩
    · exact h.core.threadOk hOld
    · exact .of_none rfl
  · intro i r' hGet
    refine ⟨r', ?_, rfl, fun _ _ => rfl⟩
    rw [List.getElem?_append_left (List.getElem?_eq_some_iff.mp hGet).1]
    exact hGet

/-- Every step that meets the assumptions keeps the invariant, and presents no spent token. -/
theorem Safe.step (h : s.Safe cr os) (hLocks : s.LocksOk) {a : Action}
    (hSucceeds : s.savesSucceed cr a = true) (hFresh : s.bringsFresh a = true)
    (hStep : (machine cr).step s a = some (s', es)) :
    s'.Safe cr (os ++ es) ∧
      ∀ account token, Event.presented account token ∈ es → ¬Spent os account token := by
  change s.step cr a = some (s', es) at hStep
  cases a with
  | post command =>
    obtain ⟨s₁, hPost, hEq⟩ := Option.map_eq_some_iff.mp hStep
    cases hEq
    refine ⟨?_, by simp⟩
    rw [List.append_nil]
    cases command with
    | saveCredential service c =>
      cases hPost
      refine h.bring rfl (by simp) ?_ hFresh
      intro account tok hTok
      change (if service = account then c.refreshToken else none) = some tok at hTok
      by_cases hService : service = account
      · rw [if_pos hService] at hTok
        exact ⟨hService.symm, hTok⟩
      · rw [if_neg hService] at hTok
        cases hTok
    | unlock key =>
      cases hPost
      exact h.send rfl (fun _ => rfl) (by simp)
    | bind key =>
      cases hPost
      exact h.send rfl (fun _ => rfl) (by simp)
    | lock =>
      cases hPost
      exact h.send rfl (fun _ => rfl) (by simp)
    | removeCredential service =>
      cases hPost
      exact h.send rfl (fun _ => rfl) (by simp)
    | _ => cases hPost
  | handle env =>
    obtain ⟨command, rest, hInbox, hHandled, -⟩ := handle_eq_some hStep
    have hSafe := h.handleCommand hLocks hInbox hSucceeds
    have hEvents := handleCommand_events hHandled
    rw [hHandled] at hSafe
    exact ⟨hSafe.append fun account token => (hEvents account token).1,
      fun account token hMem => absurd hMem (hEvents account token).2⟩
  | begin r =>
    cases hStep
    rw [List.append_nil]
    exact ⟨h.begin r, by simp⟩
  | advance index result => exact h.advance hLocks hFresh hStep
  | dropGuard index =>
    obtain ⟨s₁, hDrop, hEq⟩ := Option.map_eq_some_iff.mp hStep
    cases hEq
    refine ⟨?_, by simp⟩
    unfold State.dropGuard at hDrop
    split at hDrop
    · cases hDrop
    · rename_i r hGet
      split at hDrop
      · rename_i lock hPhase
        cases hDrop
        exact h.move s.locks hGet (by rw [hPhase]; rfl) (.inl rfl) (by simp)
      · cases hDrop
  | mcpSave key c expected =>
    obtain ⟨s₁, hSave, hEq⟩ := Option.map_eq_some_iff.mp hStep
    cases hEq
    refine ⟨?_, by simp⟩
    rw [List.append_nil]
    unfold State.mcpSave at hSave
    split at hSave
    · cases hSave
      refine Safe.bring (h.setReadView (s.daemon.readView.insert key c)) rfl (by simp) ?_ hFresh
      intro account tok hTok
      change (if key = account then c.refreshToken else none) = some tok at hTok
      by_cases hKey : key = account
      · rw [if_pos hKey] at hTok
        exact ⟨hKey.symm, hTok⟩
      · rw [if_neg hKey] at hTok
        cases hTok
    · cases hSave
  | mcpClear key =>
    cases hStep
    refine ⟨?_, by simp⟩
    rw [List.append_nil]
    exact Safe.send (h.setReadView (s.daemon.readView.remove key)) rfl (fun _ => rfl) (by simp)
  | mcpReject key token =>
    cases hStep
    refine ⟨Safe.append ?_ (by simp), by simp⟩
    exact Safe.send (h.setReadView (s.daemon.readView.remove key)) rfl (fun _ => rfl) (by simp)

/-- A save is dropped when the credential was replaced or removed since its thread loaded it. -/
theorem Core.replaced_save (h : s.Core cr os) {save : SaveToken}
    (hInbox : s.inbox = .saveOauthToken index save :: rest) (hOpen : s.daemon.locked = false)
    (hGet : s.refreshers[index]? = some r) (hReplaced : r.replaced = true) :
    (s.daemon.handleSaveOauthToken cr env save).1 = s.daemon := by
  obtain ⟨q, lock, hOld, hPhase, hAccount, hSome⟩ := h.saver hInbox
  obtain rfl : q = r := Option.some.inj (hOld.symm.trans hGet)
  rcases s.daemon.handleSaveOauthToken_cases cr env save with
    ⟨hSame, -⟩ | ⟨grant, hGrant, -, hUnchanged, -⟩
  · exact hSame
  · obtain ⟨token, hExpected⟩ := Option.ne_none_iff_exists'.mp hSome
    have hStored : s.daemon.stored cr save.account = some (.oauth grant) :=
      (stored_of_credentials h.mirrors hOpen save.account).trans hGrant
    rw [hExpected, refreshTokenUnchanged, decide_eq_true_eq] at hUnchanged
    refine absurd ?_ (h.replaced index q token hGet hReplaced (by rw [hPhase]; exact hExpected))
    rw [Daemon.storedToken, ← hAccount, hStored]
    exact hUnchanged

/-! ## The runs -/

/-- A token that was presented had not been replaced before. -/
def PresentedUnspent (os : List Event) : Prop :=
  ∀ before after account token, os = before ++ Event.presented account token :: after →
    Event.rotated account token ∉ before

theorem PresentedUnspent.append (h : PresentedUnspent os)
    (hEs : ∀ account token, Event.presented account token ∈ es → ¬Spent os account token)
    (hShort : es.length ≤ 1) : PresentedUnspent (os ++ es) := by
  intro before after account token hSplit
  cases es with
  | nil =>
    rw [List.append_nil] at hSplit
    exact h before after account token hSplit
  | cons e rest =>
    obtain rfl : rest = [] := List.length_eq_zero_iff.mp (by simpa using hShort)
    rcases append_singleton_eq_split hSplit with ⟨rfl, rfl, -⟩ | ⟨after', -, hBefore⟩
    · exact hEs account token List.mem_cons_self
    · exact h before after' account token hBefore

theorem advance_short {result : ExchangeResult} (h : s.advance index result = some (s', es)) :
    es.length ≤ 1 := by
  unfold State.advance at h
  split at h
  · cases h
  · split at h
    · cases h
      simp
    · split at h <;> cases h
      simp
    · cases h
      simp
    · cases h
    · split at h <;> cases h <;> simp
    · split at h
      · cases h
        split <;> simp
      · cases h
        simp
      · cases h
        simp
      · cases h
        simp
    · cases h
    · cases h
    · cases h
      simp
    · cases h
      simp
    · cases h
      simp
    · cases h

theorem handle_short (h : s.handle cr env = some (s', es)) : es.length ≤ 1 := by
  obtain ⟨command, rest, -, hEq, -⟩ := handle_eq_some h
  by_cases hUnlock : ∃ key, command = .unlock key
  · obtain ⟨key, rfl⟩ := hUnlock
    simp only [State.handleCommand] at hEq
    split at hEq <;>
    · cases hEq
      simp
  · by_cases hBind : ∃ key, command = .bind key
    · obtain ⟨key, rfl⟩ := hBind
      simp only [State.handleCommand] at hEq
      split at hEq <;>
      · cases hEq
        simp
    · obtain rfl := handleCommand_answers (fun key h => hUnlock ⟨key, h⟩)
        (fun key h => hBind ⟨key, h⟩) hEq
      simp

theorem step_short {a : Action} (h : (machine cr).step s a = some (s', es)) : es.length ≤ 1 := by
  change s.step cr a = some (s', es) at h
  cases a with
  | handle env => exact handle_short h
  | advance index result => exact advance_short h
  | begin r =>
    cases h
    simp
  | mcpClear key =>
    cases h
    simp
  | mcpReject key token =>
    cases h
    simp
  | _ =>
    obtain ⟨s₁, -, hEq⟩ := Option.map_eq_some_iff.mp h
    cases hEq
    simp

/-- What holds along a run that meets the assumptions. -/
structure Rotates (cr : Crypto) (os : List Event) (s : State) : Prop where
  safe : s.Safe cr os
  locks : s.LocksOk
  presented : PresentedUnspent os

theorem Rotates.step (h : s.Rotates cr os) {a : Action} (hSucceeds : s.savesSucceed cr a = true)
    (hFresh : s.bringsFresh a = true) (hStep : (machine cr).step s a = some (s', es)) :
    s'.Rotates cr (os ++ es) := by
  obtain ⟨hSafe, hEvents⟩ := h.safe.step h.locks hSucceeds hFresh hStep
  exact ⟨hSafe, h.locks.step hStep, h.presented.append hEvents (step_short hStep)⟩

theorem rotates_opened (cr : Crypto) {binding : Option (List UInt8)} {blobs : Table (List UInt8)}
    (accounts : List AccountConfig) (hUnbound : binding = none → blobs = Table.empty) :
    (opened cr binding blobs accounts).Rotates cr [] where
  safe := {
    core := {
      mirrors := fun hOpen => by cases hOpen
      clear := fun _ => ⟨rfl, rfl, rfl⟩
      unbound := hUnbound
      loads := fun i account hMem => by cases hMem
      saves := fun i save hMem => by cases hMem
      once := List.Pairwise.nil
      issuedStored := fun account token hStored => decide_eq_true hStored
      issuedLoaded := fun i r token hGet => by cases hGet
      issuedSpent := fun account token hSpent => by cases hSpent
      issuedArrivals := fun account token hMem => by cases hMem
      distinct := fun account => List.nodup_nil
      arriving := fun account token hMem => by cases hMem
      unspent := fun i r token hGet => by cases hGet
      kind := fun i r token hGet => by cases hGet
      replaced := fun i r token hGet => by cases hGet }
    pending := fun account token _ hSpent => by cases hSpent }
  locks := locksOk_opened binding blobs accounts
  presented before after account token hSplit := by simp at hSplit

/-- The machine whose saves succeed and whose logins and rotations bring fresh tokens. -/
abbrev rotating (cr : Crypto) : Machine State Action Event :=
  (machine cr).guard fun s a => s.savesSucceed cr a = true ∧ s.bringsFresh a = true

end State

/-- However refreshes, logins, logouts and prunings interleave: at most one thread is between
load and save for a credential, no refresh token is presented after an exchange has replaced
it, and a save changes nothing once the credential was replaced or removed. -/
theorem rotation_safe (cr : Crypto) (binding : Option (List UInt8)) (blobs : Table (List UInt8))
    (accounts : List AccountConfig) (hUnbound : binding = none → blobs = Table.empty)
    {as : List Action} {s : State} {os : List Event}
    (hExec : (State.rotating cr).exec (opened cr binding blobs accounts) as = some (s, os)) :
    (∀ (i j : Nat) r r', s.refreshers[i]? = some r → s.refreshers[j]? = some r' →
      r.account = r'.account → r.phase.held? ≠ none → r'.phase.held? ≠ none → i = j) ∧
    (∀ before after account token, os = before ++ .presented account token :: after →
      Event.rotated account token ∉ before) ∧
    (State.rotating cr).EveryStep (fun s a s' _ => ∀ env index save rest r,
      a = .handle env → s.inbox = .saveOauthToken index save :: rest →
      s.refreshers[index]? = some r → r.replaced = true → s'.daemon = s.daemon)
      (opened cr binding blobs accounts) as := by
  have hOpened := State.rotates_opened cr accounts hUnbound
  have hState := Machine.exec_invariant (P := fun os s => State.Rotates cr os s)
    (fun hBefore hStep => by
      obtain ⟨⟨hSucceeds, hFresh⟩, hTaken⟩ := Machine.guard_step_eq_some.mp hStep
      exact hBefore.step hSucceeds hFresh hTaken) hOpened hExec
  refine ⟨?_, hState.presented, ?_⟩
  · intro i j r r' hGet hGet' hAccount hHeld hHeld'
    obtain ⟨lock, hLock⟩ := Option.ne_none_iff_exists'.mp hHeld
    obtain ⟨lock', hLock'⟩ := Option.ne_none_iff_exists'.mp hHeld'
    exact hState.locks.holder_unique hGet hGet' hLock hLock' hAccount
  · refine Machine.everyStep_of_step (I := fun s => ∃ os, State.Rotates cr os s) ?_ ?_
      ⟨[], hOpened⟩ as
    · rintro s a s' es ⟨os, hBefore⟩ hStep
      obtain ⟨⟨hSucceeds, hFresh⟩, hTaken⟩ := Machine.guard_step_eq_some.mp hStep
      exact ⟨os ++ es, hBefore.step hSucceeds hFresh hTaken⟩
    · rintro s a s' es ⟨os, hBefore⟩ hStep env index save rest r rfl hInbox hGet hReplaced
      obtain ⟨⟨hSucceeds, -⟩, hTaken⟩ := Machine.guard_step_eq_some.mp hStep
      have hOpen : s.daemon.locked = false := by
        simp only [State.savesSucceed, hInbox, List.head?_cons, Bool.and_eq_true,
          Bool.not_eq_true'] at hSucceeds
        exact hSucceeds.1
      obtain ⟨command, rest', hInbox', -, hDaemon, -⟩ := State.handle_eq_some hTaken
      rw [hInbox] at hInbox'
      cases hInbox'
      rw [hDaemon]
      exact hBefore.safe.core.replaced_save hInbox hOpen hGet hReplaced

/-- A grant is rotated by one refresh while a second one waits, which then finds the new token. -/
def sampleRotation : List Action :=
  [.post (.bind sampleKey), .handle {}, .post (.saveCredential "acct" (sampleGrant "old")),
    .handle {}, .begin { account := "acct" }, .begin { account := "acct", force := true },
    .advance 0 .transient, .advance 1 .transient, .advance 0 .transient, .advance 0 .transient,
    .handle {}, .advance 0 .transient,
    .advance 0 (.tokens { accessToken := "at", refreshToken := some "new" }), .handle {},
    .advance 0 .transient, .advance 1 .transient, .advance 1 .transient, .handle {},
    .advance 1 .transient]

theorem sample_rotation_safe :
    ∃ s os, (State.rotating sampleCrypto).exec (opened sampleCrypto none Table.empty [])
        sampleRotation = some (s, os) ∧
      s.daemon.stored sampleCrypto "acct" = some (sampleGrant "new") ∧
      ∀ before after account token, os = before ++ .presented account token :: after →
        Event.rotated account token ∉ before := by
  have hRun : (State.rotating sampleCrypto).check (opened sampleCrypto none Table.empty [])
      sampleRotation (fun s _ => decide (s.daemon.stored sampleCrypto "acct" =
        some (sampleGrant "new"))) = true := by decide +kernel
  obtain ⟨s, os, hExec, hStored⟩ := Machine.exists_of_check hRun
  exact ⟨s, os, hExec, of_decide_eq_true hStored,
    (rotation_safe sampleCrypto none Table.empty [] (fun _ => rfl) hExec).2.1⟩

end Choreographr.Keystore
