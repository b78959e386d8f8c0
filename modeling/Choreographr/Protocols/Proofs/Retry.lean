import Mathlib.Data.List.Chain
import Mathlib.Order.Interval.Finset.Nat
import Mathlib.Tactic.Ring
import Choreographr.Lib.Counting
import Choreographr.Protocols.Retry

/-!
# What the retry loop sends

Every request after the first one has a reason in the reply before it: the loop's own
retry, the step down from a compressed body, or a resend of the gateway policy. From the
chain of these reasons follow the number of requests, the place of the first success and
the lengths of the waits.
-/

namespace Choreographr.Protocols

open Session Lib

variable {w : RetrySetting} {delay next : Nat} {wait : RetryWait} {response : HttpResponse}
  {terminal : Terminal} {env : AttemptEnv} {rx rx' : CancelRx} {run : RetryRun} {compressed : Bool}
  {sends : List SentRequest}

/-! ## The backoff -/

/-- A wait may pass the configured maximum by the jitter, but not the hour. -/
theorem cappedBackoff_le (retryNumber : Nat) (config : RetryConfig) (jitter : Jitter) :
    4 * min (backoffDuration retryNumber config jitter) MAX_BACKOFF_MS ≤
      5 * config.maxBackoffMs := by
  unfold backoffDuration
  simp only
  generalize hCapped : min (saturateU64 (config.initialBackoffMs *
    saturateU64 (2 ^ (retryNumber - 1)))) config.maxBackoffMs = capped
  have hMax : capped ≤ config.maxBackoffMs := by omega
  by_cases hSmall : capped ≤ MAX_BACKOFF_MS
  · have hHour : capped ≤ 3600000 := hSmall
    have hExact : roundTo 53 capped = capped := roundTo_of_lt (by omega)
    have hProduct : capped * jitter.scaled ≤ 5 * capped * 2 ^ 51 :=
      calc capped * jitter.scaled ≤ capped * (5 * 2 ^ 51) := Nat.mul_le_mul_left _ jitter.high
        _ = 5 * capped * 2 ^ 51 := by ring
    have hGrid : ulp 53 (capped * jitter.scaled) ∣ 5 * capped * 2 ^ 51 := by
      have hWide : capped * jitter.scaled < 2 ^ (53 + 51) := by omega
      exact ulp_dvd (by decide) hWide ⟨5 * capped, Nat.mul_comm _ _⟩
    have hRound : roundTo 53 (capped * jitter.scaled) ≤ 5 * capped * 2 ^ 51 :=
      roundTo_le hProduct hGrid
    rw [hExact]
    unfold saturateU64
    omega
  · unfold MAX_BACKOFF_MS at hSmall ⊢
    omega

/-! ## Why a request is sent again -/

/-- The wait of the loop behind a reply. -/
inductive RetryDelay (w : RetrySetting) (sent : SentRequest) : Nat → Prop where
  | transport {err : String} (hReply : (w.script sent.index).reply = .error err) :
      RetryDelay w sent
        (min (backoffDuration sent.attempt w.retry (w.script sent.index).jitter) MAX_BACKOFF_MS)
  | retryAfter {response : HttpResponse} {secs : Nat}
      (hReply : (w.script sent.index).reply = .ok response)
      (hStatus : response.status = 429 ∨ response.status = 503)
      (hHeader : parseRetryAfterSecs w.lib (w.script sent.index).now response.retryAfter =
        some secs)
      (hCeiling : secs * 1000 ≤ w.retry.ceiling) : RetryDelay w sent (secs * 1000)
  | withoutHeader {response : HttpResponse}
      (hReply : (w.script sent.index).reply = .ok response)
      (hStatus : response.status = 429 ∨ response.status = 503)
      (hHeader : parseRetryAfterSecs w.lib (w.script sent.index).now response.retryAfter =
        none) :
      RetryDelay w sent
        (min (backoffDuration sent.attempt w.retry (w.script sent.index).jitter) MAX_BACKOFF_MS)
  | serverError {response : HttpResponse}
      (hReply : (w.script sent.index).reply = .ok response)
      (hStatus : response.status = 500 ∨ response.status = 502 ∨ response.status = 504) :
      RetryDelay w sent
        (min (backoffDuration sent.attempt w.retry (w.script sent.index).jitter) MAX_BACKOFF_MS)

/-- What comes behind a request: the wait, and the pass and the attempt of the next one. With
`policies` the reasons are those of the driver, without those of the loop alone. -/
inductive Resend (w : RetrySetting) (policies : Bool) (sent : SentRequest) :
    Option RetryWait → Pass → Nat → Prop where
  | retry {delay : Nat} (hBudget : sent.attempt < w.retry.maxAttempts)
      (hDelay : RetryDelay w sent delay) :
      Resend w policies sent (some ⟨sent.attempt, w.retry.maxAttempts, delay⟩) sent.pass
        (sent.attempt + 1)
  | downgrade {response : HttpResponse} (hPolicies : policies = true)
      (hReply : (w.script sent.index).reply = .ok response)
      (hStatus : response.status = 415) (hCompressed : sent.pass = ⟨true, 0⟩) :
      Resend w policies sent none ⟨false, 0⟩ 1
  | gateway {response : HttpResponse} (hPolicies : policies = true)
      (hReply : (w.script sent.index).reply = .ok response)
      (hStatus : response.status = 400)
      (hTransient : isTransientGateway400 w.slug (errorDetail w.lib 400 response.bodyText))
      (hLeft : sent.pass.resend < gatewayExtra w.retry) :
      Resend w policies sent
        (some ⟨sent.pass.resend + 1, gatewayExtra w.retry + 1,
          min (backoffDuration (sent.pass.resend + 1) w.retry (w.script sent.index).jitter)
            MAX_BACKOFF_MS⟩)
        ⟨sent.pass.compressed, sent.pass.resend + 1⟩ 1

/-- A cancel comes before the request that a reply asks for: during the attempt or the wait, or
before the next attempt. -/
def CutOff (w : RetrySetting) (sent : SentRequest) (waited : Option RetryWait) : Prop :=
  let rx := sent.rx.arrive (w.script sent.index).cancelsDuring
  (waited.isSome ∧ (rx.pending ∨ rx.isSome ∧ (w.script sent.index).waitEnd = .cancelled)) ∨
    (rx.arrive (w.script (sent.index + 1)).cancelsBefore).pending

variable {policies : Bool} {sent : SentRequest} {pass : Pass} {attempt : Nat}
  {waited : Option RetryWait}

theorem ceiling_le_hour (config : RetryConfig) : config.ceiling ≤ MAX_BACKOFF_MS :=
  Nat.min_le_right _ _

theorem RetryDelay.bounded (h : RetryDelay w sent delay) :
    delay ≤ MAX_BACKOFF_MS ∧ 4 * delay ≤ 5 * w.retry.maxBackoffMs := by
  have hBackoff := cappedBackoff_le sent.attempt w.retry (w.script sent.index).jitter
  cases h with
  | transport => exact ⟨Nat.min_le_right _ _, hBackoff⟩
  | retryAfter _ _ _ hCeiling =>
    have hHour := ceiling_le_hour w.retry
    have hMax : w.retry.ceiling ≤ w.retry.maxBackoffMs := Nat.min_le_left _ _
    omega
  | withoutHeader => exact ⟨Nat.min_le_right _ _, hBackoff⟩
  | serverError => exact ⟨Nat.min_le_right _ _, hBackoff⟩

theorem Resend.bounded (h : Resend w policies sent (some wait) pass attempt) :
    wait.delay ≤ MAX_BACKOFF_MS ∧ 4 * wait.delay ≤ 5 * w.retry.maxBackoffMs := by
  cases h with
  | retry _ hDelay => exact hDelay.bounded
  | gateway => exact ⟨Nat.min_le_right _ _, cappedBackoff_le _ _ _⟩

/-- Nothing is sent behind a success. -/
theorem Resend.not_success (h : Resend w policies sent waited pass attempt)
    (hReply : (w.script sent.index).reply = .ok response) : ¬response.isSuccess := by
  intro hSuccess
  have hLow : 200 ≤ response.status := hSuccess.1
  have hHigh : response.status < 300 := hSuccess.2
  have hSame : ∀ {other : HttpResponse}, (w.script sent.index).reply = .ok other →
      other.status = response.status := by
    intro other hOther
    rw [hReply] at hOther
    cases hOther
    rfl
  cases h with
  | retry _ hDelay =>
    cases hDelay with
    | transport hErr =>
      rw [hReply] at hErr
      cases hErr
    | retryAfter hOther hStatus =>
      have hEq := hSame hOther
      omega
    | withoutHeader hOther hStatus =>
      have hEq := hSame hOther
      omega
    | serverError hOther hStatus =>
      have hEq := hSame hOther
      omega
  | downgrade _ hOther hStatus =>
    have hEq := hSame hOther
    omega
  | gateway _ hOther hStatus =>
    have hEq := hSame hOther
    omega

/-! ## Runs of requests -/

/-- The requests of a stretch of a run, from an entry of the script and the first
request's wait, pass and attempt on. -/
structure Trace (w : RetrySetting) (policies : Bool) (next : Nat) (waited : Option RetryWait) (pass : Pass)
    (attempt : Nat) (sends : List SentRequest) : Prop where
  first : ∀ sent ∈ sends.head?, sent.waited = waited ∧ sent.pass = pass ∧ sent.attempt = attempt
  resends : sends.IsChain fun a b => Resend w policies a b.waited b.pass b.attempt
  indices : sends.map SentRequest.index = List.range' next sends.length
  notPending : ∀ sent ∈ sends, ¬sent.rx.pending

theorem Trace.nil : Trace w policies next waited pass attempt [] :=
  ⟨by simp, .nil, rfl, by simp⟩

theorem Trace.single (sent : SentRequest) (h : ¬sent.rx.pending) :
    Trace w policies sent.index sent.waited sent.pass sent.attempt [sent] := by
  refine ⟨?_, .singleton _, rfl, ?_⟩
  · intro other hOther
    cases hOther
    exact ⟨rfl, rfl, rfl⟩
  · intro other hOther
    rw [List.mem_singleton.mp hOther]
    exact h

theorem Trace.append {xs ys : List SentRequest} {last : SentRequest} {waited' : Option RetryWait}
    {pass' : Pass} {attempt' : Nat} (hBefore : Trace w policies next waited pass attempt xs)
    (hLast : xs.getLast? = some last) (hResend : Resend w policies last waited' pass' attempt')
    (hAfter : Trace w policies (next + xs.length) waited' pass' attempt' ys) :
    Trace w policies next waited pass attempt (xs ++ ys) := by
  have hSome : xs ≠ [] := by
    rintro rfl
    cases hLast
  refine ⟨?_, ?_, ?_, ?_⟩
  · rw [List.head?_append_of_ne_nil _ hSome]
    exact hBefore.first
  · refine List.isChain_append.mpr ⟨hBefore.resends, hAfter.resends, ?_⟩
    intro a hA b hB
    rw [hLast] at hA
    cases hA
    obtain ⟨hWaited, hPass, hAttempt⟩ := hAfter.first b hB
    rw [hWaited, hPass, hAttempt]
    exact hResend
  · rw [List.map_append, hBefore.indices, hAfter.indices, List.length_append,
      List.range'_append_1]
  · intro sent hMem
    rcases List.mem_append.mp hMem with hIn | hIn
    · exact hBefore.notPending sent hIn
    · exact hAfter.notPending sent hIn

/-- How a run ended: before its first request, with a reply, or by a cancel after it had
decided to send again. -/
def Ended (w : RetrySetting) (policies : Bool) (terminal : Terminal)
    (waited : Option RetryWait) (run : RetryRun) : Prop :=
  (run.sends = [] ∧ run.result = .error .cancelled ∧ run.lastWait = waited) ∨
    ∃ sent, run.sends.getLast? = some sent ∧
      ((afterReply w.lib w.retry terminal sent.attempt (w.script sent.index) =
          .finish run.result ∧ run.lastWait = none ∧ sent.pass = run.pass ∧
          run.rx = sent.rx.arrive (w.script sent.index).cancelsDuring) ∨
        (run.result = .error .cancelled ∧ CutOff w sent run.lastWait ∧
          ∃ pass attempt, Resend w policies sent run.lastWait pass attempt))

structure Ran (w : RetrySetting) (policies : Bool) (terminal : Terminal) (next : Nat)
    (waited : Option RetryWait) (pass : Pass) (attempt : Nat) (run : RetryRun) : Prop where
  trace : Trace w policies next waited pass attempt run.sends
  next : run.next = next + run.sends.length
  ended : Ended w policies terminal waited run

theorem Ran.andThen (earlier later : RetryRun) {last : SentRequest} {waited' : Option RetryWait}
    {pass' : Pass} {attempt' : Nat}
    (hTrace : Trace w policies next waited pass attempt earlier.sends)
    (hNext : earlier.next = next + earlier.sends.length)
    (hLast : earlier.sends.getLast? = some last)
    (hResend : Resend w policies last waited' pass' attempt')
    (hLater : Ran w policies terminal earlier.next waited' pass' attempt' later)
    (hCut : later.sends = [] → CutOff w last waited') :
    Ran w policies terminal next waited pass attempt (earlier.andThen later) := by
  rw [hNext] at hLater
  refine ⟨hTrace.append hLast hResend hLater.trace, ?_, Or.inr ?_⟩
  · change later.next = next + (earlier.sends ++ later.sends).length
    rw [hLater.next, List.length_append]
    omega
  · rcases hLater.ended with ⟨hNone, hResult, hWait⟩ | ⟨sent, hSent, hEnd⟩
    · refine ⟨last, ?_, Or.inr ⟨hResult, ?_, pass', attempt', ?_⟩⟩
      · change (earlier.sends ++ later.sends).getLast? = some last
        rw [hNone, List.append_nil]
        exact hLast
      · change CutOff w last later.lastWait
        rw [hWait]
        exact hCut hNone
      · change Resend w policies last later.lastWait pass' attempt'
        rw [hWait]
        exact hResend
    · refine ⟨sent, ?_, hEnd⟩
      change (earlier.sends ++ later.sends).getLast? = some sent
      rw [List.getLast?_append, hSent]
      rfl

/-! ## The loop -/

theorem resendDelay_some {attempt : Nat}
    (h : resendDelay w.lib w.retry attempt env response = some delay) :
    attempt < w.retry.maxAttempts ∧ isRetryableStatus response.status ∧
      retryDecision response.status
        (parseRetryAfterSecs w.lib env.now response.retryAfter) attempt w.retry env.jitter =
          some delay := by
  unfold resendDelay at h
  split at h
  · rename_i hRetry
    exact ⟨hRetry.2, hRetry.1, h⟩
  · cases h

/-- A decision to wait is one of the lawful waits. -/
theorem retryDelay_of_decision (hReply : (w.script sent.index).reply = .ok response)
    (hRetryable : isRetryableStatus response.status) (h : retryDecision response.status
      (parseRetryAfterSecs w.lib (w.script sent.index).now response.retryAfter) sent.attempt
        w.retry (w.script sent.index).jitter = some delay) :
    RetryDelay w sent (min delay MAX_BACKOFF_MS) := by
  unfold retryDecision at h
  split at h
  · rename_i hOther
    cases h
    refine .serverError hReply ?_
    unfold isRetryableStatus at hRetryable
    omega
  · rename_i hStatus
    rw [Decidable.not_not] at hStatus
    cases hHeader : parseRetryAfterSecs w.lib (w.script sent.index).now response.retryAfter with
    | none =>
      rw [hHeader] at h
      cases h
      exact .withoutHeader hReply hStatus hHeader
    | some secs =>
      rw [hHeader] at h
      simp only at h
      split at h
      · rename_i hCeiling
        cases h
        rw [Nat.min_eq_left (hCeiling.trans (ceiling_le_hour _))]
        exact .retryAfter hReply hStatus hHeader hCeiling
      · cases h

theorem resend_of_afterReply
    (h : afterReply w.lib w.retry terminal sent.attempt (w.script sent.index) =
      .resend delay) :
    Resend w policies sent (some ⟨sent.attempt, w.retry.maxAttempts, min delay MAX_BACKOFF_MS⟩)
      sent.pass (sent.attempt + 1) := by
  refine .retry (afterReply_resend h) ?_
  unfold afterReply at h
  cases hReply : (w.script sent.index).reply with
  | error err =>
    rw [hReply] at h
    simp only at h
    split at h
    · cases h
      exact .transport hReply
    · cases h
  | ok response =>
    rw [hReply] at h
    simp only at h
    split at h
    · cases h
    · cases hDelay : resendDelay w.lib w.retry sent.attempt (w.script sent.index) response with
      | none =>
        rw [hDelay] at h
        cases h
      | some resent =>
        rw [hDelay] at h
        cases h
        obtain ⟨-, hRetryable, hDecision⟩ := resendDelay_some hDelay
        exact retryDelay_of_decision hReply hRetryable hDecision

theorem checkCancelled_error {e : ProviderHttpError} (h : checkCancelled rx = (.error e, rx')) :
    e = .cancelled := by
  unfold checkCancelled at h
  split at h
  · cases h
    rfl
  · cases h

theorem checkCancelled_ok (h : checkCancelled rx = (.ok (), rx')) : ¬rx'.pending := by
  unfold checkCancelled at h
  split at h
  · cases h
  · rename_i hFree
    cases h
    exact hFree

theorem sleepOrCancel_error {waitEnd : WaitEnd} {e : ProviderHttpError}
    (h : sleepOrCancel rx waitEnd = (.error e, rx')) :
    e = .cancelled ∧ (rx.pending ∨ rx.isSome ∧ waitEnd = .cancelled) := by
  unfold sleepOrCancel at h
  split at h
  · rename_i hPending
    cases h
    exact ⟨rfl, .inl hPending⟩
  · split at h
    · rename_i hEnd
      cases h
      exact ⟨rfl, .inr hEnd⟩
    · cases h

theorem sleepOrCancel_ok {waitEnd : WaitEnd} (h : sleepOrCancel rx waitEnd = (.ok (), rx')) :
    rx' = rx := by
  unfold sleepOrCancel at h
  split at h
  · cases h
  · split at h
    · cases h
    · cases h
      rfl

theorem waitBeforeRetry_wait {attempt maxAttempts : Nat} {waitEnd : WaitEnd}
    {result : Except ProviderHttpError Unit}
    (h : waitBeforeRetry attempt maxAttempts delay rx waitEnd = (wait, result, rx')) :
    wait = ⟨attempt, maxAttempts, min delay MAX_BACKOFF_MS⟩ ∧
      sleepOrCancel rx waitEnd = (result, rx') := by
  obtain ⟨hWait, hRest⟩ := Prod.mk.inj h
  exact ⟨hWait.symm, hRest⟩

/-- An attempt sends its request unless it finds a cancel. -/
theorem retryLoopFrom_sends :
    ((retryLoopFrom w terminal pass attempt next rx waited).sends = [] ↔
        (rx.arrive (w.script next).cancelsBefore).pending) ∧
      ((rx.arrive (w.script next).cancelsBefore).pending →
        (retryLoopFrom w terminal pass attempt next rx waited).result = .error .cancelled) := by
  by_cases hPending : (rx.arrive (w.script next).cancelsBefore).pending
  · have hCheck : checkCancelled (rx.arrive (w.script next).cancelsBefore) =
        (.error .cancelled, (rx.arrive (w.script next).cancelsBefore).take) := if_pos hPending
    unfold retryLoopFrom
    simp only [hCheck]
    exact ⟨⟨fun _ => hPending, fun _ => trivial⟩, fun _ => trivial⟩
  · have hCheck : checkCancelled (rx.arrive (w.script next).cancelsBefore) =
        (.ok (), rx.arrive (w.script next).cancelsBefore) := if_neg hPending
    refine ⟨⟨fun hNone => ?_, fun hCancel => absurd hCancel hPending⟩,
      fun hCancel => absurd hCancel hPending⟩
    unfold retryLoopFrom at hNone
    simp only [hCheck] at hNone
    split at hNone
    · cases hNone
    · split at hNone <;> cases hNone

/-- The loop goes through one pass, and its run is chained. -/
theorem retryLoopFrom_ran (w : RetrySetting) (policies : Bool) (terminal : Terminal) (pass : Pass)
    (attempt next : Nat) (rx : CancelRx) (waited : Option RetryWait) :
    (retryLoopFrom w terminal pass attempt next rx waited).pass = pass ∧
      (∀ sent ∈ (retryLoopFrom w terminal pass attempt next rx waited).sends,
        sent.pass = pass) ∧
      Ran w policies terminal next waited pass (attempt + 1)
        (retryLoopFrom w terminal pass attempt next rx waited) := by
  fun_induction retryLoopFrom w terminal pass attempt next rx waited
  case case1 hCheck =>
    refine ⟨rfl, fun sent hMem => (List.not_mem_nil hMem).elim, Trace.nil, rfl, Or.inl ?_⟩
    rw [checkCancelled_error hCheck]
    exact ⟨rfl, rfl, rfl⟩
  case case2 hCheck sent rx result hReply =>
    refine ⟨rfl, ?_, Trace.single sent (checkCancelled_ok hCheck), rfl,
      Or.inr ⟨sent, rfl, Or.inl ⟨hReply, rfl, rfl, rfl⟩⟩⟩
    intro other hMem
    rw [List.mem_singleton.mp hMem]
  case case3 hCheck sent rx delay hReply wait e rx' hWait =>
    obtain ⟨rfl, hSleep⟩ := waitBeforeRetry_wait hWait
    obtain ⟨rfl, hCancel⟩ := sleepOrCancel_error hSleep
    have hResend := @resend_of_afterReply w delay terminal policies sent hReply
    refine ⟨rfl, ?_, Trace.single sent (checkCancelled_ok hCheck), rfl,
      Or.inr ⟨sent, rfl, Or.inr ⟨rfl, Or.inl ⟨rfl, hCancel⟩, _, _, hResend⟩⟩⟩
    intro other hMem
    rw [List.mem_singleton.mp hMem]
  case case4 hCheck sent rx delay hReply wait rx' hWait rest ih =>
    obtain ⟨rfl, hSleep⟩ := waitBeforeRetry_wait hWait
    obtain rfl := sleepOrCancel_ok hSleep
    obtain ⟨hPass, hPasses, hRan⟩ := ih
    have hResend := @resend_of_afterReply w delay terminal policies sent hReply
    refine ⟨hPass, ?_, ?_⟩
    · intro other hMem
      rcases List.mem_cons.mp hMem with rfl | hRest
      · rfl
      · exact hPasses other hRest
    · exact Ran.andThen ⟨rest.result, [sent], none, sent.index + 1, pass, rx⟩ rest
        (Trace.single sent (checkCancelled_ok hCheck)) rfl rfl hResend hRan
        fun hNone => Or.inr (retryLoopFrom_sends.1.mp hNone)

/-! ## The policies -/

/-- What a run that is over makes of its last reply. -/
def finalAnswer (lib : RetryLib) (terminal : Terminal) (env : AttemptEnv) : SendResult :=
  match env.reply with
  | .error err => .error (.io err)
  | .ok response =>
      if response.isSuccess then .ok response else terminalResult lib terminal env response

theorem afterReply_finish {result : SendResult}
    (h : afterReply w.lib w.retry terminal attempt env = .finish result) :
    result = finalAnswer w.lib terminal env := by
  unfold afterReply at h
  unfold finalAnswer
  cases hReply : env.reply with
  | error err =>
    rw [hReply] at h
    simp only at h
    split at h
    · cases h
    · exact (AfterReply.finish.inj h).symm
  | ok response =>
    rw [hReply] at h
    simp only at h ⊢
    split at h
    · rename_i hSuccess
      rw [if_pos hSuccess]
      exact (AfterReply.finish.inj h).symm
    · rename_i hFailure
      rw [if_neg hFailure]
      cases hDelay : resendDelay w.lib w.retry attempt env response with
      | some delay =>
        rw [hDelay] at h
        cases h
      | none =>
        rw [hDelay] at h
        exact (AfterReply.finish.inj h).symm

/-- A client error is the summary of a response. -/
theorem clientError_reply {lib : RetryLib} {status : Nat} {detail : String}
    (h : finalAnswer lib .consumeIntoError env = .error (.clientError status detail)) :
    ∃ response, env.reply = .ok response ∧ response.status = status ∧
      detail = errorDetail lib status response.bodyText := by
  unfold finalAnswer at h
  split at h
  · cases h
  rename_i response hReply
  split at h
  · cases h
  have hError := Except.error.inj h
  unfold statusToError at hError
  have hParts : response.status = status ∧
      errorDetail lib response.status response.bodyText = detail := by
    repeat' split at hError
    all_goals first | cases hError; done | exact ProviderHttpError.clientError.inj hError
  obtain ⟨rfl, rfl⟩ := hParts
  exact ⟨response, hReply, rfl, rfl⟩

theorem finalAnswer_clientError {lib : RetryLib} (hReply : env.reply = .ok response)
    (hStatus : response.status = 400 ∨ response.status = 415) :
    finalAnswer lib .consumeIntoError env = .error (.clientError response.status
      (errorDetail lib response.status response.bodyText)) := by
  have hFailure : ¬response.isSuccess := by
    unfold HttpResponse.isSuccess
    omega
  unfold finalAnswer
  rw [hReply]
  simp only
  rw [if_neg hFailure, terminalResult, if_neg (by simp), statusToError, if_neg (by omega),
    if_neg (by omega), if_neg (by omega), if_pos (by omega)]

theorem clientError_eq {status : Nat} {detail : String}
    (h : run.clientError = some (status, detail)) :
    run.result = .error (.clientError status detail) := by
  unfold RetryRun.clientError at h
  split at h
  · rename_i hResult
    cases h
    exact hResult
  · cases h

/-- The request behind a client error of a run. -/
theorem Ran.last_of_clientError {status : Nat} {detail : String}
    (h : Ran w policies .consumeIntoError next waited pass attempt run)
    (hError : run.clientError = some (status, detail)) :
    ∃ last response, run.sends.getLast? = some last ∧ last.pass = run.pass ∧
      run.next = last.index + 1 ∧ run.rx = last.rx.arrive (w.script last.index).cancelsDuring ∧
      (w.script last.index).reply = .ok response ∧
      response.status = status ∧ detail = errorDetail w.lib status response.bodyText := by
  have hResult := clientError_eq hError
  rcases h.ended with
    ⟨-, hCancelled, -⟩ | ⟨last, hLast, ⟨hFinish, -, hPass, hRx⟩ | ⟨hCancelled, -⟩⟩
  · rw [hResult] at hCancelled
    cases hCancelled
  · rw [hResult] at hFinish
    obtain ⟨response, hReply, hStatus, hDetail⟩ :=
      clientError_reply (afterReply_finish hFinish).symm
    refine ⟨last, response, hLast, hPass, ?_, hRx, hReply, hStatus, hDetail⟩
    have hIndex : (run.sends.map SentRequest.index).getLast? = some last.index := by
      rw [List.getLast?_map, hLast]
      rfl
    rw [h.trace.indices, List.getLast?_range'] at hIndex
    rw [h.next]
    split at hIndex
    · cases hIndex
    · have hEq := Option.some.inj hIndex
      omega
  · rw [hResult] at hCancelled
    cases hCancelled

theorem retryLoop_ran (w : RetrySetting) (policies : Bool) (pass : Pass) (next : Nat)
    (rx : CancelRx) (waited : Option RetryWait) :
    (retryLoop w pass next rx waited).pass = pass ∧
      Ran w policies .consumeIntoError next waited pass 1 (retryLoop w pass next rx waited) := by
  obtain ⟨hPass, -, hRan⟩ := retryLoopFrom_ran w policies .consumeIntoError pass 0 next rx waited
  exact ⟨hPass, hRan⟩

/-- A compressed body is not left refused. -/
def NoDowngrade (run : RetryRun) : Prop :=
  run.clientError.map Prod.fst = some 415 → run.pass ≠ ⟨true, 0⟩

/-- The policies have no further use for the answer of a run. -/
def Settled (w : RetrySetting) (run : RetryRun) : Prop :=
  NoDowngrade run ∧ (transient400 w.slug run → gatewayExtra w.retry ≤ run.pass.resend)

theorem downgraded_ran {first : RetryRun} (hPass : first.pass = ⟨compressed, 0⟩)
    (h : Ran w true .consumeIntoError 0 none ⟨compressed, 0⟩ 1 first) :
    (downgraded w first).pass.resend = 0 ∧ NoDowngrade (downgraded w first) ∧
      Ran w true .consumeIntoError 0 none ⟨compressed, 0⟩ 1 (downgraded w first) := by
  unfold downgraded
  split
  · rename_i hRefused
    obtain ⟨⟨status, detail⟩, hError, hStatus⟩ := Option.map_eq_some_iff.mp hRefused.1
    obtain ⟨last, response, hLast, hLastPass, hIndex, hRx, hReply, hResponse, -⟩ :=
      h.last_of_clientError hError
    have hCompressed : last.pass = ⟨true, 0⟩ := by
      have hTrue := hRefused.2
      rw [hLastPass, hPass]
      rw [hPass] at hTrue
      cases hTrue
      rfl
    obtain ⟨hNext, hRan⟩ :=
      retryLoop_ran w true ⟨false, first.pass.resend⟩ first.next first.rx none
    rw [hPass] at hNext hRan ⊢
    refine ⟨?_, fun _ => ?_, Ran.andThen first _ h.trace h.next hLast
      (.downgrade rfl hReply (hResponse.trans hStatus) hCompressed) hRan fun hNone => ?_⟩
    · change (retryLoop w _ _ _ _).pass.resend = 0
      rw [hNext]
    · change (retryLoop w _ _ _ _).pass ≠ _
      rw [hNext]
      simp
    · have hPending := retryLoopFrom_sends.1.mp hNone
      rw [hIndex, hRx] at hPending
      exact Or.inr hPending
  · rename_i hKept
    refine ⟨by rw [hPass], fun hStatus hCompressed => hKept ⟨hStatus, ?_⟩, h⟩
    rw [hCompressed]

/-- One resend of the gateway policy is one more link of the chain. -/
theorem gatewayResends_ran {left : Nat} (hLeft : run.pass.resend + left = gatewayExtra w.retry)
    (hDown : NoDowngrade run) (h : Ran w true .consumeIntoError 0 none ⟨compressed, 0⟩ 1 run) :
    Settled w (gatewayResends w left run) ∧
      Ran w true .consumeIntoError 0 none ⟨compressed, 0⟩ 1 (gatewayResends w left run) := by
  induction left generalizing run with
  | zero => exact ⟨⟨hDown, fun _ => hLeft.ge⟩, h⟩
  | succ left ih =>
    unfold gatewayResends
    split
    · rename_i hTransient
      obtain ⟨detail, hError, hGateway⟩ := hTransient
      obtain ⟨last, response, hLast, hPass, hIndex, hRx, hReply, hStatus, rfl⟩ :=
        h.last_of_clientError hError
      have hAttempt : gatewayExtra w.retry - left = last.pass.resend + 1 := by
        rw [hPass]
        omega
      have hResend := Resend.gateway rfl hReply hStatus hGateway (by rw [hPass]; omega)
      have hEntry : run.next - 1 = last.index := by omega
      simp only [hAttempt, hEntry, ← hPass]
      split
      · rename_i wait e rx hWait
        obtain ⟨rfl, hSleep⟩ := waitBeforeRetry_wait hWait
        obtain ⟨rfl, hCancel⟩ := sleepOrCancel_error hSleep
        rw [hRx] at hCancel
        refine ⟨⟨fun hNone => (by cases hNone), fun ⟨_, hNone, _⟩ => by cases hNone⟩,
          h.trace, h.next, Or.inr ⟨last, hLast, Or.inr ⟨rfl, Or.inl ⟨rfl, hCancel⟩, _, _, hResend⟩⟩⟩
      · rename_i wait rx hWait
        obtain ⟨rfl, hSleep⟩ := waitBeforeRetry_wait hWait
        obtain rfl := sleepOrCancel_ok hSleep
        obtain ⟨hNext, hRan⟩ := retryLoop_ran w true ⟨last.pass.compressed, last.pass.resend + 1⟩
          run.next run.rx (some ⟨last.pass.resend + 1, gatewayExtra w.retry + 1,
            min (backoffDuration (last.pass.resend + 1) w.retry (w.script last.index).jitter)
              MAX_BACKOFF_MS⟩)
        refine ih ?_ (fun _ => ?_) (Ran.andThen run _ h.trace h.next hLast hResend hRan
          fun hNone => ?_)
        · change (retryLoop w _ _ _ _).pass.resend + left = _
          rw [hNext, hPass]
          change run.pass.resend + 1 + left = _
          omega
        · change (retryLoop w _ _ _ _).pass ≠ _
          rw [hNext]
          simp
        · have hPending := retryLoopFrom_sends.1.mp hNone
          rw [hIndex, hRx] at hPending
          exact Or.inr hPending
    · rename_i hOther
      exact ⟨⟨hDown, fun hTransient => absurd hTransient hOther⟩, h⟩

theorem retryLoopWithProviderPolicies_ran (w : RetrySetting) (compressed : Bool)
    (rx : CancelRx) :
    Settled w (retryLoopWithProviderPolicies w compressed rx) ∧
      Ran w true .consumeIntoError 0 none ⟨compressed, 0⟩ 1
        (retryLoopWithProviderPolicies w compressed rx) := by
  obtain ⟨hPass, hRan⟩ := retryLoop_ran w true ⟨compressed, 0⟩ 0 rx none
  obtain ⟨hResend, hSettled, hDown⟩ := downgraded_ran hPass hRan
  exact gatewayResends_ran (by rw [hResend, Nat.zero_add]) hSettled hDown

/-! ## Counting -/

/-- The order in which passes and their attempts come. -/
def Pass.Earlier (p : Pass) (m : Nat) (q : Pass) (n : Nat) : Prop :=
  (p.compressed = true ∧ q.compressed = false) ∨
    (p.compressed = q.compressed ∧ (p.resend < q.resend ∨ p.resend = q.resend ∧ m < n))

theorem Resend.earlier (h : Resend w policies sent waited pass attempt) :
    sent.pass.Earlier sent.attempt pass attempt := by
  cases h with
  | retry => exact Or.inr ⟨rfl, Or.inr ⟨rfl, Nat.lt_succ_self _⟩⟩
  | downgrade _ _ _ hCompressed =>
    rw [hCompressed]
    exact Or.inl ⟨rfl, rfl⟩
  | gateway => exact Or.inr ⟨rfl, Or.inl (Nat.lt_succ_self _)⟩

def SentRequest.Earlier (a b : SentRequest) : Prop := a.pass.Earlier a.attempt b.pass b.attempt

instance : Trans SentRequest.Earlier SentRequest.Earlier SentRequest.Earlier where
  trans := by
    intro a b c hAB hBC
    unfold SentRequest.Earlier Pass.Earlier at *
    rcases hAB with ⟨hA, hB⟩ | ⟨hAB, hLess⟩ <;> rcases hBC with ⟨hB', hC⟩ | ⟨hBC, hLess'⟩
    · exact Or.inl ⟨hA, hC⟩
    · exact Or.inl ⟨hA, hBC ▸ hB⟩
    · exact Or.inl ⟨hAB.trans hB', hC⟩
    · exact Or.inr ⟨hAB.trans hBC, by omega⟩

theorem nodup_keys {κ : Type} {key : SentRequest → κ} {p : SentRequest → Bool}
    (hOrder : sends.IsChain fun a b => Resend w policies a b.waited b.pass b.attempt)
    (hKey : ∀ a b, p a = true → p b = true → a.Earlier b → key a ≠ key b) :
    ((sends.filter p).map key).Nodup := by
  have hPairs : sends.Pairwise SentRequest.Earlier :=
    (hOrder.imp fun _ _ hResend => hResend.earlier).pairwise
  refine List.pairwise_map.mpr ((hPairs.filter p).imp_of_mem ?_)
  intro a b hA hB hEarlier
  exact hKey a b (List.mem_filter.mp hA).2 (List.mem_filter.mp hB).2 hEarlier

/-- The place of a request within the budgets. -/
def InBudget (retry : RetryConfig) (sent : SentRequest) : Prop :=
  sent.attempt ∈ Finset.Icc 1 (max 1 retry.maxAttempts) ∧
    sent.pass.resend ∈ Finset.range (1 + gatewayExtra retry)

theorem Trace.forall {P : SentRequest → Prop} (h : Trace w policies next waited pass attempt sends)
    (hFirst : ∀ sent : SentRequest, sent.waited = waited → sent.pass = pass →
      sent.attempt = attempt → P sent)
    (hStep : ∀ a b : SentRequest, Resend w policies a b.waited b.pass b.attempt → P a → P b) :
    ∀ sent ∈ sends, P sent := by
  refine h.resends.induction P sends hStep fun hSome => ?_
  obtain ⟨hWaited, hPass, hAttempt⟩ := h.first _ (List.head?_eq_some_head hSome)
  exact hFirst _ hWaited hPass hAttempt

theorem Resend.inBudget {next : SentRequest}
    (h : Resend w policies sent next.waited next.pass next.attempt) (hSent : InBudget w.retry sent) :
    InBudget w.retry next := by
  unfold InBudget at *
  rw [Finset.mem_Icc, Finset.mem_range] at *
  generalize next.waited = waited, next.pass = pass, next.attempt = attempt at h
  cases h with
  | retry hBudget => omega
  | downgrade =>
    simp only
    omega
  | gateway _ _ _ _ hLeft =>
    simp only
    omega

theorem Trace.inBudget (h : Trace w policies next none ⟨compressed, 0⟩ 1 sends) :
    ∀ sent ∈ sends, InBudget w.retry sent := by
  refine h.forall ?_ fun a b hResend hA => hResend.inBudget hA
  intro sent _ hPass hAttempt
  unfold InBudget
  rw [hPass, hAttempt, Finset.mem_Icc, Finset.mem_range]
  simp only
  omega

/-! ## The retry policy -/

/-- The waits of a run. -/
def RetryRun.waits (run : RetryRun) : List RetryWait :=
  run.sends.filterMap SentRequest.waited ++ run.lastWait.toList

/-- What every run keeps to that starts with a channel. -/
structure RetryOk (w : RetrySetting) (policies : Bool) (terminal : Terminal) (rx : CancelRx)
    (run : RetryRun) : Prop where
  /-- The attempts take the entries of the script in turn. -/
  indices : run.sends.map SentRequest.index = List.range run.sends.length
  /-- The first request is sent unless a cancel is there. -/
  starts : run.sends = [] ↔ (rx.arrive (w.script 0).cancelsBefore).pending
  unsent : run.sends = [] → run.result = .error .cancelled
  first : ∀ sent ∈ run.sends.head?, sent.waited = none
  /-- A request follows another one only for one of the reasons of `Resend`. -/
  resends : run.sends.IsChain fun a b => Resend w policies a b.waited b.pass b.attempt
  /-- Where there is such a reason the request follows, unless a cancel comes before it; the run
  ends with the answer to the last request. -/
  ended : ∀ sent, run.sends.getLast? = some sent →
    (run.result = finalAnswer w.lib terminal (w.script sent.index) ∧
      ∀ waited pass attempt, ¬Resend w policies sent waited pass attempt) ∨
    (run.result = .error .cancelled ∧ CutOff w sent run.lastWait ∧
      ∃ pass attempt, Resend w policies sent run.lastWait pass attempt)
  lastWait : ∀ wait, run.lastWait = some wait → ∃ sent pass attempt,
    run.sends.getLast? = some sent ∧ Resend w policies sent (some wait) pass attempt
  waits : ∀ wait ∈ run.waits,
    wait.delay ≤ MAX_BACKOFF_MS ∧ 4 * wait.delay ≤ 5 * w.retry.maxBackoffMs
  notPending : ∀ sent ∈ run.sends, ¬sent.rx.pending
  perPass : ∀ pass : Pass,
    (run.sends.filter fun sent => sent.pass = pass).length ≤ max 1 w.retry.maxAttempts
  perEncoding : ∀ compressed : Bool,
    (run.sends.filter fun sent => sent.pass.compressed = compressed).length ≤
      (1 + gatewayExtra w.retry) * max 1 w.retry.maxAttempts
  /-- The first success ends the run, and is its result. -/
  success : ∀ sent ∈ run.sends, ∀ response, (w.script sent.index).reply = .ok response →
    response.isSuccess → run.sends.getLast? = some sent ∧ run.result = .ok response
  result : ∀ response, run.result = .ok response → ∃ sent,
    run.sends.getLast? = some sent ∧ (w.script sent.index).reply = .ok response

theorem perPass_le (h : Trace w policies next none ⟨compressed, 0⟩ 1 sends) (pass : Pass) :
    (sends.filter fun sent => sent.pass = pass).length ≤ max 1 w.retry.maxAttempts := by
  have hKeys : ((sends.filter fun sent => sent.pass = pass).map SentRequest.attempt).Nodup := by
    refine nodup_keys h.resends ?_
    intro a b hA hB hEarlier hEq
    have hPass : a.pass = b.pass := (of_decide_eq_true hA).trans (of_decide_eq_true hB).symm
    unfold SentRequest.Earlier Pass.Earlier at hEarlier
    rw [hPass, hEq] at hEarlier
    rcases hEarlier with ⟨hTrue, hFalse⟩ | ⟨-, hLess⟩
    · rw [hTrue] at hFalse
      cases hFalse
    · omega
  have hBox := @length_le_card _ _ _ _ _ (Finset.Icc 1 (max 1 w.retry.maxAttempts)) hKeys
    fun sent hMem => (h.inBudget sent (List.mem_filter.mp hMem).1).1
  rw [Nat.card_Icc] at hBox
  omega

theorem perEncoding_le (h : Trace w policies next none ⟨compressed, 0⟩ 1 sends) (encoding : Bool) :
    (sends.filter fun sent => sent.pass.compressed = encoding).length ≤
      (1 + gatewayExtra w.retry) * max 1 w.retry.maxAttempts := by
  have hKeys : ((sends.filter fun sent => sent.pass.compressed = encoding).map
      fun sent => (sent.pass.resend, sent.attempt)).Nodup := by
    refine nodup_keys h.resends ?_
    intro a b hA hB hEarlier hEq
    have hEncoding : a.pass.compressed = b.pass.compressed :=
      (of_decide_eq_true hA).trans (of_decide_eq_true hB).symm
    obtain ⟨hResend, hAttempt⟩ := Prod.mk.inj hEq
    unfold SentRequest.Earlier Pass.Earlier at hEarlier
    rw [hEncoding] at hEarlier
    rcases hEarlier with ⟨hTrue, hFalse⟩ | ⟨-, hLess⟩
    · rw [hTrue] at hFalse
      cases hFalse
    · omega
  have hBox := @length_le_card _ _ _ _ _ (Finset.range (1 + gatewayExtra w.retry) ×ˢ
    Finset.Icc 1 (max 1 w.retry.maxAttempts)) hKeys fun sent hMem =>
      Finset.mem_product.mpr (h.inBudget sent (List.mem_filter.mp hMem).1).symm
  rw [Finset.card_product, Finset.card_range, Nat.card_Icc, Nat.add_sub_cancel] at hBox
  exact hBox

theorem afterReply_success {attempt : Nat} (hReply : env.reply = .ok response)
    (hSuccess : response.isSuccess) :
    afterReply w.lib w.retry terminal attempt env = .finish (.ok response) := by
  unfold afterReply
  rw [hReply]
  exact if_pos hSuccess

theorem finalAnswer_ok {lib : RetryLib} (h : finalAnswer lib terminal env = .ok response) :
    env.reply = .ok response ∧ (terminal = .consumeIntoError → response.isSuccess) := by
  unfold finalAnswer at h
  split at h
  · cases h
  rename_i other hReply
  split at h
  · rename_i hSuccess
    cases h
    exact ⟨hReply, fun _ => hSuccess⟩
  · unfold terminalResult at h
    split at h
    · rename_i hTerminal
      cases h
      exact ⟨hReply, fun hConsume => by rw [hTerminal] at hConsume; cases hConsume⟩
    · cases h

theorem Ran.ok (h : Ran w policies terminal next waited pass attempt run)
    (hResult : run.result = .ok response) :
    ∃ sent, run.sends.getLast? = some sent ∧ (w.script sent.index).reply = .ok response ∧
      (terminal = .consumeIntoError → response.isSuccess) := by
  rcases h.ended with ⟨-, hCancelled, -⟩ | ⟨sent, hLast, ⟨hFinish, -⟩ | ⟨hCancelled, -⟩⟩
  · rw [hResult] at hCancelled
    cases hCancelled
  · rw [hResult] at hFinish
    obtain ⟨hReply, hSuccess⟩ := finalAnswer_ok (afterReply_finish hFinish).symm
    exact ⟨sent, hLast, hReply, hSuccess⟩
  · rw [hResult] at hCancelled
    cases hCancelled

/-- The loop does not end where it has a reason to try again. -/
theorem afterReply_retries (terminal : Terminal) (hBudget : sent.attempt < w.retry.maxAttempts)
    (h : RetryDelay w sent delay) :
    ∃ delay, afterReply w.lib w.retry terminal sent.attempt (w.script sent.index) =
      .resend delay := by
  have hDecided : ∀ {response : HttpResponse}, (w.script sent.index).reply = .ok response →
      isRetryableStatus response.status →
      (retryDecision response.status (parseRetryAfterSecs w.lib (w.script sent.index).now
        response.retryAfter) sent.attempt w.retry (w.script sent.index).jitter).isSome →
      ∃ delay, afterReply w.lib w.retry terminal sent.attempt (w.script sent.index) =
        .resend delay := by
    intro response hReply hRetryable hSome
    obtain ⟨delay, hDecision⟩ := Option.isSome_iff_exists.mp hSome
    have hFailure : ¬response.isSuccess := by
      unfold isRetryableStatus at hRetryable
      unfold HttpResponse.isSuccess
      omega
    refine ⟨delay, ?_⟩
    unfold afterReply resendDelay
    rw [hReply]
    simp only [if_neg hFailure, if_pos (And.intro hRetryable hBudget), hDecision]
  cases h with
  | transport hReply =>
    refine ⟨backoffDuration sent.attempt w.retry (w.script sent.index).jitter, ?_⟩
    unfold afterReply
    rw [hReply]
    exact if_pos hBudget
  | retryAfter hReply hStatus hHeader hCeiling =>
    refine hDecided hReply (by unfold isRetryableStatus; omega) ?_
    unfold retryDecision
    rw [if_neg (not_not.mpr hStatus), hHeader]
    simp [hCeiling]
  | withoutHeader hReply hStatus hHeader =>
    refine hDecided hReply (by unfold isRetryableStatus; omega) ?_
    unfold retryDecision
    rw [if_neg (not_not.mpr hStatus), hHeader]
    rfl
  | serverError hReply hStatus =>
    refine hDecided hReply (by unfold isRetryableStatus; omega) ?_
    unfold retryDecision
    rw [if_pos (by omega)]
    rfl

/-- A run ends with the answer to a request that gives no reason for another one, or a cancel
comes before that one. -/
theorem Ran.answered (h : Ran w policies terminal next waited pass attempt run)
    (hSettled : policies = true → terminal = .consumeIntoError ∧ Settled w run)
    (hLast : run.sends.getLast? = some sent) :
    (run.result = finalAnswer w.lib terminal (w.script sent.index) ∧
      ∀ waited pass attempt, ¬Resend w policies sent waited pass attempt) ∨
    (run.result = .error .cancelled ∧ CutOff w sent run.lastWait ∧
      ∃ pass attempt, Resend w policies sent run.lastWait pass attempt) := by
  rcases h.ended with ⟨hNone, -, -⟩ | ⟨last, hSome, ⟨hFinish, -, hPass, -⟩ | hCut⟩
  · rw [hNone] at hLast
    cases hLast
  · rw [hLast] at hSome
    cases hSome
    have hAnswer := afterReply_finish hFinish
    refine .inl ⟨hAnswer, fun waited pass attempt hResend => ?_⟩
    have hClient : ∀ {response : HttpResponse}, terminal = .consumeIntoError →
        (w.script sent.index).reply = .ok response →
        response.status = 400 ∨ response.status = 415 →
        run.clientError = some (response.status,
          errorDetail w.lib response.status response.bodyText) := by
      rintro response rfl hReply hStatus
      rw [RetryRun.clientError, hAnswer, finalAnswer_clientError hReply hStatus]
    cases hResend with
    | retry hBudget hDelay =>
      obtain ⟨delay, hResend⟩ := afterReply_retries terminal hBudget hDelay
      rw [hFinish] at hResend
      cases hResend
    | downgrade hPolicies hReply hStatus hCompressed =>
      obtain ⟨hConsume, hDown, -⟩ := hSettled hPolicies
      refine hDown ?_ (hPass ▸ hCompressed)
      rw [hClient hConsume hReply (.inr hStatus), hStatus]
      rfl
    | gateway hPolicies hReply hStatus hTransient hLeft =>
      obtain ⟨hConsume, -, hGateway⟩ := hSettled hPolicies
      refine absurd (hGateway ⟨_, ?_, hTransient⟩) (Nat.not_le.mpr (hPass ▸ hLeft))
      rw [hClient hConsume hReply (.inl hStatus), hStatus]
  · rw [hLast] at hSome
    cases hSome
    exact .inr hCut

/-- A success is the last reply: every earlier one has a reason for what follows it. -/
theorem Ran.success (h : Ran w policies terminal next waited pass attempt run)
    (hMem : sent ∈ run.sends) (hReply : (w.script sent.index).reply = .ok response)
    (hSuccess : response.isSuccess) :
    run.sends.getLast? = some sent ∧ run.result = .ok response := by
  have hLast : run.sends.getLast? = some sent := by
    obtain ⟨before, after, hSplit⟩ := List.append_of_mem hMem
    cases after with
    | nil => rw [hSplit, List.getLast?_concat]
    | cons next rest =>
      have hChain := h.trace.resends
      rw [hSplit] at hChain
      have hResend := (List.isChain_append_cons_cons.mp hChain).2.1
      exact absurd hSuccess (hResend.not_success hReply)
  refine ⟨hLast, ?_⟩
  rcases h.ended with ⟨hNone, -, -⟩ | ⟨last, hSome, hEnd⟩
  · rw [hNone] at hMem
    exact absurd hMem List.not_mem_nil
  · rw [hLast] at hSome
    cases hSome
    rcases hEnd with ⟨hFinish, -⟩ | ⟨-, -, pass', attempt', hResend⟩
    · rw [afterReply_success hReply hSuccess] at hFinish
      exact (AfterReply.finish.inj hFinish).symm
    · exact absurd hSuccess (hResend.not_success hReply)

theorem Ran.lastWait (h : Ran w policies terminal next none pass attempt run)
    (hWait : run.lastWait = some wait) :
    ∃ sent pass attempt,
      run.sends.getLast? = some sent ∧ Resend w policies sent (some wait) pass attempt := by
  rcases h.ended with
    ⟨-, -, hNone⟩ | ⟨sent, hLast, ⟨-, hNone, -⟩ | ⟨-, -, pass', attempt', hResend⟩⟩
  · rw [hNone] at hWait
    cases hWait
  · rw [hNone] at hWait
    cases hWait
  · rw [hWait] at hResend
    exact ⟨sent, pass', attempt', hLast, hResend⟩

theorem Ran.waits (h : Ran w policies terminal next none pass attempt run) (hMem : wait ∈ run.waits) :
    wait.delay ≤ MAX_BACKOFF_MS ∧ 4 * wait.delay ≤ 5 * w.retry.maxBackoffMs := by
  rcases List.mem_append.mp hMem with hBefore | hLast
  · obtain ⟨sent, hSent, hWait⟩ := List.mem_filterMap.mp hBefore
    refine h.trace.forall (P := fun sent => sent.waited = some wait → _) ?_ ?_ sent hSent hWait
    · intro first hNone _ _ hSome
      rw [hNone] at hSome
      cases hSome
    · intro a b hResend _ hSome
      rw [hSome] at hResend
      exact hResend.bounded
  · obtain ⟨sent, pass', attempt', -, hResend⟩ := h.lastWait (Option.mem_toList.mp hLast)
    exact hResend.bounded

theorem Ran.retryOk (h : Ran w policies terminal 0 none ⟨compressed, 0⟩ 1 run)
    (hSettled : policies = true → terminal = .consumeIntoError ∧ Settled w run)
    (hStarts : run.sends = [] ↔ (rx.arrive (w.script 0).cancelsBefore).pending) :
    RetryOk w policies terminal rx run where
  indices := by rw [h.trace.indices, List.range_eq_range']
  starts := hStarts
  unsent hNone := by
    rcases h.ended with ⟨-, hResult, -⟩ | ⟨sent, hLast, -⟩
    · exact hResult
    · rw [hNone] at hLast
      cases hLast
  first := fun sent hMem => (h.trace.first sent hMem).1
  resends := h.trace.resends
  ended := fun _ hLast => h.answered hSettled hLast
  lastWait := fun _ hWait => h.lastWait hWait
  waits := fun _ hMem => h.waits hMem
  notPending := h.trace.notPending
  perPass := perPass_le h.trace
  perEncoding := perEncoding_le h.trace
  success := fun _ hMem _ hReply hSuccess => h.success hMem hReply hSuccess
  result := fun _ hResult => by
    obtain ⟨sent, hLast, hReply, -⟩ := h.ok hResult
    exact ⟨sent, hLast, hReply⟩

theorem retryLoopImpl_ok (w : RetrySetting) (terminal : Terminal) (compressed : Bool)
    (rx : CancelRx) :
    RetryOk w false terminal rx (retryLoopImpl w terminal ⟨compressed, 0⟩ 0 rx none) ∧
      (retryLoopImpl w terminal ⟨compressed, 0⟩ 0 rx none).sends.length ≤
        max 1 w.retry.maxAttempts := by
  obtain ⟨-, hPasses, hRan⟩ := retryLoopFrom_ran w false terminal ⟨compressed, 0⟩ 0 0 rx none
  refine ⟨hRan.retryOk (fun hPolicies => by cases hPolicies) retryLoopFrom_sends.1, ?_⟩
  have hCount := perPass_le hRan.trace ⟨compressed, 0⟩
  rw [List.filter_eq_self.mpr fun sent hMem => decide_eq_true (hPasses sent hMem)] at hCount
  exact hCount

theorem sends_prefix_gatewayResends (w : RetrySetting) (left : Nat) (run : RetryRun) :
    run.sends <+: (gatewayResends w left run).sends := by
  induction left generalizing run with
  | zero => exact List.prefix_rfl
  | succ left ih =>
    unfold gatewayResends
    split
    · dsimp only
      split
      · exact List.prefix_rfl
      · refine List.IsPrefix.trans ?_ (ih _)
        exact List.prefix_append _ _
    · exact List.prefix_rfl

theorem sends_prefix_downgraded (w : RetrySetting) (first : RetryRun) :
    first.sends <+: (downgraded w first).sends := by
  unfold downgraded
  split
  · exact List.prefix_append _ _
  · exact List.prefix_rfl

theorem policies_of_clientError (h : run.clientError = none) (left : Nat) :
    gatewayResends w left (downgraded w run) = run := by
  have hSame : downgraded w run = run := if_neg (by simp [h])
  rw [hSame]
  cases left with
  | zero => rfl
  | succ left => exact if_neg (by simp [transient400, h])

theorem driver_sends_eq_nil_iff (w : RetrySetting) (compressed : Bool) (rx : CancelRx) :
    (retryLoopWithProviderPolicies w compressed rx).sends = [] ↔
      (rx.arrive (w.script 0).cancelsBefore).pending := by
  obtain ⟨hFirst, hResult⟩ :=
    @retryLoopFrom_sends w 0 .consumeIntoError rx ⟨compressed, 0⟩ 0 none
  constructor
  · intro hNone
    have hPrefix := (sends_prefix_downgraded w (retryLoop w ⟨compressed, 0⟩ 0 rx none)).trans
      (sends_prefix_gatewayResends w (gatewayExtra w.retry) _)
    rw [← retryLoopWithProviderPolicies, hNone] at hPrefix
    exact hFirst.mp (List.prefix_nil.mp hPrefix)
  · intro hPending
    have hNoError : (retryLoop w ⟨compressed, 0⟩ 0 rx none).clientError = none := by
      rw [RetryRun.clientError, retryLoop, retryLoopImpl, hResult hPending]
    rw [retryLoopWithProviderPolicies, policies_of_clientError hNoError]
    exact hFirst.mpr hPending

/-- Each attempt, both forms of the loop, and the driver. -/
theorem retryLoops_ok (w : RetrySetting) (compressed : Bool) (rx : CancelRx) :
    (∀ (terminal : Terminal) (pass : Pass) (attempt next : Nat) (rx : CancelRx)
      (waited : Option RetryWait),
        ((retryLoopFrom w terminal pass attempt next rx waited).sends = [] ↔
          (rx.arrive (w.script next).cancelsBefore).pending) ∧
        ((rx.arrive (w.script next).cancelsBefore).pending →
          (retryLoopFrom w terminal pass attempt next rx waited).result = .error .cancelled)) ∧
    (RetryOk w false .consumeIntoError rx (retryLoop w ⟨compressed, 0⟩ 0 rx none) ∧
      (retryLoop w ⟨compressed, 0⟩ 0 rx none).sends.length ≤ max 1 w.retry.maxAttempts) ∧
    (RetryOk w false .returnResponse rx (retryLoopRaw w ⟨compressed, 0⟩ 0 rx none) ∧
      (retryLoopRaw w ⟨compressed, 0⟩ 0 rx none).sends.length ≤ max 1 w.retry.maxAttempts) ∧
    RetryOk w true .consumeIntoError rx (retryLoopWithProviderPolicies w compressed rx) ∧
      ∀ response, (retryLoopWithProviderPolicies w compressed rx).result = .ok response →
        response.isSuccess := by
  obtain ⟨hSettled, hDriver⟩ := retryLoopWithProviderPolicies_ran w compressed rx
  refine ⟨fun _ _ _ _ _ _ => retryLoopFrom_sends, retryLoopImpl_ok w _ compressed rx,
    retryLoopImpl_ok w _ compressed rx,
    hDriver.retryOk (fun _ => ⟨rfl, hSettled⟩) (driver_sends_eq_nil_iff w compressed rx), ?_⟩
  intro response hResult
  obtain ⟨-, -, -, hSuccess⟩ := hDriver.ok hResult
  exact hSuccess rfl

/-- A draw of `1.25`. -/
def fullJitter : Jitter := ⟨5 * 2 ^ 51, by decide, by decide, by decide +kernel⟩

def replyEnv (status : Nat) (retryAfter : Option String) (bodyText : String) : AttemptEnv :=
  ⟨0, .ok ⟨status, retryAfter, bodyText⟩, 0, 0, fullJitter, .elapsed⟩

/-- Two attempts at most, and the backoff starts at its maximum of one second. -/
def twoAttempts (slug : String) (entries : List AttemptEnv) : RetrySetting where
  lib := ⟨fun _ => none, fun _ => none⟩
  retry := .new 2 1000 1000
  slug
  script := fun n => entries[n]?.getD (replyEnv 200 none "")

def contentRejected : AttemptEnv := replyEnv 400 none "Message content must contain text"

/-- A gateway that is busy and then rejects the content, on each pass. -/
def flappingGateway : RetrySetting :=
  twoAttempts "opencode"
    [replyEnv 503 none "", contentRejected, replyEnv 503 none "", contentRejected]

def brokenServer : RetrySetting := twoAttempts "openai" [replyEnv 500 (some "1") ""]

/-- A resend of the gateway policy has a budget of its own, a server error does not read
`Retry-After`, and the jitter passes the configured maximum. -/
theorem retryLoops_exceptions :
    ¬((retryLoopWithProviderPolicies flappingGateway false none).sends.filter
        fun sent => sent.pass.compressed = false).length ≤
      max 1 flappingGateway.retry.maxAttempts ∧
    (parseRetryAfterSecs brokenServer.lib 0 (some "1") = some 1 ∧
      1 * 1000 ≤ brokenServer.retry.ceiling ∧
      (retryLoopWithProviderPolicies brokenServer false none).waits = [⟨1, 2, 1250⟩]) ∧
    ¬1250 ≤ brokenServer.retry.maxBackoffMs := by
  decide +kernel

end Choreographr.Protocols
