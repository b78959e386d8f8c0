import Mathlib.Data.List.Infix
import Choreographr.Lib.Rounding
import Choreographr.Protocols.Values

/-!
# The retry loop of the provider clients

A request is sent again after a transport error or a transient status, with a wait that
the server names or that grows with the attempt. On top of the loop stand the policies for
a compressed body that is refused and for the content check of the gateway. What comes
from outside is a script: one entry for each attempt that the loops start. A run reports
the requests it sent, each with the wait before it. Waits are in milliseconds.
-/

namespace Choreographr.Protocols

open Session Lib

/-! ## Configuration -/

def u64Max : Nat := 2 ^ 64 - 1

/-- An operation of `u64` that saturates. -/
def saturateU64 (n : Nat) : Nat := min n u64Max

/-- No wait is longer than an hour. -/
def MAX_BACKOFF_MS : Nat := 3600000

def GATEWAY_TRANSIENT_400_ATTEMPTS : Nat := 2

structure RetryConfig where
  /-- With the first one; `1` is no retry. -/
  maxAttempts : Nat
  initialBackoffMs : Nat
  maxBackoffMs : Nat

namespace RetryConfig

def new (maxAttempts initialBackoffMs maxBackoffMs : Nat) : RetryConfig :=
  let initialBackoffMs := min initialBackoffMs MAX_BACKOFF_MS
  { maxAttempts
    initialBackoffMs
    maxBackoffMs := max (min maxBackoffMs MAX_BACKOFF_MS) initialBackoffMs }

end RetryConfig

/-- What `random_range(0.75..=1.25)` draws: a double, as a multiple of `2 ^ -53`. -/
structure Jitter where
  scaled : Nat
  low : 3 * 2 ^ 51 ≤ scaled
  high : scaled ≤ 5 * 2 ^ 51
  isDouble : roundTo 53 scaled = scaled

/-- The product is that of doubles, and its conversion to `u64` truncates. -/
def backoffDuration (retryNumber : Nat) (config : RetryConfig) (jitter : Jitter) : Nat :=
  let multiplier := saturateU64 (2 ^ (retryNumber - 1))
  let base := saturateU64 (config.initialBackoffMs * multiplier)
  let capped := min base config.maxBackoffMs
  saturateU64 (roundTo 53 (roundTo 53 capped * jitter.scaled) / 2 ^ 53)

/-! ## Statuses and headers -/

/-- What the retry layer takes from `serde_json` and `chrono`. -/
structure RetryLib where
  /-- `serde_json::from_str::<Value>`. -/
  fromStr : String → Option Json
  /-- `DateTime::parse_from_rfc2822`, in nanoseconds since the epoch. -/
  parseFromRfc2822 : String → Option Int

def isRetryableStatus (status : Nat) : Prop :=
  status = 429 ∨ status = 500 ∨ status = 502 ∨ status = 503 ∨ status = 504

instance (status : Nat) : Decidable (isRetryableStatus status) :=
  inferInstanceAs (Decidable (_ ∨ _))

/-- The longest `Retry-After` that is waited for. -/
def RetryConfig.ceiling (config : RetryConfig) : Nat := min config.maxBackoffMs MAX_BACKOFF_MS

def retryDecision (status : Nat) (retryAfterSecs : Option Nat) (attempt : Nat)
    (retry : RetryConfig) (jitter : Jitter) : Option Nat :=
  if ¬(status = 429 ∨ status = 503) then some (backoffDuration attempt retry jitter)
  else
    match retryAfterSecs with
    | none => some (backoffDuration attempt retry jitter)
    | some secs => if secs * 1000 ≤ retry.ceiling then some (secs * 1000) else none

/-- `str::parse::<u64>`. -/
def parseU64 (text : String) : Option Nat :=
  let digits := if text.toList.head? = some '+' then text.toList.tail else text.toList
  if digits ≠ [] ∧ digits.all Char.isDigit then
    let value := digits.foldl (fun n c => n * 10 + (c.toNat - '0'.toNat)) 0
    if value ≤ u64Max then some value else none
  else none

/-- `now` is in nanoseconds; the seconds between two times are truncated. -/
def parseRetryAfterSecs (lib : RetryLib) (now : Int) (value : Option String) : Option Nat :=
  value.bind fun value =>
    let value := trim value
    if value = "" then none
    else
      match parseU64 value with
      | some secs => some secs
      | none =>
          (lib.parseFromRfc2822 value).map fun time =>
            (max ((time - now).tdiv 1000000000) 0).toNat

/-! ## Errors -/

inductive ProviderHttpError where
  | unauthorized (status : Nat) (detail : String)
  | rateLimited (status : Nat) (retryAfterSecs : Option Nat) (detail : String)
  | serverError (status : Nat) (detail : String)
  | clientError (status : Nat) (detail : String)
  | emptyResponse
  | cancelled
  | io (text : String)
deriving DecidableEq

def statusToError (status : Nat) (detail : String) (retryAfterSecs : Option Nat) :
    ProviderHttpError :=
  if status = 401 ∨ status = 403 then .unauthorized status detail
  else if status = 429 then .rateLimited status retryAfterSecs detail
  else if 500 ≤ status ∧ status < 600 then .serverError status detail
  else if 400 ≤ status ∧ status < 500 then .clientError status detail
  else .io detail

def extractErrorMessage (lib : RetryLib) (body : String) : Option String :=
  (lib.fromStr body).bind fun value =>
    let message :=
      match value.get "error" with
      | some (.obj fields) => (fields.lookup "message").bind Json.asStr
      | some (.str text) => some text
      | _ => none
    let message := message.or ((value.get "message").bind Json.asStr)
    (message.map trim).filter (· ≠ "")

/-- The detail of the error for a response that is not retried. -/
def errorDetail (lib : RetryLib) (status : Nat) (bodyText : String) : String :=
  let trimmedBody := trim bodyText
  if trimmedBody = "" then s!"request failed with status {status}"
  else
    match extractErrorMessage lib trimmedBody with
    | some message => message
    | none => s!"request failed with status {status}: {trimmedBody}"

/-- `str::contains`. -/
def containsText (text part : String) : Prop := part.toList <:+: text.toList

instance (text part : String) : Decidable (containsText text part) :=
  inferInstanceAs (Decidable (_ <:+: _))

def isOpencodeGatewaySlug (slug : String) : Prop :=
  slug = "opencode" ∨ slug = "opencode-go" ∨ slug = "opencode-go-anthropic-compatible"

instance (slug : String) : Decidable (isOpencodeGatewaySlug slug) :=
  inferInstanceAs (Decidable (_ ∨ _))

/-- The response names the model and nothing else. -/
def isModelStub (detail : String) : Bool :=
  match stripPrefix "request failed with status 400:" detail with
  | none => false
  | some rest =>
      let body := trim rest
      body.toList.head? = some '\x7b' ∧ containsText body "\"model\"" ∧
        ¬containsText body "\"error\"" ∧ ¬containsText body "\"message\""

def isTransientGateway400 (slug detail : String) : Prop :=
  isOpencodeGatewaySlug slug ∧
    (containsText detail "Message content must contain text" ∨
      containsText detail "Message content supports text content only" ∨ isModelStub detail)

instance (slug detail : String) : Decidable (isTransientGateway400 slug detail) :=
  inferInstanceAs (Decidable (_ ∧ _))

/-! ## Cancellation -/

/-- How a wait ends that no queued cancel cuts short. -/
inductive WaitEnd where
  | elapsed
  | cancelled
  /-- The sender of the cancels is gone. -/
  | disconnected
deriving DecidableEq

/-- The cancels in the channel; `none` without a channel. -/
abbrev CancelRx := Option Nat

def CancelRx.arrive (rx : CancelRx) (signals : Nat) : CancelRx := Option.map (· + signals) rx

def CancelRx.pending (rx : CancelRx) : Prop := Option.getD rx 0 ≠ 0

instance (rx : CancelRx) : Decidable rx.pending := inferInstanceAs (Decidable (_ ≠ _))

/-- The channel after one signal was taken. -/
def CancelRx.take (rx : CancelRx) : CancelRx := Option.map (· - 1) rx

def checkCancelled (rx : CancelRx) : Except ProviderHttpError Unit × CancelRx :=
  if rx.pending then (.error .cancelled, rx.take) else (.ok (), rx)

def sleepOrCancel (rx : CancelRx) (waitEnd : WaitEnd) :
    Except ProviderHttpError Unit × CancelRx :=
  if rx.pending then (.error .cancelled, rx.take)
  else if rx.isSome ∧ waitEnd = .cancelled then (.error .cancelled, rx)
  else (.ok (), rx)

/-- What the callback of a wait is told. -/
structure RetryWait where
  attempt : Nat
  maxAttempts : Nat
  delay : Nat
deriving DecidableEq

def waitBeforeRetry (attempt maxAttempts delay : Nat) (rx : CancelRx) (waitEnd : WaitEnd) :
    RetryWait × Except ProviderHttpError Unit × CancelRx :=
  (⟨attempt, maxAttempts, min delay MAX_BACKOFF_MS⟩, sleepOrCancel rx waitEnd)

/-! ## The loop -/

structure HttpResponse where
  status : Nat
  /-- The `retry-after` header, when it is text. -/
  retryAfter : Option String
  bodyText : String
deriving DecidableEq

/-- One attempt as the outside has it, up to the start of the next one. -/
structure AttemptEnv where
  /-- Cancels that arrive before the attempt starts. -/
  cancelsBefore : Nat
  /-- A response, or the text of a transport error. -/
  reply : Except String HttpResponse
  /-- Cancels that arrive between the check and the end of the reply. -/
  cancelsDuring : Nat
  now : Int
  jitter : Jitter
  waitEnd : WaitEnd

structure RetrySetting where
  lib : RetryLib
  retry : RetryConfig
  slug : String
  script : Nat → AttemptEnv

/-- How a loop disposes of a response that is not retried. -/
inductive Terminal where
  | consumeIntoError
  | returnResponse
deriving DecidableEq

def HttpResponse.isSuccess (response : HttpResponse) : Prop :=
  200 ≤ response.status ∧ response.status < 300

instance (response : HttpResponse) : Decidable response.isSuccess :=
  inferInstanceAs (Decidable (_ ∧ _))

abbrev SendResult := Except ProviderHttpError HttpResponse

/-- What follows a reply: the loop returns, or waits and sends again. -/
inductive AfterReply where
  | finish (result : SendResult)
  | resend (delay : Nat)

/-- The wait before a response's request is sent again, if it is. -/
def resendDelay (lib : RetryLib) (retry : RetryConfig) (attempt : Nat) (env : AttemptEnv)
    (response : HttpResponse) : Option Nat :=
  if isRetryableStatus response.status ∧ attempt < retry.maxAttempts then
    retryDecision response.status (parseRetryAfterSecs lib env.now response.retryAfter) attempt
      retry env.jitter
  else none

def terminalResult (lib : RetryLib) (terminal : Terminal) (env : AttemptEnv)
    (response : HttpResponse) : SendResult :=
  if terminal = .returnResponse then .ok response
  else
    .error (statusToError response.status (errorDetail lib response.status response.bodyText)
      (parseRetryAfterSecs lib env.now response.retryAfter))

def afterReply (lib : RetryLib) (retry : RetryConfig) (terminal : Terminal) (attempt : Nat)
    (env : AttemptEnv) : AfterReply :=
  match env.reply with
  | .error err =>
      if attempt < retry.maxAttempts then .resend (backoffDuration attempt retry env.jitter)
      else .finish (.error (.io err))
  | .ok response =>
      if response.isSuccess then .finish (.ok response)
      else
        match resendDelay lib retry attempt env response with
        | some delay => .resend delay
        | none => .finish (terminalResult lib terminal env response)

/-- A call of the loop: the encoding of the body, and how many resends of the gateway
policy came before it. -/
structure Pass where
  compressed : Bool
  resend : Nat
deriving DecidableEq

/-- A request that was sent. -/
structure SentRequest where
  /-- Its entry of the script. -/
  index : Nat
  pass : Pass
  attempt : Nat
  /-- The channel at the check before it. -/
  rx : CancelRx
  /-- The wait before it. -/
  waited : Option RetryWait
deriving DecidableEq

structure RetryRun where
  result : SendResult
  sends : List SentRequest
  /-- A wait after which nothing was sent. -/
  lastWait : Option RetryWait
  /-- The entry of the script for the next attempt. -/
  next : Nat
  pass : Pass
  rx : CancelRx

theorem afterReply_resend {lib : RetryLib} {retry : RetryConfig} {terminal : Terminal}
    {attempt : Nat} {env : AttemptEnv} {delay : Nat}
    (h : afterReply lib retry terminal attempt env = .resend delay) :
    attempt < retry.maxAttempts := by
  unfold afterReply at h
  split at h
  · split at h
    · assumption
    · cases h
  · split at h
    · cases h
    · split at h
      · rename_i hDelay
        unfold resendDelay at hDelay
        split at hDelay
        · rename_i hRetry
          exact hRetry.2
        · cases hDelay
      · cases h

/-- The loop behind `attempt` attempts. `waited` is the wait before the next one. -/
def retryLoopFrom (w : RetrySetting) (terminal : Terminal) (pass : Pass) (attempt next : Nat)
    (rx : CancelRx) (waited : Option RetryWait) : RetryRun :=
  let attempt := attempt + 1
  let env := w.script next
  let rx := rx.arrive env.cancelsBefore
  match checkCancelled rx with
  | (.error e, rx) => ⟨.error e, [], waited, next, pass, rx⟩
  | (.ok (), rx) =>
      let sent : SentRequest := ⟨next, pass, attempt, rx, waited⟩
      let rx := rx.arrive env.cancelsDuring
      match _h : afterReply w.lib w.retry terminal attempt env with
      | .finish result => ⟨result, [sent], none, next + 1, pass, rx⟩
      | .resend delay =>
          match waitBeforeRetry attempt w.retry.maxAttempts delay rx env.waitEnd with
          | (wait, .error e, rx) => ⟨.error e, [sent], some wait, next + 1, pass, rx⟩
          | (wait, .ok (), rx) =>
              let rest := retryLoopFrom w terminal pass attempt (next + 1) rx (some wait)
              { rest with sends := sent :: rest.sends }
termination_by w.retry.maxAttempts - attempt
decreasing_by
  have hLt := afterReply_resend _h
  omega

def retryLoopImpl (w : RetrySetting) (terminal : Terminal) (pass : Pass) (next : Nat)
    (rx : CancelRx) (waited : Option RetryWait) : RetryRun :=
  retryLoopFrom w terminal pass 0 next rx waited

def retryLoop (w : RetrySetting) (pass : Pass) (next : Nat) (rx : CancelRx)
    (waited : Option RetryWait) : RetryRun :=
  retryLoopImpl w .consumeIntoError pass next rx waited

def retryLoopRaw (w : RetrySetting) (pass : Pass) (next : Nat) (rx : CancelRx)
    (waited : Option RetryWait) : RetryRun :=
  retryLoopImpl w .returnResponse pass next rx waited

/-! ## The policies -/

/-- A call of the loop behind another one. -/
def RetryRun.andThen (earlier later : RetryRun) : RetryRun :=
  { later with sends := earlier.sends ++ later.sends }

/-- The status and the detail of a client error. -/
def RetryRun.clientError (run : RetryRun) : Option (Nat × String) :=
  match run.result with
  | .error (.clientError status detail) => some (status, detail)
  | _ => none

/-- A compressed body that was refused with 415 is sent once more, uncompressed. -/
def downgraded (w : RetrySetting) (first : RetryRun) : RetryRun :=
  if first.clientError.map Prod.fst = some 415 ∧ first.pass.compressed then
    first.andThen (retryLoop w ⟨false, first.pass.resend⟩ first.next first.rx none)
  else first

/-- How often the gateway policy sends again. -/
def gatewayExtra (retry : RetryConfig) : Nat :=
  if 1 < retry.maxAttempts then min GATEWAY_TRANSIENT_400_ATTEMPTS (retry.maxAttempts - 1) else 0

/-- The detail of a response that the gateway policy sends again. -/
def transient400 (slug : String) (run : RetryRun) : Prop :=
  ∃ detail, run.clientError = some (400, detail) ∧ isTransientGateway400 slug detail

instance (slug : String) (run : RetryRun) : Decidable (transient400 slug run) :=
  match h : run.clientError with
  | none => isFalse fun ⟨_, hSome, _⟩ => by simp [h] at hSome
  | some (status, detail) =>
      decidable_of_iff (status = 400 ∧ isTransientGateway400 slug detail) <| by
        simp [transient400, h]

/-- `left` resends of the policy are left. The wait is in the script's entry of the reply
that caused it. -/
def gatewayResends (w : RetrySetting) (left : Nat) (run : RetryRun) : RetryRun :=
  match left with
  | 0 => run
  | left + 1 =>
      if transient400 w.slug run then
        let attempt := gatewayExtra w.retry - left
        let env := w.script (run.next - 1)
        match waitBeforeRetry attempt (gatewayExtra w.retry + 1)
            (backoffDuration attempt w.retry env.jitter) run.rx env.waitEnd with
        | (wait, .error e, rx) => { run with result := .error e, lastWait := some wait, rx }
        | (wait, .ok (), rx) =>
            gatewayResends w left
              (run.andThen (retryLoop w ⟨run.pass.compressed, attempt⟩ run.next rx (some wait)))
      else run

/-- The driver, for a body that is compressed or not. -/
def retryLoopWithProviderPolicies (w : RetrySetting) (compressed : Bool) (rx : CancelRx) :
    RetryRun :=
  gatewayResends w (gatewayExtra w.retry)
    (downgraded w (retryLoop w ⟨compressed, 0⟩ 0 rx none))

end Choreographr.Protocols
