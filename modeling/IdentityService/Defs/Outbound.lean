import IdentityService.Defs.Config
import IdentityService.Lib.Trace

/-! The client for HTTP services: attempts, retries and the circuit breaker. -/

namespace IdentityService.Outbound

open Lib ServiceConfig

abbrev Header : Type := GoMap (List String)

namespace Header

def get (h : Header) (key : String) : String := ((h.lookup key).bind List.head?).getD ""

def set (h : Header) (key value : String) : Header := h.insert key [value]

end Header

structure Request where
  method : String
  target : String
  header : Header
  body : Bytes

/-- A response stands for its body too, which belongs to one attempt. -/
structure Response where
  attempt : Nat
  status : Int
deriving DecidableEq

inductive Call : Type
  | send (attempt : Nat) (request : Request)
  | discard (attempt limit : Nat)
  | close (attempt : Nat)
  | wait (delay : Time)

/-- `Do` answers with an error or a response, which may be nil; a response that comes with an error
has been closed already and counts as the error. A sleep answers with the error of a context that is
done. -/
def Call.Res : Call → Type
  | send _ _ => Except String (Option Int)
  | discard _ _ => Unit
  | close _ => Unit
  | wait _ => Option String

abbrev Prog (ε α : Type) : Type := Program Call Call.Res ε α

def send (attempt : Nat) (request : Request) : Prog String (Except String (Option Int)) :=
  .perform (Call.send attempt request)

def discard (attempt limit : Nat) : Prog String Unit := .perform (Call.discard attempt limit)

def close (attempt : Nat) : Prog String Unit := .perform (Call.close attempt)

def wait (delay : Time) : Prog String (Option String) := .perform (Call.wait delay)

structure Context where
  idempotencyKey : Option String

structure Reference where
  isAbs : Bool
  host : String
  resolved : String

inductive CallError : Type
  | status (response : Response)
  | other (err : String)

/-- `parse` is `url.Parse`, `newRequest` the error of `http.NewRequestWithContext` for a method and
a target, and `breaker` the breaker's `Execute`. -/
structure Client where
  retry : Retry
  auth : ClientAuth
  parse : String → Option Reference
  newRequest : String → String → Option String
  breaker : Option (Prog CallError (Option Response) → Prog CallError (Option Response))

def retryableMethod (ctx : Context) (method : String) : Bool :=
  method = "GET" || method = "HEAD" || method = "OPTIONS" || method = "PUT" ||
    method = "DELETE" || ctx.idempotencyKey.isSome

def retryableHTTPStatus (status : Int) : Bool :=
  status = 429 || status = 502 || status = 503 || status = 504

def applyHTTPAuth (header : Header) (auth : ClientAuth) : Header :=
  match auth.type with
  | "bearer" => header.set "Authorization" ("Bearer " ++ auth.token)
  | "psk" => header.set "Authorization" ("PSK " ++ auth.token)
  | _ => header

/-- The delay after an attempt, as a number of nanoseconds that a float holds exactly. -/
def backoff (retry : Retry) (attempt : Nat) : Time :=
  let delay := retry.initialBackoff * 2 ^ (attempt - 1)
  if delay > retry.maxBackoff then retry.maxBackoff else delay

namespace Client

variable (c : Client)

def request (method target : String) (body : Bytes) (headers : Option Header) : Request :=
  let header := headers.getD ∅
  let header :=
    if body.length > 0 ∧ header.get "Content-Type" = "" then
      header.set "Content-Type" "application/json"
    else header
  ⟨method, target, applyHTTPAuth header c.auth, body⟩

def waitBackoff (attempt : Nat) : Prog String Unit := do
  match ← wait (backoff c.retry attempt) with
  | some err => .fail err
  | none => return ()

def attempts (request : Request) : Nat → Nat → Prog String (Option Response)
  | 0, _ => .fail "outbound HTTP attempts exhausted"
  | left + 1, attempt =>
    match c.newRequest request.method request.target with
    | some err => .fail ("create outbound HTTP request: " ++ err)
    | none => do
      match ← send attempt request with
      | .ok none => return none
      | .ok (some status) =>
        if !retryableHTTPStatus status ∨ left = 0 then return some ⟨attempt, status⟩
        else
          discard attempt (32 * 2 ^ 10)
          close attempt
          c.waitBackoff attempt
          attempts request left (attempt + 1)
      | .error err =>
        if left = 0 then .fail ("call outbound HTTP service: " ++ err)
        else
          c.waitBackoff attempt
          attempts request left (attempt + 1)

def doWithRetry (ctx : Context) (method requestPath : String) (body : Bytes)
    (headers : Option Header) : Prog String (Option Response) :=
  match c.parse requestPath with
  | none => .fail "outbound HTTP path must be relative"
  | some reference =>
    if reference.isAbs ∨ reference.host ≠ "" then .fail "outbound HTTP path must be relative"
    else
      let maxAttempts := if retryableMethod ctx method then c.retry.maxAttempts else 1
      c.attempts (c.request method reference.resolved body headers) maxAttempts.toNat 1

def execute (ctx : Context) (method requestPath : String) (body : Bytes)
    (headers : Option Header) : Prog String (Option Response) :=
  match c.breaker with
  | none => c.doWithRetry ctx method requestPath body headers
  | some breaker =>
    let call := (c.doWithRetry ctx method requestPath body headers).settle
      (fun
        | some response =>
          if retryableHTTPStatus response.status then .fail (.status response)
          else .ret (some response)
        | none => .ret none)
      (fun err => .fail (.other err))
    (breaker call).settle .ret (fun
      | .status response => .ret (some response)
      | .other err => .fail err)

end Client

end IdentityService.Outbound
