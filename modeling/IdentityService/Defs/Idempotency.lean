import IdentityService.Defs.Transport
import IdentityService.Lib.MachineLaws

/-! The middleware that executes a request with an idempotency key once and answers its
repetitions from a store.  The store, its manager and the handlers behind the middleware
are outside; what the middleware asks of them is not. -/

namespace IdentityService.Idempotency

open Lib

def isHexDigit (b : UInt8) : Bool := (0x30 ≤ b && b ≤ 0x39) || (0x61 ≤ b && b ≤ 0x66)

def isUUID (b : Bytes) : Bool :=
  (b.splitOn 0x2D).map List.length = [8, 4, 4, 4, 12] && b.all (fun x => x = 0x2D || isHexDigit x)

/-- The identifiers of authenticated principals: those of users and service accounts, and
the one of the pre-shared key. -/
structure PrincipalID where
  id : Bytes
  assigned : isUUID id = true ∨ id = Go.ascii "psk"
deriving DecidableEq

structure Reader where
  bytes : Bytes
  fails : Bool
deriving DecidableEq

def Reader.readAll (r : Reader) : Option Bytes × Reader :=
  (if r.fails then none else some r.bytes, ⟨[], r.fails⟩)

def newReader (b : Bytes) : Reader := ⟨b, false⟩

/-- The parts of the request context that the middleware reads.  Neither a method nor a
registered route has a NUL. -/
structure GinContext where
  key : Option String
  method : Bytes
  fullPath : Bytes
  subject : Option PrincipalID
  body : Reader
  requestID : String
  method_nul : 0 ∉ method
  fullPath_nul : 0 ∉ fullPath

theorem path_nul (r : HTTPRequest) : 0 ∉ Go.ascii r.path := by
  unfold HTTPRequest.path
  split <;> decide +kernel

def GinContext.ofRequest (r : HTTPRequest) (key : Option String) (subject : Option PrincipalID)
    (body : Reader) (requestID : String) : GinContext where
  key := key
  method := Go.ascii "POST"
  fullPath := Go.ascii r.path
  subject := subject
  body := body
  requestID := requestID
  method_nul := by decide
  fullPath_nul := path_nul r

structure Response where
  code : Int
  message : String
  body : Option String
  requestID : String
deriving DecidableEq

structure Failure where
  code : Int
  message : String
  httpStatus : Int
deriving DecidableEq

inductive State : Type
  | acquired
  | processing
  | completed
  | failed
  | conflict
  | other : String → State
deriving DecidableEq

structure Decision where
  state : State
  response : Bytes
  failure : Failure
  owner : String
deriving DecidableEq

structure Captured where
  status : Int
  body : Bytes
deriving DecidableEq

inductive Call : Type
  | begin (key fingerprint : String)
  | next (body : Reader)
  | complete (key owner : String) (response : Response)
  | fail (key owner : String) (failure : Failure)

/-- `none` is an error of the manager or a panic of a handler. -/
abbrev Call.Res : Call → Type
  | .begin .. => Option Decision
  | .next .. => Option Captured
  | .complete .. => Option Unit
  | .fail .. => Option Unit

inductive Written : Type
  | json (status : Int) (response : Response)
  | handled (captured : Captured)
deriving DecidableEq

abbrev Prog := Program Call Call.Res Failure Written

structure Codes where
  invalidArgument : Int
  conflict : Int
  requestInProgress : Int
  internal : Int
  dependencyUnavailable : Int

namespace Codes

variable (codes : Codes) (message : String)

def invalid : Failure := ⟨codes.invalidArgument, message, 400⟩
def conflicting : Failure := ⟨codes.conflict, message, 409⟩
def processing : Failure := ⟨codes.requestInProgress, "request is already processing", 409⟩
def panicked : Failure := ⟨codes.internal, "internal server error", 500⟩
def unavailable : Failure := ⟨codes.dependencyUnavailable, message, 503⟩

end Codes

/-- `enabled` says that there is a manager and that it is enabled; `digest` is the hex text of
the SHA-256; `pathMatch` fails on a malformed pattern. -/
structure Middleware where
  enabled : Bool
  paths : List String
  pathMatch : (pattern : String) → (value : Bytes) → Option Bool
  digest : Bytes → String
  unmarshal : Bytes → Option Response
  codes : Codes

def printSubject : Option PrincipalID → Bytes
  | some principal => principal.id
  | none => Go.ascii "<nil>"

def preimage (c : GinContext) (body : Bytes) : Bytes :=
  printSubject c.subject ++ (0 :: c.method ++ 0 :: c.fullPath ++ [0]) ++ body

namespace Middleware

variable (mw : Middleware)

def matchesAny (value : Bytes) : Bool :=
  mw.paths.any (fun pattern => mw.pathMatch pattern value = some true)

def idempotencyFingerprint (c : GinContext) : Option (String × GinContext) :=
  match c.body.readAll with
  | (none, _) => none
  | (some body, _) => some (mw.digest (preimage c body), { c with body := newReader body })

def next (c : GinContext) : Prog := do
  let captured ← .require mw.codes.panicked (← .perform (.next c.body))
  return .handled captured

def execute (c : GinContext) (key owner : String) : Prog := do
  let captured ← .require mw.codes.panicked (← .perform (.next c.body))
  match mw.unmarshal captured.body with
  | none => return .handled captured
  | some response =>
    if captured.status ≥ 400 then
      let _ ← .perform (.fail key owner ⟨response.code, response.message, captured.status⟩)
      return .handled captured
    else
      let _ ← .perform (.complete key owner { response with requestID := "" })
      return .handled captured

def onDecision (c : GinContext) (key : String) (decision : Decision) :
    Prog :=
  match decision.state with
  | .completed => do
    let response ← .require (mw.codes.unavailable "idempotency response is unavailable")
      (mw.unmarshal decision.response)
    return .json 200 { response with requestID := c.requestID }
  | .failed =>
    return .json decision.failure.httpStatus
      ⟨decision.failure.code, decision.failure.message, none, c.requestID⟩
  | .processing => .fail mw.codes.processing
  | .conflict => .fail (mw.codes.conflicting "idempotency key belongs to a different request")
  | .acquired => mw.execute c key decision.owner
  | .other _ => .fail (mw.codes.unavailable "idempotency state is invalid")

def idempotencyExecution (c : GinContext) : Prog :=
  match c.key with
  | none => mw.next c
  | some key =>
    if mw.enabled = false ∨ c.method ≠ Go.ascii "POST" ∨ mw.matchesAny c.fullPath = false then
      mw.next c
    else do
      let (fingerprint, c) ← .require (mw.codes.invalid "read idempotent request")
        (mw.idempotencyFingerprint c)
      let decision ← .require (mw.codes.unavailable "idempotency is unavailable")
        (← .perform (.begin key fingerprint))
      mw.onDecision c key decision

end Middleware

abbrev Act := Program.Act Call Call.Res
abbrev Event (σ : Type) := Lib.Event GinContext Call Call.Res Failure Written σ
abbrev Config (σ : Type) := Lib.Config GinContext Call Call.Res Failure Written σ
abbrev Policy (σ : Type) := Lib.Policy GinContext Call Call.Res Failure Written σ

def machine {σ A : Type} (mw : Middleware)
    (perform : σ → (e : Call) → A → Option (e.Res × σ)) :
    Lib.Machine GinContext Call Call.Res Failure Written σ A :=
  ⟨mw.idempotencyExecution, perform⟩

end IdentityService.Idempotency
