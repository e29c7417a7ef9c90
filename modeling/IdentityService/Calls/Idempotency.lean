import IdentityService.Defs.Idempotency

/-! Whose outcome a repeated request is answered with. -/

namespace IdentityService.Idempotency

open Lib
open Lib.Program (Along)

section Preimage

theorem append_separator_inj {α : Type} {x : α} {a b r r' : List α} (ha : x ∉ a) (hb : x ∉ b)
    (h : a ++ x :: r = b ++ x :: r') : a = b ∧ r = r' := by
  induction a generalizing b with
  | nil =>
    cases b with
    | nil => exact ⟨rfl, (List.cons.inj h).2⟩
    | cons y b =>
      obtain ⟨rfl, -⟩ := List.cons.inj h
      cases hb (.head _)
  | cons y a ih =>
    cases b with
    | nil =>
      obtain ⟨rfl, -⟩ := List.cons.inj h
      cases ha (.head _)
    | cons z b =>
      obtain ⟨rfl, htail⟩ := List.cons.inj h
      obtain ⟨rfl, hr⟩ := ih (fun hx => ha (.tail _ hx)) (fun hx => hb (.tail _ hx)) htail
      exact ⟨rfl, hr⟩

theorem not_mem_of_isUUID {b : Bytes} {x : UInt8} (hx : x ≠ 0x2D) (hdigit : isHexDigit x = false)
    (h : isUUID b = true) : x ∉ b := by
  intro hmem
  have hall := (Bool.and_eq_true_iff.1 h).2
  have hletter := List.all_eq_true.1 hall x hmem
  simp [hx, hdigit] at hletter

theorem PrincipalID.not_mem_zero (p : PrincipalID) : 0 ∉ p.id := by
  obtain h | h := p.assigned
  · exact not_mem_of_isUUID (by decide) rfl h
  · rw [h]
    decide

theorem PrincipalID.id_ne_nil_text (p : PrincipalID) : p.id ≠ Go.ascii "<nil>" := by
  intro heq
  obtain h | h := p.assigned
  · have hmem : 0x3C ∈ p.id := by
      rw [heq]
      decide
    exact not_mem_of_isUUID (by decide) rfl h hmem
  · rw [h] at heq
    exact absurd heq (by decide)

theorem printSubject_injective : Function.Injective printSubject := by
  intro s s' h
  match s, s' with
  | none, none => rfl
  | some p, none => cases p.id_ne_nil_text h
  | none, some p => cases p.id_ne_nil_text h.symm
  | some p, some p' =>
    obtain ⟨id, _⟩ := p
    obtain ⟨id', _⟩ := p'
    cases h
    rfl

theorem not_mem_printSubject (s : Option PrincipalID) : 0 ∉ printSubject s := by
  cases s with
  | none => decide
  | some p => exact p.not_mem_zero

theorem preimage_inj {c c' : GinContext} {body body' : Bytes}
    (h : preimage c body = preimage c' body') :
    c.subject = c'.subject ∧ c.method = c'.method ∧ c.fullPath = c'.fullPath ∧ body = body' := by
  simp only [preimage, List.append_assoc, List.cons_append, List.nil_append] at h
  obtain ⟨hsubject, h⟩ :=
    append_separator_inj (not_mem_printSubject _) (not_mem_printSubject _) h
  obtain ⟨hmethod, h⟩ := append_separator_inj c.method_nul c'.method_nul h
  obtain ⟨hpath, hbody⟩ := append_separator_inj c.fullPath_nul c'.fullPath_nul h
  exact ⟨printSubject_injective hsubject, hmethod, hpath, hbody⟩

end Preimage

inductive Replays (mw : Middleware) (c : GinContext) (decision : Decision) : Written → Prop
  | completed {response : Response} : decision.state = .completed →
      mw.unmarshal decision.response = some response →
      Replays mw c decision (.json 200 { response with requestID := c.requestID })
  | failed : decision.state = .failed →
      Replays mw c decision (.json decision.failure.httpStatus
        ⟨decision.failure.code, decision.failure.message, none, c.requestID⟩)

def LeavesAnswer (rest : Prog) : Prop :=
  ∀ w, rest.outcome = some (.ok w) → ∃ captured, w = .handled captured

def CallSpec (mw : Middleware) (c : GinContext) (_ : List Act) :
    (e : Call) → e.Res → Prog → Prop
  | .begin _ fingerprint, answer, rest =>
    fingerprint = mw.digest (preimage c c.body.bytes) ∧
      ∀ w, rest.outcome = some (.ok w) → ∃ decision, answer = some decision ∧
        Replays mw c decision w
  | .next body, _, rest => body = c.body ∧ LeavesAnswer rest
  | .complete .., _, rest => LeavesAnswer rest
  | .fail .., _, rest => LeavesAnswer rest

section Spec

variable {mw : Middleware} {c : GinContext} {acts : List Act}

theorem leavesAnswer_call (e : Call) (k : e.Res → Prog) :
    LeavesAnswer (.call e k) := by
  intro w hw
  cases hw

theorem leavesAnswer_fail (err : Failure) : LeavesAnswer (.fail err) := by
  intro w hw
  cases hw

theorem leavesAnswer_handled (captured : Captured) : LeavesAnswer (.ret (.handled captured)) := by
  intro w hw
  cases hw
  exact ⟨captured, rfl⟩

theorem along_next : Along (CallSpec mw c) acts (mw.next c) := by
  unfold Middleware.next
  rw [Program.along_perform]
  intro r
  cases r with
  | none => exact ⟨⟨rfl, leavesAnswer_fail _⟩, .fail⟩
  | some captured => exact ⟨⟨rfl, leavesAnswer_handled captured⟩, .ret⟩

theorem along_execute {c' : GinContext} (hbody : c'.body = c.body) (key owner : String) :
    Along (CallSpec mw c) acts (mw.execute c' key owner) := by
  unfold Middleware.execute
  rw [Program.along_perform]
  intro r
  cases r with
  | none => exact ⟨⟨hbody, leavesAnswer_fail _⟩, .fail⟩
  | some captured =>
    simp only [Program.require, Program.ret_bind]
    split
    · exact ⟨⟨hbody, leavesAnswer_handled captured⟩, .ret⟩
    · split
      · refine ⟨⟨hbody, leavesAnswer_call _ _⟩, ?_⟩
        rw [Program.along_perform]
        exact fun _ => ⟨leavesAnswer_handled captured, .ret⟩
      · refine ⟨⟨hbody, leavesAnswer_call _ _⟩, ?_⟩
        rw [Program.along_perform]
        exact fun _ => ⟨leavesAnswer_handled captured, .ret⟩

theorem onDecision_outcome {c' : GinContext} {key : String} {decision : Decision} {w : Written}
    (hid : c'.requestID = c.requestID)
    (h : (mw.onDecision c' key decision).outcome = some (.ok w)) : Replays mw c decision w := by
  unfold Middleware.onDecision at h
  split at h
  case h_1 hstate =>
    cases hresponse : mw.unmarshal decision.response with
    | none =>
      rw [hresponse] at h
      cases h
    | some response =>
      rw [hresponse] at h
      cases h
      rw [hid]
      exact .completed hstate hresponse
  case h_2 hstate =>
    cases h
    rw [hid]
    exact .failed hstate
  case h_5 => cases h
  all_goals cases h

theorem along_onDecision {c' : GinContext} (hbody : c'.body = c.body) (key : String)
    (decision : Decision) : Along (CallSpec mw c) acts (mw.onDecision c' key decision) := by
  unfold Middleware.onDecision
  split
  case h_1 => simp
  case h_5 => exact along_execute hbody key decision.owner
  all_goals simp

theorem idempotencyFingerprint_eq_some {fingerprint : String} {c' : GinContext}
    (h : mw.idempotencyFingerprint c = some (fingerprint, c')) :
    fingerprint = mw.digest (preimage c c.body.bytes) ∧ c'.body = c.body ∧
      c'.requestID = c.requestID := by
  obtain ⟨key, method, fullPath, subject, ⟨bytes, fails⟩, requestID, hmethod, hpath⟩ := c
  cases fails with
  | true => cases h
  | false =>
    cases h
    exact ⟨rfl, rfl, rfl⟩

theorem along_idempotencyExecution (mw : Middleware) (c : GinContext) :
    Along (CallSpec mw c) [] (mw.idempotencyExecution c) := by
  unfold Middleware.idempotencyExecution
  split
  · exact along_next
  · rename_i key hkey
    split
    · exact along_next
    · rw [Program.along_require]
      rintro ⟨fingerprint, c'⟩ hfingerprint
      obtain ⟨rfl, hbody, hid⟩ := idempotencyFingerprint_eq_some hfingerprint
      rw [Program.along_perform]
      intro r
      cases r with
      | none => exact ⟨⟨rfl, fun w hw => by cases hw⟩, .fail⟩
      | some decision =>
        exact ⟨⟨rfl, fun w hw => ⟨decision, rfl, onDecision_outcome hid hw⟩⟩,
          along_onDecision hbody key decision⟩

end Spec

def Call.fingerprint : Call → Option String
  | .begin _ fingerprint => some fingerprint
  | _ => none

def Call.decision : (e : Call) → e.Res → Option Decision
  | .begin .., answer => answer
  | _, _ => none

def Call.body : Call → Option Reader
  | .next body => some body
  | _ => none

structure SameRequest (c c' : GinContext) : Prop where
  subject : c.subject = c'.subject
  method : c.method = c'.method
  fullPath : c.fullPath = c'.fullPath
  body : c.body.bytes = c'.body.bytes

section Runs

variable {σ A : Type} {mw : Middleware} {perform : σ → (e : Call) → A → Option (e.Res × σ)}
  {π : Policy σ} {s : σ}
  {d : Config σ}
  {ev b st : Event σ}

def BegunAlike (d : Config σ)
    (b st : Event σ) : Prop :=
  ∃ begun ∈ d.history, begun.thread = st.thread ∧ begun.call.fingerprint = b.call.fingerprint

/-- The manager reports a stored outcome only for an equal fingerprint, where `storedBy b st` says
that the outcome it reports in `b` is the one stored in `st`. -/
def EqualFingerprints (d : Config σ)
    (storedBy : Event σ →
      Event σ → Prop) : Prop :=
  ∀ b ∈ d.history, ∀ st ∈ d.history, ∀ decision, b.call.decision b.answer = some decision →
    decision.state = .completed ∨ decision.state = .failed → storedBy b st → BegunAlike d b st

theorem callSpec_of_mem (h : (machine mw perform).Reach π s d) (hev : ev ∈ d.history) :
    ∃ acts rest, ev.outcome = rest.outcome ∧
      CallSpec mw ev.request acts ev.call ev.answer rest := by
  obtain ⟨c0, c1, k, a, h0, hf, -, -⟩ := h.event_of_mem hev
  exact ⟨_, _, hf.outcome, h0.along (along_idempotencyExecution mw) hf⟩

theorem fingerprint_eq (h : (machine mw perform).Reach π s d) (hev : ev ∈ d.history)
    {fingerprint : String} (hcall : ev.call.fingerprint = some fingerprint) :
    fingerprint = mw.digest (preimage ev.request ev.request.body.bytes) := by
  obtain ⟨acts, rest, -, hspec⟩ := callSpec_of_mem h hev
  obtain ⟨i, q, e, r, s, s', o⟩ := ev
  cases e with
  | begin key fingerprint =>
    cases hcall
    exact hspec.1
  | _ => cases hcall

theorem body_eq (h : (machine mw perform).Reach π s d) (hev : ev ∈ d.history)
    {body : Reader} (hcall : ev.call.body = some body) : body = ev.request.body := by
  obtain ⟨acts, rest, -, hspec⟩ := callSpec_of_mem h hev
  obtain ⟨i, q, e, r, s, s', o⟩ := ev
  cases e with
  | next body =>
    cases hcall
    exact hspec.1
  | _ => cases hcall

theorem replays_of_json (h : (machine mw perform).Reach π s d) (hev : ev ∈ d.history)
    {status : Int} {response : Response}
    (hout : ev.outcome = some (.ok (.json status response))) :
    ∃ decision, ev.call.decision ev.answer = some decision ∧
      Replays mw ev.request decision (.json status response) := by
  obtain ⟨acts, rest, hrest, hspec⟩ := callSpec_of_mem h hev
  rw [hrest] at hout
  obtain ⟨i, q, e, r, s, s', o⟩ := ev
  have hleaves : ¬LeavesAnswer rest := fun hleaves => by
    obtain ⟨captured, hcaptured⟩ := hleaves _ hout
    cases hcaptured
  cases e with
  | begin key fingerprint => exact hspec.2 _ hout
  | next body => cases hleaves hspec.2
  | complete key owner response => cases hleaves hspec
  | fail key owner failure => cases hleaves hspec

theorem Replays.state {c : GinContext} {decision : Decision} {w : Written}
    (h : Replays mw c decision w) : decision.state = .completed ∨ decision.state = .failed := by
  cases h with
  | completed hstate => exact .inl hstate
  | failed hstate => exact .inr hstate

theorem exists_fingerprint {e : Call} {answer : e.Res} {decision : Decision}
    (h : e.decision answer = some decision) : ∃ fingerprint, e.fingerprint = some fingerprint := by
  cases e with
  | begin key fingerprint => exact ⟨fingerprint, rfl⟩
  | _ => cases h

theorem sameRequest_of_begunAlike
    (hsha : ∀ c c' body body', mw.digest (preimage c body) = mw.digest (preimage c' body') →
      preimage c body = preimage c' body')
    (h : (machine mw perform).Reach π s d) (hb : b ∈ d.history) (hst : st ∈ d.history)
    {decision : Decision} (hdecision : b.call.decision b.answer = some decision)
    (halike : BegunAlike d b st) : SameRequest b.request st.request := by
  obtain ⟨begun, hbegun, hthread, hequal⟩ := halike
  obtain ⟨fingerprint, hcall⟩ := exists_fingerprint hdecision
  have hdigest := (fingerprint_eq h hb hcall).symm.trans
    (fingerprint_eq h hbegun (hequal.trans hcall))
  obtain ⟨hsubject, hmethod, hpath, hbody⟩ := preimage_inj (hsha _ _ _ _ hdigest)
  rw [h.request_eq_of_mem hbegun hst hthread] at hsubject hmethod hpath hbody
  exact ⟨hsubject, hmethod, hpath, hbody⟩

end Runs

theorem replays_same_request (mw : Middleware)
    (hsha : ∀ c c' body body', mw.digest (preimage c body) = mw.digest (preimage c' body') →
      preimage c body = preimage c' body') :
    (∀ c c' body body', preimage c body = preimage c' body' →
      c.subject = c'.subject ∧ c.method = c'.method ∧ c.fullPath = c'.fullPath ∧ body = body') ∧
    ∀ (σ A : Type) (perform : σ → (e : Call) → A → Option (e.Res × σ))
      (π : Policy σ) (s : σ)
      (d : Config σ),
      (machine mw perform).Reach π s d →
      (∀ storedBy, EqualFingerprints d storedBy → ∀ b ∈ d.history, ∀ status response,
        b.outcome = some (.ok (.json status response)) →
        (∃ decision, b.call.decision b.answer = some decision ∧
          Replays mw b.request decision (.json status response)) ∧
        ∀ st ∈ d.history, storedBy b st → SameRequest b.request st.request) ∧
      ∀ ev ∈ d.history, ∀ body, ev.call.body = some body → body = ev.request.body := by
  refine ⟨fun c c' body body' => preimage_inj, fun σ A perform π s d h => ⟨?_, ?_⟩⟩
  · intro storedBy hmanager b hb status response hout
    obtain ⟨decision, hdecision, hreplays⟩ := replays_of_json h hb hout
    refine ⟨⟨decision, hdecision, hreplays⟩, fun st hst hstored => ?_⟩
    exact sameRequest_of_begunAlike hsha h hb hst hdecision
      (hmanager b hb st hst decision hdecision hreplays.state hstored)
  · intro ev hev body hcall
    exact body_eq h hev hcall

namespace sample

theorem toNat_ofNat_of_byte : ∀ n < 256, (Char.ofNat n).toNat = n := by decide +kernel

def middleware : Middleware where
  enabled := true
  paths := ["/api/v1/sessions/revoke"]
  pathMatch pattern value := some (Go.ascii pattern = value)
  digest b := String.ofList (b.map (fun x => Char.ofNat x.toNat))
  unmarshal b := some ⟨b.length, "success", none, ""⟩
  codes := ⟨1, 2, 3, 4, 5⟩

theorem digest_injective : Function.Injective middleware.digest := by
  intro b b' h
  refine List.map_injective_iff.2 (fun x y hxy => ?_) (String.ofList_injective h)
  have hnat := congrArg Char.toNat hxy
  rw [toNat_ofNat_of_byte _ x.toNat_lt, toNat_ofNat_of_byte _ y.toNat_lt] at hnat
  exact UInt8.toNat_inj.1 hnat

def manager : Option (String × Option Decision) → (e : Call) → Captured →
    Option (e.Res × Option (String × Option Decision))
  | none, .begin _ fingerprint, _ =>
    some (some ⟨.acquired, [], ⟨0, "", 0⟩, "owner"⟩, some (fingerprint, none))
  | some (stored, outcome), .begin _ fingerprint, _ =>
    let decision :=
      if stored = fingerprint then outcome.getD ⟨.processing, [], ⟨0, "", 0⟩, ""⟩
      else ⟨.conflict, [], ⟨0, "", 0⟩, ""⟩
    some (some decision, some (stored, outcome))
  | s, .next _, captured => some (some captured, s)
  | s, .complete _ _ response, _ =>
    let decision := ⟨.completed, List.replicate response.code.toNat 0, ⟨0, "", 0⟩, ""⟩
    some (some (), s.map (fun r => (r.1, some decision)))
  | s, .fail _ _ failure, _ =>
    some (some (), s.map (fun r => (r.1, some ⟨.failed, [], failure, ""⟩)))

def revoke (requestID : String) : GinContext :=
  .ofRequest (.revokeSession "session" "reason" 1) (some "operation")
    (some ⟨Go.ascii "psk", .inr rfl⟩) (newReader (Go.ascii "body")) requestID

def twice : List (Lib.Choice GinContext Captured) :=
  [.start (revoke "first"), .step 0 ⟨0, []⟩, .step 0 ⟨200, [1, 2, 3]⟩, .step 0 ⟨0, []⟩,
    .start (revoke "second"), .step 1 ⟨0, []⟩]

end sample

theorem replays_same_request_twice :
    ∃ d b st, (machine sample.middleware sample.manager).Reach .any none d ∧
      b ∈ d.history ∧ st ∈ d.history ∧ b.thread = 1 ∧ st.thread = 0 ∧
      b.outcome = some (.ok (.json 200 ⟨3, "success", none, "second"⟩)) ∧
      SameRequest b.request st.request := by
  obtain ⟨d, hrun, ⟨b, hb, hb1, hout⟩, ⟨st, hst, hst0⟩, halike⟩ :=
    Lib.Machine.replay_exists (M := machine sample.middleware sample.manager) (π := .any)
      (c := .initial none) sample.twice
      (P := fun d =>
        (∃ b ∈ d.history, b.thread = 1 ∧
          b.outcome = some (.ok (.json 200 ⟨3, "success", none, "second"⟩))) ∧
        (∃ st ∈ d.history, st.thread = 0) ∧
        ∀ b ∈ d.history, ∀ st ∈ d.history, b.thread = 1 → st.thread = 0 →
          ∃ begun ∈ d.history, begun.thread = st.thread ∧
            begun.call.fingerprint = b.call.fingerprint) (by decide +kernel)
  have hmanager : EqualFingerprints d (fun b st => b.thread = 1 ∧ st.thread = 0) :=
    fun b hb st hst _ _ _ hthreads => halike b hb st hst hthreads.1 hthreads.2
  have hsame := (((replays_same_request sample.middleware
    fun c c' body body' h => sample.digest_injective h).2 _ _ _ _ _ d hrun).1 _ hmanager b hb _ _
      hout).2 st hst ⟨hb1, hst0⟩
  exact ⟨d, b, st, hrun, hb, hst, hb1, hst0, hout, hsame⟩

end IdentityService.Idempotency
