import IdentityService.MFA.Totp
import IdentityService.Defs.CryptoLaws

/-! Codes of steps that have not been used: which of them are accepted. -/

namespace IdentityService

open Lib Service
open Lib.Program (Along along_require along_perform along_expect along_reject)

structure Presented where
  userID : String
  code : String
  enrollment : MFAEnrollment
  now : Time

def Op.presents : Op → List Act → Option Presented
  | .verifyMFAChallenge _ code _,
    [⟨.query (.getMFA userID), .ok e⟩, ⟨.query _, _⟩, ⟨.now, now⟩, ⟨.query _, _⟩] =>
    some ⟨userID, Go.trimSpace code, e, now⟩
  | .disableMFA _ _ code _, [⟨.now, now⟩, ⟨.query (.getMFA userID), .ok e⟩, ⟨.query _, _⟩] =>
    some ⟨userID, Go.trimSpace code, e, now⟩
  | .regenerateMFARecoveryCodes _ _ code _,
    [⟨.now, now⟩, ⟨.query (.getMFA userID), .ok e⟩, ⟨.query _, _⟩] =>
    some ⟨userID, Go.trimSpace code, e, now⟩
  | _, _ => none

def Op.presentsAfter : Op → Nat
  | .verifyMFAChallenge .. => 4
  | _ => 3

def codeRefused : AppError := .unauthorized "invalid or already used mfa code"

def Presented.Checked (x : Presented) (m : MFACrypto) (secret : String) (p : Prog Reply) : Prop :=
  ∃ rest : Int → Prog Reply, (∀ step, (rest step).outcome = none) ∧
    p = (Program.require codeRefused (m.validateTOTP secret x.code x.now) >>= fun step =>
      Program.reject (step ≤ x.enrollment.lastUsedStep) codeRefused >>= fun _ => rest step)

def CheckSpec (svc : Service) (op : Op) (acts : List Act) (e : Effect) (r : e.Res)
    (p : Prog Reply) : Prop :=
  ∀ x m secret, op.presents (⟨e, r⟩ :: acts) = some x → x.enrollment.status = .enabled →
    svc.mfa = some m → m.decryptSecret x.userID x.enrollment.secretCiphertext = some secret →
    x.code ≠ "" → x.Checked m secret p

section Spec

variable {svc : Service} {op : Op} {acts : List Act} {x : Presented}

theorem presents_length (h : op.presents acts = some x) : acts.length = op.presentsAfter := by
  unfold Op.presents at h
  split at h <;> first | rfl | cases h

theorem presents_spec (h : op.presents acts = some x) :
    (∃ raw, op.totpCode = some raw ∧ x.code = Go.trimSpace raw) ∧
      Act.read (.getMFA x.userID) x.enrollment ∈ acts ∧
      acts.reverse.findSome? Act.time = some x.now := by
  unfold Op.presents at h
  split at h
  · cases h
    exact ⟨⟨_, rfl, rfl⟩, List.mem_cons_self, rfl⟩
  · cases h
    exact ⟨⟨_, rfl, rfl⟩, List.mem_cons_of_mem _ List.mem_cons_self, rfl⟩
  · cases h
    exact ⟨⟨_, rfl, rfl⟩, List.mem_cons_of_mem _ List.mem_cons_self, rfl⟩
  · cases h

theorem checkSpec_of_length {e : Effect} {r : e.Res} {p : Prog Reply}
    (h : acts.length + 1 ≠ op.presentsAfter) : CheckSpec svc op acts e r p :=
  fun _ _ _ hx => absurd (presents_length hx) h

theorem checkSpec_later (p : Prog Reply) (h : op.presentsAfter ≤ acts.length) :
    Along (CheckSpec svc op) acts p :=
  Along.of_length (fun _ _ _ _ hn => checkSpec_of_length (by omega)) p h

theorem checkSpec_requireFactor {m : MFACrypto} {userID password code : String}
    {f : Int × Time → Prog Reply} (hafter : op.presentsAfter = 3)
    (hop : ∀ now (e : MFAEnrollment) q r,
      op.presents [Act.clock now, Act.read (.getMFA userID) e, ⟨.query q, r⟩] =
        some ⟨userID, Go.trimSpace code, e, now⟩)
    (hm : svc.mfa = some m) (hf : ∀ y, (f y).outcome = none) :
    Along (CheckSpec svc op) [] (svc.requireFactor m userID password code >>= f) := by
  simp only [requireFactor, verifyCurrentPassword, query, Service.now, bind_assoc, along_require,
    along_perform, along_expect, along_reject]
  refine fun r => ⟨checkSpec_of_length (by simp [hafter]), fun credential hr _ _ r' =>
    ⟨checkSpec_of_length (by simp [hafter]), fun enrollment hr' _ secret hsecret t =>
      ⟨?_, fun step _ _ => checkSpec_later _ (by simp [hafter])⟩⟩⟩
  subst hr hr'
  intro x m' secret' hx _ hm' hsecret' _
  cases (hop t enrollment _ _).symm.trans hx
  cases hm.symm.trans hm'
  cases hsecret.symm.trans hsecret'
  exact ⟨fun step => f (step, t), fun step => hf _, rfl⟩

theorem checkSpec_disableMFA (ctx : Context) (password code : String) (version : Int) :
    Along (CheckSpec svc (.disableMFA ctx password code version)) []
      (svc.program (.disableMFA ctx password code version)) := by
  simp only [program, disableMFA, bind_assoc, along_require]
  intro actor hactor m hm
  obtain ⟨rfl, -⟩ := requireSessionUser_eq hactor
  exact checkSpec_requireFactor rfl (fun _ _ _ _ => rfl) hm fun y => rfl

theorem checkSpec_regenerate (ctx : Context) (password code : String) (version : Int) :
    Along (CheckSpec svc (.regenerateMFARecoveryCodes ctx password code version)) []
      (svc.program (.regenerateMFARecoveryCodes ctx password code version)) := by
  simp only [program, regenerateMFARecoveryCodes, bind_assoc, along_require]
  intro actor hactor m hm
  exact checkSpec_requireFactor rfl (fun _ _ _ _ => rfl) hm fun y => rfl

theorem checkSpec_verify (token code recoveryCode : String) :
    Along (CheckSpec svc (.verifyMFAChallenge token code recoveryCode)) []
      (svc.program (.verifyMFAChallenge token code recoveryCode)) := by
  simp only [program, verifyMFAChallenge, query, Service.now, bind_assoc, along_require,
    along_perform, along_expect, along_reject]
  refine fun m hm _ r => ⟨checkSpec_of_length (by simp [Op.presentsAfter]), fun challenge hr t =>
    ⟨checkSpec_of_length (by simp [Op.presentsAfter]), fun _ r' =>
      ⟨checkSpec_of_length (by simp [Op.presentsAfter]), fun user hr' _ r'' =>
        ⟨?_, fun enrollment _ _ => checkSpec_later _ (by simp [Op.presentsAfter])⟩⟩⟩⟩
  intro x m' secret hx henabled hm' hsecret hcode
  cases r'' with
  | error err => cases hx
  | ok enrollment =>
    cases hx
    cases hm.symm.trans hm'
    simp only at henabled hsecret hcode
    have hcheck : ∀ now, checkFactor m enrollment challenge.userID (Go.trimSpace code)
        (Go.trimSpace recoveryCode) now =
          (Program.require codeRefused (m.validateTOTP secret (Go.trimSpace code) now) >>=
            fun step =>
            Program.reject (step ≤ enrollment.lastUsedStep) codeRefused >>= fun _ =>
              return (step, "")) := by
      intro now
      simp only [checkFactor, ne_eq, hcode, not_false_eq_true, if_true, hsecret]
      rfl
    simp only [Program.expect, Program.ret_bind, Program.reject, henabled, ne_eq, not_true_eq_false,
      if_false, hcheck, bind_assoc]
    exact ⟨_, fun step => rfl, rfl⟩

theorem program_checkSpec (op : Op) : Along (CheckSpec svc op) [] (svc.program op) := by
  cases op with
  | verifyMFAChallenge token code recoveryCode => exact checkSpec_verify token code recoveryCode
  | disableMFA ctx password code version => exact checkSpec_disableMFA ctx password code version
  | regenerateMFARecoveryCodes ctx password code version =>
    exact checkSpec_regenerate ctx password code version
  | _ => exact Along.of_length (n := 0) (fun _ _ _ _ _ _ _ _ h => nomatch h) _ (Nat.zero_le _)

end Spec

section Check

variable {x : Presented} {m : MFACrypto} {secret : String} {bytes : Bytes} {p : Prog Reply}
  {fresh : Int}

theorem Presented.Checked.outcome (h : x.Checked m secret p)
    (hbytes : m.decodeSecret secret = some bytes) (hmatch : m.Matches bytes x.code x.now fresh) :
    (p.outcome = none ↔
      bytes ≠ [] ∧ ∀ step, m.Matches bytes x.code x.now step → x.enrollment.lastUsedStep < step) ∧
    (p.outcome ≠ none → p.outcome = some (.error codeRefused)) := by
  obtain ⟨rest, hrest, rfl⟩ := h
  by_cases hne : bytes = []
  · subst hne
    rw [MFACrypto.validateTOTP_nil hbytes]
    simp [Program.require]
  · obtain ⟨step, hstep⟩ := MFACrypto.exists_validateTOTP hbytes hne hmatch
    obtain ⟨hfound, holdest⟩ := MFACrypto.validateTOTP_eq_some hbytes hstep
    rw [hstep]
    by_cases hused : step ≤ x.enrollment.lastUsedStep
    · simp only [Program.require, Program.ret_bind, Program.reject, hused, if_true]
      refine ⟨⟨fun hnone => (by cases hnone), fun hfresh => ?_⟩, fun _ => rfl⟩
      exact absurd (hfresh.2 step hfound) (Int.not_lt.2 hused)
    · simp only [Program.require, Program.ret_bind, Program.reject, hused, if_false, hrest]
      refine ⟨⟨fun _ => ⟨hne, fun other hother => ?_⟩, fun _ => trivial⟩, fun h => absurd rfl h⟩
      exact Int.lt_of_lt_of_le (Int.not_le.1 hused) (holdest other hother)

end Check

theorem recorded_of_step {svc : Service} {π : Policy} {w : World} {c d : Config} {ev : Event}
    {k : ev.call.Res → Prog Reply} {a : Answer} (h : svc.machine.Reach π w c)
    (hf : svc.machine.Fired c ev d k a) {newer acts : List Act}
    (hacts : c.actsOf ev.thread = newer ++ acts)
    {x : Presented} (hx : ev.request.presents acts = some x) {m : MFACrypto}
    (hmfa : svc.mfa = some m) {secret : String}
    (hsecret : m.decryptSecret x.userID x.enrollment.secretCiphertext = some secret)
    {row : MFAEnrollment} (hrow : row ∈ Event.accepted ev) :
    row.userID = x.userID ∧ m.validateTOTP secret x.code x.now = some row.lastUsedStep := by
  obtain ⟨-, -, -, -, code, hcode, hchecked, -, -⟩ := accepted_of_step h hf hrow
  obtain ⟨⟨raw, hraw, hxcode⟩, hread, htime⟩ := presents_spec hx
  obtain ⟨m', enrollment, secret', now, hm', -, honly, hnow, hsecret', hstep⟩ := hchecked
  cases hmfa.symm.trans hm'
  cases hraw.symm.trans hcode
  have heq := honly _ (hacts ▸ List.mem_append_right newer hread) rfl
  rw [hacts, List.reverse_append, List.findSome?_append, htime, Option.some_or] at hnow
  obtain ⟨userID, _, _, _⟩ := x
  generalize row.userID = user at heq hsecret' ⊢
  cases heq
  cases hsecret.symm.trans hsecret'
  cases hnow
  exact ⟨rfl, hxcode ▸ hstep⟩

/-- A call presents the code of some step of the window.  It goes on if and only if no used step
of the window has the same code, and then it records an unused one. -/
theorem fresh_code_accepted_iff (svc : Service) (π : Policy) (w : World) (c : Config)
    (h : svc.machine.Reach π w c) (later earlier : List Event) (ev : Event)
    (hc : c.history = later ++ ev :: earlier) (x : Presented)
    (hx : ev.request.presents (threadActs (ev :: earlier) ev.thread) = some x)
    (henabled : x.enrollment.status = .enabled) (m : MFACrypto) (hmfa : svc.mfa = some m)
    (secret : String)
    (hsecret : m.decryptSecret x.userID x.enrollment.secretCiphertext = some secret)
    (bytes : Bytes) (hbytes : m.decodeSecret secret = some bytes) (fresh : Int)
    (hmatch : m.Matches bytes x.code x.now fresh) :
    (ev.outcome = none ↔ bytes ≠ [] ∧
      ∀ used ≤ x.enrollment.lastUsedStep, ¬m.Matches bytes x.code x.now used) ∧
    (ev.outcome ≠ none → ev.outcome = some (.error codeRefused)) ∧
    ∀ e ∈ later, e.thread = ev.thread → ∀ row ∈ Event.accepted e, row.userID = x.userID ∧
      x.enrollment.lastUsedStep < row.lastUsedStep ∧
        m.Matches bytes x.code x.now row.lastUsedStep := by
  obtain ⟨c0, c1, k, a, h0, rfl, hf, hp, h1⟩ := h.event_split hc
  have hcode : x.code ≠ "" := by
    intro hempty
    have := hmatch.utf8ByteSize
    rw [hempty] at this
    cases this
  have hacts : threadActs (ev :: c0.history) ev.thread =
      ⟨ev.call, ev.answer⟩ :: c0.actsOf ev.thread :=
    hf.history ▸ hf.actsOf_self
  have hchecked := h0.along (fun op => program_checkSpec op) hf x m secret (hacts ▸ hx)
    henabled hmfa hsecret hcode
  obtain ⟨hiff, hrefused⟩ := hchecked.outcome hbytes hmatch
  rw [← hf.outcome] at hiff hrefused
  have hiff : ev.outcome = none ↔ bytes ≠ [] ∧
      ∀ used ≤ x.enrollment.lastUsedStep, ¬m.Matches bytes x.code x.now used := by
    rw [hiff]
    refine and_congr_right fun _ => forall_congr' fun step => ?_
    constructor
    · exact fun hlt hle hstep => absurd (hlt hstep) (Int.not_lt.2 hle)
    · exact fun hnot hstep => Int.not_le.1 fun hle => hnot hle hstep
  refine ⟨hiff, hrefused, fun e he hthread row hrow => ?_⟩
  obtain ⟨c2, c3, k', a', h2, hf', -, -⟩ := h1.event_of_mem (hf.history ▸ hc) he
  have hr2 : svc.machine.Reach π w c2 := (Machine.Run.fired h0 hf hp).trans h2
  have hsub : c1.history <:+ c2.history := h2.history_suffix
  have hmem : ev ∈ c2.history := hsub.mem (hf.history ▸ List.mem_cons_self)
  have hnone : ev.outcome = none := by
    by_contra hsome
    exact hr2.thread_ne_of_outcome hf' hmem (Option.isSome_iff_ne_none.2 hsome) hthread.symm
  obtain ⟨between, hbetween⟩ := hsub
  have hacts2 : c2.actsOf e.thread =
      threadActs between e.thread ++ threadActs (ev :: c0.history) ev.thread := by
    rw [hthread, ← hf.history, Config.actsOf, ← hbetween, List.filter_append, List.map_append]
    rfl
  obtain ⟨huser, hstep⟩ := recorded_of_step hr2 hf' hacts2
    ((hr2.request_eq hf' hmem hthread.symm) ▸ hx) hmfa hsecret hrow
  obtain ⟨hfound, -⟩ := MFACrypto.validateTOTP_eq_some hbytes hstep
  exact ⟨huser, Int.not_le.1 fun hle => (hiff.1 hnone).2 _ hle hfound, hfound⟩

instance (m : MFACrypto) (bytes : Bytes) (code : String) (now : Time) (step : Int) :
    Decidable (m.Matches bytes code now step) :=
  inferInstanceAs (Decidable (_ ∧ _))

namespace sample

def presentAt (t : Time) : List (Choice Op Answer) :=
  signIn ++ enrol ++ [.start (.disableMFA bob "correct horse" code 2), .step 4 (.row 0),
    .step 4 (.row 0), .step 4 (.time t)]

def secretBytes : Bytes := [0, 0, 0, 0, 0]

end sample

theorem outcome_of_refused {o : Option (Except AppError Reply)}
    (h : o.any (fun
      | .error err => err = codeRefused
      | .ok _ => false) = true) : o = some (.error codeRefused) := by
  match o with
  | none => cases h
  | some (.ok _) => cases h
  | some (.error err) => rw [of_decide_eq_true h]

/-- Steps 3 to 5 share a code, step 3 has been used, and the code of steps 4 and 5 is refused. -/
theorem fresh_code_refused : ∃ (c : Config) (ev : Event) (x : Presented),
    (sample [] (some sample.crypto)).machine.Reach .any (start 0) c ∧ ev ∈ c.history.head? ∧
    ev.request.presents (threadActs c.history ev.thread) = some x ∧
    x.enrollment.lastUsedStep = 3 ∧ sample.crypto.Matches sample.secretBytes x.code x.now 4 ∧
    ev.outcome = some (.error codeRefused) := by
  obtain ⟨c, hc, ev, hev, x, hx, hlast, hmatch, hrefused⟩ : ∃ c,
      (sample [] (some sample.crypto)).machine.Reach .any (start 0) c ∧
      ∃ ev ∈ c.history.head?, ∃ x ∈ ev.request.presents (threadActs c.history ev.thread),
        x.enrollment.lastUsedStep = 3 ∧ sample.crypto.Matches sample.secretBytes x.code x.now 4 ∧
        ev.outcome.any (fun
          | .error err => err = codeRefused
          | .ok _ => false) = true :=
    Machine.replay_exists (sample.presentAt (140 * Go.second)) (by decide +kernel)
  exact ⟨c, ev, x, hc, hev, hx, hlast, hmatch, outcome_of_refused hrefused⟩

theorem fresh_code_accepted_later : ∃ (c : Config) (ev : Event) (x : Presented),
    (sample [] (some sample.crypto)).machine.Reach .any (start 0) c ∧ ev ∈ c.history.head? ∧
    ev.request.presents (threadActs c.history ev.thread) = some x ∧
    x.enrollment.lastUsedStep = 3 ∧ sample.crypto.Matches sample.secretBytes x.code x.now 9 ∧
    ev.outcome = none := by
  obtain ⟨c, hc, ev, hev, x, hx, hlast, hmatch, henabled, hsecret, hwindow⟩ : ∃ c,
      (sample [] (some sample.crypto)).machine.Reach .any (start 0) c ∧
      ∃ ev ∈ c.history.head?, ∃ x ∈ ev.request.presents (threadActs c.history ev.thread),
        x.enrollment.lastUsedStep = 3 ∧ sample.crypto.Matches sample.secretBytes x.code x.now 9 ∧
        x.enrollment.status = .enabled ∧ x.enrollment.secretCiphertext = sample.secret ∧
        ∀ step ∈ MFACrypto.window x.now, 3 < step :=
    Machine.replay_exists (sample.presentAt (300 * Go.second)) (by decide +kernel)
  obtain ⟨earlier, hhistory⟩ : ∃ earlier, c.history = ev :: earlier :=
    ⟨c.history.tail, (List.cons_head?_tail hev).symm⟩
  have h := fresh_code_accepted_iff (sample [] (some sample.crypto)) .any (start 0) c hc [] earlier
    ev hhistory x (hhistory ▸ hx) henabled sample.crypto rfl sample.secret (congrArg some hsecret)
    sample.secretBytes (by decide) 9 hmatch
  refine ⟨c, ev, x, hc, hev, hx, hlast, hmatch, h.1.2 ⟨nofun, fun used hle hused => ?_⟩⟩
  have := hwindow used hused.1
  omega

end IdentityService
