import IdentityService.Defs.RowInvariant

/-! Where the secret columns come from: every one is the hash or the encryption of a value that was
drawn, or of a password that was presented. -/

namespace IdentityService

open Lib Service
open Lib.Program (Along along_require along_perform along_expect along_reject along_ret)

def Op.newPassword : Op → Option String
  | .register _ _ _ _ _ password => some password
  | .changePassword _ _ new => some new
  | .confirmPasswordReset _ new => some new
  | _ => none

def RowSpec.sealed (svc : Service) (drew : Draw → String → Prop) (presented : String → Prop) :
    RowSpec where
  credentials r := ∃ salt password, drew .salt salt ∧ presented password ∧
    r.secretHash = svc.hasher.encode salt password
  sessions r := ∃ raw, drew .refreshToken raw ∧ r.refreshTokenHash = svc.hashRefreshToken raw
  userMFA e := ∃ m nonce secret, svc.mfa = some m ∧ drew .nonce nonce ∧ drew .totpSecret secret ∧
    e.secretCiphertext = m.encrypt nonce e.userID secret
  mfaRecoveryCodes r := ∃ m code, svc.mfa = some m ∧ drew .recoveryCode code ∧
    r.codeHash = m.recoveryCodeHash (MFACrypto.displayCode code)
  mfaLoginChallenges r := ∃ token, drew .challengeToken token ∧
    r.tokenHash = svc.hashMFAChallengeToken token
  passwordResetChallenges r := ∃ token, drew .resetToken token ∧
    r.tokenHash = svc.hashPasswordResetToken token
  serviceAccounts a := ∃ salt secret, drew .salt salt ∧ drew .serviceSecret secret ∧
    a.secretHash = svc.hasher.encode salt secret

theorem RowSpec.sealed_mono {svc : Service} {drew drew' : Draw → String → Prop}
    {presented presented' : String → Prop} (hdrew : ∀ kind s, drew kind s → drew' kind s)
    (hpresented : ∀ s, presented s → presented' s) :
    (RowSpec.sealed svc drew presented).Le (.sealed svc drew' presented') where
  users _ h := h
  credentials _ := fun ⟨salt, password, hsalt, hpassword, h⟩ =>
    ⟨salt, password, hdrew _ _ hsalt, hpresented _ hpassword, h⟩
  sessions _ := fun ⟨raw, hraw, h⟩ => ⟨raw, hdrew _ _ hraw, h⟩
  userMFA _ := fun ⟨m, nonce, secret, hm, hnonce, hsecret, h⟩ =>
    ⟨m, nonce, secret, hm, hdrew _ _ hnonce, hdrew _ _ hsecret, h⟩
  mfaRecoveryCodes _ := fun ⟨m, code, hm, hcode, h⟩ => ⟨m, code, hm, hdrew _ _ hcode, h⟩
  mfaLoginChallenges _ := fun ⟨token, htoken, h⟩ => ⟨token, hdrew _ _ htoken, h⟩
  passwordResetChallenges _ := fun ⟨token, htoken, h⟩ => ⟨token, hdrew _ _ htoken, h⟩
  serviceAccounts _ := fun ⟨salt, secret, hsalt, hsecret, h⟩ =>
    ⟨salt, secret, hdrew _ _ hsalt, hdrew _ _ hsecret, h⟩

section Calls

variable {svc : Service} {op : Op} {acts : List Act}

def Seals (svc : Service) (op : Op) (acts : List Act) (body : Tx Nat) : Prop :=
  ∀ (drew : Draw → String → Prop) (presented : String → Prop),
    (∀ kind s, Act.drew kind s ∈ acts → drew kind s) →
    (∀ s, op.newPassword = some s → presented s) →
    body.Every (Stmt.Preserves (.sealed svc drew presented))

def Op.hashesApart : Op → Bool
  | .register .. | .confirmMFASetup .. | .regenerateMFARecoveryCodes .. => true
  | _ => false

def SealSpec (svc : Service) (op : Op) (acts : List Act) :
    (e : Effect) → e.Res → Prog Reply → Prop
  | .within body, .ok _, _ => op.hashesApart = true → Seals svc op acts body
  | _, _, _ => True

open Tx.Every in
theorem sealSpec_register (ctx : Context) (username displayName email phone password : String) :
    Along (SealSpec svc (.register ctx username displayName email phone password)) []
      (svc.program (.register ctx username displayName email phone password)) := by
  have hdraw : ∀ acts kind r p,
      SealSpec svc (.register ctx username displayName email phone password) acts (.draw kind)
        r p :=
    fun _ _ _ _ => trivial
  simp only [program, register, Service.hash, Service.now, newUUID, bind_assoc, pure_bind,
    along_reject, along_expect, along_require, along_perform, along_draw_iff hdraw]
  intro _ _ _ salt now
  refine ⟨trivial, fun fields hfields userID credentialID => ?_⟩
  obtain ⟨actor, rfl, -⟩ := Platform.auditNew_eq_some.1 hfields
  refine along_newOutboxEvent_of hdraw fun event _ => ?_
  simp only [within, along_perform, along_expect]
  intro r
  refine ⟨?_, fun _ _ => along_ret _⟩
  cases r with
  | error err => trivial
  | ok n =>
    intro _ drew presented hdrew hpresented
    exact bind (bind (plain trivial) fun _ =>
      plain ⟨salt, password, hdrew _ _ (by simp), hpresented _ rfl, rfl⟩) fun _ =>
        bind (plain trivial) fun _ => .ret _

open Tx.Every in
theorem sealSpec_newRecoveryCodes {m : MFACrypto} {actor : Principal} {now : Time}
    {payload : List MFARecoveryCode → Payload} {body : List MFARecoveryCode → OutboxEvent → Tx Nat}
    {reply : List String → Nat → Reply} (hmfa : svc.mfa = some m)
    (hbody : ∀ drew presented rows event,
      (∀ row ∈ rows, (RowSpec.sealed svc drew presented).mfaRecoveryCodes row) →
      (body rows event).Every (Stmt.Preserves (.sealed svc drew presented))) :
    Along (SealSpec svc op) acts (do
      let codes ← generateRecoveryCodes MFACrypto.recoveryCodeCount
      let fields ← .require (.unauthorized "authenticated actor is required")
        (svc.platform.auditNew (some actor) now)
      let rows ← recoveryCodeRows actor.id fields (codes.map m.recoveryCodeHash)
      let event ← mfaStatusChangedEvent (some actor) actor.id now (payload rows)
      let n ← .expect translateIdentityError (← within (body rows event))
      return reply codes n) := by
  refine along_newRecoveryCodes (fun _ _ _ _ => trivial)
    fun draws compacts rows event hdraws _ _ => ?_
  simp only [within, along_perform, along_expect]
  intro r
  refine ⟨?_, fun n _ => along_ret _⟩
  cases r with
  | error err => trivial
  | ok n =>
    intro _ drew presented hdrew _
    refine hbody _ _ _ _ fun row hrow => ?_
    have hhash : row.codeHash ∈ rows.map (·.codeHash) := List.mem_map_of_mem hrow
    rw [hdraws.hashes, List.map_map, List.mem_map] at hhash
    obtain ⟨compact, hcompact, hhash⟩ := hhash
    exact ⟨m, compact, hmfa,
      hdrew _ _ (List.mem_append_left _ (hdraws.drawn compact hcompact)), hhash.symm⟩

open Tx.Every in
theorem sealSpec_confirm (ctx : Context) (code : String) (version : Int) :
    Along (SealSpec svc (.confirmMFASetup ctx code version)) []
      (svc.program (.confirmMFASetup ctx code version)) := by
  simp only [program, confirmMFASetup, query, Service.now, bind_assoc, pure_bind, along_require,
    along_perform, along_expect, along_reject, SealSpec, true_and]
  intro actor hactor m hmfa _ enrollment _ now _ secret _ step _
  obtain ⟨rfl, -⟩ := requireSessionUser_eq hactor
  refine sealSpec_newRecoveryCodes hmfa fun drew presented rows event hrows => ?_
  exact bind (guarded fun _ hr _ => hr) fun _ =>
    bind (replaceRecoveryCodes_of_mem (fun _ => trivial) rows hrows) fun _ =>
      bind (exec fun _ hr _ => hr) fun _ => bind (plain trivial) fun _ => .ret _

open Tx.Every in
theorem sealSpec_regenerate (ctx : Context) (password code : String) (version : Int) :
    Along (SealSpec svc (.regenerateMFARecoveryCodes ctx password code version)) []
      (svc.program (.regenerateMFARecoveryCodes ctx password code version)) := by
  simp only [program, regenerateMFARecoveryCodes, requireFactor, verifyCurrentPassword, query,
    Service.now, bind_assoc, pure_bind, along_require, along_perform, along_expect, along_reject,
    SealSpec, true_and]
  intro actor hactor m hmfa _ _ _ _ _ _ enrollment _ _ secret _ now step _ _
  obtain ⟨rfl, -⟩ := requireSessionUser_eq hactor
  refine sealSpec_newRecoveryCodes hmfa fun drew presented rows event hrows => ?_
  exact bind (guarded fun _ hr _ => hr) fun _ =>
    bind (replaceRecoveryCodes_of_mem (fun _ => trivial) rows hrows) fun _ =>
      bind (plain trivial) fun _ => .ret _

theorem program_sealSpec (op : Op) : Along (SealSpec svc op) [] (svc.program op) := by
  cases op with
  | register ctx username displayName email phone password =>
    exact sealSpec_register ctx username displayName email phone password
  | confirmMFASetup ctx code version => exact sealSpec_confirm ctx code version
  | regenerateMFARecoveryCodes ctx password code version =>
    exact sealSpec_regenerate ctx password code version
  | _ =>
    refine Along.of_length (n := 0) (fun acts e r p _ => ?_) _ (Nat.zero_le _)
    unfold SealSpec
    split
    · exact fun h => by cases h
    · trivial

end Calls

section Commits

variable {svc : Service} {op : Op} {acts : List Act} {body : Tx Nat} {n : Nat} {next : Prog Reply}
  {s s' : Store}

open Tx.Every in
theorem Commit.sealed (h : Commit svc op acts body n next) (hop : op.hashesApart = false) :
    Seals svc op acts body := by
  intro drew presented hdrew hpresented
  cases h with
  | loginChallenge | loginSession =>
    exact bind (plain ⟨_, hdrew _ _ (by simp), rfl⟩) fun _ => .ret _
  | refresh => exact bind (guarded fun _ _ _ => ⟨_, hdrew _ _ (by simp), rfl⟩) fun _ => .ret _
  | changePassword =>
    exact bind (guarded fun _ _ _ => ⟨_, _, hdrew _ _ (by simp), hpresented _ rfl, rfl⟩) fun _ =>
      bind (exec fun _ hr _ => hr) fun _ => bind (plain trivial) fun _ => .ret _
  | confirmPasswordReset =>
    exact bind (guarded fun _ hr _ => hr) fun _ =>
      bind (guarded fun _ _ _ => ⟨_, _, hdrew _ _ (by simp), hpresented _ rfl, rfl⟩) fun _ =>
        bind (exec fun _ hr _ => hr) fun _ => bind (plain trivial) fun _ => .ret _
  | verifyMFAChallenge =>
    refine bind (guarded fun _ hr _ => hr) fun _ => bind ?_ fun _ =>
      bind (plain ⟨_, hdrew _ _ (by simp), rfl⟩) fun _ => .ret _
    unfold spendFactor
    split
    · exact guarded fun _ hr _ => hr
    · exact guarded fun _ hr _ => hr
  | @startMFASetup _ nonce secret _ _ _ _ m _ _ current _ hmfa =>
    cases current with
    | none =>
      exact bind (plain ⟨m, nonce, secret, hmfa, hdrew _ _ (by simp), hdrew _ _ (by simp), rfl⟩)
        fun _ => .ret _
    | some e =>
      refine bind (guarded fun e _ hg => ?_) fun _ => bind (plain trivial) fun _ => .ret _
      have huser := (Repository.resetPendingUpdate_guard.1 hg).1
      exact ⟨m, nonce, secret, hmfa, hdrew _ _ (by simp), hdrew _ _ (by simp),
        by simp [huser]⟩
  | issuePasswordReset hchallenge =>
    exact bind (plain fun _ hr _ => hr) fun _ =>
      bind (plain ⟨_, hdrew _ _ (by simp), hchallenge.1⟩) fun _ => .ret _
  | createServiceAccount haccount =>
    exact bind (plain ⟨_, _, hdrew _ _ (by simp), hdrew _ _ (by simp), haccount.2.2.1⟩) fun _ =>
      bind (plain trivial) fun _ => .ret _
  | rotateServiceAccountSecret =>
    exact bind (guarded fun _ _ _ => ⟨_, _, hdrew _ _ (by simp), hdrew _ _ (by simp), rfl⟩) fun _ =>
      bind (plain trivial) fun _ => .ret _
  | register | confirmMFASetup | regenerateMFARecoveryCodes => cases hop
  | _ =>
    repeat' first
      | exact .ret _
      | exact plain trivial
      | exact plain fun _ hr _ => hr
      | exact guarded fun _ hr _ => hr
      | exact exec trivial
      | exact exec fun _ hr _ => hr
      | split
      | refine bind ?_ fun _ => ?_

end Commits

def Config.Drew (c : Config) (kind : Draw) (s : String) : Prop :=
  ∃ ev ∈ c.history, ev.act = Act.drew kind s

def Config.Presented (c : Config) (password : String) : Prop :=
  ∃ ev ∈ c.history, ev.request.newPassword = some password

section Runs

variable {svc : Service} {π : Policy} {w : World} {clock : Time} {c d : Config} {ev : Event}
  {k : ev.call.Res → Prog Reply} {a : Answer}

theorem sealing_of_committed (h : svc.machine.Reach π w c) (hf : svc.machine.Fired c ev d k a)
    {body : Tx Nat} {n : Nat} {next : Prog Reply} (hcom : Committed svc c ev d body n next) :
    Seals svc ev.request (c.actsOf ev.thread) body := by
  by_cases hop : ev.request.hashesApart = true
  · have hspec := h.along (fun op => program_sealSpec op) hf
    have hact := hcom.act
    obtain ⟨i, q, e, r, s, s', o⟩ := ev
    cases hact
    exact hspec hop
  · exact hcom.commit.sealed (by simpa using hop)

theorem sealed_of_step (h : svc.machine.Reach π w c) (hf : svc.machine.Fired c ev d k a)
    (hsealed : c.state.store.Satisfies (.sealed svc c.Drew c.Presented)) :
    d.state.store.Satisfies (.sealed svc d.Drew d.Presented) := by
  have hsub : ∀ e ∈ c.history, e ∈ d.history := by
    rw [hf.history]
    exact fun e he => List.mem_cons_of_mem _ he
  have hmono : (RowSpec.sealed svc c.Drew c.Presented).Le (.sealed svc d.Drew d.Presented) :=
    RowSpec.sealed_mono (fun _ _ ⟨e, he, hact⟩ => ⟨e, hsub e he, hact⟩)
      fun _ ⟨e, he, hpassword⟩ => ⟨e, hsub e he, hpassword⟩
  obtain ⟨body, n, next, hcom⟩ | hstore := committed_or_store_eq h hf
  · refine .of_run (sealing_of_committed h hf hcom _ _ (fun kind s hs => ?_) fun s hs => ?_)
      hcom.run (hsealed.mono hmono)
    · obtain ⟨e, he, -, hact⟩ := Machine.Reach.mem_actsOf.1 hs
      exact ⟨e, hsub e he, hact⟩
    · exact ⟨ev, hf.history ▸ List.mem_cons_self, hs⟩
  · rw [hstore]
    exact hsealed.mono hmono

end Runs

/-- The database never holds a secret as it was drawn or presented: every refresh token, challenge,
reset token and recovery code is stored as its hash, every password and account secret as its hash
with a drawn salt, and every TOTP secret as encrypted for its user with a drawn nonce. -/
theorem secrets_are_stored_sealed (svc : Service) (clock : Time) (c : Config)
    (h : svc.machine.Reach .any (start clock) c) :
    c.state.store.Satisfies (.sealed svc c.Drew c.Presented) := by
  refine h.invariant
    (I := fun d : Config => d.state.store.Satisfies (.sealed svc d.Drew d.Presented))
    (.empty _) ?_ ?_
  · intro d q _ ih
    exact ih
  · intro d ev d' k a hrun ih hf _
    exact sealed_of_step hrun hf ih

theorem secrets_are_stored_sealed_enrolled : ∃ c : Config,
    (sample [] (some sample.crypto)).machine.Reach .any (start 0) c ∧
    c.state.store.mfaRecoveryCodes.rows.length = 10 ∧
    c.state.store.Satisfies (.sealed (sample [] (some sample.crypto)) c.Drew c.Presented) := by
  obtain ⟨c, hc, hcodes⟩ : ∃ c : Config,
      (sample [] (some sample.crypto)).machine.Reach .any (start 0) c ∧
      c.state.store.mfaRecoveryCodes.rows.length = 10 :=
    Machine.replay_exists (sample.signIn ++ sample.enrol) (by decide +kernel)
  exact ⟨c, hc, hcodes, secrets_are_stored_sealed _ 0 c hc⟩

end IdentityService
