import IdentityService.Defs.Alone
import IdentityService.Outbox.Published
import IdentityService.Users.Names
import IdentityService.Users.References

/-! Whoever signs in can stay signed in: total correctness of `Login` and of the chain of `Refresh`
calls that follow it. -/

namespace IdentityService

open Lib Service
open Lib.Program (total_perform total_bind)

def Vacant (svc : Service) (s : Store) (v : String) : Prop :=
  v ≠ "" ∧ ∀ r ∈ s.sessions.rows, r.id ≠ v ∧ r.refreshTokenHash ≠ svc.hashRefreshToken v

def Effect.Fresh (svc : Service) (s : Store) (t : Time) : (e : Effect) → e.Res → Prop
  | .draw _, r => ∃ v, r = some v ∧ Vacant svc s v
  | e, r => e.Faultless t r

section Total

variable {α : Type} {svc : Service} {s : Store} {t : Time} {w : World} {n : Nat}
  {Ψ : α → World → Prop}

theorem total_now {f : Time → Prog α}
    (h : (f t).Total (svc.machine.Steps (Effect.Fresh svc s t)) Ψ n { w with clock := t }) :
    (now >>= f).Total (svc.machine.Steps (Effect.Fresh svc s t)) Ψ (n + 1) w := by
  have hsteps {r : Time} {w' : World} : svc.machine.Steps (Effect.Fresh svc s t) w .now r w' ↔
      r = t ∧ w' = { w with clock := t } := steps_now
  refine total_perform ⟨t, _, hsteps.2 ⟨rfl, rfl⟩⟩ fun r w' hr => ?_
  obtain ⟨rfl, rfl⟩ := hsteps.1 hr
  exact h

theorem total_draw {kind : Draw} {err : AppError} {f : String → Prog α} (hcan : ∃ v, Vacant svc s v)
    (h : ∀ v, Vacant svc s v → (f v).Total (svc.machine.Steps (Effect.Fresh svc s t)) Ψ n w) :
    (draw kind err >>= f).Total (svc.machine.Steps (Effect.Fresh svc s t)) Ψ (n + 1) w := by
  obtain ⟨v, hv⟩ := hcan
  simp only [draw, bind_assoc]
  refine total_perform ⟨some v, w, ⟨v, rfl, hv⟩, .value v, rfl⟩ fun r w' hr => ?_
  obtain ⟨⟨v, rfl, hv⟩, a, hperf⟩ := hr
  rw [perform_draw hperf]
  exact h v hv

theorem total_sign {claims : TokenClaims} {err : AppError} {f : String → Prog α}
    (h : (f (svc.issuer.signedString claims)).Total
      (svc.machine.Steps (Effect.Fresh svc s t)) Ψ n w) :
    (Program.perform (Effect.sign claims) >>= fun r => Program.require err r >>= f).Total
      (svc.machine.Steps (Effect.Fresh svc s t)) Ψ (n + 1) w := by
  refine total_perform ⟨some _, w, Option.some_ne_none _, .done, rfl⟩ fun r w' hr => ?_
  obtain ⟨hsome, a, hperf⟩ := hr
  obtain ⟨rfl, hraw⟩ := perform_sign hperf
  obtain ⟨raw, rfl⟩ := Option.ne_none_iff_exists'.1 hsome
  rw [hraw raw rfl]
  exact h

theorem total_read {q : Query} {row : q.Row} {g : RepositoryError → AppError}
    {f : q.Row → Prog α} (hselect : w.store.select svc.lower q = [row])
    (h : (f row).Total (svc.machine.Steps (Effect.Fresh svc s t)) Ψ n w) :
    (query q >>= fun r => Program.expect g r >>= f).Total
      (svc.machine.Steps (Effect.Fresh svc s t)) Ψ (n + 1) w := by
  have hsteps {r : Except RepositoryError q.Row} {w' : World} :
      svc.machine.Steps (Effect.Fresh svc s t) w (.query q) r w' ↔ r = .ok row ∧ w' = w := by
    refine (steps_found (t := t)).trans ?_
    simp [hselect]
  refine total_perform ⟨_, _, hsteps.2 ⟨rfl, rfl⟩⟩ fun r w' hr => ?_
  obtain ⟨rfl, rfl⟩ := hsteps.1 hr
  exact h

theorem total_query {q : Query} {f : Except RepositoryError q.Row → Prog α}
    (h : ∀ r, (∃ row ∈ w.store.select svc.lower q, r = .ok row) ∨
        w.store.select svc.lower q = [] ∧ r = .error .notFound →
      (f r).Total (svc.machine.Steps (Effect.Fresh svc s t)) Ψ n w) :
    (query q >>= f).Total (svc.machine.Steps (Effect.Fresh svc s t)) Ψ (n + 1) w := by
  refine total_perform ?_ fun r w' hr => ?_
  · by_cases hnil : w.store.select svc.lower q = []
    · exact ⟨_, _, (steps_found (t := t)).2 (.inr ⟨hnil, rfl, rfl⟩)⟩
    · obtain ⟨row, hrow⟩ := List.exists_mem_of_ne_nil _ hnil
      exact ⟨_, _, (steps_found (t := t)).2 (.inl ⟨row, hrow, rfl, rfl⟩)⟩
  · obtain ⟨row, hrow, rfl, rfl⟩ | ⟨hnil, rfl, rfl⟩ := (steps_found (t := t)).1 hr
    · exact h _ (.inl ⟨row, hrow, rfl⟩)
    · exact h _ (.inr ⟨hnil, rfl⟩)

theorem total_within {body : Tx Nat} {m : Nat} {s' : Store}
    {f : Except RepositoryError Nat → Prog α} (hrun : body.run svc.lower w.store = .ok (m, s'))
    (h : (f (.ok m)).Total (svc.machine.Steps (Effect.Fresh svc s t)) Ψ n { w with store := s' }) :
    (within body >>= f).Total (svc.machine.Steps (Effect.Fresh svc s t)) Ψ (n + 1) w := by
  refine total_perform ⟨_, _, (steps_within (t := t) hrun).2 ⟨rfl, rfl⟩⟩ fun r w' hr => ?_
  obtain ⟨rfl, rfl⟩ := (steps_within (t := t) hrun).1 hr
  exact h

theorem total_issue {subject subjectType sessionID tenantID membershipID : String}
    {f : String × Time → Prog α} (hsubject : subject ≠ "") (htype : subjectType ≠ "")
    (hcan : ∃ v, Vacant svc s v)
    (h : ∀ access, (f (access, t + svc.issuer.ttl)).Total
      (svc.machine.Steps (Effect.Fresh svc s t)) Ψ n { w with clock := t }) :
    (svc.issue subject subjectType sessionID tenantID membershipID >>= f).Total
      (svc.machine.Steps (Effect.Fresh svc s t)) Ψ (n + 3) w := by
  simp only [issue, Program.reject, hsubject, htype, or_self, if_false, bind_assoc, pure_bind]
  refine total_now (total_draw hcan fun v _ => total_sign ?_)
  exact h _

end Total

section Calls

variable {svc : Service} {t : Time} {w : World}

/-- Alone and with fresh draws, the request returns and leaves what `Ψ` says.  A structure, so that
nothing that only mentions it unfolds the program. -/
structure Completes (svc : Service) (t : Time) (w : World) (op : Op) (n : Nat)
    (Ψ : Reply → World → Prop) : Prop where
  total : (svc.program op).Total (svc.machine.Steps (Effect.Fresh svc w.store t)) Ψ n w

structure Usable (svc : Service) (w : World) (token sessionID : String) (expiry : Time) : Prop where
  token_ne : token ≠ ""
  session : ∃ r ∈ w.store.sessions.rows, r.id = sessionID ∧
    r.refreshTokenHash = svc.hashRefreshToken token ∧ r.revokedAt = none ∧ r.expiresAt = expiry ∧
    r.userID ≠ "" ∧ ∃ u ∈ w.store.users.rows, u.id = r.userID ∧ u.status = .active

theorem exists_rotated {s : Store} (session : Session) (hash : String)
    (hfresh : ∀ r ∈ s.sessions.rows, r.refreshTokenHash ≠ session.refreshTokenHash) :
    ∃ t : Table Session,
      t.rows = s.sessions.rows.map (Repository.rotateUpdate session hash).apply := by
  refine ⟨⟨_, List.pairwise_map.2 (s.sessions.distinct.imp_of_mem fun {a b} ha hb hab => ?_)⟩, rfl⟩
  simp only [Constrained.clash, Bool.or_eq_false_iff, decide_eq_false_iff_not] at hab ⊢
  unfold Update.apply
  split
  · rename_i hga
    split
    · rename_i hgb
      exact absurd ((Repository.rotateUpdate_guard.1 hga).1.trans
        (Repository.rotateUpdate_guard.1 hgb).1.symm) hab.1
    · exact ⟨hab.1, fun h => hfresh b hb h.symm⟩
  · split
    · exact ⟨hab.1, hfresh a ha⟩
    · exact hab

theorem completes_refresh {token sessionID : String} {expiry : Time}
    (h : Usable svc w token sessionID expiry) (ht : t < expiry)
    (hcan : ∃ v, Vacant svc w.store v) :
    Completes svc t w (.refresh token) 9 fun reply w' =>
      ∃ tokens, reply = .tokens tokens ∧ tokens.sessionID = sessionID ∧
        Usable svc w' tokens.refreshToken sessionID expiry := by
  constructor
  obtain ⟨r, hr, hid, hhash, hrevoked, hexpires, huserID, u, hu, huid, hactive⟩ := h.session
  have hsession : w.store.select svc.lower (.sessionByRefreshHash (svc.hashRefreshToken token)) =
      [r] := Table.filter_eq_singleton (ρ := Session) hr (by simp [hhash])
        (by simp +contextual [Constrained.clash, hhash])
  have huser : w.store.select svc.lower (.getUser r.userID) = [u] :=
    Table.filter_eq_singleton (ρ := User) hu (by simp [huid]) (by simp [Constrained.clash, huid])
  simp only [program, refresh, bind_assoc, Program.reject, h.token_ne, if_false, pure_bind]
  refine total_read hsession ?_
  simp only [hrevoked, ne_eq, not_true_eq_false, if_false]
  refine total_now ?_
  simp only [hexpires, ht, not_true_eq_false, if_false]
  refine total_read huser ?_
  simp only [hactive, not_true_eq_false, if_false]
  refine total_draw hcan fun raw hraw =>
    total_now (total_issue ?_ (by decide) hcan fun access => ?_)
  · exact huid ▸ huserID
  · obtain ⟨sessions, hsessions⟩ := exists_rotated (s := w.store) (svc.rotated r raw t)
      (svc.hashRefreshToken token) fun x hx => (hraw.2 x hx).2
    have hguard : (Repository.rotateUpdate (svc.rotated r raw t)
        (svc.hashRefreshToken token)).guard r = true :=
      Repository.rotateUpdate_guard.2 ⟨rfl, hhash, hrevoked, rfl⟩
    have hrun : (do
        Repository.rotateSession (svc.rotated r raw t) (svc.hashRefreshToken token)
        return 0 : Tx Nat).run svc.lower w.store =
          .ok (0, { w.store with sessions := sessions }) := by
      simp [Repository.rotateSession, hsessions]
      exact ⟨r, hr, rfl, hhash, hrevoked, rfl⟩
    have hmem : (Repository.rotateUpdate (svc.rotated r raw t)
        (svc.hashRefreshToken token)).assign r ∈ sessions.rows := by
      rw [hsessions]
      exact Update.assign_mem hr hguard
    exact total_within hrun ⟨_, rfl, hid, hraw.1, _, hmem, hid, rfl, hrevoked, hexpires, huserID, u,
      hu, huid, hactive⟩

theorem exists_reset {lower : String → String} {s : Store} (id : String)
    (hlogins : loginsDistinct lower s.users.rows) :
    ∃ users : Table User, users.rows = s.users.rows.map (Repository.resetLoginUpdate id t).apply ∧
      loginsDistinct lower users.rows := by
  have hsame : ∀ u, ((Repository.resetLoginUpdate id t).apply u).id = u.id ∧
      ((Repository.resetLoginUpdate id t).apply u).username = u.username ∧
      ((Repository.resetLoginUpdate id t).apply u).email = u.email := by
    intro u
    unfold Update.apply
    split <;> exact ⟨rfl, rfl, rfl⟩
  obtain ⟨users, husers⟩ := Table.exists_map_apply (t := s.users)
    (u := Repository.resetLoginUpdate id t) fun a b => by
      simp only [Constrained.clash, (hsame a).1, (hsame b).1]
  refine ⟨users, husers, ?_⟩
  rw [husers, loginsDistinct, List.pairwise_map]
  refine hlogins.imp fun {a b} hab => ?_
  rwa [(hsame a).2.1, (hsame b).2.1, (hsame a).2.2, (hsame b).2.2]

theorem completes_login {name password : String} (client : SessionClient) {u : User}
    {r : Credential} (hlogins : loginsDistinct svc.lower w.store.users.rows)
    (hname : Go.trimSpace name ≠ "") (hpassword : password ≠ "")
    (hu : w.store.select svc.lower (.userByLogin (Go.trimSpace name)) = [u]) (huid : u.id ≠ "")
    (hr : w.store.select svc.lower (.passwordCredential u.id) = [r])
    (havailable : available u r t = true) (hverified : svc.verified password r.secretHash = true)
    (hmfa : w.store.mfaEnabled u.id = false) (hcan : ∃ v, Vacant svc w.store v) :
    Completes svc t w (.login name password client) 12 fun reply w' =>
      ∃ tokens, reply = .login ⟨some tokens, false, "", none⟩ ∧
        Usable svc w' tokens.refreshToken tokens.sessionID (t + refreshTTL) := by
  constructor
  obtain ⟨users, husers, hdistinct⟩ := exists_reset (t := t) u.id hlogins
  have hreset : (do
      Repository.resetFailedLogin u.id t
      return 0 : Tx Nat).run svc.lower w.store = .ok (0, { w.store with users := users }) := by
    simp [Repository.resetFailedLogin, husers]
    exact husers ▸ hdistinct
  simp only [program, login, bind_assoc, Program.reject, hname, hpassword, or_self, if_false]
  refine total_read hu (total_read hr (total_now ?_))
  simp only [havailable, hverified, Bool.true_eq_false, if_false, if_true, bind_assoc]
  refine total_within hreset ?_
  simp only [completeLogin, bind_assoc]
  refine total_query fun result hresult => ?_
  obtain ⟨enrollment, hfound, henabled⟩ : ∃ enrollment, found result = .ok enrollment ∧
      enrollment.any (fun e => e.status = .enabled) = false := by
    obtain ⟨e, he, rfl⟩ | ⟨-, rfl⟩ := hresult
    · obtain ⟨he, huser⟩ := List.mem_filter.1 he
      have hnot := List.any_eq_false.1 hmfa e he
      have huser : MFAEnrollment.userID e = u.id := by simpa using huser
      exact ⟨some e, rfl, by simpa [huser] using hnot⟩
    · exact ⟨none, rfl, rfl⟩
  simp only [hfound, Program.expect, Program.require, Program.ret_bind, henabled,
    Bool.false_eq_true, if_false, createSession, prepareSession, Platform.systemContext_eq,
    Platform.auditNew_some, newUUID, bind_assoc, pure_bind]
  refine total_now (total_draw hcan fun raw hraw => total_draw hcan fun id hid =>
    total_issue huid (by decide) hcan fun access => ?_)
  have hsessions : (w.store.sessions.rows ++ [svc.newSession
      ⟨1, t, t, "identity:login", "identity:login"⟩ id u.id "" "" raw t client]).Pairwise
      (fun a b => Constrained.clash a b = false) := by
    refine List.pairwise_append.2 ⟨w.store.sessions.distinct, List.pairwise_singleton _ _, ?_⟩
    intro x hx y hy
    rw [List.mem_singleton.1 hy]
    simp [Constrained.clash, newSession, hid.2 x hx, hraw.2 x hx]
  have hrun : (do
      Repository.createSession (svc.newSession ⟨1, t, t, "identity:login", "identity:login"⟩ id u.id
        "" "" raw t client)
      return 0 : Tx Nat).run svc.lower { w.store with users := users } =
        .ok (0, { w.store with users := users, sessions := ⟨_, hsessions⟩ }) := by
    simp [Repository.createSession]
    rfl
  refine total_within hrun ?_
  · have hactive : u.status = .active := by
      simp only [available, Bool.and_eq_true, decide_eq_true_eq] at havailable
      exact havailable.1.1
    refine ⟨_, rfl, hraw.1, _, List.mem_append_right _ (List.mem_singleton_self _), rfl, rfl, rfl,
      rfl, huid, (Repository.resetLoginUpdate u.id t).apply u, ?_, ?_⟩
    · have hmem : u ∈ w.store.select svc.lower (.userByLogin (Go.trimSpace name)) := by
        rw [hu]
        exact List.mem_singleton_self u
      show _ ∈ users.rows
      rw [husers]
      exact List.mem_map_of_mem (List.mem_filter.1 hmem).1
    · unfold Update.apply
      split <;> exact ⟨rfl, hactive⟩

end Calls

def Ended (svc : Service) (t : Time) (w : World) (op : Op) (reply : Reply) (w' : World) : Prop :=
  ∃ c, svc.machine.Run (.answering (Effect.Fresh svc w.store t)) (svc.machine.begin (.initial w) op)
    c ∧ c.threads = [⟨op, .ret reply⟩] ∧ c.state = w'

/-- A login, and then refreshes before the session expires, each with the token of the one before
and with values left to draw. -/
inductive Kept (svc : Service) (t : Time) (w : World) (name password : String)
    (client : SessionClient) : World → Tokens → Prop
  | login {w' tokens} (hcan : ∃ v, Vacant svc w.store v)
      (h : Ended svc t w (.login name password client) (.login ⟨some tokens, false, "", none⟩) w') :
      Kept svc t w name password client w' tokens
  | refresh {w' w'' t' tokens tokens'} (hkept : Kept svc t w name password client w' tokens)
      (ht : t' < t + refreshTTL) (hcan : ∃ v, Vacant svc w'.store v)
      (h : Ended svc t' w' (.refresh tokens.refreshToken) (.tokens tokens') w'') :
      Kept svc t w name password client w'' tokens'

theorem Completes.terminates {svc : Service} {t : Time} {w : World} {op : Op} {n : Nat}
    {Ψ Φ : Reply → World → Prop} (h : Completes svc t w op n Ψ)
    (hΨ : ∀ reply w', Ψ reply w' → Φ reply w') :
    svc.machine.Terminates (Effect.Fresh svc w.store t) op w n Φ :=
  Machine.terminates_of_total (M := svc.machine) (h.total.mono le_rfl hΨ)

theorem Ended.result {svc : Service} {t : Time} {w w' : World} {op : Op} {reply : Reply}
    {Ψ : Reply → World → Prop} {n : Nat} (h : Ended svc t w op reply w')
    (hcompletes : Completes svc t w op n Ψ) : Ψ reply w' := by
  obtain ⟨c, hrun, hthreads, rfl⟩ := h
  obtain ⟨a, ha, hΨ⟩ := (hcompletes.terminates fun _ _ h => h).result c _ _ hrun hthreads rfl
  cases ha
  exact hΨ

theorem Kept.usable {svc : Service} {t : Time} {w w' : World} {name password : String}
    {client : SessionClient} {tokens : Tokens} (h : Kept svc t w name password client w' tokens)
    (hlogin : (∃ v, Vacant svc w.store v) → Completes svc t w (.login name password client) 12
      fun reply w' => ∃ tokens, reply = .login ⟨some tokens, false, "", none⟩ ∧
        Usable svc w' tokens.refreshToken tokens.sessionID (t + refreshTTL)) :
    Usable svc w' tokens.refreshToken tokens.sessionID (t + refreshTTL) := by
  induction h with
  | login hcan hended =>
    obtain ⟨tokens', hreply, husable⟩ := hended.result (hlogin hcan)
    cases hreply
    exact husable
  | refresh _ ht hcan hended ih =>
    obtain ⟨tokens', hreply, hid, husable⟩ := hended.result (completes_refresh ih ht hcan)
    cases hreply
    exact hid ▸ husable

theorem loginsDistinct_of_reach {svc : Service} {π : Policy} {clock : Time} {c : Config}
    (h : svc.machine.Reach π (start clock) c) :
    loginsDistinct svc.lower c.state.store.users.rows := by
  refine h.invariant (I := fun d : Config => loginsDistinct svc.lower d.state.store.users.rows)
    List.Pairwise.nil (fun _ _ _ ih => ih) ?_
  intro d ev d' k a hrun ih hf _
  exact loginsDistinct_of_step hrun hf ih

/-- An unlocked and active user who has no second factor, and a login name that is no other user's,
can sign in, and the newest refresh token goes on working until the session expires: as long as the
calls run one after another, none of them is refused. -/
theorem session_is_kept_alive (svc : Service) (clock : Time) (c : Config)
    (h : svc.machine.Reach .any (start clock) c) (t : Time) (name password : String)
    (client : SessionClient) (u : User) (hname : Go.trimSpace name ≠ "") (hpassword : password ≠ "")
    (hu : c.state.store.select svc.lower (.userByLogin (Go.trimSpace name)) = [u])
    (huid : u.id ≠ "") (hactive : u.status = .active)
    (hunlocked : ∀ until_, u.lockedUntil = some until_ → until_ ≤ t)
    (hverified : ∀ r ∈ c.state.store.credentials.rows, r.userID = u.id →
      svc.verified password r.secretHash = true)
    (hmfa : c.state.store.mfaEnabled u.id = false) :
    ((∃ v, Vacant svc c.state.store v) →
      svc.machine.Terminates (Effect.Fresh svc c.state.store t) (.login name password client)
        c.state 12 fun reply _ => ∃ tokens, reply = .login ⟨some tokens, false, "", none⟩) ∧
    ∀ w tokens, Kept svc t c.state name password client w tokens →
      ∀ t' < t + refreshTTL, (∃ v, Vacant svc w.store v) →
        svc.machine.Terminates (Effect.Fresh svc w.store t') (.refresh tokens.refreshToken) w 9
          fun reply _ => ∃ tokens', reply = .tokens tokens' ∧
            tokens'.sessionID = tokens.sessionID := by
  have hlogins := loginsDistinct_of_reach h
  have hmem : u ∈ c.state.store.select svc.lower (.userByLogin (Go.trimSpace name)) := by
    rw [hu]
    exact List.mem_singleton_self u
  obtain ⟨r, hr, hrmem, hruser, hractive⟩ :=
    (linked h).select_passwordCredential svc.lower (List.mem_filter.1 hmem).1
  have havailable : available u r t = true := by
    cases hlocked : u.lockedUntil with
    | none => simp [available, hactive, hractive, hlocked]
    | some until_ =>
      have hle := hunlocked until_ hlocked
      simp [available, hactive, hractive, hlocked, hle]
  have hlogin := fun hcan => completes_login client hlogins hname hpassword hu huid hr
    havailable (hverified r hrmem hruser) hmfa hcan
  refine ⟨fun hcan => (hlogin hcan).terminates ?_, ?_⟩
  · rintro reply w' ⟨tokens, hreply, -⟩
    exact ⟨tokens, hreply⟩
  · intro w tokens hkept t' ht' hcan
    refine (completes_refresh (hkept.usable hlogin) ht' hcan).terminates ?_
    rintro reply w' ⟨tokens', hreply, hid, -⟩
    exact ⟨tokens', hreply, hid⟩

theorem session_is_kept_alive_registered : ∃ c : Config,
    (sample [] none).machine.Reach .any (start 0) c ∧
    (sample [] none).machine.Terminates (Effect.Fresh (sample [] none) c.state.store 100)
      (.login "bob" "correct horse" sample.client) c.state 12
      fun reply _ => ∃ tokens, reply = .login ⟨some tokens, false, "", none⟩ := by
  obtain ⟨c, hc, hvacant, hbob, hverified, hmfa⟩ : ∃ c : Config,
      (sample [] none).machine.Reach .any (start 0) c ∧
      (∀ r ∈ c.state.store.sessions.rows, r.id ≠ "new" ∧ r.refreshTokenHash ≠ "new") ∧
      c.state.store.users.rows.map (fun u => (u.id, u.username, u.status, u.lockedUntil)) =
        [("u1", "bob", .active, none)] ∧
      (∀ r ∈ c.state.store.credentials.rows,
        (sample [] none).verified "correct horse" r.secretHash = true) ∧
      c.state.store.mfaEnabled "u1" = false :=
    Machine.replay_exists sample.signIn (by decide +kernel)
  obtain ⟨u, rest, hrows, hu, hrest⟩ := List.map_eq_cons_iff.1 hbob
  obtain rfl := List.map_eq_nil_iff.1 hrest
  simp only [Prod.mk.injEq] at hu
  obtain ⟨hid, hname, hactive, hlocked⟩ := hu
  refine ⟨c, hc, (session_is_kept_alive _ 0 c hc 100 "bob" "correct horse" sample.client u
    (by decide) (by decide) ?_ (by simp [hid]) hactive (by simp [hlocked])
    (fun r hr _ => hverified r hr) (hid ▸ hmfa)).1 ⟨"new", by decide, hvacant⟩⟩
  have hlogin : Go.trimSpace "bob" = "bob" := by decide
  rw [hlogin, Store.select, hrows]
  exact List.filter_eq_self.2 fun x hx => by simp [List.mem_singleton.1 hx, hname]

end IdentityService
