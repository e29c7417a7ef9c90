import IdentityService.Defs.RowInvariant
import IdentityService.Login.Password
import IdentityService.Versions.Locking

/-! The foreign keys of the migrations, which the service never violates, and the credential that
every user has. -/

namespace IdentityService

open Lib Service

namespace Store

def HasUser (s : Store) (id : String) : Prop := ∃ u ∈ s.users.rows, u.id = id

def HasCredential (s : Store) (userID : String) : Prop :=
  ∃ r ∈ s.credentials.rows, r.userID = userID

def userReferences (s : Store) : List String :=
  s.credentials.rows.map Credential.userID ++ s.sessions.rows.map Session.userID ++
    s.userMFA.rows.map MFAEnrollment.userID ++ s.mfaRecoveryCodes.rows.map MFARecoveryCode.userID ++
    s.mfaLoginChallenges.rows.map MFALoginChallenge.userID ++
    s.passwordResetChallenges.rows.map PasswordResetChallenge.userID

end Store

/-- Whatever belongs to a user belongs to one of `user`; users are among `credentialed`, and
credentials are passwords in use. -/
def RowSpec.linked (user credentialed : String → Prop) : RowSpec where
  users u := credentialed u.id
  credentials r := user r.userID ∧ r.type = "password" ∧ r.status = .active
  sessions r := user r.userID
  userMFA e := user e.userID
  mfaRecoveryCodes r := user r.userID
  mfaLoginChallenges r := user r.userID
  passwordResetChallenges r := user r.userID

def Store.Linked (s : Store) : Prop := s.Satisfies (.linked s.HasUser s.HasCredential)

structure UsersRead (acts : List Act) (user : String → Prop) : Prop where
  getUser : ∀ id row, Act.read (.getUser id) row ∈ acts → user id
  userByLogin : ∀ login row, Act.read (.userByLogin login) row ∈ acts → user (User.id row)
  getMFA : ∀ id row, Act.read (.getMFA id) row ∈ acts → user id

theorem UsersRead.mono {acts : List Act} {user user' : String → Prop} (h : UsersRead acts user)
    (huser : ∀ id, user id → user' id) : UsersRead acts user' where
  getUser id row hread := huser _ (h.getUser id row hread)
  userByLogin login row hread := huser _ (h.userByLogin login row hread)
  getMFA id row hread := huser _ (h.getMFA id row hread)

section Commits

variable {svc : Service} {op : Op} {acts : List Act} {body : Tx Nat} {n : Nat} {next : Prog Reply}
  {s s' : Store}

open Tx.Every in
theorem Commit.linked {user credentialed : String → Prop} (h : Commit svc op acts body n next)
    (hrun : body.run svc.lower s = .ok (n, s')) (hreads : UsersRead acts user)
    (huser : ∀ id, s'.HasUser id → user id)
    (hcredential : ∀ id, s'.HasCredential id → credentialed id) :
    body.Every (Stmt.Preserves (.linked user credentialed)) := by
  cases h with
  | register hu hc =>
    simp at hrun
    obtain ⟨t, ⟨ht, -⟩, t', ht', ⟨_, -, rfl⟩, -⟩ := hrun
    have hnew := huser _ ⟨_, ht ▸ List.mem_append_right _ (List.mem_singleton_self _), rfl⟩
    have hnew' := hcredential _ ⟨_, ht' ▸ List.mem_append_right _ (List.mem_singleton_self _), rfl⟩
    refine bind (bind (plain ?_) fun _ => plain ?_) fun _ => bind (plain trivial) fun _ => .ret _
    · rwa [hc.2.1, ← hu.1] at hnew'
    · rw [hu.1, ← hc.2.1] at hnew
      exact ⟨hnew, hc.2.2.1, hc.2.2.2.1⟩
  | @loginChallenge name _ _ _ _ _ _ _ _ user =>
    exact bind (plain (hreads.userByLogin (Go.trimSpace name) user (by simp))) fun _ => .ret _
  | @loginSession name _ _ _ _ _ _ _ _ user =>
    exact bind (plain (hreads.userByLogin (Go.trimSpace name) user (by simp))) fun _ => .ret _
  | @verifyMFAChallenge _ _ _ _ _ _ _ _ challenge user =>
    refine bind (guarded fun _ hr _ => hr) fun _ => bind ?_ fun _ =>
      bind (plain (hreads.getUser challenge.userID user (by simp))) fun _ => .ret _
    unfold spendFactor
    split
    · exact guarded fun _ hr _ => hr
    · exact guarded fun _ hr _ => hr
  | @startMFASetup _ _ _ _ _ _ actor _ _ user current =>
    cases current with
    | none => exact bind (plain (hreads.getUser actor.id user (by simp))) fun _ => .ret _
    | some e => exact bind (guarded fun _ hr _ => hr) fun _ => bind (plain trivial) fun _ => .ret _
  | @confirmMFASetup _ _ _ _ _ _ _ _ actor _ enrollment _ _ _ _ _ _ _ _ _ hcodes =>
    have hactor := hreads.getMFA actor.id enrollment (by simp)
    refine bind (guarded fun _ hr _ => hr) fun _ =>
      bind (replaceRecoveryCodes_of_mem (fun _ => trivial) _ fun code h => ?_) fun _ =>
        bind (exec fun _ hr _ => hr) fun _ => bind (plain trivial) fun _ => .ret _
    exact (hcodes code h).1 ▸ hactor
  | @regenerateMFARecoveryCodes _ _ _ _ _ _ _ _ _ actor _ _ enrollment _ _ _ _ _ _ _ _ _ _ hcodes =>
    have hactor := hreads.getMFA actor.id enrollment (by simp)
    refine bind (guarded fun _ hr _ => hr) fun _ =>
      bind (replaceRecoveryCodes_of_mem (fun _ => trivial) _ fun code h => ?_) fun _ =>
        bind (plain trivial) fun _ => .ret _
    exact (hcodes code h).1 ▸ hactor
  | @issuePasswordReset userID _ _ _ _ _ user _ hchallenge =>
    refine bind (plain fun _ hr _ => hr) fun _ => bind (plain ?_) fun _ => .ret _
    exact hchallenge.2 ▸ hreads.getUser _ user (by simp)
  | _ =>
    repeat' first
      | exact .ret _
      | exact plain trivial
      | exact plain fun _ hr _ => hr
      | exact guarded fun _ hr _ => hr
      | exact exec trivial
      | exact exec fun _ hr _ => hr
      | split
      | refine bind ?_ fun _ => ?_

end Commits

section Runs

variable {svc : Service} {π : Policy} {w : World} {clock : Time} {c d : Config} {ev : Event}
  {k : ev.call.Res → Prog Reply} {a : Answer}

theorem Continues.hasUser {s s' : Store} (h : Continues s s') {id : String} (hid : s.HasUser id) :
    s'.HasUser id := by
  obtain ⟨u, hu, rfl⟩ := hid
  obtain ⟨u', hu', hkey, -⟩ := h.users u hu
  exact ⟨u', hu', hkey⟩

theorem usersRead (h : svc.machine.Reach π w c) (hlinked : c.state.store.Linked) (i : Nat) :
    UsersRead (c.actsOf i) c.state.store.HasUser := by
  have hsince {q : Query} {row : q.Row} (hread : Act.read q row ∈ c.actsOf i) :
      ∃ s, row ∈ s.select svc.lower q ∧ Continues s c.state.store := by
    obtain ⟨e, he, -, hact⟩ := Machine.Reach.mem_actsOf.1 hread
    have hselect := read_select h he hact
    obtain ⟨c0, c1, k, a, h0, hf, hp, h1⟩ := h.event_of_mem he
    rw [hf.before] at hselect
    exact ⟨_, hselect, continues_of_run h0 ((Machine.Run.refl.fired hf hp).trans h1)⟩
  constructor
  · intro id row hread
    obtain ⟨s, hselect, hcont⟩ := hsince hread
    obtain ⟨hmem, hid⟩ := List.mem_filter.1 hselect
    exact hcont.hasUser ⟨row, hmem, by simpa using hid⟩
  · intro login row hread
    obtain ⟨s, hselect, hcont⟩ := hsince hread
    exact hcont.hasUser ⟨row, (List.mem_filter.1 hselect).1, rfl⟩
  · intro id row hread
    obtain ⟨s, hselect, hcont⟩ := hsince hread
    obtain ⟨hmem, hid⟩ := List.mem_filter.1 hselect
    obtain ⟨e, he, hkey, -⟩ := hcont.userMFA row hmem
    have hid : MFAEnrollment.userID row = id := by simpa using hid
    have howner : e.userID = MFAEnrollment.userID row := hkey
    exact hid ▸ howner ▸ hlinked.userMFA e he

theorem RowSpec.linked_mono {user user' credentialed credentialed' : String → Prop}
    (huser : ∀ id, user id → user' id) (hcredentialed : ∀ id, credentialed id → credentialed' id) :
    (RowSpec.linked user credentialed).Le (.linked user' credentialed') where
  users _ h := hcredentialed _ h
  credentials _ h := ⟨huser _ h.1, h.2⟩
  sessions _ h := huser _ h
  userMFA _ h := huser _ h
  mfaRecoveryCodes _ h := huser _ h
  mfaLoginChallenges _ h := huser _ h
  passwordResetChallenges _ h := huser _ h
  serviceAccounts _ h := h

theorem linked_of_step (h : svc.machine.Reach π w c) (hf : svc.machine.Fired c ev d k a)
    (hlinked : c.state.store.Linked) : d.state.store.Linked := by
  obtain ⟨body, n, next, hcom⟩ | hstore := committed_or_store_eq h hf
  · have huser (id : String) (hid : c.state.store.HasUser id) : d.state.store.HasUser id :=
      (continues_of_step h hf).hasUser hid
    have hcredential (id : String) (hid : c.state.store.HasCredential id) :
        d.state.store.HasCredential id := by
      obtain ⟨r, hr, rfl⟩ := hid
      obtain ⟨r', hr', -, hr'user, -⟩ := (credentialChange_of_step h hf).evolves hr
      exact ⟨r', hr', hr'user⟩
    have hreads := (usersRead h hlinked ev.thread).mono huser
    exact .of_run (hcom.commit.linked hcom.run hreads (fun _ => id) (fun _ => id)) hcom.run
      (hlinked.mono (RowSpec.linked_mono huser hcredential))
  · rw [hstore]
    exact hlinked

theorem linked (h : svc.machine.Reach π (start clock) c) : c.state.store.Linked := by
  refine h.invariant (I := fun d => d.state.store.Linked) (.empty _) ?_ ?_
  · intro d q _ ih
    exact ih
  · intro d ev d' k a hrun ih hf _
    exact linked_of_step hrun hf ih

end Runs

theorem Store.Linked.user_of_reference {s : Store} (h : s.Linked) {userID : String}
    (hmem : userID ∈ s.userReferences) : s.HasUser userID := by
  simp only [Store.userReferences, List.mem_append, List.mem_map] at hmem
  obtain ((((⟨r, hr, rfl⟩ | ⟨r, hr, rfl⟩) | ⟨r, hr, rfl⟩) | ⟨r, hr, rfl⟩) | ⟨r, hr, rfl⟩) |
    ⟨r, hr, rfl⟩ := hmem
  · exact (h.credentials r hr).1
  · exact h.sessions r hr
  · exact h.userMFA r hr
  · exact h.mfaRecoveryCodes r hr
  · exact h.mfaLoginChallenges r hr
  · exact h.passwordResetChallenges r hr

/-- No foreign key of the schema is ever violated: statements of one transaction, and calls that
overlap, insert nothing that belongs to a user who does not exist. -/
theorem foreign_keys_hold (svc : Service) (clock : Time) (c : Config)
    (h : svc.machine.Reach .any (start clock) c) (userID : String)
    (hmem : userID ∈ c.state.store.userReferences) :
    ∃ u : User, c.state.store.select svc.lower (.getUser userID) = [u] := by
  obtain ⟨u, hu, rfl⟩ := (linked h).user_of_reference hmem
  exact ⟨u, Table.filter_eq_singleton (ρ := User) hu (by simp) (by simp [Constrained.clash])⟩

theorem Store.Linked.select_passwordCredential {s : Store} (h : s.Linked)
    (lower : String → String) {u : User} (hu : u ∈ s.users.rows) :
    ∃ r : Credential, s.select lower (.passwordCredential u.id) = [r] ∧ r ∈ s.credentials.rows ∧
      r.userID = u.id ∧ r.status = .active := by
  obtain ⟨r, hr, huser⟩ := h.users u hu
  obtain ⟨-, htype, hactive⟩ := h.credentials r hr
  refine ⟨r, ?_, hr, huser, hactive⟩
  exact Table.filter_eq_singleton (ρ := Credential) hr (by simp [huser, htype])
    (by simp +contextual [Constrained.clash, huser, htype])

/-- Whoever exists has one credential, a password in use, so the calls that read it never miss. -/
theorem password_credential_always_found (svc : Service) (clock : Time) (c : Config)
    (h : svc.machine.Reach .any (start clock) c) (u : User) (hu : u ∈ c.state.store.users.rows) :
    ∃ r : Credential, c.state.store.select svc.lower (.passwordCredential u.id) = [r] ∧
      c.state.store.credentials.rows.filter (fun r => r.userID = u.id) = [r] ∧
      r.status = .active := by
  obtain ⟨r, hselect, -, -, hactive⟩ := (linked h).select_passwordCredential svc.lower hu
  refine ⟨r, hselect, ?_, hactive⟩
  rw [← show c.state.store.credentials.rows.filter
    (fun r => r.userID = u.id && r.type = "password") = [r] from hselect]
  refine List.filter_congr fun x hx => ?_
  simp [((linked h).credentials x hx).2.1]

theorem foreign_keys_hold_enrolled : ∃ c : Config,
    (sample [] (some sample.crypto)).machine.Reach .any (start 0) c ∧
    c.state.store.mfaLoginChallenges.rows.map MFALoginChallenge.userID = ["u1"] ∧
    c.state.store.userReferences.length = 14 ∧
    ∃ u : User, c.state.store.select id (.getUser "u1") = [u] := by
  obtain ⟨c, hc, hchallenge, hlength, hmem⟩ : ∃ c : Config,
      (sample [] (some sample.crypto)).machine.Reach .any (start 0) c ∧
      c.state.store.mfaLoginChallenges.rows.map MFALoginChallenge.userID = ["u1"] ∧
      c.state.store.userReferences.length = 14 ∧ "u1" ∈ c.state.store.userReferences :=
    Machine.replay_exists (sample.signIn ++ sample.enrol ++ sample.challenge) (by decide +kernel)
  exact ⟨c, hc, hchallenge, hlength, foreign_keys_hold _ 0 c hc "u1" hmem⟩

theorem password_credential_always_found_registered : ∃ c : Config,
    (sample [] none).machine.Reach .any (start 0) c ∧
    ∃ u ∈ c.state.store.users.rows, ∃ r : Credential,
      c.state.store.select id (.passwordCredential u.id) = [r] ∧ r.status = .active := by
  obtain ⟨c, hc, u, hu⟩ : ∃ c : Config, (sample [] none).machine.Reach .any (start 0) c ∧
      ∃ u ∈ c.state.store.users.rows, u.id = "u1" :=
    Machine.replay_exists sample.signIn (by decide +kernel)
  obtain ⟨r, hselect, -, hactive⟩ := password_credential_always_found _ 0 c hc u hu.1
  exact ⟨c, hc, u, hu.1, r, hselect, hactive⟩

end IdentityService
