import IdentityService.Users.Change

/-! The names a user can log in with. -/

namespace IdentityService

open Lib Service Program

def Act.commits : Act → Bool
  | ⟨.within _, .ok _⟩ => true
  | _ => false

/-- A username and an e-mail address to be written are not, up to case, the e-mail address and the
username of somebody else. -/
def Op.namesApart (svc : Service) (rows : List User) : Op → Bool
  | .register _ username _ email _ _ => rows.all fun u =>
      svc.lower (svc.toLower (Go.trimSpace username)) ≠ svc.lower u.email &&
        svc.lower (svc.toLower (Go.trimSpace email)) ≠ svc.lower u.username
  | .updateUserProfile _ id _ email _ _ _ => rows.all fun u =>
      u.id = Go.trimSpace id ||
        svc.lower (svc.toLower (Go.trimSpace email)) ≠ svc.lower u.username
  | _ => true

def Policy.namesApart (svc : Service) : Policy :=
  .onEvents fun c ev => Act.commits ev.act = true →
    ev.request.namesApart svc c.state.store.users.rows = true

instance (svc : Service) (c : Config) (q : Op) : Decidable ((Policy.namesApart svc).start c q) :=
  .isTrue trivial

instance (svc : Service) (c : Config) (ev : Event) :
    Decidable ((Policy.namesApart svc).event c ev) := inferInstanceAs (Decidable (_ → _))

def NamesApart (lower : String → String) (rows : List User) : Prop :=
  ∀ u ∈ rows, ∀ v ∈ rows, lower u.username = lower v.email → u.id = v.id

section Store

variable {lower : String → String} {s s' : Store} {n : Nat}

def KeepsLogins (lower : String → String) (s s' : Store) : Prop :=
  loginsDistinct lower s.users.rows → loginsDistinct lower s'.users.rows

theorem KeepsLogins.refl (lower : String → String) (s : Store) : KeepsLogins lower s s := id

theorem KeepsLogins.trans {s'' : Store} (h : KeepsLogins lower s s')
    (h' : KeepsLogins lower s' s'') : KeepsLogins lower s s'' := h' ∘ h

theorem loginsDistinct_of_exec {q : Stmt} (h : s.exec lower q = some (n, s')) :
    KeepsLogins lower s s' := by
  intro hs
  cases q with
  | users q =>
    obtain ⟨t, -, hdistinct, rfl⟩ := Store.exec_users.1 h
    exact hdistinct
  | _ =>
    have hframe : Frame [Stmt.table _] s s' := Frame.of_exec List.mem_cons_self h
    rwa [hframe.users (by simp [Stmt.table])]

theorem user_eq_of_name {t : Table User} (h : loginsDistinct lower t.rows) {u v : User}
    (hu : u ∈ t.rows) (hv : v ∈ t.rows)
    (hname : lower u.username = lower v.username ∨ lower u.email = lower v.email) : u = v := by
  have : Std.Symm (fun a b : User => lower a.username ≠ lower b.username ∧
      lower a.email ≠ lower b.email) := ⟨fun _ _ h => ⟨h.1.symm, h.2.symm⟩⟩
  by_contra hne
  obtain ⟨husername, hemail⟩ := List.Pairwise.forall h hu hv hne
  exact hname.elim husername hemail

theorem userByLogin_length_le_one (h : loginsDistinct lower s.users.rows)
    (hapart : NamesApart lower s.users.rows) (login : String) :
    (s.select lower (.userByLogin login)).length ≤ 1 := by
  refine Table.length_filter_le_one (t := s.users) fun u hu v hv hmatch hmatch' => ?_
  simp only [Bool.or_eq_true, decide_eq_true_eq] at hmatch hmatch'
  obtain hname | hemail := hmatch
  · obtain hname' | hemail' := hmatch'
    · exact user_eq_of_name h hu hv (.inl (hname.trans hname'.symm))
    · exact user_eq_of_id hu hv (hapart u hu v hv (hname.trans hemail'.symm))
  · obtain hname' | hemail' := hmatch'
    · exact user_eq_of_id hu hv (hapart v hv u hu (hname'.trans hemail.symm)).symm
    · exact user_eq_of_name h hu hv (.inr (hemail.trans hemail'.symm))

end Store

inductive Named (svc : Service) (op : Op) (outcome : Option (Except AppError Reply))
    (rows : List User) (u' : User) : Prop
  | keep (u : User) (hu : u ∈ rows) (hid : u'.id = u.id) (husername : u'.username = u.username)
      (hemail : u'.email = u.email)
  | register (ctx : Context) (username displayName email phone password : String)
      (hop : op = .register ctx username displayName email phone password)
      (hreply : outcome = some (.ok (.user u')))
      (husername : u'.username = svc.toLower (Go.trimSpace username))
      (hemail : u'.email = svc.toLower (Go.trimSpace email))
  | profile (ctx : Context) (id displayName email phone reason : String) (version : Int) (u : User)
      (hop : op = .updateUserProfile ctx id displayName email phone reason version)
      (hu : u ∈ rows) (hid : u'.id = u.id) (hguard : u.id = Go.trimSpace id)
      (husername : u'.username = u.username)
      (hemail : u'.email = svc.toLower (Go.trimSpace email))

theorem ends_register (svc : Service) (ctx : Context)
    (username displayName email phone password : String) :
    Ends (fun _ reply => ∀ user, reply = .user user →
      user.username = svc.toLower (Go.trimSpace username) ∧
        user.email = svc.toLower (Go.trimSpace email)) []
      (svc.program (.register ctx username displayName email phone password)) := by
  simp only [program, register, Service.hash, bind_assoc]
  iterate 11 refine ends_bind fun _ _ => ?_
  refine (ends_ret _).2 fun user huser => ?_
  cases huser
  exact ⟨rfl, rfl⟩

section Commits

variable {svc : Service} {op : Op} {outcome : Option (Except AppError Reply)}
  {rows : List User} {u' : User}

theorem Named.of_update {x : Update User}
    (hx : ∀ u, (x.assign u).id = u.id ∧ (x.assign u).username = u.username ∧
      (x.assign u).email = u.email)
    (hu' : u' ∈ rows.map x.apply) : Named svc op outcome rows u' := by
  rw [Update.mem_map_apply] at hu'
  obtain ⟨hu, -⟩ | ⟨u, hu, -, rfl⟩ := hu'
  · exact .keep u' hu rfl rfl rfl
  · exact .keep u hu (hx u).1 (hx u).2.1 (hx u).2.2

theorem Commit.named {acts : List Act} {body : Tx Nat} {n : Nat} {next : Prog Reply}
    {s s' : Store} (h : Commit svc op acts body n next)
    (hrun : body.run svc.lower s = .ok (n, s'))
    (hreply : ∀ ctx username displayName email phone password user,
      op = .register ctx username displayName email phone password →
      next.outcome = some (.ok (.user user)) →
        user.username = svc.toLower (Go.trimSpace username) ∧
          user.email = svc.toLower (Go.trimSpace email))
    (hu' : u' ∈ s'.users.rows) : Named svc op next.outcome s.users.rows u' := by
  have hframe := h.frame hrun
  cases h with
  | @register _ _ _ _ _ _ _ _ _ _ _ user =>
    simp at hrun
    obtain ⟨t, ⟨ht, -⟩, _, -, ⟨_, -, rfl⟩, -⟩ := hrun
    have hu' : u' ∈ t.rows := hu'
    rw [ht, List.mem_append, List.mem_singleton] at hu'
    obtain hu | rfl := hu'
    · exact .keep u' hu rfl rfl rfl
    · obtain ⟨husername, hemail⟩ := hreply _ _ _ _ _ _ u' rfl rfl
      exact .register _ _ _ _ _ _ rfl rfl husername hemail
  | loginFailed | loginVerified =>
    simp at hrun
    obtain ⟨⟨t, ht, -, rfl⟩, -⟩ := hrun
    exact .of_update (fun _ => ⟨rfl, rfl, rfl⟩) (ht ▸ hu')
  | loginChallenge | loginSession =>
    simp at hrun
    obtain ⟨⟨_, -, rfl⟩, -⟩ := hrun
    exact .keep u' hu' rfl rfl rfl
  | updateUserStatus =>
    simp at hrun
    obtain ⟨t, ⟨⟨ht, -⟩, -⟩, ⟨-, ⟨_, -, rfl⟩, -⟩ | ⟨-, _, -, ⟨_, -, rfl⟩, -⟩⟩ := hrun
    · exact .of_update (fun _ => ⟨rfl, rfl, rfl⟩) (ht ▸ hu')
    · exact .of_update (fun _ => ⟨rfl, rfl, rfl⟩) (ht ▸ hu')
  | updateUserProfile =>
    simp at hrun
    obtain ⟨t, ⟨⟨ht, -⟩, -⟩, ⟨_, -, rfl⟩, -⟩ := hrun
    have hu' : u' ∈ t.rows := hu'
    rw [ht, Update.mem_map_apply] at hu'
    obtain ⟨hu, -⟩ | ⟨u, hu, hg, rfl⟩ := hu'
    · exact .keep u' hu rfl rfl rfl
    · exact .profile _ _ _ _ _ _ _ u rfl hu rfl (Repository.profileUpdate_guard.1 hg).1 rfl rfl
  | _ => exact .keep u' (by rwa [hframe.users (by simp [Op.writes])] at hu') rfl rfl rfl

end Commits

section Steps

variable {svc : Service} {π : Policy} {w : World} {c d : Config} {ev : Event}
  {k : ev.call.Res → Prog Reply} {a : Answer}

theorem Committed.named {body : Tx Nat} {n : Nat} {next : Prog Reply}
    (hcom : Committed svc c ev d body n next) (h : svc.machine.Reach π w c)
    (hf : svc.machine.Fired c ev d k a) {u' : User} (hu' : u' ∈ d.state.store.users.rows) :
    Named svc ev.request ev.outcome c.state.store.users.rows u' := by
  rw [hcom.outcome]
  refine hcom.commit.named hcom.run ?_ hu'
  intro ctx username displayName email phone password user hop hnext
  have hends := ends_register svc ctx username displayName email phone password
  rw [← hop] at hends
  exact h.ends hf hends (hcom.outcome.trans hnext) user rfl

theorem loginsDistinct_of_step (h : svc.machine.Reach π w c) (hf : svc.machine.Fired c ev d k a)
    (hc : loginsDistinct svc.lower c.state.store.users.rows) :
    loginsDistinct svc.lower d.state.store.users.rows := by
  obtain ⟨body, n, next, hcom⟩ | hstore := committed_or_store_eq h hf
  · have hkeeps : KeepsLogins svc.lower c.state.store d.state.store :=
      hcom.commit.every.relate (KeepsLogins.refl svc.lower) (fun _ _ _ => KeepsLogins.trans)
        (fun _ _ _ _ _ => loginsDistinct_of_exec) hcom.run
    exact hkeeps hc
  · rwa [hstore]

theorem NamesApart.step (ih : NamesApart svc.lower c.state.store.users.rows)
    (h : svc.machine.Reach π w c) (hf : svc.machine.Fired c ev d k a)
    (hp : (Policy.namesApart svc).event c ev) : NamesApart svc.lower d.state.store.users.rows := by
  by_cases hact : ∃ body n, ev.act = Act.committed body n
  · obtain ⟨body, n, hact⟩ := hact
    obtain ⟨next, hcom⟩ := committed_of_act h hf hact
    have hapart := hp (by rw [hact]; rfl)
    intro u hu v hv hname
    have hnamed := hcom.named h hf hu
    have hnamed' := hcom.named h hf hv
    cases hnamed with
    | keep u0 hu0 hid husername _ =>
      rw [husername] at hname
      cases hnamed' with
      | keep v0 hv0 hid' _ hemail =>
        rw [hemail] at hname
        exact hid.trans ((ih u0 hu0 v0 hv0 hname).trans hid'.symm)
      | register _ _ _ _ _ _ hop _ _ hemail =>
        rw [hop, Op.namesApart, List.all_eq_true] at hapart
        have := hapart u0 hu0
        simp [← hemail, hname] at this
      | profile _ _ _ _ _ _ _ v0 hop _ hid' hguard _ hemail =>
        rw [hop, Op.namesApart, List.all_eq_true] at hapart
        have := hapart u0 hu0
        simp only [← hemail, hname, ne_eq, not_true_eq_false, decide_false, Bool.or_false,
          decide_eq_true_eq] at this
        rw [hid, hid', this, hguard]
    | register _ _ _ _ _ _ hop hreply husername _ =>
      cases hnamed' with
      | keep v0 hv0 _ _ hemail =>
        rw [hop, Op.namesApart, List.all_eq_true] at hapart
        have := hapart v0 hv0
        simp [← husername, ← hemail, hname] at this
      | register _ _ _ _ _ _ _ hreply' =>
        cases hreply.symm.trans hreply'
        rfl
      | profile _ _ _ _ _ _ _ _ hop' => cases hop.symm.trans hop'
    | profile _ _ _ _ _ _ _ u0 hop hu0 hid hguard husername _ =>
      cases hnamed' with
      | keep v0 hv0 hid' _ hemail =>
        rw [husername, hemail] at hname
        exact hid.trans ((ih u0 hu0 v0 hv0 hname).trans hid'.symm)
      | register _ _ _ _ _ _ hop' => cases hop.symm.trans hop'
      | profile _ _ _ _ _ _ _ v0 hop' _ hid' hguard' =>
        cases hop.symm.trans hop'
        rw [hid, hid', hguard, hguard']
  · rwa [store_eq_of_not_committed hf hact]

theorem names_of_reach {clock : Time}
    (h : svc.machine.Reach (Policy.namesApart svc) (start clock) c) :
    loginsDistinct svc.lower c.state.store.users.rows ∧
      NamesApart svc.lower c.state.store.users.rows := by
  refine Machine.Run.invariant (I := fun c => loginsDistinct svc.lower c.state.store.users.rows ∧
    NamesApart svc.lower c.state.store.users.rows) h ?_ ?_ ?_
  · exact ⟨List.Pairwise.nil, nofun⟩
  · intro d q _ ih
    exact ih
  · rintro d ev d' k a hd ⟨hdistinct, hapart⟩ hf hp
    exact ⟨loginsDistinct_of_step hd hf hdistinct, hapart.step hd hf hp⟩

end Steps

/-- While nobody takes somebody else's username for an e-mail address or the other way round, a
login name belongs to one user, and that is the user a login finds. -/
theorem login_name_identifies_user (svc : Service) (clock : Time) (c : Config)
    (h : svc.machine.Reach (Policy.namesApart svc) (start clock) c) (login : String) :
    (c.state.store.select svc.lower (.userByLogin login)).length ≤ 1 ∧
      ∀ ev ∈ c.history, ∀ user : User, ev.act = Act.read (.userByLogin login) user →
        ev.before.store.select svc.lower (.userByLogin login) = [user] := by
  have hone : ∀ {c : Config}, svc.machine.Reach (Policy.namesApart svc) (start clock) c →
      (c.state.store.select svc.lower (.userByLogin login)).length ≤ 1 := by
    intro c h
    obtain ⟨hdistinct, hapart⟩ := names_of_reach h
    exact userByLogin_length_le_one hdistinct hapart login
  refine ⟨hone h, ?_⟩
  intro ev hev user hact
  obtain ⟨c0, c1, k, a, h0, hf, -, -⟩ := h.event_of_mem hev
  have hmem := read_of_fired hf hact
  have hlength := hone h0
  rw [hf.before]
  cases hrows : c0.state.store.select svc.lower (.userByLogin login) with
  | nil =>
    rw [hrows] at hmem
    cases hmem
  | cons x rest =>
    rw [hrows] at hmem hlength
    obtain rfl := List.length_eq_zero_iff.1 (Nat.le_zero.1 (Nat.le_of_succ_le_succ hlength))
    cases List.mem_singleton.1 hmem
    rfl

namespace sample

def crossed (email : String) : List (Choice Op Answer) :=
  [.start (.register admin "bob@example" "Bob" "bob@other" "" "correct horse"),
    .step 0 (.value "salt"), .step 0 (.time 10), .step 0 (.value "u1"), .step 0 (.value "c1"),
    .step 0 (.value "e1"), .step 0 .done,
    .start (.register admin "alice" "Alice" email "" "battery staple"),
    .step 1 (.value "salt"), .step 1 (.time 20), .step 1 (.value "u2"), .step 1 (.value "c2"),
    .step 1 (.value "e2"), .step 1 .done,
    .start (.login "bob@example" "battery staple" client), .step 2 (.row 0)]

end sample

theorem login_name_shared : ∃ c : Config,
    (sample [] none).machine.Reach .sequential (start 0) c ∧
    (c.state.store.select (sample [] none).lower (.userByLogin "bob@example")).length = 2 :=
  Machine.replay_exists (sample.crossed "bob@example") (by decide +kernel)

theorem login_name_identifies_user_apart : ∃ c : Config,
    (sample [] none).machine.Reach (Policy.namesApart (sample [] none)) (start 0) c ∧
    c.state.store.users.rows.length = 2 ∧
    (c.state.store.select (sample [] none).lower (.userByLogin "bob@example")).length ≤ 1 ∧
    ∀ ev ∈ c.history, ∀ user : User, ev.act = Act.read (.userByLogin "bob@example") user →
      ev.before.store.select (sample [] none).lower (.userByLogin "bob@example") = [user] := by
  obtain ⟨c, hc, hlength⟩ : ∃ c : Config,
      (sample [] none).machine.Reach (Policy.namesApart (sample [] none)) (start 0) c ∧
      c.state.store.users.rows.length = 2 :=
    Machine.replay_exists (sample.crossed "alice@example") (by decide +kernel)
  exact ⟨c, hc, hlength, login_name_identifies_user _ 0 c hc "bob@example"⟩

end IdentityService
