import IdentityService.Defs.System

/-! What a committed transaction does to the `users` table. -/

namespace IdentityService

open Lib Service

inductive UsersChange (svc : Service) (op : Op) (acts : List Act) (rows rows' : List User) : Prop
  | keep (hrows : rows' = rows)
  | register (user : User) (hdraw : Act.drew .uuid user.id ∈ acts)
      (huser : user.status = .active ∧ user.failedLoginCount = 0 ∧ user.lockedUntil = none ∧
        user.version = 1)
      (hrows : rows' = rows ++ [user])
  | failed (name password : String) (client : SessionClient) (user : User)
      (credential : Credential) (now : Time)
      (hop : op = .login name password client)
      (hacts : acts = [.clock now, .read (.passwordCredential user.id) credential,
        .read (.userByLogin (Go.trimSpace name)) user])
      (havailable : available user credential now = true)
      (hrows : rows' = rows.map (Repository.failedLoginUpdate user.id loginFailureThreshold
        (now + loginLockDuration) now).apply)
  | reset (name password : String) (client : SessionClient) (user : User)
      (credential : Credential) (now : Time)
      (hop : op = .login name password client)
      (hacts : acts = [.clock now, .read (.passwordCredential user.id) credential,
        .read (.userByLogin (Go.trimSpace name)) user])
      (havailable : available user credential now = true)
      (hrows : rows' = rows.map (Repository.resetLoginUpdate user.id now).apply)
  | status (actor : Principal) (id text reason : String) (version : Int) (status : Status)
      (now : Time) (hop : op = .updateUserStatus (some actor) id text reason version)
      (hrows : (Repository.statusUpdate id status actor.id version now).Hits rows rows')
  | profile (actor : Principal) (id displayName email phone reason : String) (version : Int)
      (now : Time)
      (hop : op = .updateUserProfile (some actor) id displayName email phone reason version)
      (hrows : (Repository.profileUpdate (Go.trimSpace id) (Go.trimSpace displayName)
        (svc.toLower (Go.trimSpace email)) (Go.trimSpace phone) actor.id version now).Hits rows
          rows')

theorem Commit.usersChange {svc : Service} {op : Op} {acts : List Act} {body : Tx Nat} {n : Nat}
    {next : Prog Reply} {s s' : Store} (h : Commit svc op acts body n next)
    (hrun : body.run svc.lower s = .ok (n, s')) :
    UsersChange svc op acts s.users.rows s'.users.rows := by
  have hframe := h.frame hrun
  cases h with
  | register huser =>
    simp at hrun
    obtain ⟨t, ⟨ht, -⟩, _, -, ⟨_, -, rfl⟩, -⟩ := hrun
    exact .register _ (by simp [huser.1]) huser.2 ht
  | loginFailed havailable =>
    simp at hrun
    obtain ⟨⟨t, ht, -, rfl⟩, -⟩ := hrun
    exact .failed _ _ _ _ _ _ rfl rfl havailable ht
  | loginVerified havailable =>
    simp at hrun
    obtain ⟨⟨t, ht, -, rfl⟩, -⟩ := hrun
    exact .reset _ _ _ _ _ _ rfl rfl havailable ht
  | loginChallenge | loginSession =>
    simp at hrun
    obtain ⟨⟨_, -, rfl⟩, -⟩ := hrun
    exact .keep rfl
  | updateUserStatus =>
    simp at hrun
    obtain ⟨t, ⟨⟨ht, -⟩, hmatch⟩, ⟨-, ⟨_, -, rfl⟩, -⟩ | ⟨-, _, -, ⟨_, -, rfl⟩, -⟩⟩ := hrun
    · exact .status _ _ _ _ _ _ _ rfl ⟨ht, by simpa using hmatch⟩
    · exact .status _ _ _ _ _ _ _ rfl ⟨ht, by simpa using hmatch⟩
  | updateUserProfile =>
    simp at hrun
    obtain ⟨t, ⟨⟨ht, -⟩, hmatch⟩, ⟨_, -, rfl⟩, -⟩ := hrun
    exact .profile _ _ _ _ _ _ _ _ rfl ⟨ht, by simpa using hmatch⟩
  | _ => exact .keep (by rw [hframe.users (by simp [Op.writes])])

theorem UsersChange.fate {svc : Service} {op : Op} {acts : List Act} {rows rows' : List User}
    (h : UsersChange svc op acts rows rows') {u : User} (hu : u ∈ rows) :
    ∃ u' ∈ rows', u'.id = u.id ∧ u'.username = u.username := by
  have happly : ∀ {x : Update User},
      (∀ r, (x.assign r).id = r.id ∧ (x.assign r).username = r.username) →
      rows' = rows.map x.apply → ∃ u' ∈ rows', u'.id = u.id ∧ u'.username = u.username := by
    intro x hx hrows
    refine ⟨_, hrows ▸ List.mem_map_of_mem hu, ?_⟩
    unfold Update.apply
    split
    · exact hx u
    · exact ⟨rfl, rfl⟩
  cases h with
  | keep hrows => exact ⟨u, hrows ▸ hu, rfl, rfl⟩
  | register _ _ _ hrows => exact ⟨u, hrows ▸ List.mem_append_left _ hu, rfl, rfl⟩
  | failed _ _ _ _ _ _ _ _ _ hrows => exact happly (fun _ => ⟨rfl, rfl⟩) hrows
  | reset _ _ _ _ _ _ _ _ _ hrows => exact happly (fun _ => ⟨rfl, rfl⟩) hrows
  | status _ _ _ _ _ _ _ _ hrows => exact happly (fun _ => ⟨rfl, rfl⟩) hrows.map
  | profile _ _ _ _ _ _ _ _ _ hrows => exact happly (fun _ => ⟨rfl, rfl⟩) hrows.map

section Steps

variable {svc : Service} {π : Policy} {w : World} {c d : Config} {ev : Event}
  {k : ev.call.Res → Prog Reply} {a : Answer}

theorem usersChange_of_step (h : svc.machine.Reach π w c) (hf : svc.machine.Fired c ev d k a) :
    UsersChange svc ev.request (c.actsOf ev.thread) c.state.store.users.rows
      d.state.store.users.rows := by
  obtain ⟨body, n, next, hcom⟩ | hstore := committed_or_store_eq h hf
  · exact hcom.commit.usersChange hcom.run
  · exact .keep (by rw [hstore])

theorem user_eq_of_id {t : Table User} {u u' : User} (hu : u ∈ t.rows) (hu' : u' ∈ t.rows)
    (hid : u.id = u'.id) : u = u' :=
  Table.eq_of_clash hu hu' (by simp [Constrained.clash, hid])

theorem username_kept (h : svc.machine.Reach π w c) (hd : svc.machine.Run π c d) {u u' : User}
    (hu : u ∈ c.state.store.users.rows) (hu' : u' ∈ d.state.store.users.rows)
    (hid : u'.id = u.id) : u'.username = u.username := by
  obtain ⟨x, hx, hxid, hxname⟩ : ∃ x ∈ d.state.store.users.rows, x.id = u.id ∧
      x.username = u.username := by
    refine hd.invariant (I := fun d => ∃ x ∈ d.state.store.users.rows, x.id = u.id ∧
      x.username = u.username) ⟨u, hu, rfl, rfl⟩ (fun _ _ _ ih => ih) ?_
    rintro d ev d' k a hrun ⟨x, hx, hxid, hxname⟩ hf -
    obtain ⟨x', hx', hid, hname⟩ := (usersChange_of_step (h.trans hrun) hf).fate hx
    exact ⟨x', hx', hid.trans hxid, hname.trans hxname⟩
  rw [user_eq_of_id hu' hx (hid.trans hxid.symm), hxname]

end Steps

end IdentityService
