import IdentityService.Sessions.Change

/-! How sessions are opened. -/

namespace IdentityService

open Lib Service

def Event.opened (ev : Event) : Option String :=
  match ev.request with
  | .login _ _ _ => (issued ev.outcome).map Tokens.sessionID
  | .verifyMFAChallenge _ _ _ => (issued ev.outcome).map Tokens.sessionID
  | _ => none

inductive Opening (svc : Service) (userID : String) : Op → List Act → Prop
  | login {name password client now body m result} {enrollment : Option MFAEnrollment} {user : User}
      {credential : Credential} {d : Draft}
      (huser : user.id = userID) (havailable : available user credential now = true)
      (hfound : found result = .ok enrollment)
      (hdisabled : enrollment.any (fun e => e.status = .enabled) = false) :
      Opening svc userID (.login name password client)
        (d.acts svc userID ++ [⟨.query (.getMFA userID), result⟩, .committed body m, .clock now,
          .read (.passwordCredential userID) credential,
          .read (.userByLogin (Go.trimSpace name)) user])
  | challenge {token code recoveryCode now} {challenge : MFALoginChallenge} {user : User}
      {enrollment : MFAEnrollment} {d : Draft}
      (hactive : user.status = .active) (henabled : enrollment.status = .enabled) :
      Opening svc userID (.verifyMFAChallenge token code recoveryCode)
        (d.acts svc userID ++ [.read (.getMFA userID) enrollment, .read (.getUser userID) user,
          .clock now,
          .read (.getMFAChallenge (svc.hashMFAChallengeToken (Go.trimSpace token))) challenge])

theorem Commit.opening {svc : Service} {op : Op} {acts : List Act} {body : Tx Nat} {n : Nat}
    {next : Prog Reply} {s s' : Store} {tokens : Tokens} {r : Session}
    (h : Commit svc op acts body n next) (hrun : body.run svc.lower s = .ok (n, s'))
    (hclean : ∀ cleaner fuel, op = .clean cleaner fuel → issued next.outcome = none)
    (hissued : issued next.outcome = some tokens)
    (hrows : s'.sessions.rows = s.sessions.rows ++ [r]) :
    tokens.sessionID = r.id ∧ Opening svc r.userID op acts := by
  cases h with
  | loginSession havailable _ hfound henabled =>
    simp at hrun
    obtain ⟨⟨t, ht, rfl⟩, -⟩ := hrun
    obtain rfl := List.singleton_inj.1 (List.append_cancel_left (ht.symm.trans hrows))
    cases hissued
    exact ⟨rfl, .login rfl havailable hfound henabled⟩
  | verifyMFAChallenge _ _ _ hactive henabled =>
    simp [spendFactor] at hrun
    obtain ⟨_, -, s1, hs1, ⟨t, ht, rfl⟩, -⟩ := hrun
    have hs : s1.sessions = s.sessions := by grind
    rw [hs] at ht
    obtain rfl := List.singleton_inj.1 (List.append_cancel_left (ht.symm.trans hrows))
    cases hissued
    exact ⟨rfl, .challenge hactive henabled⟩
  | refresh =>
    simp at hrun
    obtain ⟨⟨⟨t, ht, rfl⟩, -⟩, -⟩ := hrun
    have hlength := congrArg List.length (ht.symm.trans hrows)
    simp at hlength
  | cleanSessions | cleanMFAChallenges | cleanPasswordResetChallenges =>
    rw [hclean _ _ rfl] at hissued
    cases hissued
  | _ => cases hissued

section Steps

variable {svc : Service} {π : Policy} {w : World} {c d : Config} {ev : Event}
  {k : ev.call.Res → Prog Reply} {a : Answer}

theorem not_opened (h : svc.machine.Reach π w c) (hf : svc.machine.Fired c ev d k a) {r : Session}
    (hr : r ∈ c.state.store.sessions.rows) : Event.opened ev ≠ some r.id := by
  intro hopened
  obtain ⟨tokens, hissued, hid, hop⟩ : ∃ tokens, issued ev.outcome = some tokens ∧
      tokens.sessionID = r.id ∧ ∀ token, ev.request ≠ .refresh token := by
    unfold Event.opened at hopened
    split at hopened
    all_goals try cases hopened
    all_goals
      rename_i hop
      obtain ⟨tokens, hissued, hid⟩ := Option.map_eq_some_iff.1 hopened
      exact ⟨tokens, hissued, hid, fun token heq => by cases hop.symm.trans heq⟩
  have hchange := sessionChange_of_step h hf
  have hfresh := fun rows r (h : d.state.store.sessions.rows = rows ++ [r]) => id_ne_of_append h
  rw [hissued] at hchange
  generalize d.state.store.sessions.rows = rows' at hchange hfresh
  generalize c.state.store.sessions.rows = rows at hchange hr
  cases hchange with
  | create draft actor userID client rest hacts => exact hfresh _ _ rfl r hr hid.symm
  | rotate token _ _ _ _ _ heq => exact hop token heq

theorem opening_of_step (h : svc.machine.Reach π w c) (hf : svc.machine.Fired c ev d k a)
    {tokens : Tokens} (hissued : issued ev.outcome = some tokens) {r : Session}
    (hrows : d.state.store.sessions.rows = c.state.store.sessions.rows ++ [r]) :
    Event.opened ev = some r.id ∧ Opening svc r.userID ev.request (c.actsOf ev.thread) := by
  obtain ⟨body, n, next, hcom⟩ := issued_committed h hf hissued
  have hnext := hissued
  rw [hcom.outcome] at hnext
  obtain ⟨hid, hopening⟩ := hcom.commit.opening hcom.run
    (fun _ _ hop => hcom.outcome ▸ clean_issued h hf hop) hnext hrows
  refine ⟨?_, hopening⟩
  generalize c.actsOf ev.thread = acts at hopening
  unfold Event.opened
  rw [hissued, Option.map_some, hid]
  cases hop : ev.request <;> rw [hop] at hopening <;> cases hopening

end Steps

end IdentityService
