import IdentityService.Sessions.Revocation

/-! Revoking a user's sessions in a tenant, and the tokens issued for that tenant before. -/

namespace IdentityService

open Lib Service
open Lib.Program (Ends ends_bind ends_ret)

def Event.accessToken (ev : Event) : Option String :=
  match ev.request, ev.outcome with
  | .issueTenantToken _ _ _ _ _, some (.ok (.token raw _)) => some raw
  | .refresh _, some (.ok (.tokens tokens)) => some tokens.accessToken
  | _, _ => none

def Event.revokedTenant (ev : Event) : Option (String × String) :=
  match ev.request, ev.act with
  | .revokeTenantSessions _ userID tenantID _, ⟨.within _, .ok _⟩ => some (userID, tenantID)
  | _, _ => none

def Event.borne (ev : Event) : Option (String × Principal) :=
  match ev.request, ev.outcome with
  | .verifyBearer raw, some (.ok (.principal principal)) => some (raw, principal)
  | _, _ => none

theorem borne_eq_some {ev : Event} {raw : String} {principal : Principal}
    (h : Event.borne ev = some (raw, principal)) :
    ev.request = .verifyBearer raw ∧ ev.outcome = some (.ok (.principal principal)) := by
  unfold Event.borne at h
  split at h
  · rename_i hop hout
    cases h
    exact ⟨hop, hout⟩
  · cases h

def IssuedToken (history : List Event) (claims : TokenClaims) (raw : String) : Prop :=
  ∃ x ∈ history, Event.accessToken x = some raw ∧
    ∃ y ∈ history, y.thread = x.thread ∧ Event.signed y = some (claims, raw)

instance (history : List Event) (claims : TokenClaims) (raw : String) :
    Decidable (IssuedToken history claims raw) :=
  inferInstanceAs (Decidable (∃ x ∈ history, _ ∧ ∃ y ∈ history, _))

theorem ends_issueTenantToken (svc : Service) (ctx : Context) (u t m s : String) :
    Ends (fun acts _ => ∃ body n rest, acts = Act.committed body n :: rest) []
      (svc.program (.issueTenantToken ctx u t m s)) := by
  simp only [program, issueTenantToken, bind_assoc]
  iterate 5 refine ends_bind fun _ _ => ?_
  refine ends_within fun n => ?_
  exact (ends_ret _).2 ⟨_, _, _, rfl⟩

theorem Commit.signed_session {svc : Service} {op : Op} {acts : List Act} {body : Tx Nat} {n : Nat}
    {next : Prog Reply} {s s' : Store} (h : Commit svc op acts body n next)
    (hop : (∃ token, op = .refresh token) ∨ ∃ ctx u t m sid, op = .issueTenantToken ctx u t m sid)
    (hrun : body.run svc.lower s = .ok (n, s')) {claims : TokenClaims} {raw : String}
    (hmem : Act.signed claims raw ∈ acts) :
    claims.subjectType = "user" ∧ ∃ r ∈ s.sessions.rows, r.id = claims.sessionID := by
  obtain ⟨token, rfl⟩ | ⟨ctx, u, t, m, sid, rfl⟩ := hop
  · cases h with
    | refresh =>
      simp at hrun
      obtain ⟨⟨-, r, hr, hid, -⟩, -⟩ := hrun
      simp only [List.mem_append, List.mem_cons, List.not_mem_nil, or_false] at hmem
      rcases hmem with (hmem | hmem | hmem) | hmem | hmem | hmem | hmem | hmem
      all_goals cases hmem
      exact ⟨rfl, r, hr, hid⟩
  · cases h with
    | issueTenantToken =>
      simp at hrun
      obtain ⟨⟨-, r, hr, hid, -⟩, -⟩ := hrun
      simp only [List.mem_cons, List.not_mem_nil, or_false] at hmem
      rcases hmem with hmem | hmem | hmem | hmem
      all_goals cases hmem
      exact ⟨rfl, r, hr, hid⟩

def InScope (history : List Event) (rows : List Session) (userID tenantID : String) : Prop :=
  ∀ q ∈ history.filterMap Event.signed, IssuedToken history q.1 q.2 → q.1.subject = userID →
    q.1.tenantID = tenantID → ∀ r ∈ rows, r.id = q.1.sessionID → r.userID = userID →
      r.revokedAt = none → r.tenantID = tenantID

instance (history : List Event) (rows : List Session) (userID tenantID : String) :
    Decidable (InScope history rows userID tenantID) :=
  inferInstanceAs (Decidable (∀ q ∈ history.filterMap Event.signed, _ → _ → _ → ∀ r ∈ rows, _))

/-- A tenant is only revoked while the sessions with tokens for it are in its scope. -/
def Policy.revokesInScope : Policy :=
  .onEvents fun c ev => ∀ p ∈ Event.revokedTenant ev,
    InScope c.history ev.before.store.sessions.rows p.1 p.2

instance (c : Config) (q : Op) : Decidable (Policy.revokesInScope.start c q) := .isTrue trivial

instance (c : Config) (ev : Event) : Decidable (Policy.revokesInScope.event c ev) :=
  inferInstanceAs (Decidable (∀ p ∈ Event.revokedTenant ev, _))

section Run

variable {svc : Service} {π : Policy} {w : World} {clock : Time} {c d : Config} {ev : Event}
  {k : ev.call.Res → Prog Reply} {a : Answer} {claims : TokenClaims} {raw u t : String}

theorem accessToken_committed (h : svc.machine.Reach π w c) (hf : svc.machine.Fired c ev d k a)
    (htoken : Event.accessToken ev = some raw) :
    ((∃ token, ev.request = .refresh token) ∨
      ∃ ctx u t m sid, ev.request = .issueTenantToken ctx u t m sid) ∧
    ev.outcome.isSome ∧ ∃ body n next, Committed svc c ev d body n next := by
  unfold Event.accessToken at htoken
  split at htoken
  · rename_i ctx u t m sid _ _ hop hout
    refine ⟨.inr ⟨ctx, u, t, m, sid, hop⟩, by rw [hout]; rfl, ?_⟩
    have hends := ends_issueTenantToken svc ctx u t m sid
    rw [← hop] at hends
    obtain ⟨body, n, rest, hacts⟩ := h.ends hf hends hout
    rw [hf.actsOf_self] at hacts
    exact ⟨body, n, committed_of_act h hf (List.cons.inj hacts).1⟩
  · rename_i token tokens hop hout
    refine ⟨.inl ⟨token, hop⟩, by rw [hout]; rfl, ?_⟩
    exact issued_committed h hf (by rw [hout]; rfl)
  · cases htoken

theorem issued_session (h : svc.machine.Reach (Policy.fresh [.uuid]) (start clock) c)
    (hissued : IssuedToken c.history claims raw) :
    claims.subjectType = "user" ∧ Spent c claims.sessionID ∧ claims.sessionID ≠ "" := by
  obtain ⟨x, hx, htoken, y, hy, hth, hsigned⟩ := hissued
  have hact := signed_eq_some.1 hsigned
  obtain ⟨later, earlier, hc⟩ := List.append_of_mem hx
  obtain ⟨c0, c1, k, a, h0, rfl, hf, -, -⟩ := h.event_split hc
  obtain ⟨hop, hout, body, n, next, hcom⟩ := accessToken_committed h0 hf htoken
  have hmem : Act.signed claims raw ∈ c0.actsOf x.thread := by
    obtain rfl | hy := List.mem_cons.1 (h.mem_of_thread_eq hc hout hy hth)
    · cases hact.symm.trans hcom.act
    · exact Machine.Reach.mem_actsOf.2 ⟨y, hy, hth, hact⟩
  obtain ⟨huser, r, hr, hid⟩ := hcom.commit.signed_session hop hcom.run hmem
  have hsub : c0.history <:+ c.history := ⟨later ++ [x], by simp [hc]⟩
  exact ⟨huser, hid ▸ (spent_of_session h0 hr).mono hsub, hid ▸ session_id_ne_empty h0 hr⟩

theorem revoked_of_revokedTenant (h : svc.machine.Reach π w c) (hf : svc.machine.Fired c ev d k a)
    (hp : Policy.revokesInScope.event c ev) (hev : Event.revokedTenant ev = some (u, t))
    (hissued : IssuedToken c.history claims raw) (hu : claims.subject = u)
    (ht : claims.tenantID = t) :
    ∀ r ∈ d.state.store.sessions.rows, r.id = claims.sessionID → r.userID = u →
      r.revokedAt ≠ none := by
  have hscope := hp (u, t) hev
  obtain ⟨ctx, reason, hop, body, n, hact⟩ : ∃ ctx reason,
      ev.request = .revokeTenantSessions ctx u t reason ∧
        ∃ body n, ev.act = Act.committed body n := by
    unfold Event.revokedTenant at hev
    split at hev
    · rename_i ctx _ _ reason body n hop hact
      cases hev
      exact ⟨ctx, reason, hop, body, n, hact⟩
    · cases hev
  obtain ⟨next, hcom⟩ := committed_of_act h hf hact
  have hcommit := hcom.commit
  have hrun := hcom.run
  rw [hop] at hcommit
  generalize c.actsOf ev.thread = acts at hcommit
  cases hcommit with
  | revokeTenantSessions =>
    simp at hrun
    obtain ⟨t', ⟨-, hrows⟩, hd⟩ := hrun
    intro r hr hid huser hrev
    rw [hd, hrows, Update.mem_map_apply] at hr
    obtain ⟨hr, hskip⟩ | ⟨old, -, -, rfl⟩ := hr
    · obtain ⟨x, -, -, y, hy, -, hsigned⟩ := id hissued
      rw [← hf.before] at hr
      have hq := List.mem_filterMap.2 ⟨y, hy, hsigned⟩
      have htenant := hscope (claims, raw) hq hissued hu ht r hr hid huser hrev
      simp [← Bool.not_eq_true, huser, htenant, hrev] at hskip
    · simp at hrev

theorem stays_revoked {sid : String} (hc : svc.machine.Reach (Policy.fresh [.uuid]) w c)
    (hspent : Spent c sid) (hd : svc.machine.Run (Policy.fresh [.uuid]) c d)
    (hrev : ∀ r ∈ c.state.store.sessions.rows, r.id = sid → r.userID = u → r.revokedAt ≠ none) :
    ∀ r ∈ d.state.store.sessions.rows, r.id = sid → r.userID = u → r.revokedAt ≠ none := by
  refine hd.invariant (I := fun d => ∀ r ∈ d.state.store.sessions.rows, r.id = sid →
    r.userID = u → r.revokedAt ≠ none) hrev ?_ ?_
  · intro d q _ ih
    exact ih
  · intro d ev d' k a hrun ih hf _ r' hr' hid huser
    have hspent' : Spent d r'.id := hid ▸ hspent.mono hrun.history_suffix
    obtain ⟨old, hold, hevolves⟩ :=
      evolves_of_spent (List.mem_singleton_self _) (hc.trans hrun) hf hr' hspent'
    have hold := ih old hold (hevolves.id ▸ hid) (hevolves.userID ▸ huser)
    rw [hevolves.final hold]
    exact hold

theorem not_borne_of_revoked (hc : svc.machine.Reach (Policy.fresh [.uuid]) w c)
    (hspent : Spent c claims.sessionID) (hid : claims.sessionID ≠ "")
    (huser : claims.subjectType = "user")
    (hrev : ∀ r ∈ c.state.store.sessions.rows, r.id = claims.sessionID →
      r.userID = claims.subject → r.revokedAt ≠ none)
    (hd : svc.machine.Run (Policy.fresh [.uuid]) c d) {d' : Config}
    (hf : svc.machine.Fired d ev d' k a) (hp : (Policy.fresh [.uuid]).event d ev)
    (hi : ∀ q x, (⟨.query q, x⟩ : Act) ∉ c.actsOf ev.thread)
    (hraw : svc.issuer.verify raw = some claims) (principal : Principal) :
    Event.borne ev ≠ some (raw, principal) := by
  intro hborne
  obtain ⟨hop, hout⟩ := borne_eq_some hborne
  obtain ⟨row, now, t, hacts, hvalid, -⟩ := bearer_accepts (hc.trans hd) hf hop hout hraw huser hid
  have hread : Act.read (.getSession claims.sessionID claims.subject) row ∈
      d'.actsOf ev.thread := by
    simp [hacts]
  obtain ⟨c', hc', -, hsel⟩ := read_since (hd.fired hf hp) hi hread
  have hrow := List.mem_filter.1 hsel
  simp only [Bool.and_eq_true, decide_eq_true_eq] at hrow
  exact stays_revoked hc hspent hc' hrev row hrow.1 hrow.2.1 hrow.2.2 hvalid

end Run

/-- When tenants are only revoked while the sessions concerned are in their scope, a token for the
tenant that was issued before the revocation is never accepted by a call that reads the database
after it. -/
theorem tenant_revocation_withdraws_access (svc : Service) (clock : Time) (c d : Config) (e : Event)
    (earlier later : List Event) (u t : String)
    (hc : svc.machine.Reach ((Policy.fresh [.uuid]).both Policy.revokesInScope) (start clock) c)
    (hhistory : c.history = e :: earlier) (he : Event.revokedTenant e = some (u, t))
    (hd : svc.machine.Run ((Policy.fresh [.uuid]).both Policy.revokesInScope) c d)
    (hlater : d.history = later ++ c.history) :
    ∀ claims raw, IssuedToken earlier claims raw → claims.subject = u → claims.tenantID = t →
      svc.issuer.verify raw = some claims → ∀ ev ∈ later,
        (∀ q x, (⟨.query q, x⟩ : Act) ∉ c.actsOf ev.thread) →
          ∀ principal, Event.borne ev ≠ some (raw, principal) := by
  intro claims raw hissued hu ht hraw ev hev hi principal
  have hsplit : c.history = [] ++ e :: earlier := hhistory
  obtain ⟨c0, c1, k, a, h0, rfl, hf, hp, h1⟩ := hc.event_split hsplit
  obtain ⟨huser, hspent, hid⟩ := issued_session h0.left hissued
  have hrev := revoked_of_revokedTenant h0 hf hp.2 he hissued hu ht
  rw [← hu] at hrev
  have hsub : c0.history <:+ c1.history := hf.history ▸ List.suffix_cons _ _
  obtain ⟨d0, d1, k', a', hd0, hf', hp', -⟩ := hd.event_of_mem hlater hev
  have hacts : c.actsOf ev.thread = c1.actsOf ev.thread := by
    rw [Config.actsOf, Config.actsOf, hhistory, hf.history]
  rw [hacts] at hi
  exact not_borne_of_revoked (h0.left.trans (Machine.Run.fired .refl hf hp.1)) (hspent.mono hsub)
    hid huser hrev (h1.trans hd0).left hf' hp'.1 hi hraw principal

namespace sample

def ops : Context := some ⟨"ops", .system, "", "", ""⟩

def acmeClaims : TokenClaims :=
  (sample [] none).issuer.claims "u1" "user" "s1" "acme" "m1" 60 "t2"

def issueAcme : List (Choice Op Answer) :=
  [.start (.issueTenantToken ops "u1" "acme" "m1" "s1"),
    .step 2 (.time 60), .step 2 (.value "t2"), .step 2 .done, .step 2 (.time 70), .step 2 .done]

def rescope : List (Choice Op Answer) :=
  [.start (.issueTenantToken ops "u1" "other" "m2" "s1"),
    .step 3 (.time 80), .step 3 (.value "t3"), .step 3 .done, .step 3 (.time 90), .step 3 .done]

def revokeAcme (thread : Nat) : List (Choice Op Answer) :=
  [.start (.revokeTenantSessions ops "u1" "acme" "left"),
    .step thread (.time 100), .step thread .done]

end sample

/-- A session that has moved on to another tenant is not revoked with the first one, and the token
issued for the first tenant is still accepted. -/
theorem rescoped_token_survives_revocation :
    ∃ (c d : Config) (e ev : Event) (earlier later : List Event) (principal : Principal),
      (sample [sample.acmeClaims] none).machine.Reach
        ((Policy.fresh [.uuid]).both Policy.monotone) (start 0) c ∧
      c.history = e :: earlier ∧ Event.revokedTenant e = some ("u1", "acme") ∧
      (sample [sample.acmeClaims] none).machine.Run
        ((Policy.fresh [.uuid]).both Policy.monotone) c d ∧
      d.history = later ++ c.history ∧
      IssuedToken earlier sample.acmeClaims "t2" ∧ sample.acmeClaims.subject = "u1" ∧
      sample.acmeClaims.tenantID = "acme" ∧
      (sample [sample.acmeClaims] none).issuer.verify "t2" = some sample.acmeClaims ∧
      ev ∈ later ∧ (∀ q x, (⟨.query q, x⟩ : Act) ∉ c.actsOf ev.thread) ∧
      Event.borne ev = some ("t2", principal) ∧ principal.tenantID = "acme" := by
  obtain ⟨c, hc, e, hhead, he, hissued, hlen, hmore⟩ : ∃ c,
      (sample [sample.acmeClaims] none).machine.Reach
        ((Policy.fresh [.uuid]).both Policy.monotone) (start 0) c ∧
      ∃ e ∈ c.history.head?, Event.revokedTenant e = some ("u1", "acme") ∧
        IssuedToken c.history.tail sample.acmeClaims "t2" ∧ c.threads.length = 5 ∧
        ((sample [sample.acmeClaims] none).machine.replay ((Policy.fresh [.uuid]).both
          Policy.monotone) [.start (.verifyBearer "t2"), .step 5 (.time 110), .step 5 (.row 0),
            .step 5 (.time 120)] c).any (fun d => decide (∃ ev ∈ d.history.head?, ev.thread = 5 ∧
              ∃ p ∈ Event.borne ev, p.1 = "t2" ∧ p.2.tenantID = "acme")) = true :=
    Machine.replay_exists
      (sample.signIn ++ sample.issueAcme ++ sample.rescope ++ sample.revokeAcme 4)
      (by decide +kernel)
  obtain ⟨d, hd, ev, hev, hth, ⟨raw, principal⟩, hborne, hraw, htenant⟩ :=
    Machine.replay_exists _ hmore
  obtain ⟨later, hlater⟩ := hd.history_suffix
  have hnone : c.actsOf ev.thread = [] := by
    rw [hth, ← hlen]
    exact hc.actsOf_length
  have hmem : ev ∈ later := by
    have hmem := List.mem_of_mem_head? hev
    rw [← hlater, List.mem_append] at hmem
    refine hmem.resolve_right fun hold => ?_
    have := Machine.Reach.mem_actsOf.2 ⟨ev, hold, rfl, rfl⟩
    simp [hnone] at this
  refine ⟨c, d, e, ev, c.history.tail, later, principal, hc, ?_, he, hd, hlater.symm, hissued, rfl,
    rfl, rfl, hmem, by simp [hnone], hraw ▸ hborne, htenant⟩
  exact (List.cons_head?_tail hhead).symm

theorem tenant_revocation_withdraws_access_acme : ∃ (c d : Config) (e : Event) (later : List Event),
    (sample [sample.acmeClaims] none).machine.Reach
      ((Policy.fresh [.uuid]).both Policy.revokesInScope) (start 0) c ∧
    c.history = e :: c.history.tail ∧ Event.revokedTenant e = some ("u1", "acme") ∧
    IssuedToken c.history.tail sample.acmeClaims "t2" ∧
    (sample [sample.acmeClaims] none).machine.Run
      ((Policy.fresh [.uuid]).both Policy.revokesInScope) c d ∧
    d.history = later ++ c.history ∧ later.length = 2 ∧
    ∀ ev ∈ later, ev.thread = 4 ∧ ∀ principal, Event.borne ev ≠ some ("t2", principal) := by
  obtain ⟨c, hc, e, hhead, he, hissued, hlen, hmore⟩ : ∃ c,
      (sample [sample.acmeClaims] none).machine.Reach
        ((Policy.fresh [.uuid]).both Policy.revokesInScope) (start 0) c ∧
      ∃ e ∈ c.history.head?, Event.revokedTenant e = some ("u1", "acme") ∧
        IssuedToken c.history.tail sample.acmeClaims "t2" ∧ c.threads.length = 4 ∧
        ((sample [sample.acmeClaims] none).machine.replay ((Policy.fresh [.uuid]).both
          Policy.revokesInScope)
            [.start (.verifyBearer "t2"), .step 4 (.time 110), .step 4 (.row 0)]
            c).any (fun d => decide (d.history.length = 2 + c.history.length ∧
              ∀ ev ∈ d.history.take 2, ev.thread = 4)) = true :=
    Machine.replay_exists (sample.signIn ++ sample.issueAcme ++ sample.revokeAcme 3)
      (by decide +kernel)
  obtain ⟨d, hd, hcount, hthreads⟩ := Machine.replay_exists _ hmore
  obtain ⟨later, hlater⟩ := hd.history_suffix
  have htwo : later.length = 2 := by
    rw [← hlater, List.length_append] at hcount
    omega
  have hthread : ∀ ev ∈ later, ev.thread = 4 := by
    rwa [← hlater, ← htwo, List.take_left] at hthreads
  have hcons : c.history = e :: c.history.tail := (List.cons_head?_tail hhead).symm
  refine ⟨c, d, e, later, hc, hcons, he, hissued, hd, hlater.symm, htwo, fun ev hev => ?_⟩
  have hnone : c.actsOf ev.thread = [] := by
    rw [hthread ev hev, ← hlen]
    exact hc.actsOf_length
  exact ⟨hthread ev hev, tenant_revocation_withdraws_access _ 0 c d e c.history.tail later "u1"
    "acme" hc hcons he hd hlater.symm _ "t2" hissued rfl rfl rfl ev hev (by simp [hnone])⟩

end IdentityService
