import IdentityService.Defs.Outcome

/-! The audiences a service account is created with and those of its tokens. -/

namespace IdentityService

open Lib Service
open Lib.Program (Ends ends_expect ends_perform ends_pure ends_reject ends_require)

def Event.createdAccount (ev : Event) : Option (String × List String) :=
  match ev.request, ev.outcome with
  | .createServiceAccount _ _ audiences, some (.ok (.accountCreated account _)) =>
    some (account.id, audiences)
  | _, _ => none

def Event.accountToken (ev : Event) : Option (String × String) :=
  match ev.request, ev.outcome with
  | .serviceAccountToken clientID _, some (.ok (.token raw _)) => some (clientID, raw)
  | _, _ => none

def CreatedWith (history : List Event) (id : String) (audiences : List String) : Prop :=
  ∃ e ∈ history, Event.createdAccount e = some (id, audiences)

instance (history : List Event) (id : String) (audiences : List String) :
    Decidable (CreatedWith history id audiences) :=
  inferInstanceAs (Decidable (∃ e ∈ history, _))

theorem accountToken_eq_some {ev : Event} {clientID raw : String}
    (h : Event.accountToken ev = some (clientID, raw)) :
    ∃ secret expiresAt, ev.request = .serviceAccountToken clientID secret ∧
      ev.outcome = some (.ok (.token raw expiresAt)) := by
  unfold Event.accountToken at h
  split at h
  · rename_i hop hout
    cases h
    exact ⟨_, _, hop, hout⟩
  · cases h

theorem ends_createServiceAccount (svc : Service) (ctx : Context) (name : String)
    (audiences : List String) :
    Ends (fun _ reply => ∀ account secret, reply = .accountCreated account secret →
      account.audiencesJSON = svc.marshalAudiences audiences) []
      (svc.program (.createServiceAccount ctx name audiences)) := by
  simp only [program, createServiceAccount, newServiceAccountSecret, Service.hash, newOutboxEvent,
    newUUID, draw, now, within, bind_assoc, pure_bind, ends_perform, ends_expect, ends_require,
    ends_reject, ends_pure]
  intros
  rename_i hreply
  cases hreply
  rfl

section Commits

variable {svc : Service} {op : Op} {acts : List Act} {body : Tx Nat} {n : Nat}
  {next : Prog Reply} {s s' : Store} {a' : ServiceAccount}

theorem Commit.account_origin (h : Commit svc op acts body n next)
    (hrun : body.run svc.lower s = .ok (n, s')) (ha' : a' ∈ s'.serviceAccounts.rows) :
    (∃ a ∈ s.serviceAccounts.rows, a'.id = a.id ∧ a'.audiencesJSON = a.audiencesJSON) ∨
      ∃ ctx name audiences secret, op = .createServiceAccount ctx name audiences ∧
        next = .ret (.accountCreated a' secret) := by
  have hframe := h.frame hrun
  cases h with
  | createServiceAccount =>
    simp at hrun
    obtain ⟨t, ht, ⟨_, -, rfl⟩, -⟩ := hrun
    simp only [ht, List.mem_append, List.mem_singleton] at ha'
    obtain ha' | rfl := ha'
    · exact .inl ⟨a', ha', rfl, rfl⟩
    · exact .inr ⟨_, _, _, _, rfl, rfl⟩
  | rotateServiceAccountSecret | updateServiceAccountStatus =>
    simp at hrun
    obtain ⟨t, ⟨ht, -⟩, ⟨_, -, rfl⟩, -⟩ := hrun
    simp only [ht, Update.mem_map_apply] at ha'
    obtain ⟨ha', -⟩ | ⟨a, ha, -, rfl⟩ := ha'
    · exact .inl ⟨a', ha', rfl, rfl⟩
    · exact .inl ⟨a, ha, rfl, rfl⟩
  | _ =>
    rw [hframe.serviceAccounts (by simp [Op.writes])] at ha'
    exact .inl ⟨a', ha', rfl, rfl⟩

end Commits

section Runs

variable {svc : Service} {clock : Time} {c d : Config} {ev : Event}
  {k : ev.call.Res → Prog Reply} {a : Answer} {account : ServiceAccount}

theorem CreatedWith.mono {id : String} {audiences : List String}
    (h : CreatedWith c.history id audiences) (hsub : c.history <:+ d.history) :
    CreatedWith d.history id audiences := by
  obtain ⟨e, he, hcreated⟩ := h
  exact ⟨e, hsub.mem he, hcreated⟩

theorem createdWith_of_account (h : svc.machine.Reach .any (start clock) c)
    (haccount : account ∈ c.state.store.serviceAccounts.rows) :
    ∃ audiences, CreatedWith c.history account.id audiences ∧
      account.audiencesJSON = svc.marshalAudiences audiences := by
  refine Machine.Run.invariant (I := fun c => ∀ a ∈ c.state.store.serviceAccounts.rows,
    ∃ audiences, CreatedWith c.history a.id audiences ∧
      a.audiencesJSON = svc.marshalAudiences audiences) h ?_ ?_ ?_ account haccount
  · intro a ha
    cases ha
  · intro d q _ ih
    exact ih
  · intro d ev d' k a hd ih hf _ b hb
    have hsub : d.history <:+ d'.history := hf.history ▸ List.suffix_cons ev _
    obtain ⟨body, n, next, hcom⟩ | hstore := committed_or_store_eq hd hf
    · obtain ⟨b0, hb0, hid, hjson⟩ | ⟨ctx, name, audiences, secret, hop, rfl⟩ :=
        hcom.commit.account_origin hcom.run hb
      · obtain ⟨audiences, hcreated, hb0⟩ := ih b0 hb0
        exact ⟨audiences, hid ▸ hcreated.mono hsub, hjson.trans hb0⟩
      · have hends := ends_createServiceAccount svc ctx name audiences
        rw [← hop] at hends
        have hout : ev.outcome = some (.ok (.accountCreated b secret)) := hcom.outcome
        have hcreated : Event.createdAccount ev = some (b.id, audiences) := by
          simp only [Event.createdAccount, hop, hout]
        exact ⟨audiences, ⟨ev, by simp [hf.history], hcreated⟩,
          Machine.Reach.ends hd hf hends hout b secret rfl⟩
    · rw [hstore] at hb
      obtain ⟨audiences, hcreated, hb⟩ := ih b hb
      exact ⟨audiences, hcreated.mono hsub, hb⟩

end Runs

/-- The token of a service account is limited to the audiences it was created with just if the
configured audiences, which every token gets, are. -/
theorem account_token_limited_iff (svc : Service) (clock : Time) (c : Config)
    (hc : svc.machine.Reach .any (start clock) c) (ev : Event) (hev : ev ∈ c.history)
    (clientID raw : String) (htoken : Event.accountToken ev = some (clientID, raw)) :
    ∃ (account : ServiceAccount) (claims : TokenClaims),
      Act.read (.serviceAccountByClientID clientID) account ∈ c.actsOf ev.thread ∧
      Act.signed claims raw ∈ c.actsOf ev.thread ∧ raw = svc.issuer.signedString claims ∧
      claims.subject = account.id ∧
      (∃ audiences, CreatedWith c.history account.id audiences ∧
        account.audiencesJSON = svc.marshalAudiences audiences) ∧
      ∀ audiences, CreatedWith c.history account.id audiences →
        ((∀ aud ∈ claims.audience, aud ∈ audiences) ↔
          ∀ aud ∈ svc.issuer.audiences, aud ∈ audiences) := by
  obtain ⟨c0, c1, k, a, h0, hf, hp, h1⟩ := hc.event_of_mem hev
  obtain ⟨secret, expiresAt, hop, hout⟩ := accountToken_eq_some htoken
  have hends := ends_serviceAccountToken svc clientID secret
  rw [← hop] at hends
  obtain ⟨account, g, hacts, hreply⟩ := h0.ends hf hends hout
  cases hreply
  have hmono : ∀ x ∈ c1.actsOf ev.thread, x ∈ c.actsOf ev.thread := fun x hx =>
    Machine.Reach.actsOf_mono h1.history_suffix hx
  have hread := hmono (Act.read (.serviceAccountByClientID clientID) account) (by simp [hacts])
  have hsigned := hmono (Act.signed (g.claims svc account.id "service_account" "" "" "") g.access)
    (by simp [hacts])
  obtain ⟨e, he, -, hact⟩ := Machine.Reach.mem_actsOf.1 hsigned
  obtain ⟨e', he', -, hact'⟩ := Machine.Reach.mem_actsOf.1 hread
  obtain ⟨c2, c3, k', a', h2, hf', hp', h3⟩ := hc.event_of_mem he'
  obtain ⟨audiences, hcreated, hjson⟩ :=
    createdWith_of_account h2 (List.mem_filter.1 (read_of_fired hf' hact')).1
  have hsub := ((Machine.Run.refl.fired hf' hp').trans h3).history_suffix
  exact ⟨account, _, hread, hsigned, raw_of_signed hc he hact, rfl,
    ⟨audiences, hcreated.mono hsub, hjson⟩, fun _ _ => Iff.rfl⟩

namespace sample

def encoding : Service :=
  { sample [] none with
    marshalAudiences := ",".intercalate
    unmarshalAudiences := fun json => some [json] }

def accountToken (aud : String) : List (Choice Op Answer) :=
  [.start (.createServiceAccount admin "reporting" [aud]), .step 0 (.time 10),
    .step 0 (.value "correct horse"), .step 0 (.value "salt"), .step 0 (.value "sa1"),
    .step 0 (.value "1"), .step 0 (.value "e1"), .step 0 .done,
    .start (.serviceAccountToken "svc_1" "correct horse"), .step 1 (.row 0), .step 1 (.time 20),
    .step 1 (.value "t1"), .step 1 .done]

end sample

/-- The token of an account for billing is good for the configured audience. -/
theorem token_exceeds_audiences : ∃ c : Config, sample.encoding.machine.Reach .any (start 0) c ∧
    CreatedWith c.history "sa1" ["billing"] ∧
    (∃ account ∈ c.state.store.serviceAccounts.rows, account.id = "sa1" ∧
      sample.encoding.unmarshalAudiences account.audiencesJSON = some ["billing"]) ∧
    ∃ ev ∈ c.history, ∃ claims raw, Event.accountToken ev = some ("svc_1", raw) ∧
      Act.signed claims raw ∈ c.actsOf ev.thread ∧ claims.subject = "sa1" ∧
      claims.audience = ["api"] := by
  obtain ⟨c, hc, hcreated, haccount, ev, hev, hsigned⟩ : ∃ c : Config,
      sample.encoding.machine.Reach .any (start 0) c ∧ CreatedWith c.history "sa1" ["billing"] ∧
      (∃ account ∈ c.state.store.serviceAccounts.rows, account.id = "sa1" ∧
        sample.encoding.unmarshalAudiences account.audiencesJSON = some ["billing"]) ∧
      ∃ ev ∈ c.history, ∃ q ∈ Event.signed ev, Event.accountToken ev = some ("svc_1", q.2) ∧
        q.1.subject = "sa1" ∧ q.1.audience = ["api"] :=
    Machine.replay_exists (sample.accountToken "billing") (by decide +kernel)
  obtain ⟨⟨claims, raw⟩, hsigned, htoken, hsubject, haudience⟩ := hsigned
  exact ⟨c, hc, hcreated, haccount, ev, hev, claims, raw, htoken,
    Machine.Reach.mem_actsOf.2 ⟨ev, hev, rfl, signed_eq_some.1 hsigned⟩, hsubject, haudience⟩

theorem account_token_limited_iff_api : ∃ (c : Config) (ev : Event) (account : ServiceAccount)
    (claims : TokenClaims) (raw : String),
    sample.encoding.machine.Reach .any (start 0) c ∧ ev ∈ c.history ∧
    Event.accountToken ev = some ("svc_1", raw) ∧ CreatedWith c.history account.id ["api"] ∧
    Act.signed claims raw ∈ c.actsOf ev.thread ∧ claims.subject = account.id ∧
    ∀ aud ∈ claims.audience, aud ∈ ["api"] := by
  obtain ⟨c, hc, hcreated, hone, ev, hev, htoken⟩ : ∃ c : Config,
      sample.encoding.machine.Reach .any (start 0) c ∧
      CreatedWith c.history "sa1" ["api"] ∧
      (∀ e ∈ c.history, (Event.createdAccount e).all (fun p => p.1 = "sa1") = true) ∧
      ∃ ev ∈ c.history, (Event.accountToken ev).any (fun p => p.1 = "svc_1") = true :=
    Machine.replay_exists (sample.accountToken "api") (by decide +kernel)
  obtain ⟨⟨clientID, raw⟩, htoken, hclient⟩ := (Option.any_eq_true _ _).1 htoken
  obtain rfl : clientID = "svc_1" := of_decide_eq_true hclient
  obtain ⟨account, claims, -, hsigned, -, hsubject, ⟨audiences, ⟨e, he, hwith⟩, -⟩, hlimited⟩ :=
    account_token_limited_iff sample.encoding 0 c hc ev hev "svc_1" raw htoken
  have hid : account.id = "sa1" := by simpa [hwith] using hone e he
  rw [← hid] at hcreated
  exact ⟨c, ev, account, claims, raw, hc, hev, htoken, hcreated, hsigned, hsubject,
    (hlimited _ hcreated).2 (by decide)⟩

end IdentityService
