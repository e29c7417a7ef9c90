import IdentityService.MFA.Challenge
import IdentityService.Defs.GoLaws

/-! The client address and user agent that logins leave in the database. -/

namespace IdentityService

open Lib Service

def cleaned (limit : Nat) (value : Bytes) : Bytes :=
  truncateUTF8 (Go.trimSpaceBytes value) limit

/-- Values that survive: well formed once trimmed, or long enough to be cut at a rune. -/
def Storable (limit : Nat) (value : Bytes) : Prop :=
  Go.validString (Go.trimSpaceBytes value) = true ∨ limit < (Go.trimSpaceBytes value).length

instance (limit : Nat) (value : Bytes) : Decidable (Storable limit value) :=
  inferInstanceAs (Decidable (_ ∨ _))

theorem length_cleaned {limit : Nat} {value : Bytes} : (cleaned limit value).length ≤ limit :=
  length_truncateUTF8

theorem validString_cleaned {limit : Nat} {value : Bytes} :
    Go.validString (cleaned limit value) = true ↔ Storable limit value :=
  validString_truncateUTF8

theorem storable_cleaned {limit : Nat} {value : Bytes} :
    Storable limit (cleaned limit value) ↔ Storable limit value := by
  by_cases hlong : limit < (Go.trimSpaceBytes value).length
  · have hvalid := validString_cleaned.2 (Or.inr hlong : Storable limit value)
    exact iff_of_true (.inl (Go.validString_trimSpaceBytes hvalid)) (.inr hlong)
  · -- a short value is stored as trimmed, and trimming once more changes nothing
    have hkept : cleaned limit value = Go.trimSpaceBytes value :=
      truncateUTF8_of_length_le (Nat.le_of_not_lt hlong)
    rw [Storable, hkept, Go.trimSpaceBytes_idem, Storable]

/-- Valid text is cut after the last of its characters that fits. -/
theorem truncation_keeps_longest_text {v : Bytes} (hv : Go.validString v = true) (n : Nat) :
    truncateUTF8 v n <+: v ∧ Go.validString (truncateUTF8 v n) = true ∧
    (truncateUTF8 v n).length ≤ n ∧
    (∀ p, p <+: v → Go.validString p = true → p.length ≤ n → p <+: truncateUTF8 v n) ∧
    (n < v.length → n ≤ (truncateUTF8 v n).length + 3) ∧
    ∀ runes : List Bytes, (∀ r ∈ runes, Go.cutRune r = some []) → runes.flatten = v →
      ∃ k, truncateUTF8 v n = (runes.take k).flatten := by
  have hvalid : Go.validString (truncateUTF8 v n) = true := validString_truncateUTF8.2 (.inl hv)
  refine ⟨truncateUTF8_isPrefix, hvalid, length_truncateUTF8,
    fun p hp hvalid hn => isPrefix_truncateUTF8 hp hvalid hn, fun hn => ?_, ?_⟩
  · -- the text up to the nearest end of a character is one of the texts that fit
    obtain ⟨runes, hrunes, rfl⟩ := Go.validString_iff.1 hv
    obtain ⟨k, hle, hge⟩ := exists_boundary hrunes hn
    have htake : Go.validString (runes.take k).flatten = true :=
      Go.validString_iff.2 ⟨_, fun r hr => hrunes r (List.mem_of_mem_take hr), rfl⟩
    have hprefix := isPrefix_truncateUTF8 (List.take_prefix k runes).flatten htake hle
    have hlength := hprefix.length_le
    omega
  · rintro runes hrunes rfl
    exact Go.eq_take_flatten hrunes hvalid truncateUTF8_isPrefix

theorem truncation_keeps_two_characters :
    let v : Bytes := [0xE8, 0xAE, 0xBE, 0xE5, 0xA4, 0x87, 0xE6, 0xB5, 0x8F, 0xE8, 0xA7, 0x88,
      0xE5, 0x99, 0xA8]
    Go.validString v = true ∧ truncateUTF8 v 7 = [0xE8, 0xAE, 0xBE, 0xE5, 0xA4, 0x87] ∧
      ∀ p, p <+: v → Go.validString p = true → p.length ≤ 7 → p <+: truncateUTF8 v 7 :=
  ⟨by decide, by decide, (truncation_keeps_longest_text (by decide) 7).2.2.2.1⟩

structure SessionClient.Leaves (client : SessionClient) (ip userAgent : Bytes) : Prop where
  ip_length : ip.length ≤ 128
  userAgent_length : userAgent.length ≤ 1024
  ip_valid : Go.validString ip = true ↔ Storable 128 client.ip
  userAgent_valid : Go.validString userAgent = true ↔ Storable 1024 client.userAgent

theorem SessionClient.leaves (client : SessionClient) :
    client.Leaves (cleaned 128 client.ip) (cleaned 1024 client.userAgent) :=
  ⟨length_cleaned, length_cleaned, validString_cleaned, validString_cleaned⟩

theorem SessionClient.leaves_twice (client : SessionClient) :
    client.Leaves (cleaned 128 (cleaned 128 client.ip))
      (cleaned 1024 (cleaned 1024 client.userAgent)) :=
  ⟨length_cleaned, length_cleaned, validString_cleaned.trans storable_cleaned,
    validString_cleaned.trans storable_cleaned⟩

section Commit

variable {svc : Service} {op : Op} {acts : List Act} {body : Tx Nat} {n : Nat} {next : Prog Reply}
  {s s' : Store}

theorem tokenHash_ne_of_append {t : Table MFALoginChallenge} {rows : List MFALoginChallenge}
    {r : MFALoginChallenge} (h : t.rows = rows ++ [r]) :
    ∀ old ∈ rows, old.tokenHash ≠ r.tokenHash := by
  intro old hold hhash
  have hclash :=
    (List.pairwise_append.1 (h ▸ t.distinct)).2.2 old hold r (List.mem_singleton_self r)
  simp [Constrained.clash, hhash] at hclash

theorem Commit.challenge_client (h : Commit svc op acts body n next)
    (hrun : body.run svc.lower s = .ok (n, s')) {r : MFALoginChallenge}
    (hr : r ∈ s'.mfaLoginChallenges.rows) :
    (∃ old ∈ s.mfaLoginChallenges.rows, r.tokenHash = old.tokenHash ∧ r.clientIP = old.clientIP ∧
      r.userAgent = old.userAgent) ∨
    ∃ name password client, op = .login name password client ∧
      r.clientIP = cleaned 128 client.ip ∧ r.userAgent = cleaned 1024 client.userAgent ∧
      ∀ old ∈ s.mfaLoginChallenges.rows, old.tokenHash ≠ r.tokenHash := by
  have hframe := h.frame hrun
  cases h with
  | loginChallenge =>
    simp at hrun
    obtain ⟨⟨t, ht, rfl⟩, -⟩ := hrun
    rw [ht, List.mem_append, List.mem_singleton] at hr
    obtain hr | rfl := hr
    · exact .inl ⟨r, hr, rfl, rfl, rfl⟩
    · exact .inr ⟨_, _, _, rfl, rfl, rfl, tokenHash_ne_of_append ht⟩
  | verifyMFAChallenge =>
    simp [spendFactor] at hrun
    obtain ⟨t, ⟨ht, -⟩, s1, hs1, ⟨t', -, rfl⟩, -⟩ := hrun
    have hs : s1.mfaLoginChallenges = t := by grind
    rw [hs, ht, Update.mem_map_apply] at hr
    obtain ⟨hr, -⟩ | ⟨old, hold, -, rfl⟩ := hr
    · exact .inl ⟨r, hr, rfl, rfl, rfl⟩
    · exact .inl ⟨old, hold, rfl, rfl, rfl⟩
  | cleanMFAChallenges =>
    simp at hrun
    obtain ⟨t, ⟨-, ht⟩, rfl⟩ := hrun
    exact .inl ⟨r, List.mem_of_mem_filter (ht ▸ hr), rfl, rfl, rfl⟩
  | loginFailed | loginVerified =>
    simp at hrun
    obtain ⟨⟨_, -, -, rfl⟩, -⟩ := hrun
    exact .inl ⟨r, hr, rfl, rfl, rfl⟩
  | loginSession =>
    simp at hrun
    obtain ⟨⟨t, ht, rfl⟩, -⟩ := hrun
    exact .inl ⟨r, hr, rfl, rfl, rfl⟩
  | cleanSessions | cleanPasswordResetChallenges =>
    simp at hrun
    obtain ⟨_, -, rfl⟩ := hrun
    exact .inl ⟨r, hr, rfl, rfl, rfl⟩
  | _ => exact .inl ⟨r, hframe.mfaLoginChallenges (by simp [Op.writes]) ▸ hr, rfl, rfl, rfl⟩

inductive SessionSource (svc : Service) (op : Op) (acts : List Act) (rows : List Session)
    (r : Session) : Prop
  | kept (old : Session) (hold : old ∈ rows) (hid : r.id = old.id) (hip : r.clientIP = old.clientIP)
      (hagent : r.userAgent = old.userAgent)
  | login (name password : String) (client : SessionClient) (hop : op = .login name password client)
      (hip : r.clientIP = cleaned 128 client.ip)
      (hagent : r.userAgent = cleaned 1024 client.userAgent)
  | verify (token code recoveryCode : String) (challenge : MFALoginChallenge)
      (hop : op = .verifyMFAChallenge token code recoveryCode)
      (hread : Act.read (.getMFAChallenge
        (svc.hashMFAChallengeToken (Go.trimSpace token))) challenge ∈ acts)
      (hip : r.clientIP = cleaned 128 challenge.clientIP)
      (hagent : r.userAgent = cleaned 1024 challenge.userAgent)

theorem SessionSource.of_update {rows : List Session} {u : Update Session}
    (hassign : ∀ r, (u.assign r).id = r.id ∧ (u.assign r).clientIP = r.clientIP ∧
      (u.assign r).userAgent = r.userAgent) {r : Session} (hr : r ∈ rows.map u.apply) :
    SessionSource svc op acts rows r := by
  rw [Update.mem_map_apply] at hr
  obtain ⟨hr, -⟩ | ⟨old, hold, -, rfl⟩ := hr
  · exact .kept r hr rfl rfl rfl
  · exact .kept old hold (hassign old).1 (hassign old).2.1 (hassign old).2.2

theorem SessionChange.source_of_none {rows rows' : List Session}
    (h : SessionChange svc op acts none rows rows') {r : Session} (hr : r ∈ rows') :
    SessionSource svc op acts rows r := by
  cases h with
  | keep => exact .kept r hr rfl rfl rfl
  | scope => exact .of_update (by simp) hr
  | revoke => exact .of_update (by simp) hr
  | clean => exact .kept r (List.mem_of_mem_filter hr) rfl rfl rfl

theorem Commit.sessionSource (h : Commit svc op acts body n next)
    (hrun : body.run svc.lower s = .ok (n, s'))
    (hclean : ∀ cleaner fuel, op = .clean cleaner fuel → issued next.outcome = none) {r : Session}
    (hr : r ∈ s'.sessions.rows) : SessionSource svc op acts s.sessions.rows r := by
  by_cases hissued : issued next.outcome = none
  · exact (hissued ▸ h.sessionChange hrun hclean).source_of_none hr
  · cases h with
    | loginSession =>
      simp at hrun
      obtain ⟨⟨t, ht, rfl⟩, -⟩ := hrun
      rw [ht, List.mem_append, List.mem_singleton] at hr
      obtain hr | rfl := hr
      · exact .kept r hr rfl rfl rfl
      · exact .login _ _ _ rfl rfl rfl
    | verifyMFAChallenge =>
      simp [spendFactor] at hrun
      obtain ⟨_, -, s1, hs1, ⟨t, ht, rfl⟩, -⟩ := hrun
      have hs : s1.sessions = s.sessions := by grind
      rw [ht, hs, List.mem_append, List.mem_singleton] at hr
      obtain hr | rfl := hr
      · exact .kept r hr rfl rfl rfl
      · exact .verify _ _ _ _ rfl (by simp) rfl rfl
    | refresh =>
      simp at hrun
      obtain ⟨⟨⟨t, ht, rfl⟩, -⟩, -⟩ := hrun
      exact .of_update (by simp) (ht ▸ hr)
    | cleanSessions | cleanMFAChallenges | cleanPasswordResetChallenges =>
      exact absurd (hclean _ _ rfl) hissued
    | _ => exact absurd rfl hissued

end Commit

section Run

variable {svc : Service} {π : Policy} {w : World} {clock : Time} {c d : Config} {ev : Event}
  {k : ev.call.Res → Prog Reply} {a : Answer}

theorem sessionSource_of_step (h : svc.machine.Reach π w c) (hf : svc.machine.Fired c ev d k a)
    {r : Session} (hr : r ∈ d.state.store.sessions.rows) :
    SessionSource svc ev.request (c.actsOf ev.thread) c.state.store.sessions.rows r := by
  by_cases hcom : ∃ body n, ev.act = Act.committed body n
  · obtain ⟨body, n, hact⟩ := hcom
    obtain ⟨next, hc⟩ := committed_of_act h hf hact
    exact hc.commit.sessionSource hc.run
      (fun _ _ hop => hc.outcome ▸ clean_issued h hf hop) hr
  · exact .kept r (store_eq_of_not_committed hf hcom ▸ hr) rfl rfl rfl

def WroteChallenge (ev : Event) (client : SessionClient) (hash : String) : Prop :=
  (∃ name password, ev.request = .login name password client) ∧
    (∃ r ∈ ev.after.store.mfaLoginChallenges.rows, r.tokenHash = hash) ∧
    ∀ r ∈ ev.before.store.mfaLoginChallenges.rows, r.tokenHash ≠ hash

theorem challenge_client_of_step (h : svc.machine.Reach π w c)
    (hf : svc.machine.Fired c ev d k a) {r : MFALoginChallenge}
    (hr : r ∈ d.state.store.mfaLoginChallenges.rows) :
    (∃ old ∈ c.state.store.mfaLoginChallenges.rows, r.tokenHash = old.tokenHash ∧
      r.clientIP = old.clientIP ∧ r.userAgent = old.userAgent) ∨
    ∃ client, WroteChallenge ev client r.tokenHash ∧ r.clientIP = cleaned 128 client.ip ∧
      r.userAgent = cleaned 1024 client.userAgent := by
  obtain ⟨body, n, next, hcom⟩ | hstore := committed_or_store_eq h hf
  · obtain hold | ⟨name, password, client, hop, hip, hagent, hnew⟩ :=
      hcom.commit.challenge_client hcom.run hr
    · exact .inl hold
    · exact .inr ⟨client, ⟨⟨name, password, hop⟩, ⟨r, hf.state ▸ hr, rfl⟩, hf.before ▸ hnew⟩,
        hip, hagent⟩
  · exact .inl ⟨r, hstore ▸ hr, rfl, rfl, rfl⟩

theorem challenge_client (h : svc.machine.Reach π (start clock) c) {r : MFALoginChallenge}
    (hr : r ∈ c.state.store.mfaLoginChallenges.rows) :
    ∃ e ∈ c.history, ∃ client, WroteChallenge e client r.tokenHash ∧
      r.clientIP = cleaned 128 client.ip ∧ r.userAgent = cleaned 1024 client.userAgent := by
  refine Machine.Run.invariant (I := fun c => ∀ r ∈ c.state.store.mfaLoginChallenges.rows,
    ∃ e ∈ c.history, ∃ client, WroteChallenge e client r.tokenHash ∧
      r.clientIP = cleaned 128 client.ip ∧ r.userAgent = cleaned 1024 client.userAgent) h ?_ ?_ ?_
    r hr
  · intro r hr
    cases hr
  · intro d q _ ih
    exact ih
  · intro d ev d' k a hd ih hf _ r hr
    rw [hf.history]
    obtain ⟨old, hold, hhash, hip, hagent⟩ | ⟨client, hnew⟩ := challenge_client_of_step hd hf hr
    · obtain ⟨e, he, client, hchallenge, hip', hagent'⟩ := ih old hold
      exact ⟨e, .tail _ he, client, hhash ▸ hchallenge, hip.trans hip', hagent.trans hagent'⟩
    · exact ⟨ev, .head _, client, hnew⟩

theorem client_of_verify (h : svc.machine.Reach π (start clock) c)
    {i : Nat} {hash : String} {challenge : MFALoginChallenge} {ip userAgent : Bytes}
    (hread : Act.read (.getMFAChallenge hash) challenge ∈ c.actsOf i)
    (hip : ip = cleaned 128 challenge.clientIP)
    (hagent : userAgent = cleaned 1024 challenge.userAgent) :
    ∃ e ∈ c.history, ∃ client, WroteChallenge e client hash ∧ client.Leaves ip userAgent := by
  obtain ⟨e, he, -, hact⟩ := Machine.Reach.mem_actsOf.1 hread
  obtain ⟨c0, c1, k, a, h0, hf, -, h1⟩ := h.event_of_mem he
  obtain ⟨hmem, hhash⟩ := List.mem_filter.1 (read_of_fired hf hact)
  obtain ⟨e', he', client, hchallenge, hip', hagent'⟩ := challenge_client h0 hmem
  have hsub : c0.history ⊆ c.history := fun x hx =>
    h1.history_suffix.subset (hf.history ▸ List.mem_cons_of_mem e hx)
  have hhash : challenge.tokenHash = hash := of_decide_eq_true hhash
  refine ⟨e', hsub he', client, hhash ▸ hchallenge, ?_⟩
  rw [hip, hagent, hip', hagent']
  exact client.leaves_twice

theorem session_client (h : svc.machine.Reach π (start clock) c) {r : Session}
    (hr : r ∈ c.state.store.sessions.rows) :
    ∃ e ∈ c.history, ∃ name password client, e.request = .login name password client ∧
      client.Leaves r.clientIP r.userAgent := by
  refine Machine.Run.invariant (I := fun c => ∀ r ∈ c.state.store.sessions.rows,
    ∃ e ∈ c.history, ∃ name password client, e.request = .login name password client ∧
      client.Leaves r.clientIP r.userAgent) h ?_ ?_ ?_ r hr
  · intro r hr
    cases hr
  · intro d q _ ih
    exact ih
  · intro d ev d' k a hd ih hf _ r hr
    rw [hf.history]
    cases sessionSource_of_step hd hf hr with
    | kept old hold _ hip hagent =>
      obtain ⟨e, he, name, password, client, hop, hleaves⟩ := ih old hold
      exact ⟨e, .tail _ he, name, password, client, hop, hip ▸ hagent ▸ hleaves⟩
    | login name password client hop hip hagent =>
      exact ⟨ev, .head _, name, password, client, hop, hip ▸ hagent ▸ client.leaves⟩
    | verify _ _ _ _ _ hread hip hagent =>
      obtain ⟨e, he, client, ⟨⟨name, password, hop⟩, -⟩, hleaves⟩ :=
        client_of_verify hd hread hip hagent
      exact ⟨e, .tail _ he, name, password, client, hop, hleaves⟩

end Run

/-- Everything stored for a client stays within 128 and 1024 bytes. It is well-formed text exactly
when the login sent values that are `Storable`. -/
theorem stored_client_valid_iff (svc : Service) (π : Policy) (clock : Time) (c : Config)
    (h : svc.machine.Reach π (start clock) c) :
    (∀ ev ∈ c.history, ∀ name password client, ev.request = .login name password client →
      (∀ r ∈ ev.after.store.sessions.rows,
        (∀ old ∈ ev.before.store.sessions.rows, old.id ≠ r.id) →
          client.Leaves r.clientIP r.userAgent) ∧
      ∀ r ∈ ev.after.store.mfaLoginChallenges.rows,
        (∀ old ∈ ev.before.store.mfaLoginChallenges.rows, old.tokenHash ≠ r.tokenHash) →
          client.Leaves r.clientIP r.userAgent) ∧
    (∀ ev ∈ c.history, ∀ token code recoveryCode,
      ev.request = .verifyMFAChallenge token code recoveryCode →
        ∀ r ∈ ev.after.store.sessions.rows,
          (∀ old ∈ ev.before.store.sessions.rows, old.id ≠ r.id) →
            ∃ e ∈ c.history, ∃ client,
              WroteChallenge e client (svc.hashMFAChallengeToken (Go.trimSpace token)) ∧
              client.Leaves r.clientIP r.userAgent) ∧
    (∀ r ∈ c.state.store.sessions.rows, ∃ e ∈ c.history, ∃ name password client,
      e.request = .login name password client ∧ client.Leaves r.clientIP r.userAgent) ∧
    ∀ r ∈ c.state.store.mfaLoginChallenges.rows, ∃ e ∈ c.history, ∃ client,
      WroteChallenge e client r.tokenHash ∧ client.Leaves r.clientIP r.userAgent := by
  refine ⟨?_, ?_, fun r hr => session_client h hr, ?_⟩
  · intro ev hev name password client hop
    obtain ⟨c0, c1, k, a, h0, hf, -, -⟩ := h.event_of_mem hev
    rw [← hf.state, hf.before]
    constructor
    · intro r hr hnew
      cases sessionSource_of_step h0 hf hr with
      | kept old hold hid => exact absurd hid.symm (hnew old hold)
      | login _ _ _ hop' hip hagent =>
        cases hop.symm.trans hop'
        exact hip ▸ hagent ▸ client.leaves
      | verify _ _ _ _ hop' => cases hop.symm.trans hop'
    · intro r hr hnew
      obtain ⟨old, hold, hhash, -⟩ | ⟨client', ⟨⟨_, _, hop'⟩, -⟩, hip, hagent⟩ :=
        challenge_client_of_step h0 hf hr
      · exact absurd hhash.symm (hnew old hold)
      · cases hop.symm.trans hop'
        exact hip ▸ hagent ▸ client.leaves
  · intro ev hev token code recoveryCode hop r hr hnew
    obtain ⟨c0, c1, k, a, h0, hf, -, h1⟩ := h.event_of_mem hev
    rw [← hf.state] at hr
    rw [hf.before] at hnew
    cases sessionSource_of_step h0 hf hr with
    | kept old hold hid => exact absurd hid.symm (hnew old hold)
    | login _ _ _ hop' => cases hop.symm.trans hop'
    | verify _ _ _ _ hop' hread hip hagent =>
      cases hop.symm.trans hop'
      obtain ⟨e, he, hclient⟩ := client_of_verify h0 hread hip hagent
      exact ⟨e, h1.history_suffix.subset (hf.history ▸ List.mem_cons_of_mem ev he), hclient⟩
  · intro r hr
    obtain ⟨e, he, client, hwrote, hip, hagent⟩ := challenge_client h hr
    exact ⟨e, he, client, hwrote, hip ▸ hagent ▸ client.leaves⟩

namespace sample

def sending (userAgent : Bytes) : Choice Op Answer → Choice Op Answer
  | .start (.login name password client) => .start (.login name password { client with userAgent })
  | choice => choice

def bothLogins : List (Choice Op Answer) := signIn ++ enrol ++ challenge ++ answer 5

end sample

theorem stored_client_valid_latin : ∃ c : Config,
    (sample [] (some sample.crypto)).machine.Reach .any (start 0) c ∧
    c.state.store.sessions.rows.length = 2 ∧
    ∀ r ∈ c.state.store.sessions.rows, ∃ e ∈ c.history, ∃ name password client,
      e.request = .login name password client ∧ client.Leaves r.clientIP r.userAgent := by
  obtain ⟨c, hc, hrows⟩ : ∃ c, (sample [] (some sample.crypto)).machine.Reach .any (start 0) c ∧
      c.state.store.sessions.rows.length = 2 :=
    Machine.replay_exists (sample.bothLogins.map (sample.sending [0xC3, 0xA9])) (by decide +kernel)
  exact ⟨c, hc, hrows, (stored_client_valid_iff _ _ _ c hc).2.2.1⟩

/-- A user agent of the one byte `0xFF` is stored as it is, on both ways to a session. -/
theorem malformed_user_agent_stored : ∃ c : Config,
    (sample [] (some sample.crypto)).machine.Reach .any (start 0) c ∧
    c.state.store.sessions.rows.map Session.userAgent = [[0xFF], [0xFF]] ∧
    c.state.store.mfaLoginChallenges.rows.map MFALoginChallenge.userAgent = [[0xFF]] ∧
    Go.validString [0xFF] = false :=
  Machine.replay_exists (sample.bothLogins.map (sample.sending [0xFF])) (by decide +kernel)

end IdentityService
