import IdentityService.Defs.System

/-! A successful answer of an operation that writes is preceded by a commit. -/

namespace IdentityService

open Lib Service
open Lib.Program (Ends ends_bind ends_expect ends_perform ends_reject ends_require ends_ret)

def HasCommit (acts : List Act) : Prop :=
  ∃ body n, Act.committed body n ∈ acts

section Ends

variable {Ψ : List Act → Reply → Prop} {acts : List Act}

theorem ends_within {body : Tx Nat} {g : RepositoryError → AppError} {f : Nat → Prog Reply}
    (h : ∀ n, Ends Ψ (Act.committed body n :: acts) (f n)) :
    Ends Ψ acts (within body >>= fun r => Program.expect g r >>= f) := by
  simp only [within, ends_perform, ends_expect]
  intro r n hr
  subst hr
  exact h n

theorem ends_of_hasCommit (p : Prog Reply) (h : HasCommit acts) :
    Ends (fun acts _ => HasCommit acts) acts p := by
  induction p generalizing acts with
  | ret a => exact .ret h
  | fail err => exact .fail
  | call e k ih =>
    obtain ⟨body, n, hmem⟩ := h
    exact .call fun r => ih r ⟨body, n, List.mem_cons_of_mem _ hmem⟩

theorem ends_commit {body : Tx Nat} {g : RepositoryError → AppError} {f : Nat → Prog Reply} :
    Ends (fun acts _ => HasCommit acts) acts
      (within body >>= fun r => Program.expect g r >>= f) :=
  ends_within fun n => ends_of_hasCommit _ ⟨body, n, List.mem_cons_self⟩

end Ends

theorem ends_hasCommit (svc : Service) (op : Op) (h : op.writes ≠ [])
    (hclean : ∀ cleaner fuel, op ≠ .clean cleaner fuel) :
    Ends (fun acts _ => HasCommit acts) [] (svc.program op) := by
  cases op with
  | register | refresh | logout | changePassword | updateUserStatus | updateUserProfile
  | revokeOwnSessionByID | revokeSessionByID | revokeTenantSessions | issueTenantToken
  | verifyMFAChallenge | startMFASetup | confirmMFASetup | disableMFA | regenerateMFARecoveryCodes
  | adminResetMFA | issuePasswordReset | confirmPasswordReset | createServiceAccount
  | rotateServiceAccountSecret | updateServiceAccountStatus =>
    simp only [program, register, refresh, logout, changePassword, updateUserStatus,
      updateUserProfile, revokeOwnSessionByID, revokeSessionByID, revokeTenantSessions,
      issueTenantToken, verifyMFAChallenge, startMFASetup, confirmMFASetup, disableMFA,
      regenerateMFARecoveryCodes, adminResetMFA, issuePasswordReset, confirmPasswordReset,
      createServiceAccount, rotateServiceAccountSecret, updateServiceAccountStatus, Service.hash,
      bind_assoc]
    repeat first | with_reducible exact ends_commit | refine ends_bind fun _ _ => ?_
  | login name password client =>
    simp only [program, login, bind_assoc]
    iterate 7 refine ends_bind fun _ _ => ?_
    split
    · simp only [bind_assoc]
      exact ends_commit
    · simp only [bind_assoc]
      exact ends_bind fun _ _ => .fail
  | clean cleaner fuel => exact absurd rfl (hclean cleaner fuel)
  | _ => exact absurd rfl h

section Answers

variable {svc : Service} {π : Policy} {w : World} {c d : Config} {ev : Event}
  {k : ev.call.Res → Prog Reply} {a : Answer}

theorem committed_of_ok (h : svc.machine.Reach π w c) (hf : svc.machine.Fired c ev d k a)
    (hlast : ev.request.commitsLast = true) {reply : Reply} (hout : ev.outcome = some (.ok reply)) :
    ∃ body n next, Committed svc c ev d body n next := by
  have hwrites : ev.request.writes ≠ [] := by
    intro hnil
    cases hop : ev.request <;> simp [hop, Op.commitsLast, Op.writes] at hlast hnil
  have hclean : ∀ cleaner fuel, ev.request ≠ .clean cleaner fuel := by
    intro cleaner fuel hop
    rw [hop] at hlast
    cases hlast
  obtain ⟨body, n, hmem⟩ := h.ends hf (ends_hasCommit svc _ hwrites hclean) hout
  rw [hf.actsOf_self, List.mem_cons] at hmem
  obtain hact | hmem := hmem
  · exact ⟨body, n, committed_of_act h hf hact.symm⟩
  · -- An earlier commit would have been the end of the call.
    obtain ⟨e, he, hthread, hact⟩ := Machine.Reach.mem_actsOf.1 hmem
    obtain ⟨c0, c1, k', a', h0, hf', -, h1⟩ := h.event_of_mem he
    obtain ⟨next, hcom⟩ := committed_of_act h0 hf' hact
    obtain ⟨reply, hreply⟩ := hcom.ok (h.request_eq hf he hthread ▸ hlast)
    exact absurd hthread (h.thread_ne_of_outcome hf he (by rw [hreply]; rfl))

end Answers

theorem ends_serviceAccountToken (svc : Service) (clientID secret : String) :
    Ends (fun acts reply => ∃ (account : ServiceAccount) (g : Grant),
      acts = g.acts svc account.id "service_account" "" "" "" ++
        [.read (.serviceAccountByClientID clientID) account] ∧
      reply = .token g.access (g.expiresAt svc)) []
      (svc.program (.serviceAccountToken clientID secret)) := by
  simp only [program, serviceAccountToken, issue, query, now, draw, bind_assoc, ends_perform,
    ends_expect, ends_require, ends_reject]
  rintro r account rfl - - - t r' id rfl r'' access rfl
  exact (ends_ret _).2 ⟨account, ⟨t, id, access⟩, rfl, rfl⟩

end IdentityService
