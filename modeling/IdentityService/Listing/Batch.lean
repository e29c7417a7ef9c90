import IdentityService.Listing.Pages
import Mathlib.Data.List.Permutation

/-! Reading users and service accounts by a list of identifiers. -/

namespace IdentityService

open Lib Service

theorem normalizeIDs_spec (err : AppError) (ids seen : List String) (hseen : seen.Nodup) :
    (normalizeIDs err ids seen = .error err ∧ "" ∈ ids.map Go.trimSpace) ∨
      ∃ out, normalizeIDs err ids seen = .ok out ∧ "" ∉ ids.map Go.trimSpace ∧ out.Nodup ∧
        ∀ id, id ∈ out ↔ id ∈ seen ∨ id ∈ ids.map Go.trimSpace := by
  induction ids generalizing seen with
  | nil => exact .inr ⟨seen, rfl, by simp, hseen, by simp⟩
  | cons id ids ih =>
    simp only [normalizeIDs, List.map_cons, List.mem_cons]
    split
    case isTrue hempty => exact .inl ⟨rfl, .inl hempty.symm⟩
    case isFalse hempty =>
      have hlift : ∀ seen', seen'.Nodup → (∀ x, x ∈ seen' ↔ x ∈ seen ∨ x = Go.trimSpace id) →
          (normalizeIDs err ids seen' = .error err ∧
            ("" = Go.trimSpace id ∨ "" ∈ ids.map Go.trimSpace)) ∨
          ∃ out, normalizeIDs err ids seen' = .ok out ∧
            ¬("" = Go.trimSpace id ∨ "" ∈ ids.map Go.trimSpace) ∧ out.Nodup ∧
            ∀ x, x ∈ out ↔ x ∈ seen ∨ x = Go.trimSpace id ∨ x ∈ ids.map Go.trimSpace := by
        intro seen' hnodup hmem
        obtain ⟨herr, hin⟩ | ⟨out, hout, hin, hnodup, hmem'⟩ := ih seen' hnodup
        · exact .inl ⟨herr, .inr hin⟩
        · refine .inr ⟨out, hout, ?_, hnodup, fun x => ?_⟩
          · rintro (h | h)
            · exact hempty h.symm
            · exact hin h
          · rw [hmem', hmem, or_assoc]
      split
      case isTrue hin => exact hlift seen hseen fun x => by grind
      case isFalse hin =>
        refine hlift _ ?_ fun x => by simp
        exact List.nodup_append.2 ⟨hseen, List.nodup_singleton _, by grind⟩

def Rejects (svc : Service) (t : Time) (w : World) (op : Op) : Prop :=
  ∃ message, svc.machine.Answers (Effect.Calm t) op w (.error (.invalid message))

def ReturnsUsers (svc : Service) (t : Time) (w : World) (op : Op) (users : List User) : Prop :=
  ∃ n, svc.machine.Resolves (Effect.Calm t) op w n
    (fun o _ => ∃ found, o = .ok (.userBatch found) ∧ found.Perm users)

section Users

variable (svc : Service) (t : Time) (w : World) (ids : List String)

theorem not_rejects_of_returns {op : Op} {users : List User} (h : ReturnsUsers svc t w op users) :
    ¬Rejects svc t w op := by
  rintro ⟨message, m, hm⟩
  obtain ⟨n, hn⟩ := h
  obtain ⟨o, -, ⟨found, rfl, -⟩, ho⟩ := hn.common hm
  cases ho

theorem batchGetUsers_rejects (h : ids.length > 100 ∨ "" ∈ ids.map Go.trimSpace) :
    Rejects svc t w (.batchGetUsers ids) := by
  by_cases hlength : ids.length > 100
  · refine ⟨"at most 100 user IDs are allowed", Machine.answers_of_program (n := 0) ?_⟩
    simp only [machine, program, batchGetUsers, Program.reject, if_pos hlength]
    rfl
  · obtain ⟨herr, -⟩ | ⟨out, -, hin, -⟩ :=
      normalizeIDs_spec (.invalid "user IDs must not be empty") ids [] List.nodup_nil
    · refine ⟨"user IDs must not be empty", Machine.answers_of_program (n := 0) ?_⟩
      simp only [machine, program, batchGetUsers, Program.reject, if_neg hlength, herr]
      rfl
    · exact absurd (h.resolve_left hlength) hin

theorem batchGetUsers_returns (hlength : ¬ids.length > 100) (hempty : "" ∉ ids.map Go.trimSpace) :
    ReturnsUsers svc t w (.batchGetUsers ids)
      (w.store.users.rows.filter (fun u => u.id ∈ ids.map Go.trimSpace)) := by
  obtain ⟨-, hin⟩ | ⟨out, hout, -, -, hmem⟩ :=
    normalizeIDs_spec (.invalid "user IDs must not be empty") ids [] List.nodup_nil
  · exact absurd hin hempty
  · have hfilter : w.store.users.rows.filter (fun u => u.id ∈ ids.map Go.trimSpace) =
        w.store.users.rows.filter (fun u => u.id ∈ out) := by simp [hmem]
    rw [hfilter]
    refine ⟨1, Machine.resolves_of_program ?_⟩
    simp only [machine, program, batchGetUsers, Program.reject, if_neg hlength, hout]
    by_cases hnil : out = []
    · subst hnil
      exact ⟨[], rfl, by simp⟩
    · simp only [Program.ret_bind, Program.expect, if_neg hnil, bind_assoc]
      refine resolves_select ?_ fun row hrow => ⟨row, rfl, List.mem_permutations.1 hrow⟩
      exact List.ne_nil_of_mem (List.mem_permutations.2 (List.Perm.refl _))

theorem batchGetUsers_rejects_iff : Rejects svc t w (.batchGetUsers ids) ↔
    ids.length > 100 ∨ "" ∈ ids.map Go.trimSpace := by
  refine ⟨fun h => ?_, batchGetUsers_rejects svc t w ids⟩
  by_contra hnot
  rw [not_or] at hnot
  exact not_rejects_of_returns svc t w (batchGetUsers_returns svc t w ids hnot.1 hnot.2) h

end Users

section Accounts

variable (svc : Service) (t : Time) (w : World)

def accountsByID (ids : List String) : List ServiceAccount :=
  (w.store.serviceAccounts.rows.filter (fun a => a.id ∈ ids)).insertionSort (fun a b => a.id ≤ b.id)

def batchAnswer (unique : List String) : Except AppError Reply :=
  if unique.length > 100 then
    .error (.invalid "service_account_ids must not contain more than 100 values")
  else
    match (accountsByID w unique).mapM (readAccount svc) with
    | none => .error .internal
    | some accounts => .ok (.accountBatch accounts)

theorem answers_batchGetServiceAccounts_empty {ids : List String} {err : AppError}
    (h : normalizeIDs (.invalid "service_account_ids must not contain empty values") ids [] =
      .error err) :
    svc.machine.Answers (Effect.Calm t) (.batchGetServiceAccounts ids) w (.error err) := by
  refine Machine.answers_of_program (n := 0) ?_
  simp only [machine, program, batchGetServiceAccounts, h]
  rfl

theorem answers_batchGetServiceAccounts {ids unique : List String}
    (h : normalizeIDs (.invalid "service_account_ids must not contain empty values") ids [] =
      .ok unique) :
    svc.machine.Answers (Effect.Calm t) (.batchGetServiceAccounts ids) w
      (batchAnswer svc w unique) := by
  refine Machine.answers_of_program (n := 1) ?_
  simp only [machine, program, batchGetServiceAccounts, h, Program.expect, Program.ret_bind,
    batchAnswer]
  by_cases hnil : unique = []
  · subst hnil
    simp [accountsByID]
    rfl
  · rw [if_neg hnil]
    by_cases hlength : unique.length > 100
    · simp only [Program.reject, hlength, if_true]
      rfl
    · simp only [Program.reject, hlength, if_false, Program.ret_bind, bind_assoc]
      refine resolves_read rfl ?_
      change (Program.require _ (List.mapM (readAccount svc) (accountsByID w unique)) >>=
        _).Resolves _ _ _ _
      cases List.mapM (readAccount svc) (accountsByID w unique) <;> rfl

theorem batchAnswer_congr {ids ids' : List String} (hnodup : ids.Nodup) (hnodup' : ids'.Nodup)
    (h : ∀ id, id ∈ ids ↔ id ∈ ids') : batchAnswer svc w ids = batchAnswer svc w ids' := by
  have hlength : ids.length = ids'.length :=
    ((List.perm_ext_iff_of_nodup hnodup hnodup').2 h).length_eq
  simp only [batchAnswer, accountsByID, hlength, h]

theorem perm_accountsByID (ids : List String) : (accountsByID w ids).Perm
    (w.store.serviceAccounts.rows.filter (fun a => a.id ∈ ids)) :=
  List.perm_insertionSort _ _

instance : Std.Total (fun a b : ServiceAccount => a.id ≤ b.id) where
  total a b := String.le_total a.id b.id

instance : IsTrans ServiceAccount (fun a b => a.id ≤ b.id) where
  trans _ _ _ hab hbc := String.le_trans hab hbc

theorem sorted_accountsByID (ids : List String) :
    (accountsByID w ids).Pairwise (fun a b => a.id < b.id) := by
  have hne := (Table.pairwise_key_ne w.store.serviceAccounts (fun a => a.id) fun a b h => by
    simp [Constrained.clash, h]).filter (fun a => a.id ∈ ids)
  have hne' := ((perm_accountsByID w ids).pairwise_iff fun h => h.symm).2 hne
  have hle : (accountsByID w ids).Pairwise (fun a b => a.id ≤ b.id) :=
    List.pairwise_insertionSort _ _
  exact (hle.and hne').imp fun ⟨hab, hne⟩ =>
    String.not_le.1 fun hba => hne (String.le_antisymm hab hba)

theorem map_fst_of_mapM_readAccount {rows : List ServiceAccount}
    {accounts : List (ServiceAccount × List String)}
    (h : rows.mapM (readAccount svc) = some accounts) : accounts.map Prod.fst = rows := by
  rw [mapM_eq_some_iff] at h
  induction rows generalizing accounts with
  | nil =>
    cases accounts with
    | nil => rfl
    | cons account accounts => cases h
  | cons a rows ih =>
    cases accounts with
    | nil => cases h
    | cons account accounts =>
      obtain ⟨ha, hrows⟩ := List.cons.inj h
      obtain ⟨audiences, -, rfl⟩ := Option.map_eq_some_iff.1 ha
      rw [List.map_cons, ih hrows]

theorem batchAnswer_ok {ids : List String} {accounts : List (ServiceAccount × List String)}
    (h : batchAnswer svc w ids = .ok (.accountBatch accounts)) :
    accounts.map Prod.fst = accountsByID w ids := by
  simp only [batchAnswer] at h
  split at h
  · cases h
  · cases hread : (accountsByID w ids).mapM (readAccount svc) with
    | none =>
      rw [hread] at h
      cases h
    | some read =>
      rw [hread] at h
      cases h
      exact map_fst_of_mapM_readAccount svc hread

theorem batchAnswer_error {ids : List String} {err : AppError}
    (h : batchAnswer svc w ids = .error err) : (∃ message, err = .invalid message) ∨
      ∃ a ∈ accountsByID w ids, svc.unmarshalAudiences a.audiencesJSON = none := by
  simp only [batchAnswer] at h
  split at h
  · cases h
    exact .inl ⟨_, rfl⟩
  · refine .inr ?_
    by_contra hnone
    simp only [not_exists, not_and] at hnone
    obtain ⟨items, hitems⟩ := exists_mapM_eq_some.2 fun a ha =>
      show (readAccount svc a).isSome by
        simpa [readAccount, Option.isSome_iff_ne_none] using hnone a ha
    rw [hitems] at h
    cases h

end Accounts

/-- Two lists of the same identifiers.  Users are read alike unless the limit tells the lists apart
by their lengths; service accounts are read alike always. -/
theorem batch_reads_alike_iff (svc : Service) (t : Time) (w : World) (ids ids' : List String)
    (hset : ∀ id, id ∈ ids.map Go.trimSpace ↔ id ∈ ids'.map Go.trimSpace) :
    ((Rejects svc t w (.batchGetUsers ids) ↔ Rejects svc t w (.batchGetUsers ids')) ↔
      "" ∈ ids.map Go.trimSpace ∨ (ids.length ≤ 100 ↔ ids'.length ≤ 100)) ∧
    (∀ list ∈ [ids, ids'], Rejects svc t w (.batchGetUsers list) ∨
      ReturnsUsers svc t w (.batchGetUsers list)
        (w.store.users.rows.filter (fun u => u.id ∈ ids.map Go.trimSpace))) ∧
    ∃ o, svc.machine.Answers (Effect.Calm t) (.batchGetServiceAccounts ids) w o ∧
      svc.machine.Answers (Effect.Calm t) (.batchGetServiceAccounts ids') w o ∧
      (∀ accounts, o = .ok (.accountBatch accounts) →
        (accounts.map Prod.fst).Perm
          (w.store.serviceAccounts.rows.filter (fun a => a.id ∈ ids.map Go.trimSpace)) ∧
        (accounts.map Prod.fst).Pairwise (fun a b => a.id < b.id)) ∧
      ∀ err, o = .error err → (∃ message, err = .invalid message) ∨
        ∃ a ∈ w.store.serviceAccounts.rows, a.id ∈ ids.map Go.trimSpace ∧
          svc.unmarshalAudiences a.audiencesJSON = none := by
  refine ⟨?_, ?_, ?_⟩
  · rw [batchGetUsers_rejects_iff, batchGetUsers_rejects_iff, ← hset]
    by_cases hempty : "" ∈ ids.map Go.trimSpace
    · simp only [hempty, or_true, true_or]
    · simp only [hempty, or_false, false_or]
      omega
  · intro list hlist
    have hmem : ∀ id, id ∈ list.map Go.trimSpace ↔ id ∈ ids.map Go.trimSpace := by
      obtain rfl | rfl : list = ids ∨ list = ids' := by simpa using hlist
      · exact fun id => Iff.rfl
      · exact fun id => (hset id).symm
    by_cases hrejected : list.length > 100 ∨ "" ∈ list.map Go.trimSpace
    · exact .inl (batchGetUsers_rejects svc t w list hrejected)
    · rw [not_or] at hrejected
      simp only [← hmem]
      exact .inr (batchGetUsers_returns svc t w list hrejected.1 hrejected.2)
  · have hspec := fun ids => normalizeIDs_spec
      (.invalid "service_account_ids must not contain empty values") ids [] List.nodup_nil
    rcases hspec ids with ⟨herr, hempty⟩ | ⟨unique, hunique, hempty, hnodup, hmem⟩ <;>
      rcases hspec ids' with ⟨herr', hempty'⟩ | ⟨unique', hunique', hempty', hnodup', hmem'⟩
    · refine ⟨_, answers_batchGetServiceAccounts_empty svc t w herr,
        answers_batchGetServiceAccounts_empty svc t w herr', ?_, ?_⟩
      · intro accounts h
        cases h
      · intro err h
        cases h
        exact .inl ⟨_, rfl⟩
    · exact absurd ((hset _).1 hempty) hempty'
    · exact absurd ((hset _).2 hempty') hempty
    · have hids : ∀ id, id ∈ unique ↔ id ∈ ids.map Go.trimSpace := by simpa using hmem
      have hcongr := batchAnswer_congr svc w hnodup' hnodup fun id => by
        rw [hids, hset]
        simpa using hmem' id
      refine ⟨_, answers_batchGetServiceAccounts svc t w hunique,
        hcongr ▸ answers_batchGetServiceAccounts svc t w hunique', fun accounts h => ?_,
        fun err h => ?_⟩
      · rw [batchAnswer_ok svc w h]
        simp only [← hids]
        exact ⟨perm_accountsByID w unique, sorted_accountsByID w unique⟩
      · refine (batchAnswer_error svc w h).imp_right fun ⟨a, ha, hnone⟩ => ?_
        have ha := List.mem_filter.1 ((perm_accountsByID w unique).mem_iff.1 ha)
        exact ⟨a, ha.1, (hids _).1 (of_decide_eq_true ha.2), hnone⟩

theorem batch_reads_alike_spaced :
    (Rejects (sample [] none) 50 sample.listed (.batchGetUsers [" u1", "u1"]) ↔
      Rejects (sample [] none) 50 sample.listed (.batchGetUsers ["u1"])) ∧
    ∃ o, (sample [] none).machine.Answers (Effect.Calm 50) (.batchGetServiceAccounts [" u1", "u1"])
        sample.listed o ∧
      (sample [] none).machine.Answers (Effect.Calm 50) (.batchGetServiceAccounts ["u1"])
        sample.listed o := by
  have htrim : Go.trimSpace " u1" = "u1" ∧ Go.trimSpace "u1" = "u1" := by decide
  have h := batch_reads_alike_iff (sample [] none) 50 sample.listed [" u1", "u1"] ["u1"]
    (by simp [htrim])
  obtain ⟨husers, -, o, ho, ho', -⟩ := h
  exact ⟨husers.2 (.inr (by decide)), o, ho, ho'⟩

/-- One identifier is accepted once and refused a hundred and one times. -/
theorem batch_of_duplicates_rejected :
    (∀ id, id ∈ (List.replicate 101 "u1").map Go.trimSpace ↔ id ∈ ["u1"].map Go.trimSpace) ∧
    Rejects (sample [] none) 50 sample.listed (.batchGetUsers (List.replicate 101 "u1")) ∧
    ReturnsUsers (sample [] none) 50 sample.listed (.batchGetUsers ["u1"]) [sample.listedUser] := by
  refine ⟨by simp, batchGetUsers_rejects _ _ _ _ (.inl (by simp)), ?_⟩
  exact batchGetUsers_returns _ _ sample.listed ["u1"] (by decide) (by decide)

end IdentityService
