import IdentityService.Defs.Transport
import IdentityService.Listing.Pages
import Mathlib.Data.List.Perm.Basic

/-! The status of a session: in the filters of the list, in the answers of the two servers and in
the validation. -/

namespace IdentityService

open Lib Service
open Lib.Program (resolves_perform)

inductive SessionStatus : Type
  | active
  | revoked
  | expired
deriving DecidableEq

namespace SessionStatus

def toString : SessionStatus → String
  | active => "active"
  | revoked => "revoked"
  | expired => "expired"

def all : List SessionStatus := [active, revoked, expired]

end SessionStatus

namespace Session

def statusAt (now : Time) (s : Session) : SessionStatus :=
  if s.revokedAt = none then if s.expiresAt ≤ now then .expired else .active else .revoked

variable {now : Time} {s : Session}

theorem statusAt_eq_revoked : s.statusAt now = .revoked ↔ s.revokedAt ≠ none := by
  unfold statusAt
  split_ifs <;> simpa

theorem statusAt_eq_active :
    s.statusAt now = .active ↔ s.revokedAt = none ∧ now < s.expiresAt := by
  unfold statusAt
  split_ifs with h hnow
  · simp [h, hnow]
  · simpa [h] using hnow
  · simp [h]

theorem statusAt_eq_expired :
    s.statusAt now = .expired ↔ s.revokedAt = none ∧ s.expiresAt ≤ now := by
  unfold statusAt
  split_ifs with h hnow
  · simp [h, hnow]
  · simp [hnow]
  · simp [h]

end Session

theorem matches_status (userID tenantID : String) (now : Time) (st : SessionStatus) (s : Session) :
    SessionFilter.matches ⟨userID, tenantID, st.toString, now⟩ s =
      (SessionFilter.matches ⟨userID, tenantID, "", now⟩ s && s.statusAt now = st) := by
  cases st <;> simp [SessionFilter.matches, SessionStatus.toString, Session.statusAt_eq_active,
    Session.statusAt_eq_revoked, Session.statusAt_eq_expired]

theorem sessionResponse_status (item : SessionItem) (now : Time) :
    (sessionResponse item now).status = (item.session.statusAt now).toString := by
  simp only [sessionResponse]
  by_cases hrevoked : item.session.revokedAt = none
  · by_cases hlive : now < item.session.expiresAt
    · rw [Session.statusAt_eq_active.2 ⟨hrevoked, hlive⟩, if_neg (not_not.2 hrevoked),
        if_neg (not_not.2 hlive)]
      rfl
    · rw [Session.statusAt_eq_expired.2 ⟨hrevoked, Int.not_lt.1 hlive⟩, if_neg (not_not.2 hrevoked),
        if_pos hlive]
      rfl
  · rw [Session.statusAt_eq_revoked.2 hrevoked, if_pos hrevoked]
    rfl

theorem identitySession_status (item : SessionItem) (now : Time) :
    (identitySession item now).status = (item.session.statusAt now).toString :=
  sessionResponse_status item now

theorem sessionItems_status (s : Store) (userID tenantID : String) (now : Time)
    (st : SessionStatus) :
    s.sessionItems ⟨userID, tenantID, st.toString, now⟩ =
      (s.sessionItems ⟨userID, tenantID, "", now⟩).filter
        (fun i => i.session.statusAt now = st) := by
  simp only [Store.sessionItems, List.filter_flatMap, List.filter_map]
  generalize s.users.rows = users
  induction s.sessions.rows with
  | nil => rfl
  | cons session rows ih =>
    cases hmatch : SessionFilter.matches ⟨userID, tenantID, "", now⟩ session <;>
      by_cases hst : session.statusAt now = st <;>
      simp [matches_status, hmatch, hst, ih, Function.comp_def]

theorem flatMap_filter_perm {ρ : Type} (f : ρ → SessionStatus) (rows : List ρ) :
    (SessionStatus.all.flatMap (fun st => rows.filter (fun r => f r = st))).Perm rows := by
  simp only [SessionStatus.all, List.flatMap_cons, List.flatMap_nil, List.append_nil]
  induction rows with
  | nil => rfl
  | cons r rows ih =>
    cases hr : f r with
    | active => simpa [hr] using ih
    | revoked => simpa [hr] using List.perm_middle.trans (ih.cons r)
    | expired =>
      rw [← List.append_assoc] at ih
      simpa [hr] using List.perm_middle.trans (ih.cons r)

def sessionListing (w : World) (t : Time) (userID tenantID status : String) : List SessionItem :=
  listedSessions w ⟨Go.trimSpace userID, Go.trimSpace tenantID, status, t⟩

section Listing

variable {w : World} {t : Time} {userID tenantID : String}

theorem session_mem_sessionListing (howners : w.store.OwnersExist) {st : SessionStatus}
    {s : Session} :
    (∃ item ∈ sessionListing w t userID tenantID st.toString, item.session = s) ↔
      s ∈ w.store.sessions.rows ∧
        SessionFilter.matches ⟨Go.trimSpace userID, Go.trimSpace tenantID, "", t⟩ s = true ∧
        s.statusAt t = st := by
  rw [sessionListing, listedSessions, ranked, ← List.mem_map,
    ((List.perm_insertionSort _ _).map _).mem_iff, map_session_sessionItems howners,
    List.mem_filter, matches_status, Bool.and_eq_true, decide_eq_true_iff]

theorem status_of_mem_sessionListing {st : SessionStatus} {item : SessionItem}
    (h : item ∈ sessionListing w t userID tenantID st.toString) :
    item.session.statusAt t = st := by
  rw [sessionListing, listedSessions, ranked, (List.perm_insertionSort _ _).mem_iff,
    sessionItems_status, List.mem_filter, decide_eq_true_iff] at h
  exact h.2

theorem id_ne_of_status_ne (howners : w.store.OwnersExist) {st st' : SessionStatus}
    (hne : st ≠ st') {a b : SessionItem}
    (ha : a ∈ sessionListing w t userID tenantID st.toString)
    (hb : b ∈ sessionListing w t userID tenantID st'.toString) :
    a.session.id ≠ b.session.id := by
  intro hid
  obtain ⟨hrow, -, hst⟩ := (session_mem_sessionListing howners).1 ⟨a, ha, rfl⟩
  obtain ⟨hrow', -, hst'⟩ := (session_mem_sessionListing howners).1 ⟨b, hb, rfl⟩
  have heq : a.session = b.session :=
    Table.eq_of_clash hrow hrow' (by simp [Constrained.clash, hid])
  exact hne (hst.symm.trans (heq ▸ hst'))

theorem flatMap_sessionListing_perm :
    (SessionStatus.all.flatMap (fun st => sessionListing w t userID tenantID st.toString)).Perm
      (sessionListing w t userID tenantID "") := by
  refine (List.Perm.flatMap_left _ fun st _ => List.perm_insertionSort _ _).trans ?_
  simp only [sessionItems_status]
  exact (flatMap_filter_perm _ _).trans (List.perm_insertionSort _ _).symm

end Listing

section Validate

variable (svc : Service) (t : Time) (w : World) (id userID : String)

def ownSession : Option Session :=
  w.store.sessions.rows.find? (fun r => r.id = id && r.userID = userID)

theorem select_getSession : w.store.select svc.lower (.getSession id userID) =
    (ownSession w id userID).toList := by
  cases hfind : ownSession w id userID with
  | none => exact List.filter_eq_nil_iff.2 (List.find?_eq_none.1 hfind)
  | some s =>
    have hown := List.find?_some hfind
    refine Table.filter_eq_singleton (t := w.store.sessions) (List.mem_of_find?_eq_some hfind) hown
      fun x hx => ?_
    simp only [Bool.and_eq_true, decide_eq_true_eq] at hx hown
    simp [Constrained.clash, hx.1, hown.1]

theorem answers_validateSession :
    svc.machine.Answers (Effect.Faultless t) (.validateSession id userID) w
      (.ok (.validation (ownSession w id userID)
        ((ownSession w id userID).any (fun s => s.statusAt t = .active)))) := by
  have hselect := select_getSession svc w id userID
  have hsteps := fun r w' => @steps_found svc t w w' (.getSession id userID) r
  refine Machine.answers_of_program (n := 2) ?_
  cases hfind : ownSession w id userID with
  | none =>
    rw [hfind] at hselect
    refine resolves_perform ⟨_, _, (hsteps _ _).2 (.inr ⟨hselect, rfl, rfl⟩)⟩ fun r w' hr => ?_
    obtain ⟨row, hrow, -⟩ | ⟨-, rfl, rfl⟩ := (hsteps _ _).1 hr
    · rw [hselect] at hrow
      cases hrow
    · rfl
  | some s =>
    rw [hfind] at hselect
    refine resolves_perform ⟨_, _, (hsteps _ _).2 (.inl ⟨s, ?_, rfl, rfl⟩)⟩ fun r w' hr => ?_
    · rw [hselect]
      exact List.mem_singleton_self s
    obtain ⟨row, hrow, rfl, rfl⟩ | ⟨hnil, -⟩ := (hsteps _ _).1 hr
    · rw [hselect] at hrow
      have hrow : s = row := (List.mem_singleton.1 hrow).symm
      subst hrow
      change Program.Resolves _ _ ((if s.revokedAt = none then
        now >>= fun n => .ret (some s, decide (n < s.expiresAt)) else .ret (some s, false)) >>=
          fun x => .ret (Reply.validation x.1 x.2)) 1 w'
      by_cases hrevoked : s.revokedAt = none
      · rw [if_pos hrevoked]
        refine resolves_perform ⟨t, _, rfl, .time t, rfl⟩ fun r w' hr => ?_
        obtain ⟨rfl, -⟩ := hr
        change Except.ok _ = Except.ok _
        simp [Session.statusAt_eq_active, hrevoked]
      · rw [if_neg hrevoked]
        change Except.ok _ = Except.ok _
        simp [Session.statusAt_eq_active, hrevoked]
    · rw [hselect] at hnil
      cases hnil

theorem any_ownSession {P : Session → Bool} : (ownSession w id userID).any P = true ↔
    ∃ s ∈ w.store.sessions.rows, (s.id = id ∧ s.userID = userID) ∧ P s = true := by
  rw [Option.any_eq_true]
  constructor
  · rintro ⟨s, hfind, hP⟩
    exact ⟨s, List.mem_of_find?_eq_some hfind, by simpa using List.find?_some hfind, hP⟩
  · rintro ⟨s, hs, ⟨hid, huser⟩, hP⟩
    have hisSome : (ownSession w id userID).isSome :=
      List.find?_isSome.2 ⟨s, hs, by simp [hid, huser]⟩
    obtain ⟨x, hfind⟩ := Option.isSome_iff_exists.1 hisSome
    have hown := List.find?_some hfind
    simp only [Bool.and_eq_true, decide_eq_true_eq] at hown
    obtain rfl : x = s := Table.eq_of_clash (List.mem_of_find?_eq_some hfind) hs
      (by simp [Constrained.clash, hown.1, hid])
    exact ⟨x, hfind, hP⟩

end Validate

/-- The four places that say what the status of a session is. -/
theorem session_status_agrees (svc : Service) (t : Time) (w : World)
    (howners : w.store.OwnersExist) :
    (∀ userID tenantID : String,
      (∀ status ∈ ["", "active", "revoked", "expired"], ∀ page pageSize,
        svc.machine.Answers (Effect.Calm t) (.listSessions userID tenantID status page pageSize) w
          (pageAnswer .sessions some (sessionListing w t userID tenantID status) page
            (effectiveSize pageSize))) ∧
      ["active", "revoked", "expired"].Pairwise (fun st st' =>
        ∀ a ∈ sessionListing w t userID tenantID st, ∀ b ∈ sessionListing w t userID tenantID st',
          a.session.id ≠ b.session.id) ∧
      (["active", "revoked", "expired"].flatMap (sessionListing w t userID tenantID)).Perm
        (sessionListing w t userID tenantID "") ∧
      ∀ st ∈ ["active", "revoked", "expired"], ∀ item ∈ sessionListing w t userID tenantID st,
        (sessionResponse item t).status = st ∧ (identitySession item t).status = st) ∧
    ∀ id userID : String, ∃ session valid,
      svc.machine.Answers (Effect.Faultless t) (.validateSession id userID) w
        (.ok (.validation session valid)) ∧
      ∀ user, user = "" ∨ Go.trimSpace user = userID →
        (valid = true ↔ ∃ item ∈ sessionListing w t user "" "active",
          item.session.id = id ∧ item.session.userID = userID) := by
  refine ⟨fun userID tenantID => ⟨?_, ?_, flatMap_sessionListing_perm, ?_⟩, fun id userID => ?_⟩
  · intro status hstatus page pageSize
    exact answers_listSessions svc t w howners userID tenantID status page pageSize
      (by simpa using hstatus)
  · change (SessionStatus.all.map SessionStatus.toString).Pairwise _
    refine List.pairwise_map.2 (List.Pairwise.imp ?_ (by decide : SessionStatus.all.Nodup))
    exact fun hne a ha b hb => id_ne_of_status_ne howners hne ha hb
  · change ∀ st ∈ SessionStatus.all.map SessionStatus.toString, _
    rw [List.forall_mem_map]
    intro st _ item hitem
    rw [sessionResponse_status, identitySession_status, status_of_mem_sessionListing hitem]
    exact ⟨rfl, rfl⟩
  · refine ⟨_, _, answers_validateSession svc t w id userID, fun user huser => ?_⟩
    have hmatch : ∀ s : Session, s.userID = userID →
        SessionFilter.matches ⟨Go.trimSpace user, Go.trimSpace "", "", t⟩ s = true := by
      intro s hs
      obtain rfl | htrim := huser
      · rfl
      · simp [SessionFilter.matches, htrim, hs, show Go.trimSpace "" = "" from rfl]
    rw [any_ownSession]
    change _ ↔ ∃ item ∈ sessionListing w t user "" SessionStatus.active.toString, _
    constructor
    · rintro ⟨s, hs, ⟨hid, hown⟩, hst⟩
      obtain ⟨item, hitem, rfl⟩ := (session_mem_sessionListing howners).2
        ⟨hs, hmatch s hown, of_decide_eq_true hst⟩
      exact ⟨item, hitem, hid, hown⟩
    · rintro ⟨item, hitem, hid, hown⟩
      obtain ⟨hs, -, hst⟩ := (session_mem_sessionListing howners).1 ⟨item, hitem, rfl⟩
      exact ⟨item.session, hs, ⟨hid, hown⟩, decide_eq_true hst⟩

theorem session_status_at_expiry :
    (sessionListing sample.listed 99 "" "" "active").map (fun i => i.session) =
      [sample.listedSession] ∧
    (∃ session, (sample [] none).machine.Answers (Effect.Faultless 99)
      (.validateSession "s1" "u1") sample.listed (.ok (.validation session true))) ∧
    ∃ session, (sample [] none).machine.Answers (Effect.Faultless 100)
      (.validateSession "s1" "u1") sample.listed (.ok (.validation session false)) := by
  obtain ⟨session, valid, hanswers, hvalid⟩ :=
    (session_status_agrees (sample [] none) 99 sample.listed sample.listed_owners).2 "s1" "u1"
  obtain ⟨late, invalid, hlate, hinvalid⟩ :=
    (session_status_agrees (sample [] none) 100 sample.listed sample.listed_owners).2 "s1" "u1"
  have htrue : valid = true := (hvalid "" (.inl rfl)).2 (by decide +kernel)
  have hfalse : invalid = false :=
    Bool.eq_false_iff.2 (mt (hinvalid "" (.inl rfl)).1 (by decide +kernel))
  subst htrue hfalse
  exact ⟨by decide +kernel, ⟨session, hanswers⟩, late, hlate⟩

end IdentityService
