import IdentityService.Sessions.Change
import Mathlib.Data.Set.Function

/-! Refresh tokens are single-use: only the newest token of a session can be exchanged. -/

namespace IdentityService

open Lib Service

def newestGrant (history : List Event) (sessionID : String) : Option Tokens :=
  history.findSome? (fun ev => (issued ev.outcome).filter (fun g => g.sessionID = sessionID))

def Event.refreshed (ev : Event) : Option (String × Tokens) :=
  match ev.request, ev.outcome with
  | .refresh token, some (.ok (.tokens tokens)) => some (token, tokens)
  | _, _ => none

theorem refreshed_eq_some {ev : Event} {token : String} {tokens : Tokens} :
    Event.refreshed ev = some (token, tokens) ↔
      ev.request = .refresh token ∧ ev.outcome = some (.ok (.tokens tokens)) := by
  unfold Event.refreshed
  split
  · rename_i t g hop hout
    rw [hop, hout]
    simp
  · rename_i hno
    simp only [reduceCtorEq, false_iff, not_and]
    exact fun hop hout => hno token tokens hop hout

section Grants

variable {ev : Event} {history : List Event} {g : Tokens} {sid : String}

theorem newestGrant_of_none (h : issued ev.outcome = none) :
    newestGrant (ev :: history) sid = newestGrant history sid := by
  simp [newestGrant, h]

theorem newestGrant_self (h : issued ev.outcome = some g) :
    newestGrant (ev :: history) g.sessionID = some g := by
  simp [newestGrant, h]

theorem newestGrant_of_ne (h : issued ev.outcome = some g) (hne : g.sessionID ≠ sid) :
    newestGrant (ev :: history) sid = newestGrant history sid := by
  simp [newestGrant, h, hne]

theorem newestGrant_append (later earlier : List Event) :
    newestGrant (later ++ earlier) sid = (newestGrant later sid).or (newestGrant earlier sid) :=
  List.findSome?_append

theorem mem_of_newestGrant (h : newestGrant history sid = some g) :
    ∃ x ∈ history, issued x.outcome = some g ∧ g.sessionID = sid := by
  obtain ⟨x, hx, hg⟩ := List.exists_of_findSome?_eq_some h
  simp only [Option.filter_eq_some_iff, decide_eq_true_eq] at hg
  exact ⟨x, hx, hg⟩

end Grants

theorem SessionChange.granted_drawn {svc : Service} {op : Op} {acts : List Act} {g : Tokens}
    {rows rows' : List Session} (h : SessionChange svc op acts (some g) rows rows') :
    Act.drew .refreshToken g.refreshToken ∈ acts := by
  cases h with
  | create d actor userID client rest hacts => simp [hacts, Draft.tokens]
  | rotate _ _ _ _ _ _ _ hacts => exact hacts

def Rotated (svc : Service) (history : List Event) (r : Session) : Prop :=
  ∃ g, newestGrant history r.id = some g ∧
    r.refreshTokenHash = svc.hashRefreshToken g.refreshToken

theorem Rotated.of_none {svc : Service} {history : List Event} {ev : Event} {r r' : Session}
    (h : Rotated svc history r) (hnone : issued ev.outcome = none) (hid : r'.id = r.id)
    (hhash : r'.refreshTokenHash = r.refreshTokenHash) : Rotated svc (ev :: history) r' := by
  obtain ⟨g, hg, hold⟩ := h
  rw [← hid] at hg
  exact ⟨g, by rw [newestGrant_of_none hnone, hg], hhash.trans hold⟩

theorem Rotated.of_ne {svc : Service} {history : List Event} {ev : Event} {r : Session} {g : Tokens}
    (h : Rotated svc history r) (hg : issued ev.outcome = some g) (hne : g.sessionID ≠ r.id) :
    Rotated svc (ev :: history) r := by
  obtain ⟨g', hg', hold⟩ := h
  exact ⟨g', by rw [newestGrant_of_ne hg hne, hg'], hold⟩

theorem SessionChange.rotated {svc : Service} {op : Op} {acts : List Act} {t t' : Table Session}
    {history : List Event} {ev : Event}
    (h : SessionChange svc op acts (issued ev.outcome) t.rows t'.rows)
    (ih : ∀ r ∈ t.rows, Rotated svc history r) :
    ∀ r ∈ t'.rows, Rotated svc (ev :: history) r := by
  intro r' hr'
  have hfresh := fun rows r (h : t'.rows = rows ++ [r]) => id_ne_of_append h
  have hold := fun r r' (hr : r ∈ t.rows) (hr' : r' ∈ t.rows) => session_eq_of_id hr hr'
  generalize hgranted : issued ev.outcome = granted at h
  generalize t.rows = rows at h ih hold
  generalize t'.rows = rows' at h hr' hfresh
  cases h with
  | keep => exact (ih r' hr').of_none hgranted rfl rfl
  | create d actor userID client rest hacts =>
    obtain hr' | hr' := List.mem_append.1 hr'
    · exact (ih r' hr').of_ne hgranted fun hid => hfresh _ _ rfl r' hr' hid.symm
    · rw [List.mem_singleton.1 hr']
      exact ⟨_, newestGrant_self hgranted, rfl⟩
  | rotate token access rawRefresh now expiresAt session hop hacts hmatch =>
    obtain ⟨r, hr, rfl⟩ := List.mem_map.1 hr'
    obtain ⟨old, hold', hid, hhash, hrev, hversion⟩ := hmatch
    by_cases hsame : r.id = session.id
    · have hguard : (Repository.rotateUpdate (svc.rotated session rawRefresh now)
          (svc.hashRefreshToken token)).guard r = true := by
        rw [hold r old hr hold' (hsame.trans hid.symm)]
        exact Repository.rotateUpdate_guard.2 ⟨hid, hhash, hrev, hversion⟩
      simp only [Update.apply, hguard, if_true, Repository.rotateUpdate_assign]
      exact ⟨_, hsame ▸ newestGrant_self hgranted, rfl⟩
    · have hguard : (Repository.rotateUpdate (svc.rotated session rawRefresh now)
          (svc.hashRefreshToken token)).guard r = false := by
        rw [← Bool.not_eq_true, Repository.rotateUpdate_guard]
        exact fun hg => hsame hg.1
      simp only [Update.apply, hguard, Bool.false_eq_true, if_false]
      exact (ih r hr).of_ne hgranted (Ne.symm hsame)
  | scope =>
    obtain ⟨r, hr, rfl⟩ := List.mem_map.1 hr'
    refine (ih r hr).of_none hgranted (Session.Evolves.scope _ _ _ _ _ _ r).id ?_
    simp only [Update.apply]
    split <;> simp
  | revoke =>
    obtain ⟨r, hr, rfl⟩ := List.mem_map.1 hr'
    refine (ih r hr).of_none hgranted (Session.Evolves.revoke _ _ _ _ r).id ?_
    simp only [Update.apply]
    split <;> simp
  | clean => exact (ih r' (List.mem_filter.1 hr').1).of_none hgranted rfl rfl

section Reach

variable {svc : Service} {π : Policy} {w : World} {clock : Time} {c d : Config} {ev : Event}
  {k : ev.call.Res → Prog Reply} {a : Answer} {g g' : Tokens}

theorem grant_drawn (h : svc.machine.Reach π w c) (hev : ev ∈ c.history)
    (hg : issued ev.outcome = some g) :
    ∃ x ∈ c.history, x.thread = ev.thread ∧ x.act = Act.drew .refreshToken g.refreshToken := by
  obtain ⟨c0, c1, k, a, h0, hf, -, hrun⟩ := h.event_of_mem hev
  have hdrew := (hg ▸ sessionChange_of_step h0 hf).granted_drawn
  obtain ⟨x, hx, hth, hact⟩ := Machine.Reach.mem_actsOf.1 hdrew
  have hsub : c0.history <:+ c1.history := hf.history ▸ List.suffix_cons _ _
  exact ⟨x, (hsub.trans hrun.history_suffix).mem hx, hth, hact⟩

theorem grant_thread (h : svc.machine.Reach (Policy.fresh [.refreshToken]) w c) {x y : Event}
    (hx : x ∈ c.history) (hy : y ∈ c.history) (hg : issued x.outcome = some g)
    (hg' : issued y.outcome = some g') (heq : g.refreshToken = g'.refreshToken) :
    x.thread = y.thread := by
  obtain ⟨e, he, hth, hact⟩ := grant_drawn h hx hg
  obtain ⟨e', he', hth', hact'⟩ := grant_drawn h hy hg'
  rw [heq] at hact
  rw [← hth, ← hth', drawn_once (List.mem_singleton_self _) h he he' hact hact']

theorem rotated (h : svc.machine.Reach π (start clock) c) :
    ∀ r ∈ c.state.store.sessions.rows, Rotated svc c.history r := by
  refine Machine.Run.invariant
    (I := fun c => ∀ r ∈ c.state.store.sessions.rows, Rotated svc c.history r) h ?_ ?_ ?_
  · intro r hr
    cases hr
  · intro d q _ ih
    exact ih
  · intro d ev d' k a hd ih hf _
    rw [hf.history]
    exact (sessionChange_of_step hd hf).rotated ih

def refreshTokens (c : Config) : Set String :=
  { t | t ∈ Config.drawn c .refreshToken ∨ ∃ th ∈ c.threads, th.request = .refresh t }

theorem refreshed_newest (h : svc.machine.Reach π (start clock) c)
    (hinj : Set.InjOn svc.hashRefreshToken (refreshTokens c)) {later earlier : List Event}
    (hc : c.history = later ++ ev :: earlier) {token : String} {tokens : Tokens}
    (hev : Event.refreshed ev = some (token, tokens)) :
    ∃ g, newestGrant earlier tokens.sessionID = some g ∧ g.refreshToken = token := by
  obtain ⟨hop, hout⟩ := refreshed_eq_some.1 hev
  obtain ⟨c0, c1, k, a, h0, rfl, hf, -, -⟩ := h.event_split hc
  obtain ⟨body, n, next, hcom⟩ := issued_committed h0 hf (by rw [hout]; rfl)
  obtain ⟨session, user, g, raw, checkedAt, now, -, rfl, -, -, -, ⟨row, hrow, hid, hhash, -⟩, -⟩ :=
    (hop ▸ hcom.commit).refresh_inv hcom.run
  rw [hcom.outcome] at hout
  cases hout
  obtain ⟨g', hg', hrowhash⟩ := rotated h0 row hrow
  rw [hid] at hg'
  refine ⟨g', hg', hinj (.inl ?_) (.inr ?_) (hrowhash.symm.trans hhash)⟩
  · obtain ⟨x, hx, hgx, -⟩ := mem_of_newestGrant hg'
    obtain ⟨y, hy, -, hact⟩ := grant_drawn h0 hx hgx
    exact List.mem_filterMap.2 ⟨y, by simp [hc, hy], drawn_eq_some.2 hact⟩
  · have hmem : ev ∈ c.history := by simp [hc]
    obtain ⟨th, hth, hreq, -⟩ := h.thread_of_mem hmem
    exact ⟨th, List.mem_of_getElem? hth, hreq.trans hop⟩

theorem refreshed_once (h : svc.machine.Reach (Policy.fresh [.refreshToken]) (start clock) c)
    (hinj : Set.InjOn svc.hashRefreshToken (refreshTokens c)) {later earlier : List Event}
    (hc : c.history = later ++ ev :: earlier) {token : String} {tokens tokens' : Tokens}
    (hev : Event.refreshed ev = some (token, tokens)) {e : Event} (he : e ∈ earlier) :
    Event.refreshed e ≠ some (token, tokens') := by
  intro hee
  obtain ⟨mid, old, rfl⟩ := List.append_of_mem he
  have hc' : c.history = (later ++ ev :: mid) ++ e :: old := by simp [hc]
  -- The grant each of the two presented, and the call that made it.
  obtain ⟨g, hg, hgt⟩ := refreshed_newest h hinj hc hev
  obtain ⟨g', hg', hgt'⟩ := refreshed_newest h hinj hc' hee
  obtain ⟨x', hx', hgx', hsid'⟩ := mem_of_newestGrant hg'
  obtain ⟨x, hx, hgx, hsid⟩ := mem_of_newestGrant hg
  have hxc : x ∈ c.history := by
    rw [hc]
    exact List.mem_append_right _ (List.mem_cons_of_mem _ hx)
  have hxc' : x' ∈ c.history := by
    rw [hc']
    exact List.mem_append_right _ (List.mem_cons_of_mem _ hx')
  have hsame := h.eq_of_outcome hxc hxc' (issued_isSome hgx) (issued_isSome hgx')
    (grant_thread h hxc hxc' hgx hgx' (hgt.trans hgt'.symm))
  subst hsame
  cases hgx.symm.trans hgx'
  -- The earlier refresh granted new tokens for the same session since.
  have heg : issued e.outcome = some tokens' := by
    rw [(refreshed_eq_some.1 hee).2]
    rfl
  have hsince : newestGrant (mid ++ [e]) tokens.sessionID = some g := by
    have he : newestGrant [e] tokens.sessionID = some tokens' := by
      rw [← hsid, hsid']
      exact newestGrant_self heg
    rw [List.append_cons, newestGrant_append] at hg
    rw [newestGrant_append, he] at hg ⊢
    cases hmid : newestGrant mid tokens.sessionID with
    | none => simpa [hmid] using hg
    | some g0 => simpa [hmid] using hg
  obtain ⟨y, hy, hgy, -⟩ := mem_of_newestGrant hsince
  obtain ⟨m, m', hm⟩ := List.append_of_mem hy
  have hcy : c.history = (later ++ ev :: m) ++ y :: (m' ++ old) := by
    rw [hc, List.append_cons mid, hm]
    simp
  have hyc : y ∈ c.history := by simp [hcy]
  exact h.thread_ne_of_later hcy (List.mem_append_right _ hx') (issued_isSome hgx)
    (grant_thread h hxc hyc hgx hgy rfl)

end Reach

/-- A refresh succeeds only with the token that the newest creation or refresh of its session
returned, and no token is exchanged twice. -/
theorem refresh_tokens_single_use (svc : Service) (clock : Time) (c : Config)
    (h : svc.machine.Reach (Policy.fresh [.refreshToken]) (start clock) c)
    (hinj : Set.InjOn svc.hashRefreshToken (refreshTokens c)) :
    (∀ later ev earlier token tokens, c.history = later ++ ev :: earlier →
      Event.refreshed ev = some (token, tokens) →
      ∃ g, newestGrant earlier tokens.sessionID = some g ∧ g.refreshToken = token) ∧
    ∀ token, c.history.countP (fun ev => (Event.refreshed ev).any (fun r => r.1 = token)) ≤ 1 := by
  refine ⟨fun later ev earlier token tokens hc hev => refreshed_newest h hinj hc hev, ?_⟩
  intro token
  refine Machine.countP_le_one fun later ev earlier hc hany e he => ?_
  obtain ⟨⟨t, tokens⟩, hev, ht⟩ := (Option.any_eq_true _ _).1 hany
  obtain rfl := of_decide_eq_true ht
  cases hee : Event.refreshed e with
  | none => rfl
  | some r =>
    obtain ⟨t', tokens'⟩ := r
    simp only [Option.any_some, decide_eq_false_iff_not]
    rintro rfl
    exact refreshed_once h hinj hc hev he hee

def sample.exchange : List (Choice Op Answer) :=
  [.start (.refresh "r1"), .start (.refresh "r1"),
    .step 2 (.row 0), .step 2 (.time 50), .step 2 (.row 0), .step 2 (.value "r2"),
    .step 2 (.time 60), .step 2 (.time 70), .step 2 (.value "t2"), .step 2 .done, .step 2 .done,
    .step 3 (.row 0)]

theorem refresh_tokens_single_use_exchange :
    ∃ c : Config, ((sample [] none).machine.Reach (Policy.fresh [.refreshToken]) (start 0) c ∧
        Set.InjOn (sample [] none).hashRefreshToken (refreshTokens c)) ∧
      (∃ ev ∈ c.history, (Event.refreshed ev).isSome) ∧
      c.history.countP (fun ev => (Event.refreshed ev).any (fun r => r.1 = "r1")) ≤ 1 := by
  obtain ⟨c, hc, hany⟩ : ∃ c,
      (sample [] none).machine.Reach (Policy.fresh [.refreshToken]) (start 0) c ∧
        ∃ ev ∈ c.history, (Event.refreshed ev).isSome :=
    Machine.replay_exists (sample.signIn ++ sample.exchange) (by decide +kernel)
  have hinj : Set.InjOn (sample [] none).hashRefreshToken (refreshTokens c) := fun _ _ _ _ h => h
  exact ⟨c, ⟨hc, hinj⟩, hany, (refresh_tokens_single_use _ 0 c hc hinj).2 "r1"⟩

end IdentityService
