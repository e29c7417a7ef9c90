import IdentityService.Defs.CommitLaws
import IdentityService.Defs.Frame
import IdentityService.Lib.MachineLaws

/-! The running system: what its environment is assumed to do, and what one step of it
can do to the store. -/

namespace IdentityService

open Lib

def Event.drawn (ev : Event) (kind : Draw) : Option String :=
  match ev.act with
  | ⟨.draw k, r⟩ => if k = kind then r else none
  | _ => none

def Event.signed (ev : Event) : Option (TokenClaims × String) :=
  match ev.act with
  | ⟨.sign claims, some raw⟩ => some (claims, raw)
  | _ => none

def Config.drawn (c : Config) (kind : Draw) : List String :=
  c.history.filterMap (fun ev => Event.drawn ev kind)

def threadActs (history : List Event) (thread : Nat) : List Act :=
  (history.filter (fun ev => ev.thread = thread)).map Event.act

def Act.time : Act → Option Time
  | ⟨.now, t⟩ => some t
  | _ => none

def callTime (history : List Event) (thread : Nat) : Option Time :=
  (threadActs history thread).reverse.findSome? Act.time

namespace Policy

/-- Random values of these kinds are not empty and never repeat. -/
def fresh (kinds : List Draw) : Policy :=
  .onEvents fun c ev =>
    ∀ kind ∈ kinds, ∀ s ∈ Event.drawn ev kind, s ≠ "" ∧ s ∉ Config.drawn c kind

def monotone : Policy :=
  .onEvents fun _ ev => ev.before.clock ≤ ev.after.clock

variable (kinds : List Draw) (c : Config) (q : Op) (ev : Event)

instance : Decidable ((fresh kinds).start c q) := .isTrue trivial

instance : Decidable ((fresh kinds).event c ev) :=
  inferInstanceAs (Decidable (∀ kind ∈ kinds, ∀ s ∈ Event.drawn ev kind, _))

instance : Decidable (monotone.start c q) := .isTrue trivial

instance : Decidable (monotone.event c ev) := inferInstanceAs (Decidable (_ ≤ _))

end Policy

def start (clock : Time) : World := ⟨.empty, clock⟩

theorem drawn_eq_some {ev : Event} {kind : Draw} {s : String} :
    Event.drawn ev kind = some s ↔ ev.act = Act.drew kind s := by
  obtain ⟨i, q, e, r, w, w', o⟩ := ev
  cases e with
  | draw k =>
    simp only [Event.drawn, Event.act, Act.drew]
    split
    · rename_i h
      subst h
      simp
    · rename_i h
      simp [h]
  | _ => simp [Event.drawn, Event.act, Act.drew]

theorem signed_eq_some {ev : Event} {claims : TokenClaims} {raw : String} :
    Event.signed ev = some (claims, raw) ↔ ev.act = Act.signed claims raw := by
  obtain ⟨i, q, e, r, w, w', o⟩ := ev
  cases e with
  | sign claims' => cases r <;> simp [Event.signed, Event.act, Act.signed]
  | _ => simp [Event.signed, Event.act, Act.signed]

section Perform

variable {svc : Service} {w w' : World} {a : Answer}

theorem perform_query {q : Query} {r : Except RepositoryError q.Row}
    (h : svc.perform w (.query q) a = some (r, w')) :
    w' = w ∧ (∀ row, r = .ok row → row ∈ w.store.select svc.lower q) ∧
      (r = .error .notFound → w.store.select svc.lower q = []) := by
  cases a with
  | row n =>
    simp only [Service.perform] at h
    split at h
    · rename_i hnil
      cases h
      exact ⟨rfl, fun _ hr => (nomatch hr), fun _ => hnil⟩
    · simp only [Option.map_eq_some_iff] at h
      obtain ⟨row, hrow, heq⟩ := h
      cases heq
      exact ⟨rfl, fun _ hr => by cases hr; exact List.mem_of_getElem? hrow,
        fun hr => (nomatch hr)⟩
  | fault =>
    cases h
    exact ⟨rfl, fun _ hr => (nomatch hr), fun hr => (nomatch hr)⟩
  | done => cases h
  | time t => cases h
  | value s => cases h

theorem perform_within {body : Tx Nat} {r : Except RepositoryError Nat}
    (h : svc.perform w (.within body) a = some (r, w')) :
    (∃ n, r = .ok n ∧ body.run svc.lower w.store = .ok (n, w'.store) ∧ w'.clock = w.clock) ∨
      (∃ e, r = .error e) ∧ w' = w := by
  cases a with
  | done =>
    simp only [Service.perform] at h
    split at h
    · rename_i n store hrun
      cases h
      exact .inl ⟨n, rfl, hrun, rfl⟩
    · cases h
      exact .inr ⟨⟨_, rfl⟩, rfl⟩
  | fault =>
    cases h
    exact .inr ⟨⟨_, rfl⟩, rfl⟩
  | row n => cases h
  | time t => cases h
  | value s => cases h

theorem perform_now {t : Time} (h : svc.perform w .now a = some (t, w')) :
    w' = { w with clock := t } := by
  cases a <;> cases h
  rfl

theorem perform_draw {kind : Draw} {r : Option String}
    (h : svc.perform w (.draw kind) a = some (r, w')) : w' = w := by
  cases a <;> cases h <;> rfl

theorem perform_sign {claims : TokenClaims} {r : Option String}
    (h : svc.perform w (.sign claims) a = some (r, w')) :
    w' = w ∧ ∀ raw, r = some raw → raw = svc.issuer.signedString claims := by
  cases a <;> cases h
  · exact ⟨rfl, fun _ hr => by cases hr; rfl⟩
  · exact ⟨rfl, fun _ hr => (nomatch hr)⟩

theorem perform_store {e : Effect} {r : e.Res} (hne : ∀ body, e ≠ .within body)
    (h : svc.perform w e a = some (r, w')) : w'.store = w.store := by
  cases e with
  | query q => rw [(perform_query h).1]
  | within body => exact absurd rfl (hne body)
  | now => rw [perform_now h]
  | draw kind => rw [perform_draw h]
  | sign claims => rw [(perform_sign h).1]

end Perform

section Step

variable {svc : Service} {π : Policy} {w : World} {c d : Config} {ev : Event}
  {k : ev.call.Res → Prog Reply} {a : Answer}

structure Committed (svc : Service) (c : Config) (ev : Event) (d : Config) (body : Tx Nat)
    (n : Nat) (next : Prog Reply) : Prop where
  act : ev.act = Act.committed body n
  commit : Commit svc ev.request (c.actsOf ev.thread) body n next
  run : body.run svc.lower c.state.store = .ok (n, d.state.store)
  clock : d.state.clock = c.state.clock
  outcome : ev.outcome = next.outcome

theorem committed_of_act (h : svc.machine.Reach π w c) (hf : svc.machine.Fired c ev d k a)
    {body : Tx Nat} {n : Nat} (hact : ev.act = Act.committed body n) :
    ∃ next, Committed svc c ev d body n next := by
  have hspec := h.along (program_spec svc) hf
  have hperf := hf.performed
  rw [hf.before] at hperf
  obtain ⟨i, q, e, r, s, s', o⟩ := ev
  cases hact
  obtain ⟨m, hm, hrun, hclock⟩ | ⟨⟨e, he⟩, -⟩ := perform_within hperf
  · cases hm
    rw [← hf.state] at hrun hclock
    exact ⟨_, rfl, hspec, hrun, hclock, hf.outcome⟩
  · cases he

theorem Committed.ok {body : Tx Nat} {n : Nat} {next : Prog Reply}
    (h : Committed svc c ev d body n next) (hlast : ev.request.commitsLast = true) :
    ∃ reply, ev.outcome = some (.ok reply) := by
  obtain ⟨reply, rfl⟩ := h.commit.ends hlast
  exact ⟨reply, h.outcome⟩

theorem store_eq_of_not_committed (hf : svc.machine.Fired c ev d k a)
    (hcom : ¬∃ body n, ev.act = Act.committed body n) : d.state.store = c.state.store := by
  have hperf := hf.performed
  rw [hf.before] at hperf
  obtain ⟨i, q, e, r, s, s', o⟩ := ev
  rw [hf.state]
  by_cases hwithin : ∃ body, e = .within body
  · obtain ⟨body, rfl⟩ := hwithin
    obtain ⟨n, rfl, -, -⟩ | ⟨-, rfl⟩ := perform_within hperf
    · exact absurd ⟨body, n, rfl⟩ hcom
    · rfl
  · exact perform_store (fun body heq => hwithin ⟨body, heq⟩) hperf

theorem committed_or_store_eq (h : svc.machine.Reach π w c)
    (hf : svc.machine.Fired c ev d k a) :
    (∃ body n next, Committed svc c ev d body n next) ∨ d.state.store = c.state.store := by
  by_cases hcom : ∃ body n, ev.act = Act.committed body n
  · obtain ⟨body, n, hact⟩ := hcom
    exact .inl ⟨body, n, committed_of_act h hf hact⟩
  · exact .inr (store_eq_of_not_committed hf hcom)

theorem read_of_fired (hf : svc.machine.Fired c ev d k a) {q : Query} {row : q.Row}
    (hact : ev.act = Act.read q row) : row ∈ c.state.store.select svc.lower q := by
  have hperf := hf.performed
  rw [hf.before] at hperf
  obtain ⟨i, op, e, r, s, s', o⟩ := ev
  cases hact
  exact (perform_query hperf).2.1 row rfl

theorem read_select (h : svc.machine.Reach π w c) (hev : ev ∈ c.history) {q : Query} {row : q.Row}
    (hact : ev.act = Act.read q row) : row ∈ ev.before.store.select svc.lower q := by
  obtain ⟨c0, c1, k, a, -, hf, -, -⟩ := h.event_of_mem hev
  rw [hf.before]
  exact read_of_fired hf hact

theorem read_notFound (h : svc.machine.Reach π w c) (hev : ev ∈ c.history) {q : Query}
    (hact : ev.act = ⟨.query q, .error .notFound⟩) : ev.before.store.select svc.lower q = [] := by
  obtain ⟨c0, c1, k, a, -, hf, -, -⟩ := h.event_of_mem hev
  have hperf := hf.performed
  obtain ⟨i, op, e, r, s, s', o⟩ := ev
  cases hact
  exact (perform_query hperf).2.2 rfl

theorem read_since (h : svc.machine.Run π c d) {i : Nat}
    (hi : ∀ q r, (⟨.query q, r⟩ : Act) ∉ c.actsOf i) {q : Query} {row : q.Row}
    (hmem : Act.read q row ∈ d.actsOf i) :
    ∃ c', svc.machine.Run π c c' ∧ svc.machine.Run π c' d ∧
      row ∈ c'.state.store.select svc.lower q := by
  obtain ⟨later, hlater⟩ := h.history_suffix
  obtain ⟨e, he, rfl, hact⟩ := Machine.Reach.mem_actsOf.1 hmem
  rw [← hlater, List.mem_append] at he
  obtain he | he := he
  · obtain ⟨c0, c1, k, a, h0, hf, hp, h1⟩ := h.event_of_mem hlater.symm he
    exact ⟨c0, h0, (Machine.Run.refl.fired hf hp).trans h1, read_of_fired hf hact⟩
  · exact absurd (Machine.Reach.mem_actsOf.2 ⟨e, he, rfl, hact⟩) (hi q _)

theorem signed_user (h : svc.machine.Reach π w c) (hev : ev ∈ c.history) {claims : TokenClaims}
    {raw : String} (hact : ev.act = Act.signed claims raw) :
    claims.subjectType = "user" ∨ claims.sessionID = "" := by
  obtain ⟨c0, c1, k, a, h0, hf, -, -⟩ := h.event_of_mem hev
  have hspec := h0.along (program_spec svc) hf
  obtain ⟨i, op, e, r, s, s', o⟩ := ev
  cases hact
  exact hspec

theorem raw_of_signed (h : svc.machine.Reach π w c) (hev : ev ∈ c.history) {claims : TokenClaims}
    {raw : String} (hact : ev.act = Act.signed claims raw) :
    raw = svc.issuer.signedString claims := by
  obtain ⟨c0, c1, k, a, -, hf, -, -⟩ := h.event_of_mem hev
  have hperf := hf.performed
  obtain ⟨i, op, e, r, s, s', o⟩ := ev
  cases hact
  exact (perform_sign hperf).2 raw rfl

theorem unchanged_since {β : Type} {f : Store → β} {table : TableName}
    (htable : table = .credentials ∨ table = .userMFA)
    (hframe : ∀ {tables s s'}, Frame tables s s' → table ∉ tables → f s' = f s)
    (h : svc.machine.Reach .sequential w c) (hf : svc.machine.Fired c ev d k a) {e : Event}
    (he : e ∈ c.history) (hthread : e.thread = ev.thread) :
    f e.before.store = f c.state.store := by
  refine Machine.Reach.unchanged (f := fun w => f w.store) ?_ h hf.thread rfl he hthread
  intro c ev d k a h hf hout
  obtain ⟨body, n, next, hcom⟩ | hstore := committed_or_store_eq h hf
  · refine hframe (hcom.commit.frame hcom.run) fun hwrites => ?_
    obtain ⟨reply, rfl⟩ := hcom.commit.ends (Op.commitsLast_of_writes
      (by rcases htable with rfl | rfl <;> simp [hwrites]))
    cases hout.symm.trans hcom.outcome
  · rw [hstore]

theorem store_eq_of_quiet (hd : svc.machine.Run π c d) {later : List Event}
    (hlater : d.history = later ++ c.history)
    (hquiet : ∀ e ∈ later, ¬∃ body n, e.act = Act.committed body n) :
    d.state.store = c.state.store := by
  refine (hd.restrict hlater hquiet).invariant (I := fun d => d.state.store = c.state.store) rfl
    ?_ ?_
  · intro d q _ ih
    exact ih
  · intro d ev d' k a _ ih hf hp
    rw [store_eq_of_not_committed hf hp.2, ih]

theorem store_since (h : svc.machine.Reach .sequential w c) (hf : svc.machine.Fired c ev d k a)
    {newer older : List Act} {x : Act} (hacts : c.actsOf ev.thread = newer ++ x :: older)
    (hquiet : ∀ body n, Act.committed body n ∉ newer) :
    ∃ c0 c1 e k' a', svc.machine.Reach .sequential w c0 ∧ svc.machine.Fired c0 e c1 k' a' ∧
      e.act = x ∧ c0.actsOf e.thread = older ∧ e ∈ c.history ∧ e.thread = ev.thread ∧
      c1.state.store = c.state.store := by
  obtain ⟨later, e, earlier, hhistory, hthread, hact, hnewer, holder⟩ :=
    Machine.Reach.actsOf_split hacts
  have halone := h.later_of_unfinished hf.thread rfl hhistory hthread
  obtain ⟨c0, c1, k', a', h0, rfl, hf', -, h1⟩ := h.event_split hhistory
  refine ⟨c0, c1, e, k', a', h0, hf', hact, hthread ▸ holder, by rw [hhistory]; simp, hthread, ?_⟩
  refine (store_eq_of_quiet h1 (hf'.history ▸ hhistory) ?_).symm
  rintro y hy ⟨body, n, hcommit⟩
  refine hquiet body n ?_
  rw [← hnewer, ← hcommit]
  exact List.mem_map_of_mem (List.mem_filter.2 ⟨hy, by simpa using halone y hy⟩)

theorem clock_le (h : svc.machine.Reach Policy.monotone w c) (hev : ev ∈ c.history) :
    ev.after.clock ≤ c.state.clock := by
  refine Machine.Run.invariant (I := fun c => ∀ ev ∈ c.history, ev.after.clock ≤ c.state.clock)
    h ?_ ?_ ?_ ev hev
  · intro ev hev
    cases hev
  · intro d q _ ih
    exact ih
  · intro d x d' k a _ ih hf hp ev hev
    rw [hf.history, List.mem_cons] at hev
    rw [hf.state]
    obtain rfl | hev := hev
    · exact le_rfl
    · exact (hf.before ▸ ih ev hev).trans hp

theorem clock_of_act (hf : svc.machine.Fired c ev d k a) {t : Time} (hact : ev.act = Act.clock t) :
    ev.after.clock = t := by
  have hperf := hf.performed
  obtain ⟨i, op, e, r, s, s', o⟩ := ev
  cases hact
  rw [perform_now hperf]

theorem clock_mono (hd : svc.machine.Run Policy.monotone c d) : c.state.clock ≤ d.state.clock := by
  refine hd.invariant (I := fun d => c.state.clock ≤ d.state.clock) le_rfl ?_ ?_
  · intro d q _ ih
    exact ih
  · intro d ev d' k a _ ih hf hp
    rw [hf.state]
    exact ih.trans (hf.before ▸ hp)

theorem clock_since (hd : svc.machine.Run Policy.monotone c d) {i : Nat} (hi : c.actsOf i = [])
    {t : Time} (hmem : Act.clock t ∈ d.actsOf i) : c.state.clock ≤ t := by
  obtain ⟨later, hlater⟩ := hd.history_suffix
  obtain ⟨e, he, rfl, hact⟩ := Machine.Reach.mem_actsOf.1 hmem
  rw [← hlater, List.mem_append] at he
  obtain he | he := he
  · obtain ⟨c0, c1, k, a, h0, hf, hp, -⟩ := hd.event_of_mem hlater.symm he
    exact (clock_mono h0).trans (clock_of_act hf hact ▸ hf.before ▸ hp)
  · have := Machine.Reach.mem_actsOf.2 ⟨e, he, rfl, hact⟩
    rw [hi] at this
    cases this

theorem time_le (h : svc.machine.Reach Policy.monotone w c) {i : Nat} {t : Time}
    (hmem : Act.clock t ∈ c.actsOf i) : t ≤ c.state.clock := by
  obtain ⟨ev, hev, -, hact⟩ := Machine.Reach.mem_actsOf.1 hmem
  obtain ⟨c0, c1, k, a, -, hf, -, -⟩ := h.event_of_mem hev
  exact clock_of_act hf hact ▸ clock_le h hev

theorem drawn_ne_empty {kinds : List Draw} {kind : Draw} (hkind : kind ∈ kinds)
    (h : svc.machine.Reach (Policy.fresh kinds) w c) (hev : ev ∈ c.history) {s : String}
    (hs : ev.act = Act.drew kind s) : s ≠ "" := by
  obtain ⟨c0, c1, k, a, -, -, hp, -⟩ := h.event_of_mem hev
  exact (hp kind hkind s (drawn_eq_some.2 hs)).1

theorem drawn_once {kinds : List Draw} {kind : Draw} (hkind : kind ∈ kinds)
    (h : svc.machine.Reach (Policy.fresh kinds) w c) {e e' : Event} {s : String}
    (he : e ∈ c.history)
    (he' : e' ∈ c.history) (hs : e.act = Act.drew kind s) (hs' : e'.act = Act.drew kind s) :
    e = e' := by
  refine Machine.Run.invariant (I := fun c => ∀ e ∈ c.history, ∀ e' ∈ c.history,
    e.act = Act.drew kind s → e'.act = Act.drew kind s → e = e') h ?_ ?_ ?_ e he e' he' hs hs'
  · intro e he
    cases he
  · intro d q _ ih
    exact ih
  · intro d x d' k a _ ih hf hp e he e' he' hs hs'
    -- A value seen before is not drawn again.
    have hnew : ∀ y ∈ d.history, y.act = Act.drew kind s → x.act ≠ Act.drew kind s := by
      intro y hy hys hxs
      have := (hp kind hkind s (drawn_eq_some.2 hxs)).2
      exact this (List.mem_filterMap.2 ⟨y, hy, drawn_eq_some.2 hys⟩)
    rw [hf.history, List.mem_cons] at he he'
    obtain rfl | he := he <;> obtain rfl | he' := he'
    · rfl
    · exact absurd hs (hnew _ he' hs')
    · exact absurd hs' (hnew _ he hs)
    · exact ih e he e' he' hs hs'

theorem mem_drawn {kind : Draw} {s : String} :
    s ∈ Config.drawn c kind ↔ ∃ e ∈ c.history, e.act = Act.drew kind s := by
  simp only [Config.drawn, List.mem_filterMap, drawn_eq_some]

theorem mem_drawn_of_acts {kind : Draw} {s : String} {i : Nat} (h : Act.drew kind s ∈ c.actsOf i) :
    s ∈ Config.drawn c kind := by
  obtain ⟨e, he, -, hact⟩ := Machine.Reach.mem_actsOf.1 h
  exact mem_drawn.2 ⟨e, he, hact⟩

theorem drawn_mono {kind : Draw} {s : String} (hsub : c.history <:+ d.history)
    (h : s ∈ Config.drawn c kind) : s ∈ Config.drawn d kind := by
  obtain ⟨e, he, hact⟩ := mem_drawn.1 h
  exact mem_drawn.2 ⟨e, hsub.mem he, hact⟩

def UsedUp (kind : Draw) (c : Config) (s : String) : Prop :=
  ∃ e ∈ c.history, e.act = Act.drew kind s ∧
    ∃ e' ∈ c.history, e'.thread = e.thread ∧ e'.outcome.isSome

namespace UsedUp

variable {kinds : List Draw} {kind : Draw} {s : String}

theorem mono (h : UsedUp kind c s) (hsub : c.history <:+ d.history) : UsedUp kind d s := by
  obtain ⟨e, he, hact, e', he', hth, hout⟩ := h
  exact ⟨e, hsub.mem he, hact, e', hsub.mem he', hth, hout⟩

theorem not_in_use (hs : UsedUp kind c s) (hkind : kind ∈ kinds)
    (h : svc.machine.Reach (Policy.fresh kinds) w c) (hf : svc.machine.Fired c ev d k a) :
    Act.drew kind s ∉ c.actsOf ev.thread := by
  intro hmem
  obtain ⟨e, he, hact, e', he', hth, hout⟩ := hs
  obtain ⟨x, hx, hxth, hxact⟩ := Machine.Reach.mem_actsOf.1 hmem
  have hxe := drawn_once hkind h hx he hxact hact
  subst hxe
  exact h.thread_ne_of_outcome hf he' hout (hth.trans hxth)

theorem drawn (h : UsedUp kind c s) : s ∈ Config.drawn c kind := by
  obtain ⟨e, he, hact, -⟩ := h
  exact mem_drawn.2 ⟨e, he, hact⟩

theorem of_step (hf : svc.machine.Fired c ev d k a) (hmem : Act.drew kind s ∈ c.actsOf ev.thread)
    (hout : ev.outcome.isSome) : UsedUp kind d s := by
  have hsub : c.history <:+ d.history := hf.history ▸ List.suffix_cons _ _
  obtain ⟨e, he, hth, hact⟩ := Machine.Reach.mem_actsOf.1 hmem
  exact ⟨e, hsub.mem he, hact, ev, hf.history ▸ List.mem_cons_self, hth.symm, hout⟩

end UsedUp

end Step

/-- A service over transparent primitives: an access token is its own identifier, and those
of the claims in `known` are recognised. -/
def sample (known : List TokenClaims) (mfa : Option MFACrypto) : Service where
  platform :=
    ⟨fun id => some ⟨id, .system, "", "", ""⟩,
      fun ctx now => ctx.map (fun actor => ⟨1, now, now, actor.id, actor.id⟩),
      fun _ => rfl, fun _ => rfl, fun _ _ => rfl⟩
  hasher := ⟨fun _ password => password, fun password encoded => some (password = encoded, false)⟩
  issuer := ⟨"identity", ["api"], 15 * Go.minute, TokenClaims.id,
    fun raw => known.find? (fun claims => claims.id = raw),
    fun claims now =>
      decide (claims.notBefore * Go.second ≤ now ∧ now < claims.expiresAt * Go.second)⟩
  mfa := mfa
  mfaChallengeTTL := 5 * Go.minute
  digest := id
  toLower := id
  lower := id
  marshalAudiences := fun _ => ""
  unmarshalAudiences := fun _ => none

namespace sample

def crypto : MFACrypto where
  uri _ _ := ""
  encrypt _ _ secret := secret
  decrypt _ encrypted := some encrypted
  hmacSHA1 key _ := key
  recoveryMAC s := "#" ++ s
  recoveryMAC_ne s h := by simpa using congrArg String.length h
  toUpper := id

def admin : Context := some ⟨"admin", .user, "", "", "console"⟩

def client : SessionClient := ⟨[], []⟩

/-- Register a user `u1`, then log in to a session `s1`. -/
def signIn : List (Choice Op Answer) :=
  [.start (.register admin "bob" "Bob" "bob@example" "" "correct horse"),
    .step 0 (.value "salt"), .step 0 (.time 10), .step 0 (.value "u1"), .step 0 (.value "c1"),
    .step 0 (.value "e1"), .step 0 .done,
    .start (.login "bob" "correct horse" client),
    .step 1 (.row 0), .step 1 (.row 0), .step 1 (.time 20), .step 1 .done, .step 1 (.row 0),
    .step 1 (.time 30), .step 1 (.value "r1"), .step 1 (.value "s1"), .step 1 (.time 40),
    .step 1 (.value "t1"), .step 1 .done, .step 1 .done]

def bob : Context := some ⟨"u1", .user, "", "", "s1"⟩

def secret : String := "AAAAAAAA"
def code : String := "000000"

def codesDrawn (thread : Nat) (tag : String) : List (Choice Op Answer) :=
  (List.range 21).map (fun n => .step thread (.value (tag ++ toString n)))

def enrol : List (Choice Op Answer) :=
  [.start (.startMFASetup bob "correct horse"), .step 2 (.row 0), .step 2 (.row 0),
    .step 2 (.value secret), .step 2 (.value "n1"), .step 2 (.time (100 * Go.second)),
    .step 2 (.row 0), .step 2 .done,
    .start (.confirmMFASetup bob code 1), .step 3 (.row 0), .step 3 (.time (130 * Go.second))] ++
    codesDrawn 3 "k" ++ [.step 3 .done]

def challenge : List (Choice Op Answer) :=
  [.start (.login "bob" "correct horse" client), .step 4 (.row 0), .step 4 (.row 0),
    .step 4 (.time (200 * Go.second)), .step 4 .done, .step 4 (.row 0), .step 4 (.value "ch1"),
    .step 4 (.time (201 * Go.second)), .step 4 .done]

def answer (thread : Nat) : List (Choice Op Answer) :=
  [.start (.verifyMFAChallenge "ch1" code ""), .step thread (.row 0),
    .step thread (.time (220 * Go.second)), .step thread (.row 0), .step thread (.row 0),
    .step thread (.time (221 * Go.second)), .step thread (.value "r2"), .step thread (.value "s2"),
    .step thread (.time (222 * Go.second)), .step thread (.value "t2"), .step thread .done,
    .step thread .done]

end sample

end IdentityService
