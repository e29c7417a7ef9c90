import IdentityService.Lib.Machine

namespace IdentityService.Lib.Machine

variable {Q E : Type} {R : E → Type} {ε α σ A : Type}
variable {M : Machine Q E R ε α σ A} {π π' : Policy Q E R ε α σ}
variable {c d d' : Config Q E R ε α σ} {ev : Event Q E R ε α σ} {i : Nat} {a : A} {s : σ}

structure Fired (M : Machine Q E R ε α σ A) (c : Config Q E R ε α σ) (ev : Event Q E R ε α σ)
    (d : Config Q E R ε α σ) (k : R ev.call → Program E R ε α) (a : A) : Prop where
  thread : c.threads[ev.thread]? = some ⟨ev.request, .call ev.call k⟩
  before : ev.before = c.state
  performed : M.perform ev.before ev.call a = some (ev.answer, ev.after)
  outcome : ev.outcome = (k ev.answer).outcome
  state : d.state = ev.after
  threads : d.threads = c.threads.set ev.thread ⟨ev.request, k ev.answer⟩
  history : d.history = ev :: c.history

theorem fired_of_fire (h : M.fire c i a = some (ev, d)) :
    ev.thread = i ∧ ∃ k, Fired M c ev d k a := by
  unfold fire at h
  split at h
  · rename_i q e k hth
    split at h
    · rename_i r s' hp
      simp only [Option.some.injEq, Prod.mk.injEq] at h
      obtain ⟨rfl, rfl⟩ := h
      exact ⟨rfl, k, ⟨hth, rfl, hp, rfl, rfl, rfl, rfl⟩⟩
    · cases h
  · cases h

@[simp] theorem begin_state (q : Q) : (M.begin c q).state = c.state := rfl
@[simp] theorem begin_history (q : Q) : (M.begin c q).history = c.history := rfl
@[simp] theorem begin_actsOf (q : Q) : (M.begin c q).actsOf i = c.actsOf i := rfl

theorem begin_thread {q : Q} {th : Thread Q E R ε α} (h : (M.begin c q).threads[i]? = some th) :
    c.threads[i]? = some th ∨ i = c.threads.length ∧ th = ⟨q, M.program q⟩ := by
  by_cases hi : i < c.threads.length
  · rw [begin, List.getElem?_append_left hi] at h
    exact .inl h
  · rw [begin, List.getElem?_append_right (by omega), List.getElem?_singleton] at h
    split at h
    · cases h
      exact .inr ⟨by omega, rfl⟩
    · cases h

theorem Fired.thread_cases {k} (h : Fired M c ev d k a) {th : Thread Q E R ε α}
    (hth : d.threads[i]? = some th) :
    i = ev.thread ∧ th = ⟨ev.request, k ev.answer⟩ ∨ i ≠ ev.thread ∧ c.threads[i]? = some th := by
  rw [h.threads] at hth
  by_cases hi : i = ev.thread
  · subst hi
    rw [List.getElem?_set_self (List.getElem?_eq_some_iff.1 h.thread).1] at hth
    cases hth
    exact .inl ⟨rfl, rfl⟩
  · rw [List.getElem?_set_ne (Ne.symm hi)] at hth
    exact .inr ⟨hi, hth⟩

theorem Fired.actsOf_self {k} (h : Fired M c ev d k a) :
    d.actsOf ev.thread = ev.act :: c.actsOf ev.thread := by
  simp [Config.actsOf, h.history]

theorem Fired.actsOf_ne {k} (h : Fired M c ev d k a) (hi : ev.thread ≠ i) :
    d.actsOf i = c.actsOf i := by
  simp [Config.actsOf, h.history, hi]

theorem Fired.thread_lt {k} (h : Fired M c ev d k a) : ev.thread < c.threads.length :=
  (List.getElem?_eq_some_iff.1 h.thread).1

theorem Run.trans {d d'} (h : M.Run π c d) (h' : M.Run π d d') : M.Run π c d' := by
  induction h' with
  | refl => exact h
  | start q _ hq ih => exact ih.start q hq
  | step i a _ hf hp ih => exact ih.step i a hf hp

theorem Fired.fire_eq {k} (h : Fired M c ev d k a) : M.fire c ev.thread a = some (ev, d) := by
  have hperf := h.performed
  rw [h.before] at hperf
  simp only [fire, h.thread, hperf]
  rw [← h.outcome, ← h.threads, ← h.before]
  have hd : (⟨ev.after, d.threads, ev :: c.history⟩ : Config Q E R ε α σ) = d := by
    rw [← h.history, ← h.state]
  exact congrArg (fun x => some (ev, x)) hd

theorem Run.fired {k} (h : M.Run π c d) (hf : Fired M d ev d' k a) (hp : π.event d ev) :
    M.Run π c d' :=
  h.step ev.thread a hf.fire_eq hp

theorem Run.mono (hstart : ∀ c q, π.start c q → π'.start c q)
    (hevent : ∀ c ev, π.event c ev → π'.event c ev) (h : M.Run π c d) : M.Run π' c d := by
  induction h with
  | refl => exact .refl
  | start q _ hq ih => exact ih.start q (hstart _ _ hq)
  | step i a _ hf hp ih => exact ih.step i a hf (hevent _ _ hp)

theorem Run.left (h : M.Run (π.both π') c d) : M.Run π c d :=
  Run.mono (π := π.both π') (fun _ _ hq => hq.1) (fun _ _ hp => hp.1) h

theorem Run.right (h : M.Run (π.both π') c d) : M.Run π' c d :=
  Run.mono (π := π.both π') (fun _ _ hq => hq.2) (fun _ _ hp => hp.2) h

theorem Run.any (h : M.Run π c d) : M.Run .any c d :=
  h.mono (fun _ _ _ => trivial) (fun _ _ _ => trivial)

theorem Run.invariant {I : Config Q E R ε α σ → Prop} (h : M.Run π c d) (h0 : I c)
    (hstart : ∀ d q, M.Run π c d → I d → I (M.begin d q))
    (hstep : ∀ d ev d' k a, M.Run π c d → I d → Fired M d ev d' k a → π.event d ev → I d') :
    I d := by
  induction h with
  | refl => exact h0
  | start q hr _ ih => exact hstart _ q hr ih
  | step i a hr hf hp ih =>
    obtain ⟨-, k, hk⟩ := fired_of_fire hf
    exact hstep _ _ _ k a hr ih hk hp

theorem Run.history_suffix (h : M.Run π c d) : c.history <:+ d.history := by
  refine h.invariant (I := fun d => c.history <:+ d.history) (List.suffix_refl _)
    (fun _ _ _ h => h) ?_
  intro d ev d' k a _ ih hf _
  rw [hf.history]
  exact ih.trans (List.suffix_cons _ _)

theorem Run.restrict {P : Event Q E R ε α σ → Prop} (h : M.Run π c d)
    {mid : List (Event Q E R ε α σ)} (hmid : d.history = mid ++ c.history)
    (hP : ∀ ev ∈ mid, P ev) :
    M.Run (π.both (.onEvents fun _ ev => P ev)) c d := by
  induction h generalizing mid with
  | refl => exact .refl
  | start q _ hq ih => exact (ih hmid hP).start q ⟨hq, trivial⟩
  | @step d ev d' i a hr hf hp ih =>
    obtain ⟨-, k, hk⟩ := fired_of_fire hf
    obtain ⟨pre, hpre⟩ := hr.history_suffix
    have hmid' : ev :: pre = mid := by
      rw [hk.history, ← hpre, ← List.cons_append] at hmid
      exact List.append_cancel_right hmid
    subst hmid'
    refine (ih hpre.symm fun e he => hP e (List.mem_cons_of_mem _ he)).step i a hf ⟨hp, ?_⟩
    exact hP ev List.mem_cons_self

theorem Run.simulate {B : Type} {N : Machine Q E R ε α σ B} (hprogram : N.program = M.program)
    (hperform : ∀ s e b r s', N.perform s e b = some (r, s') → ∃ a, M.perform s e a = some (r, s'))
    (h : N.Run π c d) : M.Run π c d := by
  induction h with
  | refl => exact .refl
  | start q _ hq ih =>
    rw [begin, hprogram]
    exact ih.start q hq
  | step i b _ hf hp ih =>
    obtain ⟨-, k, hk⟩ := fired_of_fire hf
    obtain ⟨a, ha⟩ := hperform _ _ _ _ _ hk.performed
    exact ih.fired ⟨hk.thread, hk.before, ha, hk.outcome, hk.state, hk.threads, hk.history⟩ hp

theorem Run.event_split (h : M.Run π c d) {later earlier : List (Event Q E R ε α σ)}
    (hd : d.history = later ++ ev :: earlier) (hc : c.history <:+ earlier) :
    ∃ c0 c1 k a, M.Run π c c0 ∧ c0.history = earlier ∧ Fired M c0 ev c1 k a ∧ π.event c0 ev ∧
      M.Run π c1 d := by
  induction h generalizing later with
  | refl =>
    obtain ⟨pre, rfl⟩ := hc
    have := congrArg List.length hd
    simp at this
    omega
  | start q hr hq ih =>
    obtain ⟨c0, c1, k, a, h0, he, hf, hp, h1⟩ := ih hd
    exact ⟨c0, c1, k, a, h0, he, hf, hp, h1.start q hq⟩
  | @step d e d' i a hr hf hp ih =>
    obtain ⟨-, k, hk⟩ := fired_of_fire hf
    rw [hk.history] at hd
    cases later with
    | nil =>
      obtain ⟨rfl, rfl⟩ := List.cons.inj hd
      exact ⟨d, d', k, a, hr, rfl, hk, hp, .refl⟩
    | cons x later =>
      obtain ⟨c0, c1, k, a', h0, he, hf', hp', h1⟩ := ih (List.cons.inj hd).2
      exact ⟨c0, c1, k, a', h0, he, hf', hp', h1.step i a hf hp⟩

theorem Run.event_of_mem (h : M.Run π c d) {later : List (Event Q E R ε α σ)}
    (hd : d.history = later ++ c.history) (hev : ev ∈ later) :
    ∃ c0 c1 k a, M.Run π c c0 ∧ Fired M c0 ev c1 k a ∧ π.event c0 ev ∧ M.Run π c1 d := by
  obtain ⟨l, l', rfl⟩ := List.append_of_mem hev
  rw [List.append_assoc, List.cons_append] at hd
  obtain ⟨c0, c1, k, a, h0, -, hf, hp, h1⟩ := h.event_split hd (List.suffix_append _ _)
  exact ⟨c0, c1, k, a, h0, hf, hp, h1⟩

theorem replay_run [∀ c q, Decidable (π.start c q)] [∀ c ev, Decidable (π.event c ev)]
    {choices : List (Choice Q A)} (h : M.replay π choices c = some d) : M.Run π c d := by
  induction choices generalizing c with
  | nil =>
    cases h
    exact .refl
  | cons choice rest ih =>
    cases choice with
    | start q =>
      simp only [replay] at h
      split at h
      · rename_i hq
        exact (Run.start q .refl hq).trans (ih h)
      · cases h
    | step i a =>
      simp only [replay] at h
      split at h
      · rename_i ev c' hf
        split at h
        · rename_i hp
          exact (Run.step i a .refl hf hp).trans (ih h)
        · cases h
      · cases h

theorem replay_getD [∀ c q, Decidable (π.start c q)] [∀ c ev, Decidable (π.event c ev)]
    {choices : List (Choice Q A)} (h : (M.replay π choices c).isSome) :
    M.Run π c ((M.replay π choices c).getD d) := by
  obtain ⟨d', hd'⟩ := Option.isSome_iff_exists.1 h
  rw [hd']
  exact replay_run hd'

theorem replay_exists [∀ c q, Decidable (π.start c q)] [∀ c ev, Decidable (π.event c ev)]
    (choices : List (Choice Q A)) {P : Config Q E R ε α σ → Prop} [DecidablePred P]
    (h : (M.replay π choices c).any (fun d => decide (P d)) = true) :
    ∃ d, M.Run π c d ∧ P d := by
  obtain ⟨d, hd, hP⟩ := (Option.any_eq_true _ _).1 h
  exact ⟨d, replay_run hd, of_decide_eq_true hP⟩

namespace Reach

theorem trans (h : M.Reach π s c) (h' : M.Run π c d) : M.Reach π s d := Run.trans h h'

theorem left (h : M.Reach (π.both π') s c) : M.Reach π s c := Run.left h

theorem right (h : M.Reach (π.both π') s c) : M.Reach π' s c := Run.right h

theorem event_split (h : M.Reach π s d) {later earlier : List (Event Q E R ε α σ)}
    (hd : d.history = later ++ ev :: earlier) :
    ∃ c0 c1 k a, M.Reach π s c0 ∧ c0.history = earlier ∧ Fired M c0 ev c1 k a ∧ π.event c0 ev ∧
      M.Run π c1 d :=
  Run.event_split h hd (List.nil_suffix)

theorem event_of_mem (h : M.Reach π s d) (hev : ev ∈ d.history) :
    ∃ c0 c1 k a, M.Reach π s c0 ∧ Fired M c0 ev c1 k a ∧ π.event c0 ev ∧ M.Run π c1 d :=
  Run.event_of_mem h (List.append_nil _).symm hev

theorem thread_of_mem (h : M.Reach π s c) (hev : ev ∈ c.history) :
    ∃ th, c.threads[ev.thread]? = some th ∧ th.request = ev.request ∧
      (ev.outcome.isSome → th.rest.outcome = ev.outcome) := by
  refine Run.invariant (I := fun c => ∀ ev ∈ c.history, ∃ th, c.threads[ev.thread]? = some th ∧
    th.request = ev.request ∧ (ev.outcome.isSome → th.rest.outcome = ev.outcome))
    h (by simp [Config.initial]) ?_ ?_ ev hev
  · intro d q _ ih e he
    obtain ⟨th, hth, hreq⟩ := ih e he
    have hlt := (List.getElem?_eq_some_iff.1 hth).1
    exact ⟨th, by rw [begin, List.getElem?_append_left hlt, hth], hreq⟩
  · intro d x d' k a _ ih hf _ e he
    rw [hf.history, List.mem_cons] at he
    by_cases hx : e.thread = x.thread
    · refine ⟨⟨x.request, k x.answer⟩, ?_, ?_⟩
      · rw [hf.threads, hx, List.getElem?_set_self hf.thread_lt]
      · obtain rfl | he := he
        · exact ⟨rfl, fun _ => hf.outcome.symm⟩
        · obtain ⟨th, hth, hreq, hout⟩ := ih e he
          rw [hx, hf.thread] at hth
          cases hth
          refine ⟨hreq, fun hs => ?_⟩
          rw [← hout hs] at hs
          cases hs
    · obtain rfl | he := he
      · exact absurd rfl hx
      · obtain ⟨th, hth, hreq⟩ := ih e he
        exact ⟨th, by rw [hf.threads, List.getElem?_set_ne (Ne.symm hx), hth], hreq⟩

theorem actsOf_length (h : M.Reach π s c) : c.actsOf c.threads.length = [] := by
  simp only [Config.actsOf, List.map_eq_nil_iff, List.filter_eq_nil_iff, decide_eq_true_eq]
  intro ev hev heq
  obtain ⟨th, hth, -⟩ := h.thread_of_mem hev
  have := (List.getElem?_eq_some_iff.1 hth).1
  omega

theorem path (h : M.Reach π s c) {th : Thread Q E R ε α} (hth : c.threads[i]? = some th) :
    Program.Path (M.program th.request) (c.actsOf i) th.rest := by
  refine Run.invariant (I := fun c => ∀ i th, c.threads[i]? = some th →
    Program.Path (M.program th.request) (c.actsOf i) th.rest)
    h (by simp [Config.initial]) ?_ ?_ i th hth
  · intro d q hr ih i th hth
    obtain hth | ⟨rfl, rfl⟩ := begin_thread hth
    · exact ih i th hth
    · rw [begin_actsOf, actsOf_length hr]
      exact .nil
  · intro d ev d' k a _ ih hf _ i th hth
    obtain ⟨rfl, rfl⟩ | ⟨hi, hth⟩ := hf.thread_cases hth
    · rw [hf.actsOf_self]
      exact (ih ev.thread _ hf.thread).cons ev.answer
    · rw [hf.actsOf_ne (Ne.symm hi)]
      exact ih i th hth

theorem along {Φ : Q → List (Program.Act E R) → (e : E) → R e → Program E R ε α → Prop}
    (hΦ : ∀ q, Program.Along (Φ q) [] (M.program q)) (h : M.Reach π s c) {k}
    (hf : Fired M c ev d k a) :
    Φ ev.request (c.actsOf ev.thread) ev.call ev.answer (k ev.answer) :=
  (hΦ ev.request).newest ((h.path hf.thread).cons ev.answer)

theorem ends {Ψ : List (Program.Act E R) → α → Prop} {x : α} (h : M.Reach π s c) {k}
    (hf : Fired M c ev d k a) (hΨ : Program.Ends Ψ [] (M.program ev.request))
    (ho : ev.outcome = some (.ok x)) : Ψ (d.actsOf ev.thread) x := by
  have hk := (Program.ends_call _ _).1 (hΨ.of_path (h.path hf.thread)) ev.answer
  rw [hf.actsOf_self]
  exact hk.of_outcome (hf.outcome ▸ ho)

theorem request_eq (h : M.Reach π s c) {k} (hf : Fired M c ev d k a) {e : Event Q E R ε α σ}
    (he : e ∈ c.history) (hth : e.thread = ev.thread) : e.request = ev.request := by
  obtain ⟨th, hthread, hrequest, -⟩ := h.thread_of_mem he
  rw [hth, hf.thread] at hthread
  cases hthread
  exact hrequest.symm

theorem request_eq_of_mem (h : M.Reach π s c) {e : Event Q E R ε α σ} (he : e ∈ c.history)
    (hev : ev ∈ c.history) (hth : e.thread = ev.thread) : e.request = ev.request := by
  obtain ⟨th, hthread, hrequest, -⟩ := h.thread_of_mem he
  obtain ⟨th', hthread', hrequest', -⟩ := h.thread_of_mem hev
  rw [hth, hthread'] at hthread
  cases hthread
  exact hrequest.symm.trans hrequest'

theorem thread_ne_of_outcome (h : M.Reach π s c) {k} (hf : Fired M c ev d k a)
    {e : Event Q E R ε α σ} (he : e ∈ c.history) (ho : e.outcome.isSome) :
    e.thread ≠ ev.thread := by
  intro heq
  obtain ⟨th, hth, -, hout⟩ := h.thread_of_mem he
  rw [heq, hf.thread] at hth
  cases hth
  rw [← hout ho] at ho
  cases ho

theorem thread_ne_of_later (h : M.Reach π s c) {later earlier : List (Event Q E R ε α σ)}
    (hc : c.history = later ++ ev :: earlier) {e : Event Q E R ε α σ} (he : e ∈ earlier)
    (ho : e.outcome.isSome) : e.thread ≠ ev.thread := by
  obtain ⟨c0, c1, k, a, h0, rfl, hf, -, -⟩ := h.event_split hc
  exact h0.thread_ne_of_outcome hf he ho

theorem mem_of_thread_eq (h : M.Reach π s c) {later earlier : List (Event Q E R ε α σ)}
    (hc : c.history = later ++ ev :: earlier) (ho : ev.outcome.isSome) {e : Event Q E R ε α σ}
    (he : e ∈ c.history) (hth : e.thread = ev.thread) : e ∈ ev :: earlier := by
  rw [hc, List.mem_append] at he
  obtain he | he := he
  · obtain ⟨l, l', hl⟩ := List.append_of_mem he
    rw [hl, List.append_assoc, List.cons_append] at hc
    have hmem : ev ∈ l' ++ ev :: earlier := by simp
    exact absurd hth.symm (h.thread_ne_of_later hc hmem ho)
  · exact he

theorem eq_of_outcome (h : M.Reach π s c) {e e' : Event Q E R ε α σ} (he : e ∈ c.history)
    (he' : e' ∈ c.history) (ho : e.outcome.isSome) (ho' : e'.outcome.isSome)
    (hth : e.thread = e'.thread) : e = e' := by
  obtain ⟨later, earlier, hc⟩ := List.append_of_mem he
  obtain heq | he' := List.mem_cons.1 (h.mem_of_thread_eq hc ho he' hth.symm)
  · exact heq.symm
  · exact absurd hth.symm (h.thread_ne_of_later hc he' ho')

theorem mem_actsOf {x : Program.Act E R} :
    x ∈ c.actsOf i ↔ ∃ ev ∈ c.history, ev.thread = i ∧ ev.act = x := by
  simp [Config.actsOf, and_assoc]

theorem actsOf_mono {x : Program.Act E R} (hsub : c.history <:+ d.history)
    (hx : x ∈ c.actsOf i) : x ∈ d.actsOf i := by
  obtain ⟨ev, hev, hth, hact⟩ := mem_actsOf.1 hx
  exact mem_actsOf.2 ⟨ev, hsub.mem hev, hth, hact⟩

end Reach

theorem Run.thread_ended (h : M.Run π c d) {th : Thread Q E R ε α} (hth : c.threads[i]? = some th)
    (ho : th.rest.outcome ≠ none) : d.threads[i]? = some th := by
  refine h.invariant (I := fun d => d.threads[i]? = some th) hth ?_ ?_
  · intro d q _ ih
    rw [begin, List.getElem?_append_left (List.getElem?_eq_some_iff.1 ih).1, ih]
  · intro d ev d' k a _ ih hf _
    have hne : ev.thread ≠ i := by
      rintro rfl
      rw [hf.thread] at ih
      cases ih
      exact ho rfl
    rw [hf.threads, List.getElem?_set_ne hne, ih]

theorem Reach.actsOf_split {newer older : List (Program.Act E R)} {x : Program.Act E R}
    (h : c.actsOf i = newer ++ x :: older) :
    ∃ later ev earlier, c.history = later ++ ev :: earlier ∧ ev.thread = i ∧ ev.act = x ∧
      (later.filter (fun e => e.thread = i)).map Event.act = newer ∧
      (earlier.filter (fun e => e.thread = i)).map Event.act = older := by
  obtain ⟨l, l', hl, hnewer, hrest⟩ := List.map_eq_append_iff.1 h
  obtain ⟨ev, l'', rfl, hact, holder⟩ := List.map_eq_cons_iff.1 hrest
  obtain ⟨h1, h2, hc, hh1, hh2⟩ := List.filter_eq_append_iff.1 hl
  obtain ⟨h3, h4, rfl, hnone, hi, hh4⟩ := List.filter_eq_cons_iff.1 hh2
  refine ⟨h1 ++ h3, ev, h4, by rw [hc, List.append_assoc], by simpa using hi, hact, ?_, ?_⟩
  · rw [List.filter_append, hh1, List.filter_eq_nil_iff.2 (by simpa using hnone), List.append_nil,
      hnewer]
  · rw [hh4, holder]

section Sequential

theorem Reach.unfinished_unique (h : M.Reach .sequential s c) {j : Nat} {th th' : Thread Q E R ε α}
    (hi : c.threads[i]? = some th) (hj : c.threads[j]? = some th') (ho : th.rest.outcome = none)
    (ho' : th'.rest.outcome = none) : i = j := by
  induction h generalizing i j th th' with
  | refl => cases hi
  | @start d q _ hq ih =>
    -- Whoever has not ended is the one that has just started.
    have hlast : ∀ {l} {x : Thread Q E R ε α}, (M.begin d q).threads[l]? = some x →
        x.rest.outcome = none → l = d.threads.length := by
      intro l x hx ho
      obtain hx | ⟨rfl, -⟩ := begin_thread hx
      · have hidle := List.all_eq_true.1 hq x (List.mem_of_getElem? hx)
        simp [ho] at hidle
      · rfl
    rw [hlast hi ho, hlast hj ho']
  | @step d ev d' l a hr hf _ ih =>
    obtain ⟨-, k, hk⟩ := fired_of_fire hf
    have hlast : ∀ {l} {x : Thread Q E R ε α}, d'.threads[l]? = some x → x.rest.outcome = none →
        l = ev.thread := by
      intro l x hx ho
      obtain ⟨rfl, -⟩ | ⟨-, hx⟩ := hk.thread_cases hx
      · rfl
      · exact ih hx hk.thread ho rfl
    rw [hlast hi ho, hlast hj ho']

theorem Reach.later_of_unfinished (h : M.Reach .sequential s c) {th : Thread Q E R ε α}
    (hth : c.threads[i]? = some th) (ho : th.rest.outcome = none)
    {later earlier : List (Event Q E R ε α σ)} (hc : c.history = later ++ ev :: earlier)
    (hi : ev.thread = i) : ∀ e ∈ later, e.thread = i := by
  intro e he
  obtain ⟨l, l', rfl⟩ := List.append_of_mem he
  rw [List.append_assoc, List.cons_append] at hc
  obtain ⟨c0, c1, k, a, h0, hhistory, hf, hp, h1⟩ := h.event_split hc
  obtain ⟨th0, hth0, -, -⟩ := h0.thread_of_mem (hhistory ▸ by simp : ev ∈ c0.history)
  rw [hi] at hth0
  have hun : th0.rest.outcome = none := by
    by_contra hsome
    cases (((Run.refl.fired hf hp).trans h1).thread_ended hth0 hsome).symm.trans hth
    exact hsome ho
  exact Reach.unfinished_unique h0 hf.thread hth0 rfl hun

/-- If only the last step of a request changes what `f` sees, then every earlier step of a request
under way saw what is there now. -/
theorem Reach.unchanged {β : Type} {f : σ → β}
    (hf : ∀ c ev d k a, M.Reach .sequential s c → Fired M c ev d k a → ev.outcome = none →
      f d.state = f c.state)
    (h : M.Reach .sequential s c) {th : Thread Q E R ε α} (hth : c.threads[i]? = some th)
    (ho : th.rest.outcome = none) (hev : ev ∈ c.history) (hi : ev.thread = i) :
    f ev.before = f c.state := by
  refine Run.invariant (I := fun c => ∀ i th, c.threads[i]? = some th → th.rest.outcome = none →
    ∀ ev ∈ c.history, ev.thread = i → f ev.before = f c.state) h ?_ ?_ ?_ i th hth ho ev hev hi
  · intro i th hth
    cases hth
  · intro d q hd ih i th hth ho ev hev hi
    obtain ⟨x, hx, -⟩ := Reach.thread_of_mem hd hev
    have hlt := (List.getElem?_eq_some_iff.1 hx).1
    rw [begin, List.getElem?_append_left (hi ▸ hlt)] at hth
    exact ih i th hth ho ev hev hi
  · intro d x d' k a hd ih hx hp i th hth ho ev hev hi
    obtain ⟨rfl, rfl⟩ | ⟨hi', hth⟩ := hx.thread_cases hth
    · rw [hf d x d' k a hd hx (hx.outcome.trans ho)]
      rw [hx.history, List.mem_cons] at hev
      obtain rfl | hev := hev
      · rw [hx.before]
      · exact ih _ _ hx.thread rfl ev hev hi
    · exact absurd (Reach.unfinished_unique hd hth hx.thread ho rfl) hi'

end Sequential

namespace Executes

variable {q : Q}

theorem reach (h : M.Executes q s c) : M.Reach .any s c := by
  have hrun : M.Run .any (M.begin (.initial s) q) c :=
    Run.any h
  exact (Run.start q .refl trivial).trans hrun

theorem threads (h : M.Executes q s c) : ∃ p, c.threads = [⟨q, p⟩] := by
  induction h with
  | refl => exact ⟨M.program q, rfl⟩
  | start _ _ hq => exact hq.elim
  | step i a _ hf _ ih =>
    obtain ⟨p, hp⟩ := ih
    obtain ⟨-, k, hk⟩ := fired_of_fire hf
    have hth := hk.thread
    have hlt := hk.thread_lt
    rw [hp, List.length_singleton, Nat.lt_one_iff] at hlt
    rw [hp, hlt] at hth
    cases hth
    exact ⟨k _, by rw [hk.threads, hp, hlt, List.set_cons_zero]⟩

theorem fired (h : M.Executes q s c) {k} (hf : Fired M c ev d k a) :
    ev.thread = 0 ∧ ev.request = q := by
  obtain ⟨p, hp⟩ := h.threads
  have hth := hf.thread
  have hlt := hf.thread_lt
  rw [hp, List.length_singleton, Nat.lt_one_iff] at hlt
  rw [hp, hlt] at hth
  cases hth
  exact ⟨hlt, rfl⟩

end Executes

theorem Run.perform {q : Q} {e : E} {k} {r : R e} {s' : σ} (h : M.Run π c d)
    (hπ : ∀ ev, π.event d ev) (hth : d.threads[i]? = some ⟨q, .call e k⟩)
    (hp : M.perform d.state e a = some (r, s')) :
    ∃ d', M.Run π c d' ∧ d'.state = s' ∧ d'.threads = d.threads.set i ⟨q, k r⟩ := by
  let ev : Event Q E R ε α σ := ⟨i, q, e, r, d.state, s', (k r).outcome⟩
  have hfire : M.fire d i a = some (ev, ⟨s', d.threads.set i ⟨q, k r⟩, ev :: d.history⟩) := by
    simp only [fire, hth, hp, ev]
  exact ⟨_, h.step i a hfire (hπ ev), rfl, rfl⟩

theorem Executes.perform {q : Q} {e : E} {k} {r : R e} {s' : σ} (h : M.Executes q s c)
    (hth : c.threads[i]? = some ⟨q, .call e k⟩) (hp : M.perform c.state e a = some (r, s')) :
    ∃ d, M.Executes q s d ∧ d.state = s' ∧ d.threads[i]? = some ⟨q, k r⟩ := by
  obtain ⟨d, hd, hstate, hthreads⟩ := Run.perform h (fun _ => trivial) hth hp
  refine ⟨d, hd, hstate, ?_⟩
  rw [hthreads]
  exact List.getElem?_set_self (List.getElem?_eq_some_iff.1 hth).1

theorem countP_le_one {β : Type} {P : β → Bool} {l : List β}
    (h : ∀ later x earlier, l = later ++ x :: earlier → P x = true → ∀ y ∈ earlier, P y = false) :
    l.countP P ≤ 1 := by
  induction l with
  | nil => simp
  | cons x l ih =>
    have hl := ih fun later y earlier hy => h (x :: later) y earlier (by rw [hy, List.cons_append])
    by_cases hx : P x = true
    · have hnone : l.countP P = 0 := List.countP_eq_zero.2 fun y hy => by
        simp [h [] x l rfl hx y hy]
      simp [hx, hnone]
    · simpa [List.countP_cons, hx] using hl

end IdentityService.Lib.Machine
