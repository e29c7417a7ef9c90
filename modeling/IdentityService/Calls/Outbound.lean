import IdentityService.Defs.Outbound

/-! How often a request is sent, and what becomes of the responses. -/

namespace IdentityService.Outbound

open Lib ServiceConfig

abbrev Act : Type := Program.Act Call Call.Res

def sentBy : Act → Option (Nat × Except String (Option Int))
  | ⟨.send attempt _, reply⟩ => some (attempt, reply)
  | _ => none

def sent (acts : List Act) : List (Nat × Except String (Option Int)) := acts.filterMap sentBy

def attemptOf : Act → Option Nat
  | ⟨.send attempt _, _⟩ => some attempt
  | ⟨.discard attempt _, _⟩ => some attempt
  | ⟨.close attempt, _⟩ => some attempt
  | ⟨.wait _, _⟩ => none

def closes (attempt : Nat) : Act → Bool
  | ⟨.close i, _⟩ => i = attempt
  | _ => false

theorem attemptOf_of_closes {attempt : Nat} : ∀ {act : Act}, closes attempt act = true →
    attemptOf act = some attempt
  | ⟨.close _, _⟩, h => congrArg some (of_decide_eq_true h)

def Uncancelled (acts : List Act) : Prop :=
  ∀ delay reply, (⟨.wait delay, reply⟩ : Act) ∈ acts → reply = none

def reported (attempt : Nat) : Except String (Option Int) → Except String (Option Response)
  | .ok none => .ok none
  | .ok (some status) => .ok (some ⟨attempt, status⟩)
  | .error err => .error ("call outbound HTTP service: " ++ err)

inductive Retried (request : Request) (k : Nat) : List Act → Prop
  | refused (status : Int) (h : retryableHTTPStatus status = true) :
      Retried request k [⟨.send k request, .ok (some status)⟩, ⟨.discard k (32 * 2 ^ 10), ()⟩,
        ⟨.close k, ()⟩]
  | broken (err : String) : Retried request k [⟨.send k request, .error err⟩]

inductive Tried (request : Request) : Nat → Nat → List Act → Except String (Option Response) → Prop
  | absent {n k : Nat} : Tried request (n + 1) k [⟨.send k request, .ok none⟩] (.ok none)
  | answered {n k : Nat} {status : Int} (h : retryableHTTPStatus status = false ∨ n = 0) :
      Tried request (n + 1) k [⟨.send k request, .ok (some status)⟩] (.ok (some ⟨k, status⟩))
  | failed {k : Nat} {err : String} : Tried request 1 k [⟨.send k request, .error err⟩]
      (.error ("call outbound HTTP service: " ++ err))
  | cancelled {n k : Nat} {before : List Act} (h : Retried request k before) (delay : Time)
      (err : String) :
      Tried request (n + 2) k (before ++ [⟨.wait delay, some err⟩]) (.error err)
  | again {n k : Nat} {before later : List Act} {r : Except String (Option Response)}
      (h : Retried request k before) (delay : Time)
      (hlater : Tried request (n + 1) (k + 1) later r) :
      Tried request (n + 2) k (before ++ ⟨.wait delay, none⟩ :: later) r

section Loop

variable (c : Client) (answer : List Act → (e : Call) → e.Res)

theorem Retried.tried {request : Request} {n k : Nat} {before : List Act}
    (h : Retried request k before) {p : Prog String (Option Response)}
    (hlater : ∀ past, Tried request (n + 1) (k + 1) (p.run answer past).1 (p.run answer past).2)
    (past : List Act) :
    Tried request (n + 2) k (before ++ ((c.waitBackoff k >>= fun _ => p).run answer past).1)
      ((c.waitBackoff k >>= fun _ => p).run answer past).2 := by
  have hrun := Program.run_perform answer past (Call.wait (backoff c.retry k)) fun
    | some err => .fail err
    | none => p
  have hprogram : (c.waitBackoff k >>= fun _ => p) =
      Program.perform (.wait (backoff c.retry k)) >>= fun
      | some err => .fail err
      | none => p := by
    rw [Client.waitBackoff, bind_assoc]
    refine congrArg (Program.bind _) (funext fun reply => ?_)
    cases reply <;> rfl
  rw [hprogram, hrun]
  cases answer past (Call.wait (backoff c.retry k)) with
  | none => exact .again h _ (hlater _)
  | some err => exact .cancelled h _ err

def handle (c : Client) (request : Request) (left k : Nat) :
    Except String (Option Int) → Prog String (Option Response)
  | .ok none => .ret none
  | .ok (some status) =>
    if !retryableHTTPStatus status ∨ left = 0 then .ret (some ⟨k, status⟩)
    else discard k (32 * 2 ^ 10) >>= fun _ => close k >>= fun _ =>
      c.waitBackoff k >>= fun _ => c.attempts request left (k + 1)
  | .error err =>
    if left = 0 then .fail ("call outbound HTTP service: " ++ err)
    else c.waitBackoff k >>= fun _ => c.attempts request left (k + 1)

theorem attempts_of_newRequest {request : Request} {err : String}
    (hnew : c.newRequest request.method request.target = some err) (left k : Nat) :
    c.attempts request (left + 1) k = .fail ("create outbound HTTP request: " ++ err) := by
  rw [Client.attempts, hnew]

variable {request : Request} (hnew : c.newRequest request.method request.target = none)

include hnew

theorem run_attempts (left k : Nat) (past : List Act) :
    ∃ reply past', (c.attempts request (left + 1) k).run answer past =
      (⟨.send k request, reply⟩ :: ((handle c request left k reply).run answer past').1,
        ((handle c request left k reply).run answer past').2) := by
  have hprogram : c.attempts request (left + 1) k =
      Program.perform (.send k request) >>= handle c request left k := by
    rw [Client.attempts, hnew]
    refine congrArg (Program.bind _) (funext fun reply => ?_)
    rcases reply with err | _ | status <;> rfl
  rw [hprogram]
  exact ⟨_, _, Program.run_perform answer past (Call.send k request) (handle c request left k)⟩

theorem tried_attempts (n k : Nat) (past : List Act) :
    Tried request (n + 1) k ((c.attempts request (n + 1) k).run answer past).1
      ((c.attempts request (n + 1) k).run answer past).2 := by
  induction n generalizing k past with
  | zero =>
    obtain ⟨reply, past', hrun⟩ := run_attempts c answer hnew 0 k past
    rw [hrun]
    rcases reply with err | _ | status
    · exact .failed
    · exact .absent
    · rw [handle, if_pos (.inr rfl)]
      exact .answered (.inr rfl)
  | succ n ih =>
    obtain ⟨reply, past', hrun⟩ := run_attempts c answer hnew (n + 1) k past
    rw [hrun]
    rcases reply with err | _ | status
    · rw [handle, if_neg (Nat.succ_ne_zero n)]
      exact (Retried.broken err).tried c answer (ih (k + 1)) past'
    · exact .absent
    · by_cases hstatus : retryableHTTPStatus status = true
      · rw [handle, if_neg (by simp [hstatus])]
        exact (Retried.refused status hstatus).tried c answer (ih (k + 1)) _
      · rw [handle, if_pos (.inl (by simp [hstatus]))]
        exact .answered (.inl (by simpa using hstatus))

end Loop

theorem sent_append (a b : List Act) : sent (a ++ b) = sent a ++ sent b := List.filterMap_append

section Retried

variable {request : Request} {k : Nat} {before : List Act} (h : Retried request k before)

include h

theorem Retried.sent : ∃ reply, Outbound.sent before = [(k, reply)] := by
  cases h with
  | refused status => exact ⟨_, rfl⟩
  | broken err => exact ⟨_, rfl⟩

theorem Retried.attempt : ∀ act ∈ before, attemptOf act = some k := by
  cases h <;> simp [attemptOf]

theorem Retried.response {j : Nat} {q : Request} {status : Int}
    (hact : (⟨.send j q, .ok (some status)⟩ : Act) ∈ before) :
    retryableHTTPStatus status = true ∧ before.countP (closes j) = 1 := by
  cases h with
  | refused status' hstatus =>
    obtain heq | hact := List.mem_cons.1 hact
    · cases heq
      exact ⟨hstatus, by simp [closes]⟩
    · obtain heq | hact := List.mem_cons.1 hact
      · cases heq
      · cases List.mem_singleton.1 hact
  | broken err =>
    cases List.mem_singleton.1 hact

theorem Retried.closes_of_ne {j : Nat} (hne : j ≠ k) : before.countP (closes j) = 0 := by
  cases h <;> simp [closes, hne.symm]

end Retried

section Tried

variable {request : Request} {n k : Nat} {acts : List Act} {r : Except String (Option Response)}
  (h : Tried request n k acts r)

include h

theorem Tried.length_sent : (sent acts).length ≤ n := by
  induction h with
  | absent => simp [sent, sentBy]
  | answered h => simp [sent, sentBy]
  | failed => simp [sent, sentBy]
  | cancelled h delay err =>
    obtain ⟨reply, hsent⟩ := h.sent
    rw [sent_append, hsent]
    exact Nat.succ_le_succ (Nat.zero_le _)
  | again h delay hlater ih =>
    obtain ⟨reply, hsent⟩ := h.sent
    rw [sent_append, hsent]
    exact Nat.succ_le_succ ih

theorem Tried.ne_nil : acts ≠ [] := by
  cases h <;> simp

theorem Tried.le_attempt : ∀ act ∈ acts, ∀ j ∈ attemptOf act, k ≤ j := by
  induction h with
  | absent => simp [attemptOf]
  | answered h => simp [attemptOf]
  | failed => simp [attemptOf]
  | cancelled h delay err =>
    intro act hact j hj
    obtain hact | hact := List.mem_append.1 hact
    · rw [h.attempt act hact, Option.mem_some] at hj
      exact hj.le
    · rw [List.mem_singleton.1 hact] at hj
      cases hj
  | again h delay hlater ih =>
    intro act hact j hj
    simp only [List.mem_append, List.mem_cons] at hact
    obtain hact | rfl | hact := hact
    · rw [h.attempt act hact, Option.mem_some] at hj
      exact hj.le
    · cases hj
    · exact Nat.le_of_succ_le (ih act hact j hj)

theorem Tried.closes_of_lt {j : Nat} (hlt : j < k) : acts.countP (closes j) = 0 := by
  refine List.countP_eq_zero.2 fun act hact hcloses => ?_
  have hle := h.le_attempt act hact j (attemptOf_of_closes hcloses)
  omega

theorem Tried.le_response : ∀ response, r = .ok (some response) → k ≤ response.attempt := by
  induction h with
  | absent => simp
  | answered h => simp
  | failed => simp
  | cancelled h delay err => simp
  | again h delay hlater ih => exact fun response hr => Nat.le_of_succ_le (ih response hr)

theorem Tried.retryable {j : Nat} {q : Request} {status : Int}
    (hact : (⟨.send j q, .ok (some status)⟩ : Act) ∈ acts.dropLast) :
    retryableHTTPStatus status = true := by
  induction h with
  | absent => simp at hact
  | answered h => simp at hact
  | failed => simp at hact
  | cancelled h delay err =>
    rw [List.dropLast_concat] at hact
    exact (h.response hact).1
  | again h delay hlater ih =>
    rw [List.dropLast_append_of_ne_nil (List.cons_ne_nil _ _),
      List.dropLast_cons_of_ne_nil hlater.ne_nil] at hact
    simp only [List.mem_append, List.mem_cons] at hact
    obtain hact | heq | hact := hact
    · exact (h.response hact).1
    · cases heq
    · exact ih hact

theorem Tried.last {j : Nat} {q : Request} {status : Int}
    (hlast : acts.getLast? = some ⟨.send j q, .ok (some status)⟩) :
    r = .ok (some ⟨j, status⟩) := by
  induction h with
  | absent => cases hlast
  | answered h => cases hlast; rfl
  | failed => cases hlast
  | cancelled h delay err =>
    rw [List.getLast?_concat] at hlast
    cases hlast
  | again h delay hlater ih =>
    rw [List.getLast?_append_of_ne_nil _ (List.cons_ne_nil _ _),
      List.getLast?_cons_of_ne_nil hlater.ne_nil] at hlast
    exact ih hlast

theorem Tried.stop {earlier later : List Act} {j : Nat} {q : Request} {status : Int}
    (hacts : acts = earlier ++ ⟨.send j q, .ok (some status)⟩ :: later)
    (hstatus : retryableHTTPStatus status = false) :
    later = [] ∧ r = .ok (some ⟨j, status⟩) := by
  obtain rfl | hne := eq_or_ne later []
  · exact ⟨rfl, h.last (by rw [hacts, List.getLast?_concat])⟩
  · have hmem : (⟨.send j q, .ok (some status)⟩ : Act) ∈ acts.dropLast := by
      rw [hacts, List.dropLast_append_of_ne_nil (List.cons_ne_nil _ _),
        List.dropLast_cons_of_ne_nil hne]
      exact List.mem_append_right _ List.mem_cons_self
    rw [h.retryable hmem] at hstatus
    cases hstatus

theorem Tried.reported (hwait : Uncancelled acts) :
    ∃ j reply, (sent acts).getLast? = some (j, reply) ∧ r = Outbound.reported j reply := by
  induction h with
  | absent => exact ⟨_, _, rfl, rfl⟩
  | answered h => exact ⟨_, _, rfl, rfl⟩
  | failed => exact ⟨_, _, rfl, rfl⟩
  | cancelled h delay err =>
    cases hwait delay (some err) (List.mem_append_right _ (List.mem_singleton_self _))
  | @again n k before later r h delay hlater ih =>
    obtain ⟨j, reply, hlast, hr⟩ := ih fun delay reply hact =>
      hwait delay reply (List.mem_append_right _ (List.mem_cons_of_mem _ hact))
    refine ⟨j, reply, ?_, hr⟩
    have hsent : sent (before ++ ⟨.wait delay, none⟩ :: later) = sent before ++ sent later :=
      sent_append _ _
    rw [hsent, List.getLast?_append, hlast]
    rfl

theorem Tried.closes {j : Nat} {q : Request} {status : Int}
    (hact : (⟨.send j q, .ok (some status)⟩ : Act) ∈ acts) :
    acts.countP (closes j) = if r = .ok (some ⟨j, status⟩) then 0 else 1 := by
  induction h with
  | absent => cases List.mem_singleton.1 hact
  | answered h =>
    cases List.mem_singleton.1 hact
    simp [Outbound.closes]
  | failed => cases List.mem_singleton.1 hact
  | cancelled h delay err =>
    obtain hact | hact := List.mem_append.1 hact
    · rw [List.countP_append, (h.response hact).2, if_neg nofun]
      rfl
    · cases List.mem_singleton.1 hact
  | @again n k before later r h delay hlater ih =>
    have hcount : (before ++ ⟨.wait delay, none⟩ :: later).countP (Outbound.closes j) =
        before.countP (Outbound.closes j) + later.countP (Outbound.closes j) :=
      List.countP_append
    simp only [List.mem_append, List.mem_cons] at hact
    obtain hact | heq | hact := hact
    · -- The later attempts have greater numbers.
      have hj : k = j := Option.some.inj (h.attempt _ hact).symm
      have hr : r ≠ .ok (some ⟨j, status⟩) := by
        intro hr
        have hle : k + 1 ≤ j := hlater.le_response _ hr
        omega
      rw [hcount, (h.response hact).2, hlater.closes_of_lt (by omega), if_neg hr]
    · cases heq
    · have hj : k + 1 ≤ j := hlater.le_attempt _ hact j rfl
      rw [hcount, h.closes_of_ne (by omega), ih hact, Nat.zero_add]

theorem Tried.received {response : Response} (hr : r = .ok (some response)) :
    (⟨.send response.attempt request, .ok (some response.status)⟩ : Act) ∈ acts := by
  induction h with
  | absent => cases hr
  | answered h =>
    cases hr
    exact List.mem_singleton_self _
  | failed => cases hr
  | cancelled h delay err => cases hr
  | again h delay hlater ih =>
    exact List.mem_append_right _ (List.mem_cons_of_mem _ (ih hr))

theorem Tried.attempts_sent : (sent acts).map Prod.fst = List.range' k (sent acts).length := by
  induction h with
  | absent => rfl
  | answered h => rfl
  | failed => rfl
  | cancelled h delay err =>
    obtain ⟨reply, hsent⟩ := h.sent
    rw [sent_append, hsent]
    rfl
  | @again n k before later r h delay hlater ih =>
    obtain ⟨reply, hsent⟩ := h.sent
    have hcons : sent (before ++ ⟨.wait delay, none⟩ :: later) = (k, reply) :: sent later := by
      rw [sent_append, hsent]
      rfl
    rw [hcons, List.map_cons, ih, List.length_cons, List.range'_succ]

end Tried

section Client

variable (c : Client) (ctx : Context) (method requestPath : String) (body : Bytes)
  (headers : Option Header)

def Client.limit : Int := if retryableMethod ctx method then c.retry.maxAttempts else 1

theorem Client.limit_le (hpos : 1 ≤ c.retry.maxAttempts) :
    c.limit ctx method ≤ c.retry.maxAttempts := by
  rw [Client.limit]
  split <;> omega

variable {ctx method} in
theorem Client.limit_eq_one (hmethod : method ∉ ["GET", "HEAD", "OPTIONS", "PUT", "DELETE"])
    (hkey : ctx.idempotencyKey = none) : c.limit ctx method = 1 := by
  have hretryable : retryableMethod ctx method = false := by
    simpa [retryableMethod, hkey, and_assoc] using hmethod
  rw [Client.limit, hretryable]
  rfl

theorem tried_doWithRetry (answer : List Act → (e : Call) → e.Res)
    (hpos : 1 ≤ c.retry.maxAttempts) :
    (∃ err, c.doWithRetry ctx method requestPath body headers = .fail err) ∨
      ∃ request, Tried request (c.limit ctx method).toNat 1
        ((c.doWithRetry ctx method requestPath body headers).run answer []).1
        ((c.doWithRetry ctx method requestPath body headers).run answer []).2 := by
  have hlimit : 1 ≤ c.limit ctx method := by
    rw [Client.limit]
    split <;> omega
  obtain ⟨n, hn⟩ : ∃ n, (c.limit ctx method).toNat = n + 1 :=
    Nat.exists_eq_succ_of_ne_zero (by omega)
  unfold Client.doWithRetry
  cases c.parse requestPath with
  | none => exact .inl ⟨_, rfl⟩
  | some reference =>
    by_cases hrel : reference.isAbs ∨ reference.host ≠ ""
    · exact .inl ⟨_, if_pos hrel⟩
    · simp only [if_neg hrel]
      rw [← Client.limit, hn]
      cases hnew : c.newRequest method reference.resolved with
      | none =>
        exact .inr ⟨_, @tried_attempts c answer (c.request method reference.resolved body headers)
          hnew n 1 []⟩
      | some err => exact .inl ⟨_, @attempts_of_newRequest c
          (c.request method reference.resolved body headers) err hnew n 1⟩

section Breaker

variable (breaker : Option (Prog CallError (Option Response) → Prog CallError (Option Response)))

theorem attempts_breaker (request : Request) (n k : Nat) :
    Client.attempts { c with breaker := breaker } request n k = c.attempts request n k := by
  induction n generalizing k with
  | zero => rfl
  | succ n ih =>
    simp only [Client.attempts, ih]
    rfl

theorem doWithRetry_breaker :
    Client.doWithRetry { c with breaker := breaker } ctx method requestPath body headers =
      c.doWithRetry ctx method requestPath body headers := by
  simp only [Client.doWithRetry, attempts_breaker]
  rfl

end Breaker

theorem execute_breaker
    {breaker : Prog CallError (Option Response) → Prog CallError (Option Response)}
    (hclosed : ∀ call, breaker call = call) :
    Client.execute { c with breaker := some breaker } ctx method requestPath body headers =
      Client.execute { c with breaker := none } ctx method requestPath body headers := by
  unfold Client.execute
  dsimp only
  rw [hclosed, Program.settle_settle]
  refine (Program.settle_eq_self _ ?_ ?_).trans ?_
  · rintro (_ | response)
    · rfl
    · dsimp only
      split <;> rfl
  · intro err
    rfl
  · exact (doWithRetry_breaker c ctx method requestPath body headers (some breaker)).trans
      (doWithRetry_breaker c ctx method requestPath body headers none).symm

/-- The client sends at most as many requests as its policy allows and only one where it may not
repeat it, ends with the first response not to be tried again, reports the last request, closes
every other response once, and does not show a closed breaker. -/
theorem outbound_calls_bounded {std : StandardLibrary} {name : String} {u : Upstream}
    (hpolicy : validateClientPolicy std name u = .ok ()) (hretry : c.retry = u.retry)
    (answer : List Act → (e : Call) → e.Res) :
    let run := (c.doWithRetry ctx method requestPath body headers).run answer []
    (sent run.1).map Prod.fst = List.range' 1 (sent run.1).length ∧
      (sent run.1).length ≤ u.retry.maxAttempts ∧
      (method ∉ ["GET", "HEAD", "OPTIONS", "PUT", "DELETE"] → ctx.idempotencyKey = none →
        (sent run.1).length ≤ 1) ∧
      (∀ earlier later attempt request status,
        run.1 = earlier ++ ⟨.send attempt request, .ok (some status)⟩ :: later →
        status ∉ [429, 502, 503, 504] → later = [] ∧ run.2 = .ok (some ⟨attempt, status⟩)) ∧
      (Uncancelled run.1 →
        match (sent run.1).getLast? with
        | some (attempt, reply) => run.2 = reported attempt reply
        | none => run.1 = [] ∧ ∃ err, run.2 = .error err) ∧
      (∀ attempt request status,
        (⟨.send attempt request, .ok (some status)⟩ : Act) ∈ run.1 →
        run.1.countP (closes attempt) = if run.2 = .ok (some ⟨attempt, status⟩) then 0 else 1) ∧
      (∀ response, run.2 = .ok (some response) →
        ∃ request, (⟨.send response.attempt request, .ok (some response.status)⟩ : Act) ∈ run.1) ∧
      ∀ breaker : Prog CallError (Option Response) → Prog CallError (Option Response),
        (∀ call, breaker call = call) →
        Client.execute { c with breaker := some breaker } ctx method requestPath body headers =
          Client.execute { c with breaker := none } ctx method requestPath body headers := by
  obtain ⟨hpos, -⟩ := maxAttempts_of_validateClientPolicy hpolicy
  rw [← hretry] at hpos ⊢
  have hbreaker := fun breaker => @execute_breaker c ctx method requestPath body headers breaker
  obtain ⟨err, hfail⟩ | ⟨request, h⟩ :=
    tried_doWithRetry c ctx method requestPath body headers answer hpos
  · -- Nothing is sent.
    rw [hfail]
    exact ⟨rfl, Int.le_trans (Int.natCast_nonneg 0) (by omega), fun _ _ => Nat.zero_le _, by simp,
      fun _ => ⟨rfl, err, rfl⟩, by simp, by simp, hbreaker⟩
  · refine ⟨h.attempts_sent, ?_, ?_, ?_, ?_, fun _ _ _ => h.closes,
      fun _ hr => ⟨request, h.received hr⟩, hbreaker⟩
    · have hle := h.length_sent
      have hlimit := c.limit_le ctx method hpos
      omega
    · intro hmethod hkey
      have hle := h.length_sent
      rwa [c.limit_eq_one hmethod hkey] at hle
    · intro earlier later attempt q status hacts hstatus
      exact h.stop hacts (by simpa [retryableHTTPStatus, and_assoc] using hstatus)
    · intro hwait
      obtain ⟨attempt, reply, hlast, hr⟩ := h.reported hwait
      rw [hlast]
      exact hr

end Client

namespace sample

def upstream : Upstream :=
  ⟨"http://orders", Go.second, ⟨"", ""⟩, ⟨3, 1, 2, []⟩, ⟨false, 0, 0⟩, ⟨false, "", ""⟩⟩

def client : Client :=
  ⟨upstream.retry, upstream.auth, fun path => some ⟨false, "", "http://orders" ++ path⟩,
    fun _ _ => none, none⟩

def flaky (_ : List Act) : (e : Call) → e.Res
  | .send attempt _ =>
    if attempt = 1 then .error "EOF" else if attempt = 2 then .ok (some 503) else .ok (some 200)
  | .discard _ _ => ()
  | .close _ => ()
  | .wait _ => none

end sample

theorem outbound_calls_of_key :
    let run := (sample.client.doWithRetry ⟨some "request-0001"⟩ "POST" "/test" [] none).run
      sample.flaky []
    sent run.1 = [(1, .error "EOF"), (2, .ok (some 503)), (3, .ok (some 200))] ∧
      run.1.countP (closes 2) = 1 ∧ run.2 = .ok (some ⟨3, 200⟩) ∧
      (sent run.1).length ≤ sample.upstream.retry.maxAttempts :=
  ⟨rfl, rfl, rfl, (@outbound_calls_bounded sample.client ⟨some "request-0001"⟩ "POST" "/test"
    [] none ⟨fun _ => false, id, fun _ _ => none⟩ "orders" sample.upstream (by decide) rfl
    sample.flaky).2.1⟩

end IdentityService.Outbound
