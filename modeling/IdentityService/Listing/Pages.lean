import IdentityService.Defs.Alone
import IdentityService.Lib.Paging

/-! Listing users, service accounts and sessions page by page. -/

namespace IdentityService

open Lib Service
open Lib.Program (resolves_perform)

theorem mapM_eq_some_iff {ρ ι : Type} {f : ρ → Option ι} {rows : List ρ} {items : List ι} :
    rows.mapM f = some items ↔ rows.map f = items.map some := by
  induction rows generalizing items with
  | nil => cases items <;> simp
  | cons r rows ih =>
    rw [List.mapM_cons]
    cases hr : f r with
    | none => cases items <;> simp [hr]
    | some i =>
      cases hrows : rows.mapM f with
      | none => cases items <;> simp [hr, ← ih, hrows]
      | some is => cases items <;> simp [hr, ← ih, hrows]

theorem mapM_some {ρ : Type} (rows : List ρ) : rows.mapM some = some rows :=
  mapM_eq_some_iff.2 rfl

theorem exists_mapM_eq_some {ρ ι : Type} {f : ρ → Option ι} {rows : List ρ} :
    (∃ items, rows.mapM f = some items) ↔ ∀ r ∈ rows, (f r).isSome := by
  induction rows with
  | nil => simp
  | cons r rows ih =>
    rw [List.forall_mem_cons, ← ih, List.mapM_cons]
    cases f r <;> cases rows.mapM f <;> simp

def effectiveSize (pageSize : Int) : Nat :=
  if pageSize < 1 ∨ pageSize > 100 then 20 else pageSize.toNat

theorem effectiveSize_pos (pageSize : Int) : 0 < effectiveSize pageSize := by
  unfold effectiveSize
  split <;> omega

def pageAnswer {ρ ι : Type} (reply : Page ι → Reply) (read : ρ → Option ι) (rows : List ρ)
    (page : Int) (size : Nat) : Except AppError Reply :=
  let page := if page < 1 then 1 else page
  let offset := Go.int64 ((page - 1) * size)
  if offset < 0 then .error .internal
  else
    match ((rows.drop offset.toNat).take size).mapM read with
    | none => .error .internal
    | some items => .ok (reply ⟨items, rows.length, page, size⟩)

structure Latest {ρ β : Type} (base : ρ → β) (key : β → Time) (id : β → String)
    (matching : List β) (rows : List ρ) : Prop where
  perm : (rows.map base).Perm matching
  sorted : (rows.map base).Pairwise (fun a b => key b < key a ∨ key a = key b ∧ id a < id b)

def ranked {ρ : Type} (key : ρ → Time) (id : ρ → String) (rows : List ρ) : List ρ :=
  rows.insertionSort (fun a b => byKeyThenID (fun r => -key r) id a b)

section Ranked

variable {ρ : Type} {key : ρ → Time} {id : ρ → String} {rows : List ρ}

theorem byKeyThenID_iff {a b : ρ} : byKeyThenID key id a b = true ↔
    key a < key b ∨ key a = key b ∧ id a ≤ id b := by
  simp [byKeyThenID]

instance : Std.Total (fun a b : ρ => byKeyThenID key id a b = true) where
  total a b := by
    simp only [byKeyThenID_iff]
    have := String.le_total (id a) (id b)
    grind

instance : IsTrans ρ (fun a b : ρ => byKeyThenID key id a b = true) where
  trans a b c hab hbc := by
    simp only [byKeyThenID_iff] at hab hbc ⊢
    have := fun h h' => String.le_trans (a := id a) (b := id b) (c := id c) h h'
    grind

theorem latest_ranked (hid : rows.Pairwise (fun a b => id a ≠ id b)) :
    Latest (fun r => r) key id rows (ranked key id rows) := by
  have hperm : (ranked key id rows).Perm rows := List.perm_insertionSort _ rows
  have hid' : (ranked key id rows).Pairwise (fun a b => id a ≠ id b) :=
    (hperm.pairwise_iff fun h => h.symm).2 hid
  have hsorted : (ranked key id rows).Pairwise
      (fun a b => byKeyThenID (fun r => -key r) id a b = true) := List.pairwise_insertionSort _ rows
  refine ⟨by simpa using hperm, ?_⟩
  rw [List.map_id']
  refine (hsorted.and hid').imp fun {a b} ⟨hab, hne⟩ => ?_
  rw [byKeyThenID_iff] at hab
  obtain hlt | ⟨heq, hle⟩ := hab
  · exact .inl (Int.neg_lt_neg_iff.1 hlt)
  · exact .inr ⟨Int.neg_inj.1 heq, String.not_le.1 fun hge => hne (String.le_antisymm hle hge)⟩

theorem latest_eq {limit offset : Nat} :
    latest key id limit offset rows = ((ranked key id rows).drop offset).take limit := rfl

end Ranked

/-- The pages of a list call, whose page sizes are `size`, against the rows it should list: the
total, the pages together, the pages that have rows and those after them. -/
structure Paginates {ρ ι : Type} (svc : Service) (t : Time) (w : World) (op : Int → Op)
    (reply : Page ι → Reply) (read : ρ → Option ι) (rows : List ρ) (size : Nat) : Prop where
  total : ∀ page r, svc.machine.Answers (Effect.Calm t) (op page) w (.ok (reply r)) →
    r.total = rows.length
  all : (List.range (pageCount rows.length size)).flatMap (fun i => pageOf rows size (i + 1)) = rows
  inside : ∀ page : Int, 1 ≤ page → page ≤ pageCount rows.length size → page < 2 ^ 63 →
    ((∃ items, (pageOf rows size page.toNat).mapM read = some items ∧
      svc.machine.Answers (Effect.Calm t) (op page) w
        (.ok (reply ⟨items, rows.length, page, size⟩))) ↔
      (page - 1) * size < 2 ^ 63 ∧ ∀ r ∈ pageOf rows size page.toNat, (read r).isSome)
  beyond : ∀ page : Int, pageCount rows.length size < page → page < 2 ^ 63 →
    (svc.machine.Answers (Effect.Calm t) (op page) w
      (.ok (reply ⟨[], rows.length, page, size⟩)) ↔
      rows.length ≤ Go.int64 ((page - 1) * size))

theorem int64_eq_self {n : Int} (h0 : 0 ≤ n) (h : n < 2 ^ 63) : Go.int64 n = n := by
  unfold Go.int64
  omega

theorem int64_lt (n : Int) : Go.int64 n < 2 ^ 63 := by
  unfold Go.int64
  omega

section PageAnswer

variable {ρ ι : Type} {reply : Page ι → Reply} {read : ρ → Option ι} {rows : List ρ}
  {page : Int} {size : Nat}

theorem pageAnswer_eq_ok {r : Reply} : pageAnswer reply read rows page size = .ok r ↔
    0 ≤ Go.int64 (((if page < 1 then 1 else page) - 1) * size) ∧ ∃ items,
      ((rows.drop (Go.int64 (((if page < 1 then 1 else page) - 1) * size)).toNat).take size).mapM
        read = some items ∧
      r = reply ⟨items, rows.length, if page < 1 then 1 else page, size⟩ := by
  simp only [pageAnswer]
  generalize (if page < 1 then 1 else page) = page
  by_cases h : Go.int64 ((page - 1) * size) < 0
  · simp [h]
  · rw [if_neg h]
    cases hitems : List.mapM read _ with
    | none => simp
    | some items => simp [Int.not_lt.1 h, eq_comm]

theorem drop_ne_of_lt (hread : ∀ a b i, read a = some i → read b = some i → a = b)
    (hnodup : rows.Nodup) (hsize : 0 < size) {m n : Nat} (hmn : m < n) (hn : n < rows.length)
    {items : List ι} (hm : ((rows.drop m).take size).mapM read = some items)
    (hitems : ((rows.drop n).take size).mapM read = some items) : False := by
  obtain ⟨size, rfl⟩ := Nat.exists_eq_add_one_of_ne_zero hsize.ne'
  rw [List.drop_eq_getElem_cons (hmn.trans hn), List.take_succ_cons, mapM_eq_some_iff,
    List.map_cons] at hm
  rw [List.drop_eq_getElem_cons hn, List.take_succ_cons, mapM_eq_some_iff, List.map_cons] at hitems
  cases items with
  | nil => cases hm
  | cons i items =>
    have heq := hread _ _ i (List.cons.inj hm).1 (List.cons.inj hitems).1
    exact hmn.ne ((hnodup.getElem_inj_iff).1 heq)

theorem paginates_of_answers {svc : Service} {t : Time} {w : World} {op : Int → Op}
    (hreply : Function.Injective reply)
    (hread : ∀ a b i, read a = some i → read b = some i → a = b) (hnodup : rows.Nodup)
    (hsize : 0 < size)
    (h : ∀ page, svc.machine.Answers (Effect.Calm t) (op page) w
      (pageAnswer reply read rows page size)) :
    Paginates svc t w op reply read rows size := by
  have hiff : ∀ page o, svc.machine.Answers (Effect.Calm t) (op page) w o ↔
      pageAnswer reply read rows page size = o :=
    fun page o => ⟨fun ho => (h page).unique ho, fun ho => ho ▸ h page⟩
  have hnat : ∀ page : Int, 1 ≤ page →
      (page - 1) * (size : Int) = ((page.toNat - 1) * size : Nat) := by
    intro page hpage
    rw [Int.natCast_mul, show page - 1 = (page.toNat - 1 : Nat) by omega]
  refine ⟨?_, flatMap_pages hsize rows, ?_, ?_⟩
  · intro page r hr
    obtain ⟨-, items, -, heq⟩ := pageAnswer_eq_ok.1 ((hiff page _).1 hr)
    rw [hreply heq]
  · intro page h1 hcount h63
    have hpage : (if page < 1 then 1 else page) = page := if_neg (by omega)
    have hlt : (page.toNat - 1) * size < rows.length :=
      offset_lt_of_le_pageCount hsize (by omega) (by omega)
    simp only [hiff, pageAnswer_eq_ok, hpage, hnat page h1, ← exists_mapM_eq_some]
    constructor
    · rintro ⟨items, hitems, h0, items', hitems', heq⟩
      refine ⟨?_, items, hitems⟩
      cases hreply heq
      -- A wrapped offset is smaller, so that the page begins with another row.
      by_contra hwrap
      have hoff := int64_lt ((page.toNat - 1) * size : Nat)
      exact drop_ne_of_lt hread hnodup hsize (by omega) hlt hitems' hitems
    · rintro ⟨hoff, items, hitems⟩
      rw [int64_eq_self (by omega) hoff]
      exact ⟨items, hitems, by omega, items, hitems, rfl⟩
  · intro page hcount h63
    have hpage : (if page < 1 then 1 else page) = page := if_neg (by omega)
    rw [hiff, pageAnswer_eq_ok, hpage]
    constructor
    · rintro ⟨h0, items, hitems, heq⟩
      cases hreply heq
      rw [mapM_eq_some_iff, List.map_nil, List.map_eq_nil_iff, List.take_eq_nil_iff,
        List.drop_eq_nil_iff] at hitems
      omega
    · intro hle
      refine ⟨by omega, [], ?_, rfl⟩
      rw [List.drop_eq_nil_of_le (by omega), List.take_nil]
      rfl

end PageAnswer

section Answers

variable (svc : Service) (t : Time) (w : World)

theorem effectiveSize_eq (pageSize : Int) :
    (if pageSize < 1 ∨ pageSize > 100 then 20 else pageSize) = (effectiveSize pageSize : Int) := by
  unfold effectiveSize
  split <;> omega

theorem resolves_page {ρ ι : Type} {reply : Page ι → Reply} {read : ρ → Option ι} {rows : List ρ}
    {page : Int} {size : Nat} {q : Query} {f : q.Row → Prog Reply} {row : q.Row}
    (hselect : w.store.select svc.lower q = [row])
    (hread : f row = match ((rows.drop
        (Go.int64 (((if page < 1 then 1 else page) - 1) * size)).toNat).take size).mapM read with
      | none => .fail .internal
      | some items => .ret (reply ⟨items, rows.length, if page < 1 then 1 else page, size⟩)) :
    (Program.reject (Go.int64 (((if page < 1 then 1 else page) - 1) * size) < 0)
      AppError.internal >>=
      fun _ => query q >>= fun r => Program.expect translateIdentityError r >>= f).Resolves
      (svc.machine.Steps (Effect.Calm t))
      (fun o _ => o = pageAnswer reply read rows page size) 1 w := by
  simp only [pageAnswer]
  generalize (if page < 1 then 1 else page) = page at hread ⊢
  by_cases h : Go.int64 ((page - 1) * size) < 0
  · simp only [Program.reject, h, if_true]
    rfl
  · simp only [Program.reject, h, if_false]
    refine resolves_read hselect ?_
    rw [hread]
    cases List.mapM read _ <;> rfl

def listedUsers (filter : ListFilter) : List User :=
  ranked (fun u => u.createdAt) (fun u => u.id)
    (w.store.users.rows.filter (filter.matchesUser svc.lower))

theorem answers_listUsers (keyword status : String) (page pageSize : Int)
    (hstatus : status = "" ∨ Status.ofString status ≠ none) :
    svc.machine.Answers (Effect.Calm t) (.listUsers keyword status page pageSize) w
      (pageAnswer .users some (listedUsers svc w ⟨Go.trimSpace keyword, Go.trimSpace status⟩)
        page (effectiveSize pageSize)) := by
  have hrejected : ¬(status ≠ "" ∧ Status.ofString status = none) := by tauto
  refine Machine.answers_of_program (n := 2) ?_
  simp only [machine, program, listUsers, bind_assoc]
  generalize hsize : (if pageSize < 1 ∨ pageSize > 100 then 20 else pageSize) = size
  obtain rfl : size = effectiveSize pageSize := hsize ▸ effectiveSize_eq pageSize
  rw [Program.reject, if_neg hrejected]
  refine resolves_read rfl (resolves_page svc t w rfl ?_)
  rw [mapM_some]
  simp only [listedUsers, ranked, List.length_insertionSort]
  rfl

def readAccount (a : ServiceAccount) : Option (ServiceAccount × List String) :=
  (svc.unmarshalAudiences a.audiencesJSON).map (fun audiences => (a, audiences))

def listedAccounts (filter : ListFilter) : List ServiceAccount :=
  ranked (fun a => a.createdAt) (fun a => a.id)
    (w.store.serviceAccounts.rows.filter (filter.matchesServiceAccount svc.lower))

theorem answers_listServiceAccounts (keyword status : String) (page pageSize : Int)
    (hstatus : status = "" ∨ status = "active" ∨ status = "disabled") :
    svc.machine.Answers (Effect.Calm t) (.listServiceAccounts keyword status page pageSize) w
      (pageAnswer .accounts (readAccount svc)
        (listedAccounts svc w ⟨Go.trimSpace keyword, Go.trimSpace status⟩) page
        (effectiveSize pageSize)) := by
  have hrejected : ¬(status ≠ "" ∧ status ≠ Status.active.toString ∧
      status ≠ Status.disabled.toString) := by
    simp only [Status.toString]
    tauto
  refine Machine.answers_of_program (n := 2) ?_
  simp only [machine, program, listServiceAccounts, bind_assoc]
  generalize hsize : (if pageSize < 1 ∨ pageSize > 100 then 20 else pageSize) = size
  obtain rfl : size = effectiveSize pageSize := hsize ▸ effectiveSize_eq pageSize
  rw [Program.reject, if_neg hrejected]
  refine resolves_read rfl (resolves_page svc t w rfl ?_)
  simp only [decodeAudiences, latest_eq, listedAccounts, ranked, List.length_insertionSort,
    Int.toNat_natCast]
  change (Program.require _ (List.mapM (readAccount svc) _) >>= _) = _
  cases List.mapM (readAccount svc) _ <;> rfl

def listedSessions (filter : SessionFilter) : List SessionItem :=
  ranked (fun i => i.session.lastUsedAt) (fun i => i.session.id) (w.store.sessionItems filter)

/-- Every session belongs to a user, as the foreign key of the table says. -/
def Store.OwnersExist (s : Store) : Prop :=
  ∀ session ∈ s.sessions.rows, ∃ u ∈ s.users.rows, u.id = session.userID

theorem map_session_sessionItems {s : Store} (howners : s.OwnersExist) (filter : SessionFilter) :
    (s.sessionItems filter).map (fun i => i.session) = s.sessions.rows.filter filter.matches := by
  simp only [Store.sessionItems, List.map_flatMap, List.map_map]
  refine Eq.trans (List.flatMap_congr fun session hsession => ?_) (List.flatMap_singleton' _)
  obtain ⟨u, hu, hid⟩ := howners session (List.mem_filter.1 hsession).1
  have hone : s.users.rows.filter (fun u => u.id = session.userID) = [u] :=
    Table.filter_eq_singleton hu (decide_eq_true hid) fun x hx => by
      simpa [Constrained.clash, hid] using hx
  rw [hone]
  rfl

theorem length_sessionItems (howners : w.store.OwnersExist) (filter : SessionFilter) :
    (w.store.sessionItems filter).length =
      (w.store.sessions.rows.filter filter.matches).length := by
  rw [← map_session_sessionItems howners, List.length_map]

theorem answers_listSessions (howners : w.store.OwnersExist) (userID tenantID status : String)
    (page pageSize : Int)
    (hstatus : status = "" ∨ status = "active" ∨ status = "revoked" ∨ status = "expired") :
    svc.machine.Answers (Effect.Calm t) (.listSessions userID tenantID status page pageSize) w
      (pageAnswer .sessions some
        (listedSessions w ⟨Go.trimSpace userID, Go.trimSpace tenantID, status, t⟩) page
        (effectiveSize pageSize)) := by
  have hrejected : ¬(status ≠ "" ∧ status ≠ "active" ∧ status ≠ "revoked" ∧
      status ≠ "expired") := by
    tauto
  refine Machine.answers_of_program (n := 3) ?_
  simp only [machine, program, listSessions, bind_assoc]
  generalize hsize : (if pageSize < 1 ∨ pageSize > 100 then 20 else pageSize) = size
  obtain rfl : size = effectiveSize pageSize := hsize ▸ effectiveSize_eq pageSize
  rw [Program.reject, if_neg hrejected]
  refine resolves_now (resolves_read rfl (resolves_page svc t _ rfl ?_))
  rw [mapM_some]
  simp only [listedSessions, ranked, List.length_insertionSort, length_sessionItems w howners]
  rfl

end Answers

theorem nodup_ranked {ρ : Type} {key : ρ → Time} {id : ρ → String} {rows : List ρ}
    (hid : rows.Pairwise (fun a b => id a ≠ id b)) : (ranked key id rows).Nodup := by
  have hperm : (ranked key id rows).Perm rows := List.perm_insertionSort _ rows
  rw [hperm.nodup_iff]
  exact hid.imp fun hne heq => hne (congrArg id heq)

/-- The pages of the three lists, for every table, filter and page size.  A page number is
answered with its part of the rows unless its offset is wrapped around. -/
theorem pages_partition_unless_wrapped (svc : Service) (t : Time) (w : World) (pageSize : Int) :
    (∀ keyword status, (status = "" ∨ Status.ofString status ≠ none) → ∃ rows : List User,
      Latest (fun u => u) (fun u => u.createdAt) (fun u => u.id) (w.store.users.rows.filter
        (ListFilter.matchesUser ⟨Go.trimSpace keyword, Go.trimSpace status⟩ svc.lower)) rows ∧
      Paginates svc t w (fun page => .listUsers keyword status page pageSize) .users some rows
        (effectiveSize pageSize)) ∧
    (∀ keyword status, (status = "" ∨ status = "active" ∨ status = "disabled") →
      ∃ rows : List ServiceAccount,
      Latest (fun a => a) (fun a => a.createdAt) (fun a => a.id)
        (w.store.serviceAccounts.rows.filter
          (ListFilter.matchesServiceAccount ⟨Go.trimSpace keyword, Go.trimSpace status⟩
            svc.lower)) rows ∧
      Paginates svc t w (fun page => .listServiceAccounts keyword status page pageSize) .accounts
        (readAccount svc) rows (effectiveSize pageSize)) ∧
    (∀ userID tenantID status,
      (status = "" ∨ status = "active" ∨ status = "revoked" ∨ status = "expired") →
      w.store.OwnersExist → ∃ rows : List SessionItem,
      Latest (fun i => i.session) (fun s => s.lastUsedAt) (fun s => s.id)
        (w.store.sessions.rows.filter
          (SessionFilter.matches ⟨Go.trimSpace userID, Go.trimSpace tenantID, status, t⟩)) rows ∧
      Paginates svc t w (fun page => .listSessions userID tenantID status page pageSize) .sessions
        some rows (effectiveSize pageSize)) := by
  have hsome : ∀ {ρ : Type} (a b i : ρ), some a = some i → some b = some i → a = b :=
    fun a b i ha hb => Option.some.inj (ha.trans hb.symm)
  refine ⟨fun keyword status hstatus => ?_, fun keyword status hstatus => ?_,
    fun userID tenantID status hstatus howners => ?_⟩
  · have hid := (Table.pairwise_key_ne w.store.users (fun u => u.id) fun a b h => by
      simp [Constrained.clash, h]).filter
        (ListFilter.matchesUser ⟨Go.trimSpace keyword, Go.trimSpace status⟩ svc.lower)
    exact ⟨_, latest_ranked hid, paginates_of_answers (fun _ _ h => Reply.users.inj h) hsome
      (nodup_ranked hid) (effectiveSize_pos pageSize)
      fun page => answers_listUsers svc t w keyword status page pageSize hstatus⟩
  · have hid := (Table.pairwise_key_ne w.store.serviceAccounts (fun a => a.id) fun a b h => by
      simp [Constrained.clash, h]).filter
        (ListFilter.matchesServiceAccount ⟨Go.trimSpace keyword, Go.trimSpace status⟩ svc.lower)
    refine ⟨_, latest_ranked hid, paginates_of_answers (fun _ _ h => Reply.accounts.inj h) ?_
      (nodup_ranked hid) (effectiveSize_pos pageSize)
      fun page => answers_listServiceAccounts svc t w keyword status page pageSize hstatus⟩
    intro a b i ha hb
    simp only [readAccount, Option.map_eq_some_iff] at ha hb
    obtain ⟨_, -, rfl⟩ := ha
    obtain ⟨_, -, heq⟩ := hb
    exact (Prod.mk.inj heq).1.symm
  · have hitems := map_session_sessionItems howners
      ⟨Go.trimSpace userID, Go.trimSpace tenantID, status, t⟩
    have hid := (Table.pairwise_key_ne w.store.sessions (fun r => r.id) fun a b h => by
      simp [Constrained.clash, h]).filter
        (SessionFilter.matches ⟨Go.trimSpace userID, Go.trimSpace tenantID, status, t⟩)
    rw [← hitems, List.pairwise_map] at hid
    have hlatest : Latest (fun i => i) (fun i : SessionItem => i.session.lastUsedAt) _ _ _ :=
      latest_ranked hid
    refine ⟨_, ⟨?_, ?_⟩, paginates_of_answers (fun _ _ h => Reply.sessions.inj h) hsome
      (nodup_ranked hid) (effectiveSize_pos pageSize)
      fun page => answers_listSessions svc t w howners userID tenantID status page pageSize hstatus⟩
    · rw [← hitems]
      exact (List.perm_insertionSort _ _).map _
    · have hsorted := hlatest.sorted
      rw [List.map_id'] at hsorted
      exact List.pairwise_map.2 hsorted

namespace sample

def listedUser : User := ⟨⟨1, 10, 10, "admin", "admin"⟩, "u1", "bob", "Bob", "bob@example", "",
  .active, 0, none⟩

def listedSession : Session :=
  ⟨⟨1, 20, 20, "u1", "u1"⟩, "s1", "u1", "r1", "", "", 100, none, "", 20, [], []⟩

def listedAccount : ServiceAccount :=
  ⟨⟨1, 30, 30, "admin", "admin"⟩, "a1", "svc_1", "Batch", "", .active, "[]"⟩

def listed : World where
  store := { Store.empty with
    users := ⟨[listedUser], List.pairwise_singleton _ _⟩
    sessions := ⟨[listedSession], List.pairwise_singleton _ _⟩
    serviceAccounts := ⟨[listedAccount], List.pairwise_singleton _ _⟩ }
  clock := 40

theorem listed_owners : listed.store.OwnersExist := by
  intro session hsession
  obtain rfl := List.mem_singleton.1 hsession
  exact ⟨listedUser, List.mem_singleton_self _, rfl⟩

def pagedUsers : List User :=
  [listedUser, { listedUser with id := "u2", username := "ann", email := "ann@example" },
    { listedUser with id := "u3", username := "eve", email := "eve@example", createdAt := 20 }]

def pagedSessions : List Session :=
  [listedSession, { listedSession with id := "s2", refreshTokenHash := "r2", lastUsedAt := 30 },
    { listedSession with id := "s3", userID := "u2", refreshTokenHash := "r3" }]

def pagedAccounts : List ServiceAccount :=
  [listedAccount, { listedAccount with id := "a2", clientID := "svc_2" },
    { listedAccount with id := "a3", clientID := "svc_3", createdAt := 40 }]

def paged : World where
  store := { Store.empty with
    users := ⟨pagedUsers, by decide⟩
    sessions := ⟨pagedSessions, by decide⟩
    serviceAccounts := ⟨pagedAccounts, by decide⟩ }
  clock := 40

theorem paged_owners : paged.store.OwnersExist := by
  have howners : ∀ r ∈ pagedSessions, ∃ u ∈ pagedUsers, u.id = r.userID := by decide
  exact howners

end sample

theorem pages_partition_listed : pageCount 3 2 = 2 ∧
    (∃ rows : List User, rows.Perm sample.pagedUsers ∧
      Paginates (sample [] none) 50 sample.paged (fun page => .listUsers "" "active" page 2) .users
        some rows 2) ∧
    (∃ rows : List ServiceAccount, rows.Perm sample.pagedAccounts ∧
      Paginates (sample [] none) 50 sample.paged (fun page => .listServiceAccounts "" "" page 2)
        .accounts (readAccount (sample [] none)) rows 2) ∧
    (∃ rows : List SessionItem, (rows.map (fun i => i.session)).Perm sample.pagedSessions ∧
      Paginates (sample [] none) 50 sample.paged (fun page => .listSessions "" "" "active" page 2)
        .sessions some rows 2) := by
  have h := pages_partition_unless_wrapped (sample [] none) 50 sample.paged 2
  obtain ⟨users, husers, hupages⟩ := h.1 "" "active" (.inr (by decide))
  obtain ⟨accounts, haccounts, hapages⟩ := h.2.1 "" "" (.inl rfl)
  obtain ⟨sessions, hsessions, hspages⟩ :=
    h.2.2 "" "" "active" (.inr (.inl rfl)) sample.paged_owners
  refine ⟨rfl, ⟨users, ?_, hupages⟩, ⟨accounts, ?_, hapages⟩, ⟨sessions, hsessions.perm, hspages⟩⟩
  · exact List.map_id' users ▸ husers.perm
  · exact List.map_id' accounts ▸ haccounts.perm

/-- With four users a page, page `2 ^ 62 + 1` is the first one again, and page `2 ^ 61 + 1` is an
error of the database. -/
theorem page_beyond_wrapped :
    pageCount sample.listed.store.users.rows.length 4 = 1 ∧
    (sample [] none).machine.Answers (Effect.Calm 50) (.listUsers "" "" (2 ^ 62 + 1) 4)
      sample.listed (.ok (.users ⟨[sample.listedUser], 1, 2 ^ 62 + 1, 4⟩)) ∧
    (sample [] none).machine.Answers (Effect.Calm 50) (.listUsers "" "" (2 ^ 61 + 1) 4)
      sample.listed (.error .internal) :=
  ⟨by decide, answers_listUsers _ _ _ "" "" (2 ^ 62 + 1) 4 (.inl rfl),
    answers_listUsers _ _ _ "" "" (2 ^ 61 + 1) 4 (.inl rfl)⟩

end IdentityService
