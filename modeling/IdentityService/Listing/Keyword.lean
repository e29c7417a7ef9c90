import IdentityService.Listing.Pages

/-! Searching users and service accounts by a keyword. -/

namespace IdentityService

open Lib Service

/-- What a database's `LOWER` does to one character: the result is lower-case already, and the
characters that mean something in a pattern stay as they are. -/
structure LowerCase (f : Char → List Char) : Prop where
  idem : ∀ c, ∀ d ∈ f c, f d = [d]
  fixed : ∀ c, Like.isMeta c = true → f c = [c]

namespace ListFilter

variable (filter : ListFilter) (lower : String → String)

def Contained (columns : List String) : Prop :=
  ∃ column ∈ columns, (lower filter.keyword).toList <:+: (lower column).toList

instance (columns : List String) : Decidable (filter.Contained lower columns) :=
  inferInstanceAs (Decidable (∃ column ∈ columns, _))

def findsUser (u : User) : Bool :=
  filter.selects u.status && filter.Contained lower [u.username, u.displayName, u.email]

def findsServiceAccount (a : ServiceAccount) : Bool :=
  filter.selects a.status && filter.Contained lower [a.clientID, a.name]

variable {filter lower} {f : Char → List Char}
  (hlower : ∀ s, (lower s).toList = s.toList.flatMap f) (hf : LowerCase f)
include hlower hf

theorem lower_pattern :
    (lower filter.pattern).toList = '%' :: ((lower filter.keyword).toList ++ ['%']) := by
  simp [hlower, pattern, hf.fixed '%' rfl]

theorem like_eq_contained (hmeta : ∀ c ∈ (lower filter.keyword).toList, Like.isMeta c = false)
    {columns : List String} (hcolumns : columns ≠ []) :
    filter.like lower columns = decide (filter.Contained lower columns) := by
  rw [Bool.eq_iff_iff, decide_eq_true_eq]
  simp only [like, lower_pattern hlower hf, Bool.or_eq_true, decide_eq_true_eq, List.any_eq_true,
    Like.accepts_around hmeta, Contained, or_iff_right_iff_imp]
  intro hempty
  obtain ⟨column, hcolumn⟩ := List.exists_mem_of_ne_nil columns hcolumns
  refine ⟨column, hcolumn, ?_⟩
  simp [hlower, hempty]

theorem exists_like_not_contained
    (hmeta : ∃ c ∈ (lower filter.keyword).toList, Like.isMeta c = true) (others : List String)
    (hothers : ∀ column ∈ others, column = "") :
    ∃ text : String, filter.like lower (text :: others) = true ∧
      ¬filter.Contained lower (text :: others) := by
  obtain ⟨s, hs, haccepts, helsewhere⟩ := Like.accepts_elsewhere hmeta
  have hfixed : s.flatMap f = s := by
    refine Eq.trans (List.flatMap_congr fun c hc => ?_) (List.flatMap_singleton' s)
    obtain hmem | rfl := hs c hc
    · rw [hlower, List.mem_flatMap] at hmem
      obtain ⟨d, -, hd⟩ := hmem
      exact hf.idem d c hd
    · exact hf.fixed '%' rfl
  have htext : (lower (String.ofList s)).toList = s := by rw [hlower, String.toList_ofList, hfixed]
  refine ⟨String.ofList s, ?_, ?_⟩
  · simp only [like, lower_pattern hlower hf, List.any_cons, htext, haccepts, Bool.true_or,
      Bool.or_true]
  · rintro ⟨column, hcolumn, hcontained⟩
    obtain rfl | hcolumn := List.mem_cons.1 hcolumn
    · exact helsewhere (htext ▸ hcontained)
    · rw [hothers column hcolumn, hlower "", String.toList_empty, List.flatMap_nil,
        List.infix_nil] at hcontained
      rw [hcontained] at hmeta
      obtain ⟨c, hc, -⟩ := hmeta
      cases hc

end ListFilter

section Search

variable {svc : Service} {f : Char → List Char}

def foundUsers (svc : Service) (w : World) (filter : ListFilter) : List User :=
  ranked (fun u => u.createdAt) (fun u => u.id)
    (w.store.users.rows.filter (filter.findsUser svc.lower))

def foundAccounts (svc : Service) (w : World) (filter : ListFilter) : List ServiceAccount :=
  ranked (fun a => a.createdAt) (fun a => a.id)
    (w.store.serviceAccounts.rows.filter (filter.findsServiceAccount svc.lower))

def userNamed (username : String) : World where
  store := { Store.empty with
    users := ⟨[⟨⟨1, 0, 0, "", ""⟩, "", username, "", "", "", .active, 0, none⟩],
      List.pairwise_singleton _ _⟩ }
  clock := 0

def accountNamed (clientID : String) : World where
  store := { Store.empty with
    serviceAccounts := ⟨[⟨⟨1, 0, 0, "", ""⟩, "", clientID, "", "", .active, ""⟩],
      List.pairwise_singleton _ _⟩ }
  clock := 0

theorem eq_nil_of_pageAnswer {ρ ι : Type} {reply : Page ι → Reply} {read : ρ → Option ι}
    {rows : List ρ} {size : Nat} (hreply : Function.Injective reply)
    (h : pageAnswer reply read rows 1 size = pageAnswer reply read [] 1 size) : rows = [] := by
  have hnil : pageAnswer reply read [] 1 size = .ok (reply ⟨[], 0, 1, size⟩) :=
    pageAnswer_eq_ok.2 ⟨by simp [Go.int64], [], by simp, rfl⟩
  obtain ⟨-, items, -, heq⟩ := pageAnswer_eq_ok.1 (h.trans hnil)
  exact List.eq_nil_of_length_eq_zero (Page.mk.inj (hreply heq)).2.1.symm

variable (filter : ListFilter) (hf : LowerCase f)
  (hlower : ∀ s, (svc.lower s).toList = s.toList.flatMap f)
include hf hlower

section Literal

variable (hmeta : ∀ c ∈ (svc.lower filter.keyword).toList, Like.isMeta c = false) (w : World)
include hmeta

theorem listedUsers_eq_found : listedUsers svc w filter = foundUsers svc w filter := by
  have heq : filter.matchesUser svc.lower = filter.findsUser svc.lower := by
    funext u
    rw [ListFilter.matchesUser, ListFilter.findsUser,
      ListFilter.like_eq_contained hlower hf hmeta (List.cons_ne_nil _ _)]
  rw [listedUsers, foundUsers, heq]

theorem listedAccounts_eq_found : listedAccounts svc w filter = foundAccounts svc w filter := by
  have heq : filter.matchesServiceAccount svc.lower = filter.findsServiceAccount svc.lower := by
    funext a
    rw [ListFilter.matchesServiceAccount, ListFilter.findsServiceAccount,
      ListFilter.like_eq_contained hlower hf hmeta (List.cons_ne_nil _ _)]
  rw [listedAccounts, foundAccounts, heq]

end Literal

section Pattern

variable (hmeta : ∃ c ∈ (svc.lower filter.keyword).toList, Like.isMeta c = true)
  (hstatus : filter.status = "")
include hmeta hstatus

theorem exists_user_listed_not_found :
    ∃ w, listedUsers svc w filter ≠ [] ∧ foundUsers svc w filter = [] := by
  obtain ⟨text, hlike, hnot⟩ :=
    ListFilter.exists_like_not_contained hlower hf hmeta ["", ""] (by simp)
  refine ⟨userNamed text, ?_, ?_⟩
  · simp [listedUsers, ranked, userNamed, ListFilter.matchesUser, ListFilter.selects, hstatus,
      hlike]
  · simp [foundUsers, ranked, userNamed, ListFilter.findsUser, hnot]

theorem exists_account_listed_not_found :
    ∃ w, listedAccounts svc w filter ≠ [] ∧ foundAccounts svc w filter = [] := by
  obtain ⟨text, hlike, hnot⟩ :=
    ListFilter.exists_like_not_contained hlower hf hmeta [""] (by simp)
  refine ⟨accountNamed text, ?_, ?_⟩
  · simp [listedAccounts, ranked, accountNamed, ListFilter.matchesServiceAccount,
      ListFilter.selects, hstatus, hlike]
  · simp [foundAccounts, ranked, accountNamed, ListFilter.findsServiceAccount, hnot]

end Pattern

end Search

/-- A keyword is searched for literally, whatever the tables hold, if and only if it has none of
the characters that mean something in a pattern. -/
theorem search_literal_iff (svc : Service) {f : Char → List Char} (hf : LowerCase f)
    (hlower : ∀ s, (svc.lower s).toList = s.toList.flatMap f) (keyword : String) :
    ((∀ t w status page pageSize, (status = "" ∨ Status.ofString status ≠ none) →
      svc.machine.Answers (Effect.Calm t) (.listUsers keyword status page pageSize) w
        (pageAnswer .users some (foundUsers svc w ⟨Go.trimSpace keyword, Go.trimSpace status⟩) page
          (effectiveSize pageSize))) ↔
      ∀ c ∈ (svc.lower (Go.trimSpace keyword)).toList, Like.isMeta c = false) ∧
    ((∀ t w status page pageSize, (status = "" ∨ status = "active" ∨ status = "disabled") →
      svc.machine.Answers (Effect.Calm t) (.listServiceAccounts keyword status page pageSize) w
        (pageAnswer .accounts (readAccount svc)
          (foundAccounts svc w ⟨Go.trimSpace keyword, Go.trimSpace status⟩) page
          (effectiveSize pageSize))) ↔
      ∀ c ∈ (svc.lower (Go.trimSpace keyword)).toList, Like.isMeta c = false) := by
  have hempty : Go.trimSpace "" = "" := by decide
  generalize hk : Go.trimSpace keyword = k
  refine ⟨⟨fun h => ?_, fun hmeta t w status page pageSize hstatus => ?_⟩,
    ⟨fun h => ?_, fun hmeta t w status page pageSize hstatus => ?_⟩⟩
  · by_contra hmeta
    simp only [not_forall, Bool.not_eq_false, exists_prop] at hmeta
    obtain ⟨w, hlisted, hfound⟩ := exists_user_listed_not_found ⟨k, ""⟩ hf hlower hmeta rfl
    have heq :=
      (answers_listUsers svc 0 w keyword "" 1 20 (.inl rfl)).unique (h 0 w "" 1 20 (.inl rfl))
    rw [hk, hempty, hfound] at heq
    exact hlisted (eq_nil_of_pageAnswer (fun _ _ h => Reply.users.inj h) heq)
  · rw [← listedUsers_eq_found _ hf hlower hmeta, ← hk]
    exact answers_listUsers svc t w keyword status page pageSize hstatus
  · by_contra hmeta
    simp only [not_forall, Bool.not_eq_false, exists_prop] at hmeta
    obtain ⟨w, hlisted, hfound⟩ := exists_account_listed_not_found ⟨k, ""⟩ hf hlower hmeta rfl
    have heq := (answers_listServiceAccounts svc 0 w keyword "" 1 20 (.inl rfl)).unique
      (h 0 w "" 1 20 (.inl rfl))
    rw [hk, hempty, hfound] at heq
    exact hlisted (eq_nil_of_pageAnswer (fun _ _ h => Reply.accounts.inj h) heq)
  · rw [← listedAccounts_eq_found _ hf hlower hmeta, ← hk]
    exact answers_listServiceAccounts svc t w keyword status page pageSize hstatus

theorem lowerCase_singleton : LowerCase (fun c => [c]) where
  idem _ _ hd := List.mem_singleton.1 hd ▸ rfl
  fixed _ _ := rfl

theorem search_literal_bob :
    (sample [] none).machine.Answers (Effect.Calm 50) (.listUsers "bob" "active" 1 20) sample.listed
      (pageAnswer .users some (foundUsers (sample [] none) sample.listed ⟨"bob", "active"⟩) 1
        (effectiveSize 20)) := by
  have h := search_literal_iff (sample [] none) lowerCase_singleton
    (fun s => (List.flatMap_singleton' s.toList).symm) "bob"
  have hplain : ((sample [] none).lower (Go.trimSpace "bob")).toList.any Like.isMeta = false := by
    decide
  have hliteral : ∀ c ∈ ((sample [] none).lower (Go.trimSpace "bob")).toList,
      Like.isMeta c = false := by simpa using hplain
  exact h.1.2 hliteral 50 sample.listed "active" 1 20 (.inr (by decide))

/-- A search for an underscore finds every user with a name. -/
theorem search_underscore_finds_all :
    (sample [] none).machine.Answers (Effect.Calm 0) (.listUsers "_" "" 1 20) (userNamed "bob")
      (.ok (.users ⟨(userNamed "bob").store.users.rows, 1, 1, 20⟩)) ∧
    foundUsers (sample [] none) (userNamed "bob") ⟨"_", ""⟩ = [] :=
  ⟨answers_listUsers _ _ _ "_" "" 1 20 (.inl rfl), by decide⟩

end IdentityService
