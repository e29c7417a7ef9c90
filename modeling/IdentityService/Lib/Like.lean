import Mathlib.Data.List.Infix

/-! SQL's `LIKE` with the backslash as escape character, and when a pattern `%text%` looks for
nothing but `text`. -/

namespace IdentityService.Lib.Like

inductive Item : Type
  | any
  | one
  | lit (c : Char)

/-- A backslash at the very end stands for itself. -/
@[simp] def parse : List Char → List Item
  | [] => []
  | '\\' :: c :: p => .lit c :: parse p
  | c :: p =>
    if c = '%' then .any :: parse p
    else if c = '_' then .one :: parse p
    else .lit c :: parse p

def accepts : List Item → List Char → Bool
  | [], s => s.isEmpty
  | .any :: p, s => s.tails.any (accepts p)
  | .one :: p, s =>
    match s with
    | [] => false
    | _ :: s => accepts p s
  | .lit c :: p, s =>
    match s with
    | [] => false
    | d :: s => c = d && accepts p s

def isMeta (c : Char) : Bool := c = '%' || c = '_' || c = '\\'

@[simp] def least (fill : Char) : List Item → List Char
  | [] => []
  | .any :: p => least fill p
  | .one :: p => fill :: least fill p
  | .lit c :: p => c :: least fill p

variable {c : Char} {p : List Item} {s k : List Char}

@[simp] theorem accepts_nil : accepts [] s = true ↔ s = [] :=
  List.isEmpty_iff

@[simp] theorem accepts_any :
    accepts (.any :: p) s = true ↔ ∃ t u, s = t ++ u ∧ accepts p u = true := by
  change s.tails.any (accepts p) = true ↔ _
  simp only [List.any_eq_true, List.mem_tails]
  constructor
  · rintro ⟨u, ⟨t, rfl⟩, hu⟩
    exact ⟨t, u, rfl, hu⟩
  · rintro ⟨t, u, rfl, hu⟩
    exact ⟨u, List.suffix_append t u, hu⟩

@[simp] theorem accepts_one :
    accepts (.one :: p) s = true ↔ ∃ d u, s = d :: u ∧ accepts p u = true := by
  cases s <;> simp [accepts]

@[simp] theorem accepts_lit :
    accepts (.lit c :: p) s = true ↔ ∃ u, s = c :: u ∧ accepts p u = true := by
  cases s with
  | nil => simp [accepts]
  | cons d s =>
    simp only [accepts, Bool.and_eq_true, decide_eq_true_eq, List.cons.injEq]
    constructor
    · rintro ⟨rfl, hs⟩
      exact ⟨s, ⟨rfl, rfl⟩, hs⟩
    · rintro ⟨u, ⟨rfl, rfl⟩, hs⟩
      exact ⟨rfl, hs⟩

theorem accepts_least (fill : Char) (p : List Item) : accepts p (least fill p) = true := by
  induction p with
  | nil => rfl
  | cons i p ih =>
    cases i with
    | any => exact accepts_any.2 ⟨[], _, rfl, ih⟩
    | one => exact accepts_one.2 ⟨fill, _, rfl, ih⟩
    | lit c => exact accepts_lit.2 ⟨_, rfl, ih⟩

@[simp] theorem parse_any (p : List Char) : parse ('%' :: p) = .any :: parse p := by
  simp

@[simp] theorem parse_one (p : List Char) : parse ('_' :: p) = .one :: parse p := by
  simp

theorem parse_lit (hc : isMeta c = false) (p : List Char) : parse (c :: p) = .lit c :: parse p := by
  simp only [isMeta, Bool.or_eq_false_iff, decide_eq_false_iff_not] at hc
  obtain ⟨⟨hany, hone⟩, hescape⟩ := hc
  cases p <;> simp [hany, hone, hescape]

section Literal

variable (hk : ∀ c ∈ k, isMeta c = false)
include hk

theorem accepts_parse_append {p : List Char} :
    accepts (parse (k ++ p)) s = true ↔ ∃ u, s = k ++ u ∧ accepts (parse p) u = true := by
  induction k generalizing s with
  | nil => simp
  | cons c k ih =>
    rw [List.cons_append, parse_lit (hk c List.mem_cons_self), accepts_lit]
    simp only [ih fun d hd => hk d (List.mem_cons_of_mem c hd)]
    constructor
    · rintro ⟨u, rfl, u', rfl, hu'⟩
      exact ⟨u', rfl, hu'⟩
    · rintro ⟨u', rfl, hu'⟩
      exact ⟨k ++ u', rfl, u', rfl, hu'⟩

theorem accepts_around : accepts (parse ('%' :: (k ++ ['%']))) s = true ↔ k <:+: s := by
  rw [parse_any, accepts_any]
  constructor
  · rintro ⟨t, u, rfl, hu⟩
    obtain ⟨v, rfl, -⟩ := (accepts_parse_append hk).1 hu
    exact ⟨t, v, List.append_assoc t k v⟩
  · rintro ⟨t, v, rfl⟩
    refine ⟨t, k ++ v, List.append_assoc t k v, (accepts_parse_append hk).2 ⟨v, rfl, ?_⟩⟩
    rw [parse_any]
    exact accepts_any.2 ⟨v, [], (List.append_nil v).symm, rfl⟩

end Literal

theorem least_parse (k : List Char) :
    (least '%' (parse (k ++ ['%']))).length ≤ k.length ∧
      ((∃ c ∈ k, isMeta c = true) → least '%' (parse (k ++ ['%'])) ≠ k) := by
  -- Along the recursion of `parse`, which takes an escaped character with its backslash.
  induction k using parse.induct with
  | case1 => exact ⟨Nat.le_refl 0, fun ⟨_, hc, _⟩ => nomatch hc⟩
  | case2 c k ih =>
    have hlen : (least '%' (parse ('\\' :: c :: k ++ ['%']))).length < ('\\' :: c :: k).length := by
      simp only [List.cons_append, parse, least, List.length_cons]
      omega
    exact ⟨hlen.le, fun _ heq => absurd (congrArg List.length heq) hlen.ne⟩
  | case3 k hescape ih =>
    have hlen : (least '%' (parse ('%' :: k ++ ['%']))).length < ('%' :: k).length := by
      simp only [List.cons_append, parse_any, least, List.length_cons]
      omega
    exact ⟨hlen.le, fun _ heq => absurd (congrArg List.length heq) hlen.ne⟩
  | case4 k hany hescape ih =>
    simp only [List.cons_append, parse_one, least, List.length_cons]
    exact ⟨Nat.succ_le_succ ih.1, fun _ heq => absurd (List.cons.inj heq).1 (by decide)⟩
  | case5 c k hescape hany hone ih =>
    by_cases hc : c = '\\'
    · subst hc
      cases k with
      | nil => simp
      | cons d k => exact absurd rfl (hescape d k rfl)
    · have hlit : isMeta c = false := by simp [isMeta, hany, hone, hc]
      rw [List.cons_append, parse_lit hlit, least]
      refine ⟨Nat.succ_le_succ ih.1, ?_⟩
      rintro ⟨d, hd, hmeta⟩ heq
      obtain rfl | hd := List.mem_cons.1 hd
      · rw [hlit] at hmeta
        cases hmeta
      · exact ih.2 ⟨d, hd, hmeta⟩ (List.cons.inj heq).2

theorem mem_least_parse {fill : Char} (k : List Char) :
    c ∈ least fill (parse k) → c ∈ k ∨ c = fill := by
  induction k using parse.induct with
  | case1 => exact fun hc => nomatch hc
  | case2 d k ih | case4 k _ _ ih | case5 d k _ _ _ ih =>
    simp only [parse, least, List.mem_cons, if_true, if_false, *]
    grind
  | case3 k _ ih =>
    simp only [parse_any, least, List.mem_cons]
    grind

theorem accepts_elsewhere (h : ∃ c ∈ k, isMeta c = true) :
    ∃ s, (∀ c ∈ s, c ∈ k ∨ c = '%') ∧
      accepts (parse ('%' :: (k ++ ['%']))) s = true ∧ ¬k <:+: s := by
  refine ⟨least '%' (parse (k ++ ['%'])), ?_, ?_, ?_⟩
  · intro c hc
    have := mem_least_parse _ hc
    simp only [List.mem_append, List.mem_singleton] at this
    tauto
  · rw [parse_any]
    exact accepts_any.2 ⟨[], _, rfl, accepts_least _ _⟩
  · intro hcontained
    obtain ⟨hlen, hne⟩ := least_parse k
    exact hne h (hcontained.eq_of_length_le hlen).symm

end IdentityService.Lib.Like
