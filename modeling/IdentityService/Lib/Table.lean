import Mathlib.Data.List.Pairwise

/-! Tables with uniqueness constraints.  A table is a list of rows no two of which
clash; an insert or update that would make two rows clash is refused. -/

namespace IdentityService.Lib

/-- Two rows clash when a primary key or unique index forbids them together. -/
class Constrained (ρ : Type) where
  clash : ρ → ρ → Bool
  symm : ∀ a b, clash a b = clash b a

@[ext] structure Table (ρ : Type) [Constrained ρ] where
  rows : List ρ
  distinct : rows.Pairwise (fun a b => Constrained.clash a b = false)

/-- The guard and the assignments of an `UPDATE`.  Every assignment reads the row as it
was before the statement and writes one column of the new row. -/
structure Update (ρ : Type) where
  guard : ρ → Bool
  set : List (ρ → ρ → ρ)

inductive Statement (ρ : Type) : Type
  | insert : ρ → Statement ρ
  | update : Update ρ → Statement ρ
  | delete : (ρ → Bool) → Statement ρ

variable {ρ : Type}

def Update.assign (u : Update ρ) (r : ρ) : ρ :=
  u.set.foldl (fun new f => f r new) r

def Update.apply (u : Update ρ) (r : ρ) : ρ :=
  if u.guard r then u.assign r else r

theorem Update.mem_map_apply {u : Update ρ} {r : ρ} {rows : List ρ} :
    r ∈ rows.map u.apply ↔
      (r ∈ rows ∧ u.guard r = false) ∨ ∃ old ∈ rows, u.guard old = true ∧ r = u.assign old := by
  simp only [List.mem_map, Update.apply]
  constructor
  · rintro ⟨old, hold, rfl⟩
    by_cases hg : u.guard old = true
    · exact Or.inr ⟨old, hold, hg, by simp [hg]⟩
    · exact Or.inl ⟨by simpa [hg] using hold, by simp [hg]⟩
  · rintro (⟨hr, hg⟩ | ⟨old, hold, hg, rfl⟩)
    · exact ⟨r, hr, by simp [hg]⟩
    · exact ⟨old, hold, by simp [hg]⟩

theorem Update.assign_mem {u : Update ρ} {r : ρ} {rows : List ρ} (hr : r ∈ rows)
    (hg : u.guard r = true) : u.assign r ∈ rows.map u.apply :=
  mem_map_apply.2 (.inr ⟨r, hr, hg, rfl⟩)

structure Update.Hits (u : Update ρ) (rows rows' : List ρ) : Prop where
  map : rows' = rows.map u.apply
  found : ∃ r ∈ rows, u.guard r = true

def Replaced (r r' : ρ) (rows rows' : List ρ) : Prop :=
  ∃ before after, rows = before ++ r :: after ∧ rows' = before ++ r' :: after

/-- The rows that went from unused to used, by key. -/
def moved {κ : Type} [DecidableEq κ] (key : ρ → κ) (used : ρ → Bool) (rows rows' : List ρ) :
    List ρ :=
  rows.filter (fun r => !used r && rows'.any (fun r' => key r' = key r && used r'))

theorem Update.filter_map_apply {u : Update ρ} {P : ρ → Bool} {rows : List ρ}
    (h : ∀ r ∈ rows, u.guard r = true → P r = false ∧ P (u.assign r) = false) :
    (rows.map u.apply).filter P = rows.filter P := by
  induction rows with
  | nil => rfl
  | cons r rows ih =>
    have hrows := ih fun r' hr' => h r' (List.mem_cons_of_mem _ hr')
    by_cases hg : u.guard r = true
    · obtain ⟨hold, hnew⟩ := h r List.mem_cons_self hg
      simp [Update.apply, hg, hold, hnew, hrows]
    · simp [Update.apply, hg, List.filter_cons, hrows]

section Moved

variable {κ : Type} [DecidableEq κ] {key : ρ → κ} {used : ρ → Bool} {rows rows' : List ρ} {r r' : ρ}

theorem mem_moved {x : ρ} : x ∈ moved key used rows rows' ↔
    x ∈ rows ∧ used x = false ∧ ∃ y ∈ rows', key y = key x ∧ used y = true := by
  simp [moved]

theorem moved_eq_nil (hkey : ∀ x ∈ rows, ∀ y ∈ rows, key x = key y → x = y)
    (h : ∀ y ∈ rows', used y = true → ∃ x ∈ rows, key x = key y ∧ used x = true) :
    moved key used rows rows' = [] := by
  rw [List.eq_nil_iff_forall_not_mem]
  intro x hx
  obtain ⟨hmem, hunused, y, hy, hxy, hused⟩ := mem_moved.1 hx
  obtain ⟨z, hz, hzy, hzused⟩ := h y hy hused
  rw [hkey x hmem z hz (hxy.symm.trans hzy.symm), hzused] at hunused
  cases hunused

theorem moved_of_replaced (hkey : rows.Pairwise fun x y => key x ≠ key y)
    (h : Replaced r r' rows rows') (hr : used r = false) (hr' : used r' = true)
    (hsame : key r' = key r) : moved key used rows rows' = [r] := by
  have : Std.Symm (fun x y : ρ => key x ≠ key y) := ⟨fun _ _ h => h.symm⟩
  have hinj : ∀ x ∈ rows, ∀ y ∈ rows, key x = key y → x = y := by
    intro x hx y hy hxy
    by_contra hne
    exact hkey.forall hx hy hne hxy
  obtain ⟨before, after, rfl, rfl⟩ := h
  obtain ⟨-, hafter, hcross⟩ := List.pairwise_append.1 hkey
  have hafter := (List.pairwise_cons.1 hafter).1
  -- Another row that had moved would have the key of a used one.
  have hskip : ∀ x ∈ before ++ r :: after, key x ≠ key r →
      ¬(!used x && (before ++ r' :: after).any (fun y => key y = key x && used y)) = true := by
    intro x hx hne hmoved
    simp only [Bool.and_eq_true, Bool.not_eq_true', List.any_eq_true, decide_eq_true_eq] at hmoved
    obtain ⟨hunused, y, hy, hxy, hused⟩ := hmoved
    obtain rfl | hy : y = r' ∨ y ∈ before ++ r :: after := by grind
    · exact hne (hxy.symm.trans hsame)
    · rw [hinj y hy x hx hxy, hunused] at hused
      cases hused
  have hb := List.filter_eq_nil_iff.2 fun x hx =>
    hskip x (List.mem_append_left _ hx) (hcross x hx r List.mem_cons_self)
  have ha := List.filter_eq_nil_iff.2 fun x hx =>
    hskip x (List.mem_append_right _ (List.mem_cons_of_mem _ hx)) (hafter x hx).symm
  rw [moved, List.filter_append, hb, List.nil_append, List.filter_cons_of_pos, ha]
  simp [hr, hr', hsame]

theorem Replaced.mem_left (h : Replaced r r' rows rows') : r ∈ rows := by
  obtain ⟨before, after, rfl, -⟩ := h
  simp

theorem Replaced.mem_right (h : Replaced r r' rows rows') : r' ∈ rows' := by
  obtain ⟨before, after, -, rfl⟩ := h
  simp

theorem Replaced.filter_not_mem [DecidableEq ρ] (h : Replaced r r' rows rows') (hnew : r' ∉ rows) :
    rows'.filter (fun x => x ∉ rows) = [r'] := by
  obtain ⟨before, after, rfl, rfl⟩ := h
  simp only [List.filter_append, List.filter_cons, hnew, not_false_eq_true, decide_true, if_true]
  rw [List.filter_eq_nil_iff.2 (by simp +contextual),
    List.filter_eq_nil_iff.2 (by simp +contextual), List.nil_append]

theorem filter_not_mem_append [DecidableEq ρ] (hnew : r ∉ rows) :
    (rows ++ [r]).filter (fun x => x ∉ rows) = [r] := by
  rw [List.filter_append, List.filter_eq_nil_iff.2 (by simp), List.nil_append]
  simp [hnew]

end Moved

namespace Table

variable [Constrained ρ]

def empty : Table ρ := ⟨[], List.Pairwise.nil⟩

def ofRows (rows : List ρ) : Option (Table ρ) :=
  if h : rows.Pairwise (fun a b => Constrained.clash a b = false) then some ⟨rows, h⟩ else none

def insert (t : Table ρ) (r : ρ) : Option (Table ρ) :=
  if h : ∀ old ∈ t.rows, Constrained.clash old r = false then
    some ⟨t.rows ++ [r], by
      simpa [List.pairwise_append] using ⟨t.distinct, h⟩⟩
  else none

def delete (t : Table ρ) (guard : ρ → Bool) : Table ρ where
  rows := t.rows.filter (fun r => !guard r)
  distinct := t.distinct.filter _

/-- The number of rows affected and the new table, or `none` on a violated constraint. -/
def run (t : Table ρ) : Statement ρ → Option (Nat × Table ρ)
  | .insert r => (t.insert r).map (fun t' => (1, t'))
  | .update u => (ofRows (t.rows.map u.apply)).map (fun t' => (t.rows.countP u.guard, t'))
  | .delete guard => some (t.rows.countP guard, t.delete guard)

variable {t t' : Table ρ} {n : Nat}

@[simp] theorem rows_empty : (empty : Table ρ).rows = [] := rfl

theorem ofRows_eq_some {rows : List ρ} : ofRows rows = some t ↔ t.rows = rows := by
  obtain ⟨ts, ht⟩ := t
  unfold ofRows
  split
  · simp [eq_comm]
  · rename_i h
    simp only [reduceCtorEq, false_iff]
    rintro rfl
    exact h ht

theorem insert_eq_some {r : ρ} : t.insert r = some t' ↔ t'.rows = t.rows ++ [r] := by
  obtain ⟨ts', ht'⟩ := t'
  unfold insert
  split
  · simp [eq_comm]
  · rename_i h
    simp only [reduceCtorEq, false_iff]
    rintro rfl
    exact h fun old hold => (List.pairwise_append.1 ht').2.2 old hold r (by simp)

@[simp] theorem run_insert {r : ρ} :
    t.run (.insert r) = some (n, t') ↔ n = 1 ∧ t'.rows = t.rows ++ [r] := by
  simp only [run, Option.map_eq_some_iff, Prod.mk.injEq]
  constructor
  · rintro ⟨a, ha, rfl, rfl⟩
    exact ⟨rfl, insert_eq_some.1 ha⟩
  · rintro ⟨rfl, h⟩
    exact ⟨t', insert_eq_some.2 h, rfl, rfl⟩

@[simp] theorem run_update {u : Update ρ} :
    t.run (.update u) = some (n, t') ↔
      n = t.rows.countP u.guard ∧ t'.rows = t.rows.map u.apply := by
  simp only [run, Option.map_eq_some_iff, Prod.mk.injEq]
  constructor
  · rintro ⟨a, ha, rfl, rfl⟩
    exact ⟨rfl, ofRows_eq_some.1 ha⟩
  · rintro ⟨rfl, h⟩
    exact ⟨t', ofRows_eq_some.2 h, rfl, rfl⟩

@[simp] theorem run_delete {guard : ρ → Bool} :
    t.run (.delete guard) = some (n, t') ↔
      n = t.rows.countP guard ∧ t'.rows = t.rows.filter (fun r => !guard r) := by
  obtain ⟨rows', h'⟩ := t'
  simp only [run, delete, Option.some.injEq, Prod.mk.injEq, Table.mk.injEq]
  exact and_congr eq_comm eq_comm

theorem exists_map_apply {u : Update ρ}
    (h : ∀ a b, Constrained.clash (u.apply a) (u.apply b) = Constrained.clash a b) :
    ∃ t' : Table ρ, t'.rows = t.rows.map u.apply := by
  refine ⟨⟨t.rows.map u.apply, List.pairwise_map.2 ?_⟩, rfl⟩
  exact t.distinct.imp fun hab => (h _ _).trans hab

instance : Std.Symm (fun a b : ρ => Constrained.clash a b = false) where
  symm a b h := by rw [Constrained.symm]; exact h

theorem eq_of_clash {a b : ρ} (ha : a ∈ t.rows) (hb : b ∈ t.rows)
    (h : Constrained.clash a b = true) : a = b := by
  by_contra hne
  have hab := t.distinct.forall ha hb hne
  simp [h] at hab

theorem pairwise_key_ne {κ : Type} (t : Table ρ) (key : ρ → κ)
    (h : ∀ a b, key a = key b → Constrained.clash a b = true) :
    t.rows.Pairwise fun a b => key a ≠ key b := by
  refine t.distinct.imp fun {a b} hclash hkey => ?_
  rw [h a b hkey] at hclash
  cases hclash

theorem filter_eq_singleton {P : ρ → Bool} {r : ρ} (hr : r ∈ t.rows) (hP : P r = true)
    (hclash : ∀ x, P x = true → Constrained.clash x r = true) : t.rows.filter P = [r] := by
  obtain ⟨before, after, hrows⟩ := List.append_of_mem hr
  have hdistinct := t.distinct
  rw [hrows, List.pairwise_append, List.pairwise_cons] at hdistinct
  obtain ⟨-, ⟨hafter, -⟩, hbefore⟩ := hdistinct
  have hskip : ∀ x, Constrained.clash x r = false → ¬P x = true := by
    intro x hx hPx
    rw [hclash x hPx] at hx
    cases hx
  rw [hrows, List.filter_append, List.filter_cons_of_pos hP,
    List.filter_eq_nil_iff.2 fun x hx => hskip x (hbefore x hx r List.mem_cons_self),
    List.filter_eq_nil_iff.2 fun x hx => hskip x (Constrained.symm x r ▸ hafter x hx)]
  rfl

theorem ne_of_hits {t' : Table ρ} {u : Update ρ} (h : u.Hits t.rows t'.rows)
    (hkey : ∀ r, Constrained.clash (u.assign r) r = true) (hne : ∀ r, u.assign r ≠ r) : t' ≠ t := by
  rintro rfl
  obtain ⟨r, hr, hg⟩ := h.found
  have hassign : u.assign r ∈ t'.rows := h.map ▸ Update.assign_mem hr hg
  exact hne r (eq_of_clash hassign hr (hkey r))

theorem replaced_of_hits {u : Update ρ} {rows : List ρ} (h : u.Hits t.rows rows)
    (hkey : ∀ a b, u.guard a = true → u.guard b = true → Constrained.clash a b = true) :
    ∃ r ∈ t.rows, u.guard r = true ∧ Replaced r (u.assign r) t.rows rows := by
  obtain ⟨r, hr, hg⟩ := h.found
  obtain ⟨before, after, hsplit⟩ := List.append_of_mem hr
  refine ⟨r, hr, hg, before, after, hsplit, ?_⟩
  have hdistinct := t.distinct
  rw [hsplit, List.pairwise_append, List.pairwise_cons] at hdistinct
  obtain ⟨-, ⟨hafter, -⟩, hbefore⟩ := hdistinct
  -- Another row that matched would clash with `r`.
  have hskip : ∀ x, Constrained.clash x r = false → u.apply x = id x := by
    intro x hx
    unfold Update.apply
    split
    · rename_i hgx
      rw [hkey x r hgx hg] at hx
      cases hx
    · rfl
  have hb : before.map u.apply = before.map id :=
    List.map_congr_left fun x hx => hskip x (hbefore x hx r List.mem_cons_self)
  have ha : after.map u.apply = after.map id :=
    List.map_congr_left fun x hx => hskip x (by rw [Constrained.symm]; exact hafter x hx)
  rw [h.map, hsplit, List.map_append, List.map_cons, hb, ha, List.map_id, List.map_id]
  simp [Update.apply, hg]

end Table

end IdentityService.Lib
