import IdentityService.Lib.Table

/-! Optimistic locking: every update of a row adds one to its version, so a row found again
at the version it was read at is the row that was read. -/

namespace IdentityService.Lib

class Versioned (ρ : Type) [Constrained ρ] where
  key : ρ → String
  version : ρ → Int
  clash : ∀ a b, key a = key b → Constrained.clash a b = true

open Versioned

variable {ρ : Type} [Constrained ρ] [Versioned ρ]

def Update.Bumps (u : Update ρ) : Prop :=
  ∀ r, key (u.assign r) = key r ∧ version (u.assign r) = version r + 1

def Statement.Bumps : Statement ρ → Prop
  | .update u => u.Bumps
  | _ => True

def Statement.KeepsRows : Statement ρ → Prop
  | .delete _ => False
  | _ => True

def versionOf (k : String) (rows : List ρ) : Option Int :=
  (rows.find? (fun r => key r = k)).map version

def Continued (r : ρ) (rows : List ρ) : Prop :=
  ∃ r' ∈ rows, key r' = key r ∧ (r' = r ∨ version r < version r')

theorem Table.eq_of_key {t : Table ρ} {a b : ρ} (ha : a ∈ t.rows) (hb : b ∈ t.rows)
    (h : key a = key b) : a = b :=
  eq_of_clash ha hb (clash a b h)

theorem Table.length_filter_le_one {t : Table ρ} {P : ρ → Bool}
    (h : ∀ a ∈ t.rows, ∀ b ∈ t.rows, P a = true → P b = true → a = b) :
    (t.rows.filter P).length ≤ 1 := by
  have hdistinct := t.distinct.filter P
  cases hrows : t.rows.filter P with
  | nil => simp
  | cons a rest =>
    cases rest with
    | nil => simp
    | cons b rest =>
      have ha := List.mem_filter.1 (hrows ▸ List.mem_cons_self : a ∈ t.rows.filter P)
      have hb := List.mem_filter.1 (hrows ▸ by simp : b ∈ t.rows.filter P)
      rw [hrows, List.pairwise_cons] at hdistinct
      have hab := hdistinct.1 b List.mem_cons_self
      rw [h a ha.1 b hb.1 ha.2 hb.2, clash b b rfl] at hab
      cases hab

theorem versionOf_eq_some {t : Table ρ} {k : String} {v : Int} :
    versionOf k t.rows = some v ↔ ∃ r ∈ t.rows, key r = k ∧ version r = v := by
  simp only [versionOf, Option.map_eq_some_iff]
  constructor
  · rintro ⟨r, hr, hv⟩
    exact ⟨r, List.mem_of_find?_eq_some hr, by simpa using List.find?_some hr, hv⟩
  · rintro ⟨r, hr, hk, hv⟩
    have hfound : (t.rows.find? (fun r => key r = k)).isSome := by
      simpa using ⟨r, hr, hk⟩
    obtain ⟨x, hx⟩ := Option.isSome_iff_exists.1 hfound
    have hxk : key x = k := by simpa using List.find?_some hx
    obtain rfl := t.eq_of_key (List.mem_of_find?_eq_some hx) hr (hxk.trans hk.symm)
    exact ⟨x, hx, hv⟩

theorem Update.Hits.versionOf {u : Update ρ} {t t' : Table ρ} {k : String} {v : Int}
    (h : u.Hits t.rows t'.rows) (hu : u.Bumps)
    (hguard : ∀ r, u.guard r = true → key r = k ∧ version r = v) :
    versionOf k t.rows = some v ∧ versionOf k t'.rows = some (v + 1) := by
  obtain ⟨r, hr, hg⟩ := h.found
  obtain ⟨hk, hv⟩ := hguard r hg
  refine ⟨versionOf_eq_some.2 ⟨r, hr, hk, hv⟩, versionOf_eq_some.2 ⟨u.assign r, ?_, ?_⟩⟩
  · exact h.map ▸ Update.assign_mem hr hg
  · rw [(hu r).1, (hu r).2]
    exact ⟨hk, by rw [hv]⟩

namespace Continued

variable {r : ρ} {rows rows' : List ρ}

theorem of_mem (h : r ∈ rows) : Continued r rows := ⟨r, h, rfl, .inl rfl⟩

theorem trans (h : Continued r rows) (h' : ∀ x ∈ rows, Continued x rows') :
    Continued r rows' := by
  obtain ⟨x, hx, hk, hv⟩ := h
  obtain ⟨y, hy, hky, hvy⟩ := h' x hx
  refine ⟨y, hy, hky.trans hk, ?_⟩
  obtain rfl | hv := hv
  · exact hvy
  · obtain rfl | hvy := hvy
    · exact .inr hv
    · exact .inr (Int.lt_trans hv hvy)

theorem of_map {u : Update ρ} (hu : u.Bumps) (h : r ∈ rows) : Continued r (rows.map u.apply) := by
  refine ⟨u.apply r, List.mem_map_of_mem h, ?_⟩
  unfold Update.apply
  split
  · exact ⟨(hu r).1, .inr (by rw [(hu r).2]; omega)⟩
  · exact ⟨rfl, .inl rfl⟩

theorem run {t t' : Table ρ} {q : Statement ρ} {n : Nat} (hrun : t.run q = some (n, t'))
    (hbumps : q.Bumps) (hkeeps : q.KeepsRows) (hr : r ∈ t.rows) : Continued r t'.rows := by
  cases q with
  | insert new =>
    rw [(Table.run_insert.1 hrun).2]
    exact of_mem (List.mem_append_left _ hr)
  | update u =>
    rw [(Table.run_update.1 hrun).2]
    exact of_map hbumps hr
  | delete P => exact hkeeps.elim

theorem eq_of_version {t : Table ρ} (h : Continued r t.rows) {x : ρ} (hx : x ∈ t.rows)
    (hk : key x = key r) (hv : version x = version r) : x = r := by
  obtain ⟨y, hy, hky, hvy⟩ := h
  obtain rfl := t.eq_of_key hx hy (hk.trans hky.symm)
  obtain rfl | hlt := hvy
  · rfl
  · omega

end Continued

theorem versionOf_ne {t t' : Table ρ} {k : String} {v : Int}
    (h : ∀ r ∈ t.rows, Continued r t'.rows) (hv : versionOf k t.rows = some (v + 1)) :
    versionOf k t'.rows ≠ some v := by
  intro hv'
  obtain ⟨r, hr, hk, hrv⟩ := versionOf_eq_some.1 hv
  obtain ⟨x, hx, hxk, hxv⟩ := versionOf_eq_some.1 hv'
  obtain ⟨y, hy, hyk, hyv⟩ := h r hr
  obtain rfl := t'.eq_of_key hx hy (hxk.trans (hk.symm.trans hyk.symm))
  obtain rfl | hlt := hyv <;> omega

end IdentityService.Lib
