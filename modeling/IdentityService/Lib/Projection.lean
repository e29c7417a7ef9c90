import IdentityService.Lib.Table
import Mathlib.Logic.Function.Basic

/-! Views of a table by key, and states kept per key that are replayed from a log. -/

namespace IdentityService.Lib

section Replay

variable {κ β ε : Type} [DecidableEq κ] (key : ε → κ) (step : β → ε → β)

def advance (f : κ → β) (e : ε) : κ → β :=
  Function.update f (key e) (step (f (key e)) e)

def replay (f : κ → β) (log : List ε) : κ → β :=
  log.foldl (advance key step) f

variable {key step}

theorem replay_apply (f : κ → β) (log : List ε) (k : κ) :
    replay key step f log k = (log.filter (fun e => key e = k)).foldl step (f k) := by
  induction log generalizing f with
  | nil => rfl
  | cons e log ih =>
    rw [replay, List.foldl_cons]
    refine (ih _).trans ?_
    by_cases hk : key e = k
    · subst hk
      simp [advance]
    · simp [advance, hk, Function.update_of_ne (Ne.symm hk)]

theorem replay_congr {f : κ → β} {log log' : List ε}
    (h : ∀ k, log.filter (fun e => key e = k) = log'.filter (fun e => key e = k)) :
    replay key step f log = replay key step f log' := by
  funext k
  rw [replay_apply, replay_apply, h]

theorem replay_append (f : κ → β) (log log' : List ε) :
    replay key step f (log ++ log') = replay key step (replay key step f log) log' :=
  List.foldl_append

end Replay

section Project

variable {ρ κ β : Type} [DecidableEq κ] (key : ρ → κ) (view : ρ → β)

def project (rows : List ρ) (k : κ) : Option β :=
  (rows.find? (fun r => key r = k)).map view

variable {key view} {rows rows' : List ρ} {u : Update ρ} {k k' : κ}

theorem find?_map_apply (hkey : ∀ r, key (u.assign r) = key r) :
    (rows.map u.apply).find? (fun r => key r = k) =
      (rows.find? (fun r => key r = k)).map u.apply := by
  have happly : ∀ r, key (u.apply r) = key r := by
    intro r
    unfold Update.apply
    split
    · exact hkey r
    · rfl
  rw [List.find?_map]
  simp only [Function.comp_def, happly]

theorem project_map_of_hidden (hkey : ∀ r, key (u.assign r) = key r)
    (hview : ∀ r, u.guard r = true → view (u.assign r) = view r) :
    project key view (rows.map u.apply) k = project key view rows k := by
  rw [project, find?_map_apply hkey, Option.map_map, project]
  congr 1
  funext r
  simp only [Function.comp_def, Update.apply]
  split
  · exact hview r ‹_›
  · rfl

theorem project_of_hits {g : β → β} (h : u.Hits rows rows')
    (hkey : ∀ r, key (u.assign r) = key r)
    (hview : ∀ r, u.guard r = true → view (u.assign r) = g (view r))
    (hguard : ∀ r ∈ rows, u.guard r = true → key r = k)
    (hunique : ∀ r ∈ rows, ∀ r' ∈ rows, key r = key r' → r = r') :
    project key view rows' k' =
      if k' = k then (project key view rows k').map g else project key view rows k' := by
  rw [project, h.map, find?_map_apply hkey, Option.map_map, project]
  cases hfind : rows.find? (fun r => key r = k') with
  | none => simp
  | some r =>
    have hr : r ∈ rows := List.mem_of_find?_eq_some hfind
    have hrk : key r = k' := by simpa using List.find?_some hfind
    simp only [Option.map_some, Function.comp_def, Update.apply]
    by_cases hk : k' = k
    · rw [if_pos hk]
      obtain ⟨old, hold, hg⟩ := h.found
      rw [hunique r hr old hold (hrk.trans (hk.trans (hguard old hold hg).symm)), if_pos hg,
        hview old hg]
    · rw [if_neg hk, if_neg fun hg => hk (hrk.symm.trans (hguard r hr hg))]

theorem project_concat {r : ρ} (hnew : ∀ x ∈ rows, key x ≠ key r) :
    project key view (rows ++ [r]) k =
      if k = key r then some (view r) else project key view rows k := by
  rw [project, List.find?_append, project]
  by_cases hk : k = key r
  · have hnone : rows.find? (fun r => key r = k) = none := by
      simpa [hk] using hnew
    rw [hnone, if_pos hk]
    simp [hk]
  · simp [hk, Ne.symm hk]

omit [DecidableEq κ] in
theorem Table.key_ne_of_concat [Constrained ρ] (key : ρ → κ) {t : Table ρ} {r : ρ}
    (ht : t.rows = rows ++ [r]) (hclash : ∀ a b, key a = key b → Constrained.clash a b = true) :
    ∀ x ∈ rows, key x ≠ key r := by
  have hdistinct := t.pairwise_key_ne key hclash
  rw [ht, List.pairwise_append] at hdistinct
  exact fun x hx => hdistinct.2.2 x hx r (List.mem_singleton_self r)

end Project

end IdentityService.Lib
