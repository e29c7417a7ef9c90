import Mathlib.Data.List.AList

/-! Signatures, and rings of public keys that verify them by the name of a key. -/

namespace IdentityService.Lib

/-- A signature is accepted under the public half of the key that made it and under no other. -/
structure Scheme (S P M T : Type) where
  publicKey : S → P
  sign : S → M → T
  verify : P → M → T → Bool
  verify_sign : ∀ s p m, verify p m (sign s m) = true ↔ p = publicKey s

abbrev KeyRing (κ P : Type) : Type := AList (fun _ : κ => P)

namespace KeyRing

variable {κ P : Type} [DecidableEq κ]

def key (ring : KeyRing κ P) (name : κ) : Option P := ring.lookup name

def addAll (ring : KeyRing κ P) (keys : List (κ × P)) : KeyRing κ P :=
  keys.foldl (fun ring key => ring.insert key.1 key.2) ring

def newest (name : κ) : List (κ × P) → Option P
  | [] => none
  | key :: later => (newest name later).or (if key.1 = name then some key.2 else none)

@[simp] theorem key_singleton (name : κ) (p : P) :
    key (AList.singleton name p : KeyRing κ P) name = some p := by
  rw [key, ← AList.insert_empty, AList.lookup_insert]

theorem key_insert (ring : KeyRing κ P) (name name' : κ) (p : P) :
    key (ring.insert name p) name' = if name = name' then some p else ring.key name' := by
  split
  · rename_i hname
    rw [key, ← hname, AList.lookup_insert]
  · rename_i hname
    exact AList.lookup_insert_ne (Ne.symm hname)

theorem key_addAll (ring : KeyRing κ P) (keys : List (κ × P)) (name : κ) :
    (ring.addAll keys).key name = (newest name keys).or (ring.key name) := by
  induction keys generalizing ring with
  | nil => rfl
  | cons k later ih =>
    rw [addAll, List.foldl_cons, ← addAll, ih, newest, Option.or_assoc, key_insert]
    congr 1
    split <;> rfl

theorem mem_of_newest {name : κ} {p : P} {keys : List (κ × P)} (h : newest name keys = some p) :
    (name, p) ∈ keys := by
  induction keys with
  | nil => cases h
  | cons k later ih =>
    rw [newest, Option.or_eq_some_iff] at h
    obtain h | ⟨-, h⟩ := h
    · exact List.mem_cons_of_mem _ (ih h)
    · split at h
      · rename_i hname
        cases h
        cases hname
        exact List.mem_cons_self
      · cases h

theorem newest_of_nodup {keys : List (κ × P)} (hnodup : (keys.map Prod.fst).Nodup)
    {name : κ} {p : P} (hmem : (name, p) ∈ keys) : newest name keys = some p := by
  induction keys with
  | nil => cases hmem
  | cons k later ih =>
    rw [List.map_cons, List.nodup_cons] at hnodup
    rw [newest, Option.or_eq_some_iff]
    obtain rfl | hmem := List.mem_cons.1 hmem
    · -- No later key has the name.
      refine .inr ⟨Option.eq_none_iff_forall_ne_some.2 fun q hq => ?_, if_pos rfl⟩
      exact hnodup.1 (List.mem_map.2 ⟨(name, q), mem_of_newest hq, rfl⟩)
    · exact .inl (ih hnodup.2 hmem)

end KeyRing

end IdentityService.Lib
