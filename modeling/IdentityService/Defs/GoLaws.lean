import IdentityService.Defs.Go
import Mathlib.Data.List.TakeWhile

/-! Cutting white space and characters off byte strings. -/

namespace IdentityService

namespace Go

attribute [local grind =] cutSpace cutSpaceReversed cutRune isContinuation

section CutWhile

variable {cut : Bytes → Option Bytes}

structure Cuts (cut : Bytes → Option Bytes) : Prop where
  nil : cut [] = none
  split : ∀ b rest, cut b = some rest → ∃ w, cut w = some [] ∧ w ++ rest = b
  append : ∀ b rest c, cut b = some rest → cut (b ++ c) = some (rest ++ c)

theorem Cuts.length_lt (h : Cuts cut) {b rest : Bytes} (hb : cut b = some rest) :
    rest.length < b.length := by
  obtain ⟨w, hw, rfl⟩ := h.split b rest hb
  cases w with
  | nil =>
    rw [h.nil] at hw
    cases hw
  | cons x w =>
    rw [List.length_append, List.length_cons]
    omega

theorem cutWhile_of_none {n : Nat} {b : Bytes} (h : cut b = none) : cutWhile cut n b = b := by
  cases n with
  | zero => rfl
  | succ n => rw [cutWhile, h]

theorem cutWhile_keeps {P : Bytes → Prop} (hP : ∀ b rest, P b → cut b = some rest → P rest)
    {n : Nat} {b : Bytes} (hb : P b) : P (cutWhile cut n b) := by
  induction n generalizing b with
  | zero => exact hb
  | succ n ih =>
    rw [cutWhile]
    cases h : cut b with
    | none => exact hb
    | some rest => exact ih (hP b rest hb h)

theorem cut_cutWhile (h : Cuts cut) {n : Nat} {b : Bytes} (hn : b.length ≤ n) :
    cut (cutWhile cut n b) = none := by
  induction n generalizing b with
  | zero =>
    rw [List.length_eq_zero_iff.1 (Nat.le_zero.1 hn)]
    exact h.nil
  | succ n ih =>
    rw [cutWhile]
    cases hb : cut b with
    | none => exact hb
    | some rest =>
      have := h.length_lt hb
      exact ih (by omega)

end CutWhile

theorem cuts_cutRune : Cuts cutRune where
  nil := rfl
  split b rest h := by
    unfold cutRune at h
    repeat' split at h
    all_goals cases h
    · exact ⟨[_], by grind, rfl⟩
    · exact ⟨[_, _], by grind, rfl⟩
    · exact ⟨[_, _, _], by grind, rfl⟩
    · exact ⟨[_, _, _, _], by grind, rfl⟩
  append b rest c h := by
    unfold cutRune at h
    repeat' split at h
    all_goals cases h
    · simp [cutRune, *]
    all_goals grind

theorem cuts_cutSpace : Cuts cutSpace where
  nil := rfl
  split b rest h := by
    unfold cutSpace at h
    repeat' split at h
    all_goals cases h
    · exact ⟨[_, _], by grind, rfl⟩
    · exact ⟨[_, _, _], by grind, rfl⟩
    · exact ⟨[_, _, _], by grind, rfl⟩
    · exact ⟨[_, _, _], by grind, rfl⟩
    · exact ⟨[_, _, _], by grind, rfl⟩
    · exact ⟨[_], by grind, rfl⟩
  append b rest c h := by
    unfold cutSpace at h
    repeat' split at h
    all_goals cases h
    all_goals grind

theorem cutSpaceReversed_split {b rest : Bytes} (h : cutSpaceReversed b = some rest) :
    ∃ w, cutSpace w = some [] ∧ w.reverse ++ rest = b := by
  unfold cutSpaceReversed at h
  repeat' split at h
  all_goals cases h
  · exact ⟨[0xC2, 0x85], rfl, rfl⟩
  · exact ⟨[0xC2, 0xA0], rfl, rfl⟩
  · exact ⟨[0xE1, 0x9A, 0x80], rfl, rfl⟩
  · exact ⟨[0xE2, 0x81, 0x9F], rfl, rfl⟩
  · exact ⟨[0xE3, 0x80, 0x80], rfl, rfl⟩
  · exact ⟨[0xE2, 0x80, _], by grind, rfl⟩
  · exact ⟨[_], by grind, rfl⟩
  · exact ⟨[_], by grind, rfl⟩

theorem lt_of_mem_asciiSpace :
    ∀ b ∈ [(0x09 : UInt8), 0x0A, 0x0B, 0x0C, 0x0D, 0x20], b < 0x80 := by simp

theorem cutSpaceReversed_ascii {b : UInt8} (hb : b ∈ [0x09, 0x0A, 0x0B, 0x0C, 0x0D, 0x20])
    (rest : Bytes) : cutSpaceReversed (b :: rest) = some rest := by
  have hlt := lt_of_mem_asciiSpace b hb
  unfold cutSpaceReversed
  split <;> grind

theorem cuts_cutSpaceReversed : Cuts cutSpaceReversed where
  nil := rfl
  split b rest h := by
    unfold cutSpaceReversed at h
    repeat' split at h
    all_goals cases h
    · exact ⟨[_, _], rfl, rfl⟩
    · exact ⟨[_, _], rfl, rfl⟩
    · exact ⟨[_, _, _], rfl, rfl⟩
    · exact ⟨[_, _, _], rfl, rfl⟩
    · exact ⟨[_, _, _], rfl, rfl⟩
    · exact ⟨[_, _, _], by grind, rfl⟩
    · exact ⟨[_], by grind, rfl⟩
    · exact ⟨[_], by grind, rfl⟩
  append b rest c h := by
    unfold cutSpaceReversed at h
    repeat' split at h
    all_goals cases h
    all_goals grind [cutSpaceReversed_ascii]

theorem cutRune_of_cutSpace {w : Bytes} (h : cutSpace w = some []) : cutRune w = some [] := by
  have hascii := lt_of_mem_asciiSpace
  unfold cutSpace at h
  repeat' split at h
  all_goals cases h
  all_goals grind

theorem isContinuation_of_cutRune {w : Bytes} (h : cutRune w = some []) :
    ∃ b t, w = b :: t ∧ isContinuation b = false ∧ ∀ x ∈ t, isContinuation x = true := by
  unfold cutRune at h
  repeat' split at h
  all_goals cases h
  all_goals refine ⟨_, _, rfl, ?_, ?_⟩
  all_goals grind

theorem ne_nil_of_cutRune {w rest : Bytes} (h : cutRune w = some rest) : w ≠ [] := by
  rintro rfl
  cases h

theorem validString_iff {b : Bytes} : validString b = true ↔
    ∃ runes : List Bytes, (∀ r ∈ runes, cutRune r = some []) ∧ b = runes.flatten := by
  have hcut : ∀ n b, cutWhile cutRune n b = [] →
      ∃ runes : List Bytes, (∀ r ∈ runes, cutRune r = some []) ∧ b = runes.flatten := by
    intro n
    induction n with
    | zero =>
      rintro b rfl
      exact ⟨[], by simp, rfl⟩
    | succ n ih =>
      intro b hb
      rw [cutWhile] at hb
      cases h : cutRune b with
      | none =>
        rw [h] at hb
        exact ⟨[], by simp, hb⟩
      | some rest =>
        rw [h] at hb
        obtain ⟨w, hw, rfl⟩ := cuts_cutRune.split b rest h
        obtain ⟨runes, hrunes, rfl⟩ := ih rest hb
        exact ⟨w :: runes, List.forall_mem_cons.2 ⟨hw, hrunes⟩, rfl⟩
  have hflatten : ∀ (runes : List Bytes) n, (∀ r ∈ runes, cutRune r = some []) →
      runes.flatten.length ≤ n → cutWhile cutRune n runes.flatten = [] := by
    intro runes
    induction runes with
    | nil => exact fun n _ _ => cutWhile_of_none rfl
    | cons w runes ih =>
      intro n hrunes hn
      obtain ⟨hw, hrunes⟩ := List.forall_mem_cons.1 hrunes
      have hpos := List.length_pos_iff.2 (ne_nil_of_cutRune hw)
      rw [List.flatten_cons, List.length_append] at hn
      obtain ⟨n, rfl⟩ := Nat.exists_eq_add_one_of_ne_zero (n := n) (by omega)
      rw [List.flatten_cons, cutWhile, cuts_cutRune.append w [] _ hw]
      exact ih n hrunes (by omega)
  rw [validString, decide_eq_true_eq]
  constructor
  · exact hcut b.length b
  · rintro ⟨runes, hrunes, rfl⟩
    exact hflatten runes _ hrunes (Nat.le_refl _)

theorem validString_of_cutRune {b rest : Bytes} (hb : validString b = true)
    (h : cutRune b = some rest) : validString rest = true := by
  obtain ⟨runes, hrunes, rfl⟩ := validString_iff.1 hb
  cases runes with
  | nil => cases h
  | cons w runes =>
    obtain ⟨hw, hrunes⟩ := List.forall_mem_cons.1 hrunes
    rw [List.flatten_cons, cuts_cutRune.append w [] _ hw] at h
    cases h
    exact validString_iff.2 ⟨runes, hrunes, rfl⟩

theorem validString_of_append {b w : Bytes} (hb : validString (b ++ w) = true)
    (hw : cutRune w = some []) : validString b = true := by
  obtain ⟨x, t, rfl, hx, -⟩ := isContinuation_of_cutRune hw
  obtain ⟨runes, hrunes, heq⟩ := validString_iff.1 hb
  clear hb hw
  induction runes generalizing b with
  | nil => simp at heq
  | cons r runes ih =>
    obtain ⟨hr, hrunes⟩ := List.forall_mem_cons.1 hrunes
    rw [List.flatten_cons, List.append_eq_append_iff] at heq
    obtain ⟨c, rfl, hc⟩ | ⟨c, rfl, hc⟩ := heq
    · -- The text ends within the first character, so at one of its ends.
      cases c with
      | nil => exact validString_iff.2 ⟨[b], by simpa using hr, by simp⟩
      | cons y c =>
        obtain ⟨rfl, -⟩ := List.cons.inj hc
        cases b with
        | nil => rfl
        | cons z b =>
          obtain ⟨z', t', heq, -, hcont⟩ := isContinuation_of_cutRune hr
          obtain ⟨-, rfl⟩ := List.cons.inj heq
          rw [hcont x (by simp)] at hx
          cases hx
    · obtain ⟨runes', hrunes', rfl⟩ := validString_iff.1 (ih hrunes hc.symm)
      exact validString_iff.2 ⟨r :: runes', List.forall_mem_cons.2 ⟨hr, hrunes'⟩, rfl⟩

theorem eq_take_flatten {runes : List Bytes} (hrunes : ∀ r ∈ runes, cutRune r = some [])
    {b : Bytes} (hb : validString b = true) (h : b <+: runes.flatten) :
    ∃ k, b = (runes.take k).flatten := by
  obtain ⟨runes', hrunes', rfl⟩ := validString_iff.1 hb
  clear hb
  induction runes' generalizing runes with
  | nil => exact ⟨0, rfl⟩
  | cons w' runes' ih =>
    obtain ⟨hw', hrunes'⟩ := List.forall_mem_cons.1 hrunes'
    obtain ⟨rest, hrest⟩ := h
    rw [List.flatten_cons, List.append_assoc] at hrest
    cases runes with
    | nil =>
      cases ne_nil_of_cutRune hw' (List.append_eq_nil_iff.1 hrest).1
    | cons w runes =>
      obtain ⟨hw, hrunes⟩ := List.forall_mem_cons.1 hrunes
      have hsame : runes'.flatten ++ rest = runes.flatten := by
        have hcut := cuts_cutRune.append w' [] (runes'.flatten ++ rest) hw'
        rw [hrest, List.flatten_cons, cuts_cutRune.append w [] _ hw] at hcut
        exact (Option.some.inj hcut).symm
      obtain ⟨k, hk⟩ := ih hrunes hrunes' ⟨rest, hsame⟩
      rw [hsame, List.flatten_cons, List.append_cancel_right_eq] at hrest
      refine ⟨k + 1, ?_⟩
      rw [List.take_succ_cons, List.flatten_cons, List.flatten_cons, hk, hrest]

theorem length_le_of_cutRune {w : Bytes} (h : cutRune w = some []) : w.length ≤ 4 := by
  unfold cutRune at h
  repeat' split at h
  all_goals cases h
  all_goals simp

theorem validString_trimSpaceBytes {b : Bytes} (hb : validString b = true) :
    validString (trimSpaceBytes b) = true := by
  have hleft : ∀ n, validString (cutWhile cutSpace n b) = true := fun n =>
    cutWhile_keeps (P := fun b => validString b = true) (fun b rest hb h => by
      obtain ⟨w, hw, rfl⟩ := cuts_cutSpace.split b rest h
      exact validString_of_cutRune hb (cuts_cutRune.append w [] rest (cutRune_of_cutSpace hw))) hb
  refine cutWhile_keeps (P := fun b => validString b.reverse = true) (fun b rest hb h => ?_) ?_
  · obtain ⟨w, hw, rfl⟩ := cutSpaceReversed_split h
    rw [List.reverse_append, List.reverse_reverse] at hb
    exact validString_of_append hb (cutRune_of_cutSpace hw)
  · rw [List.reverse_reverse]
    exact hleft _

theorem trimSpaceBytes_idem (b : Bytes) : trimSpaceBytes (trimSpaceBytes b) = trimSpaceBytes b := by
  have hright : cutSpaceReversed (trimSpaceBytes b).reverse = none := by
    rw [trimSpaceBytes, List.reverse_reverse]
    exact cut_cutWhile cuts_cutSpaceReversed (by simp)
  have hleft : cutSpace (trimSpaceBytes b) = none := by
    refine cutWhile_keeps (P := fun b => cutSpace b.reverse = none) (fun b rest hb h => ?_) ?_
    · -- White space in front of what is left was in front of the whole.
      obtain ⟨w, -, rfl⟩ := cutSpaceReversed_split h
      cases hrest : cutSpace rest.reverse with
      | none => rfl
      | some r =>
        rw [List.reverse_append, cuts_cutSpace.append _ _ _ hrest] at hb
        cases hb
    · rw [List.reverse_reverse]
      exact cut_cutWhile cuts_cutSpace (Nat.le_refl _)
  rw [trimSpaceBytes, cutWhile_of_none hleft, cutWhile_of_none hright, List.reverse_reverse]

theorem trimSpace_around {left middle right : List Char} (hleft : ∀ c ∈ left, isSpace c = true)
    (hmiddle : ∀ c ∈ middle, isSpace c = false) (hright : ∀ c ∈ right, isSpace c = true) :
    trimSpace (String.ofList (left ++ middle ++ right)) = String.ofList middle := by
  rw [trimSpace, String.toList_ofList, List.append_assoc, List.dropWhile_append_of_pos hleft]
  cases middle with
  | nil =>
    rw [List.nil_append, List.dropWhile_eq_nil_iff.2 hright]
    rfl
  | cons c middle =>
    have hc := hmiddle c (.head _)
    rw [List.cons_append, List.dropWhile_cons_of_neg (by simp [hc]), ← List.cons_append,
      List.reverse_append, List.dropWhile_append_of_pos (by simpa using hright)]
    cases hlast : (c :: middle).reverse with
    | nil => simp at hlast
    | cons d rest =>
      have hd := hmiddle d (List.mem_reverse.1 (hlast ▸ List.mem_cons_self))
      rw [List.dropWhile_cons_of_neg (by simp [hd]), ← hlast, List.reverse_reverse]

theorem exists_trimSpace (s : String) : ∃ left right, (∀ c ∈ left, isSpace c = true) ∧
    (∀ c ∈ right, isSpace c = true) ∧ s.toList = left ++ (trimSpace s).toList ++ right := by
  refine ⟨s.toList.takeWhile isSpace,
    ((s.toList.dropWhile isSpace).reverse.takeWhile isSpace).reverse,
    fun c hc => List.mem_takeWhile_imp hc,
    fun c hc => List.mem_takeWhile_imp (List.mem_reverse.1 hc), ?_⟩
  rw [trimSpace, String.toList_ofList, List.append_assoc, ← List.reverse_append,
    List.takeWhile_append_dropWhile, List.reverse_reverse, List.takeWhile_append_dropWhile]

end Go

section Truncate

variable {value : Bytes} {n : Nat}

theorem shrink_le : truncateUTF8.shrink value n ≤ n := by
  induction n with
  | zero => exact Nat.le_refl 0
  | succ n ih =>
    rw [truncateUTF8.shrink]
    split
    · exact Nat.le_refl _
    · exact Nat.le_succ_of_le ih

theorem validString_take_shrink :
    Go.validString (value.take (truncateUTF8.shrink value n)) = true := by
  induction n with
  | zero => rfl
  | succ n ih =>
    rw [truncateUTF8.shrink]
    split
    · assumption
    · exact ih

theorem length_truncateUTF8 : (truncateUTF8 value n).length ≤ n := by
  rw [truncateUTF8]
  split
  · assumption
  · exact Nat.le_trans (List.length_take_le _ _) shrink_le

theorem le_shrink {k : Nat} (hk : k ≤ n) (hvalid : Go.validString (value.take k) = true) :
    k ≤ truncateUTF8.shrink value n := by
  induction n with
  | zero => exact hk
  | succ n ih =>
    rw [truncateUTF8.shrink]
    split
    · exact hk
    · rename_i hcut
      obtain hlt | rfl := Nat.lt_or_eq_of_le hk
      · exact ih (Nat.le_of_lt_succ hlt)
      · cases hcut hvalid

theorem exists_boundary {runes : List Bytes} (hrunes : ∀ r ∈ runes, Go.cutRune r = some [])
    (hn : n < runes.flatten.length) :
    ∃ k, (runes.take k).flatten.length ≤ n ∧ n ≤ (runes.take k).flatten.length + 3 := by
  induction runes generalizing n with
  | nil => cases hn
  | cons w runes ih =>
    obtain ⟨hw, hrunes⟩ := List.forall_mem_cons.1 hrunes
    have hlength := Go.length_le_of_cutRune hw
    rw [List.flatten_cons, List.length_append] at hn
    by_cases hfits : w.length ≤ n
    · obtain ⟨k, hle, hge⟩ := @ih (n - w.length) hrunes (by omega)
      refine ⟨k + 1, ?_⟩
      rw [List.take_succ_cons, List.flatten_cons, List.length_append]
      omega
    · refine ⟨0, ?_⟩
      rw [List.take_zero, List.flatten_nil, List.length_nil]
      omega

theorem truncateUTF8_isPrefix : truncateUTF8 value n <+: value := by
  rw [truncateUTF8]
  split
  · exact List.prefix_refl value
  · exact List.take_prefix _ value

theorem isPrefix_truncateUTF8 {p : Bytes} (hp : p <+: value) (hvalid : Go.validString p = true)
    (hn : p.length ≤ n) : p <+: truncateUTF8 value n := by
  rw [truncateUTF8]
  split
  · exact hp
  · have htake : value.take p.length = p := (List.prefix_iff_eq_take.1 hp).symm
    have hle := @le_shrink value n p.length hn (by rw [htake]; exact hvalid)
    rw [← htake]
    exact List.take_prefix_take_left hle

theorem truncateUTF8_of_length_le (h : value.length ≤ n) : truncateUTF8 value n = value :=
  if_pos h

theorem validString_truncateUTF8 : Go.validString (truncateUTF8 value n) = true ↔
    Go.validString value = true ∨ n < value.length := by
  rw [truncateUTF8]
  split
  case isTrue h => simp [Nat.not_lt.2 h]
  case isFalse h => simp [validString_take_shrink, Nat.not_le.1 h]

end Truncate

end IdentityService
