import IdentityService.Defs.GoLaws

/-! White space around byte strings, and the same for text. -/

namespace IdentityService.Go

def WhiteSpace (b : Bytes) : Prop :=
  ∃ ws : List Bytes, (∀ w ∈ ws, cutSpace w = some []) ∧ b = ws.flatten

theorem whiteSpace_nil : WhiteSpace [] := ⟨[], by simp, rfl⟩

theorem WhiteSpace.append {a b : Bytes} (ha : WhiteSpace a) (hb : WhiteSpace b) :
    WhiteSpace (a ++ b) := by
  obtain ⟨ws, hws, rfl⟩ := ha
  obtain ⟨ws', hws', rfl⟩ := hb
  exact ⟨ws ++ ws', by simpa [or_imp, forall_and] using ⟨hws, hws'⟩, by simp⟩

theorem cutSpaceReversed_reverse {w : Bytes} (h : cutSpace w = some []) (rest : Bytes) :
    cutSpaceReversed (w.reverse ++ rest) = some rest := by
  have hascii := fun b hb => cutSpaceReversed_ascii (b := b) hb rest
  unfold cutSpace at h
  repeat' split at h
  all_goals cases h
  all_goals grind [cutSpaceReversed]

section Words

variable {cut : Bytes → Option Bytes} {ws : List Bytes} {x : Bytes}

theorem cutWhile_words (hws : ∀ w ∈ ws, ∀ y, cut (w ++ y) = some y) (hnil : ∀ w ∈ ws, w ≠ [])
    (hx : cut x = none) {n : Nat} (hn : (ws.flatten ++ x).length ≤ n) :
    cutWhile cut n (ws.flatten ++ x) = x := by
  induction ws generalizing n with
  | nil => exact cutWhile_of_none hx
  | cons w ws ih =>
    obtain ⟨hw, hws⟩ := List.forall_mem_cons.1 hws
    obtain ⟨hne, hnil⟩ := List.forall_mem_cons.1 hnil
    have hpos := List.length_pos_iff.2 hne
    rw [List.flatten_cons, List.append_assoc, List.length_append] at hn
    obtain ⟨n, rfl⟩ := Nat.exists_eq_add_one_of_ne_zero (n := n) (by omega)
    rw [List.flatten_cons, List.append_assoc, cutWhile, hw]
    exact ih hws hnil (by omega)

end Words

theorem ne_nil_of_cutSpace {w rest : Bytes} (h : cutSpace w = some rest) : w ≠ [] := by
  rintro rfl
  cases h

theorem cutWhile_cutSpace_whiteSpace {b x : Bytes} (hb : WhiteSpace b) (hx : cutSpace x = none)
    {n : Nat} (hn : (b ++ x).length ≤ n) : cutWhile cutSpace n (b ++ x) = x := by
  obtain ⟨ws, hws, rfl⟩ := hb
  exact cutWhile_words (fun w hw y => cuts_cutSpace.append w [] y (hws w hw))
    (fun w hw => ne_nil_of_cutSpace (hws w hw)) hx hn

theorem cutWhile_cutSpaceReversed_whiteSpace {b x : Bytes} (hb : WhiteSpace b)
    (hx : cutSpaceReversed x = none) {n : Nat} (hn : (b.reverse ++ x).length ≤ n) :
    cutWhile cutSpaceReversed n (b.reverse ++ x) = x := by
  obtain ⟨ws, hws, rfl⟩ := hb
  rw [List.reverse_flatten] at hn ⊢
  refine cutWhile_words (fun w hw y => ?_) (fun w hw => ?_) hx hn
  · obtain ⟨v, hv, rfl⟩ : ∃ v ∈ ws, v.reverse = w := by simpa using hw
    exact cutSpaceReversed_reverse (hws v hv) y
  · obtain ⟨v, hv, rfl⟩ : ∃ v ∈ ws, v.reverse = w := by simpa using hw
    simpa using ne_nil_of_cutSpace (hws v hv)

theorem WhiteSpace.head {b : Bytes} (hb : WhiteSpace b) :
    ∀ x ∈ b.head?, isContinuation x = false := by
  obtain ⟨ws, hws, rfl⟩ := hb
  cases ws with
  | nil => simp
  | cons w ws =>
    obtain ⟨x, t, rfl, hx, -⟩ := isContinuation_of_cutRune (cutRune_of_cutSpace (hws w (.head _)))
    simpa using hx

theorem cutSpace_append_eq_none {x y : Bytes} (hne : x ≠ []) (hx : cutSpace x = none)
    (hy : ∀ b ∈ y.head?, isContinuation b = false) : cutSpace (x ++ y) = none := by
  cases hcut : cutSpace (x ++ y) with
  | none => rfl
  | some rest =>
    obtain ⟨w, hw, heq⟩ := cuts_cutSpace.split _ _ hcut
    obtain ⟨c, rfl, rfl⟩ | ⟨c, rfl, hc⟩ := List.append_eq_append_iff.1 heq
    · rw [cuts_cutSpace.append w [] c hw] at hx
      cases hx
    · -- The white space ends within `y`, so that `y` begins with the rest of a character.
      obtain ⟨b, t, hwt, -, hcont⟩ := isContinuation_of_cutRune (cutRune_of_cutSpace hw)
      cases c with
      | nil =>
        rw [List.append_nil] at hw
        rw [hw] at hx
        cases hx
      | cons z c =>
        obtain ⟨a, x, rfl⟩ := List.exists_cons_of_ne_nil hne
        obtain ⟨-, rfl⟩ := List.cons.inj hwt
        have hz : isContinuation z = true := hcont z (List.mem_append_right x (.head c))
        rw [hy z (by simp [hc])] at hz
        cases hz

theorem lead_at_end_unique {a b t t' : Bytes} {x y : UInt8} (hx : isContinuation x = false)
    (hy : isContinuation y = false) (ht : ∀ z ∈ t, isContinuation z = true)
    (ht' : ∀ z ∈ t', isContinuation z = true) (h : a ++ x :: t = b ++ y :: t') :
    x :: t = y :: t' := by
  obtain ⟨c, rfl, hc⟩ | ⟨c, rfl, hc⟩ := List.append_eq_append_iff.1 h
  · cases c with
    | nil => exact hc
    | cons z c =>
      obtain ⟨rfl, rfl⟩ := List.cons.inj hc
      rw [ht y (List.mem_append_right c (.head t'))] at hy
      cases hy
  · cases c with
    | nil => exact hc.symm
    | cons z c =>
      obtain ⟨rfl, rfl⟩ := List.cons.inj hc
      rw [ht' x (List.mem_append_right c (.head t))] at hx
      cases hx

theorem rune_at_end_unique {a b u v : Bytes} (hu : cutRune u = some []) (hv : cutRune v = some [])
    (h : a ++ u = b ++ v) : u = v := by
  obtain ⟨x, t, rfl, hx, ht⟩ := isContinuation_of_cutRune hu
  obtain ⟨y, t', rfl, hy, ht'⟩ := isContinuation_of_cutRune hv
  exact lead_at_end_unique hx hy ht ht' h

theorem cutSpaceReversed_append_eq_none {x a u : Bytes} (hne : x ≠ [])
    (hx : cutSpaceReversed x.reverse = none) (hu : cutRune u = some []) :
    cutSpaceReversed (a ++ u ++ x).reverse = none := by
  cases hcut : cutSpaceReversed (a ++ u ++ x).reverse with
  | none => rfl
  | some rest =>
    obtain ⟨w, hw, heq⟩ := cutSpaceReversed_split hcut
    have hends : a ++ u ++ x = rest.reverse ++ w := by
      rw [← List.reverse_inj, ← heq, List.reverse_append, List.reverse_reverse]
    obtain ⟨c, hc, rfl⟩ | ⟨c, hc, rfl⟩ := List.append_eq_append_iff.1 hends
    · rw [List.reverse_append, cutSpaceReversed_reverse hw] at hx
      cases hx
    · -- The white space would begin within the character before.
      cases c with
      | nil =>
        have hcut := cutSpaceReversed_reverse hw []
        rw [List.nil_append, List.append_nil, hx] at hcut
        cases hcut
      | cons z c =>
        obtain ⟨y, t, hyt, hy, ht⟩ := isContinuation_of_cutRune (cutRune_of_cutSpace hw)
        obtain ⟨rfl, rfl⟩ := List.cons.inj hyt
        obtain ⟨y', t', rfl, hy', ht'⟩ := isContinuation_of_cutRune hu
        have hlead :=
          lead_at_end_unique hy' hy ht' (fun v hv => ht v (List.mem_append_left x hv)) hc
        rw [hlead] at hu
        have hwhole := cuts_cutRune.append _ [] x hu
        rw [cutRune_of_cutSpace hw] at hwhole
        cases hne (Option.some.inj hwhole).symm

theorem cutSpace_visible {x : UInt8} (hx : 0x20 < x ∧ x < 0x7F) (rest : Bytes) :
    cutSpace (x :: rest) = none ∧ cutSpaceReversed (x :: rest) = none := by
  constructor
  · unfold cutSpace
    split <;> grind
  · unfold cutSpaceReversed
    split <;> grind

theorem trimSpaceBytes_around {left middle right : Bytes} (hleft : WhiteSpace left)
    (hright : WhiteSpace right) (hfront : cutSpace middle = none)
    (hback : cutSpaceReversed middle.reverse = none) :
    trimSpaceBytes (left ++ middle ++ right) = middle := by
  rw [trimSpaceBytes]
  by_cases hne : middle = []
  · subst hne
    have hall : cutWhile cutSpace (left ++ [] ++ right).length (left ++ [] ++ right) = [] := by
      have := cutWhile_cutSpace_whiteSpace (hleft.append hright) (x := []) rfl (Nat.le_refl _)
      simpa using this
    rw [hall]
    rfl
  · have hlater : cutSpace (middle ++ right) = none :=
      cutSpace_append_eq_none hne hfront hright.head
    rw [List.append_assoc, cutWhile_cutSpace_whiteSpace hleft hlater (Nat.le_refl _),
      List.reverse_append, cutWhile_cutSpaceReversed_whiteSpace hright hback (by simp; omega),
      List.reverse_reverse]

section Text

theorem cutRune_utf8EncodeChar (c : Char) : cutRune (String.utf8EncodeChar c) = some [] := by
  have hvalid : c.val.toNat < 0xD800 ∨ 0xDFFF < c.val.toNat ∧ c.val.toNat < 0x110000 := c.valid
  have hbyte : ∀ n < 256, (UInt8.ofNat n).toNat = n := fun n hn => by
    rw [UInt8.toNat_ofNat', Nat.mod_eq_of_lt hn]
  unfold String.utf8EncodeChar
  generalize c.val.toNat = v at hvalid
  simp only [cutRune, isContinuation, UInt8.le_iff_toNat_le, UInt8.lt_iff_toNat_lt,
    ← UInt8.toNat_inj, UInt8.reduceToNat]
  split_ifs with h1 h2 h3
  · simp only [hbyte v (by omega)]
    grind
  · simp only [hbyte (v / 64 % 32 + 192) (by omega), hbyte (v % 64 + 128) (by omega)]
    grind
  · simp only [hbyte (v / 4096 % 16 + 224) (by omega), hbyte (v / 64 % 64 + 128) (by omega),
      hbyte (v % 64 + 128) (by omega)]
    grind
  · simp only [hbyte (v / 262144 % 8 + 240) (by omega), hbyte (v / 4096 % 64 + 128) (by omega),
      hbyte (v / 64 % 64 + 128) (by omega), hbyte (v % 64 + 128) (by omega)]
    grind

theorem utf8EncodeChar_injective : Function.Injective String.utf8EncodeChar := by
  intro c d h
  have hc := ByteArray.utf8DecodeChar?_utf8EncodeChar_append (b := .empty) (c := c)
  rw [h, ByteArray.utf8DecodeChar?_utf8EncodeChar_append] at hc
  exact (Option.some.inj hc).symm

def spaces : List Nat :=
  [0x09, 0x0A, 0x0B, 0x0C, 0x0D, 0x20, 0x85, 0xA0, 0x1680, 0x2028, 0x2029, 0x202F, 0x205F,
    0x3000] ++ (List.range 11).map (0x2000 + ·)

theorem isSpace_iff {c : Char} : isSpace c = true ↔ c.toNat ∈ spaces := by
  simp only [isSpace, spaces, List.mem_append, Bool.or_eq_true, decide_eq_true_eq,
    Bool.and_eq_true, List.mem_map, List.mem_range]
  refine or_congr_right ⟨fun h => ⟨c.toNat - 0x2000, by omega, by omega⟩, ?_⟩
  rintro ⟨k, hk, heq⟩
  omega

theorem forall_byte {P : UInt8 → Prop} (h : ∀ k < 256, P (UInt8.ofNat k)) (b : UInt8) : P b := by
  simpa using h b.toNat b.toNat_lt

theorem exists_of_cutSpace {w : Bytes} (h : cutSpace w = some []) :
    ∃ n ∈ spaces, w = String.utf8EncodeChar (Char.ofNat n) := by
  have hone : ∀ b ∈ [(0x09 : UInt8), 0x0A, 0x0B, 0x0C, 0x0D, 0x20],
      ∃ n ∈ spaces, [b] = String.utf8EncodeChar (Char.ofNat n) := by decide +kernel
  have hthree : ∀ b : UInt8, (0x80 ≤ b ∧ b ≤ 0x8A) ∨ b = 0xA8 ∨ b = 0xA9 ∨ b = 0xAF →
      ∃ n ∈ spaces, [0xE2, 0x80, b] = String.utf8EncodeChar (Char.ofNat n) :=
    forall_byte (by decide +kernel)
  unfold cutSpace at h
  repeat' split at h
  all_goals cases h
  · rename_i hb
    obtain rfl | rfl := hb
    · exact ⟨0x85, by decide, by decide⟩
    · exact ⟨0xA0, by decide, by decide⟩
  · exact ⟨0x1680, by decide, by decide⟩
  · rename_i hb
    exact hthree _ hb
  · exact ⟨0x205F, by decide, by decide⟩
  · exact ⟨0x3000, by decide, by decide⟩
  · exact hone _ (by assumption)

theorem WhiteSpace.not_mem_comma {b : Bytes} (hb : WhiteSpace b) : 0x2C ∉ b := by
  have hspaces : ∀ n ∈ spaces, 0x2C ∉ String.utf8EncodeChar (Char.ofNat n) := by decide +kernel
  obtain ⟨ws, hws, rfl⟩ := hb
  intro h
  obtain ⟨w, hw, hcomma⟩ := List.mem_flatten.1 h
  obtain ⟨n, hn, rfl⟩ := exists_of_cutSpace (hws w hw)
  exact hspaces n hn hcomma

theorem cutSpace_utf8EncodeChar {c : Char} :
    cutSpace (String.utf8EncodeChar c) = some [] ↔ isSpace c = true := by
  have hspaces : ∀ n ∈ spaces, (Char.ofNat n).toNat ∈ spaces ∧
      cutSpace (String.utf8EncodeChar (Char.ofNat n)) = some [] := by decide +kernel
  rw [isSpace_iff]
  constructor
  · intro h
    obtain ⟨n, hn, heq⟩ := exists_of_cutSpace h
    rw [utf8EncodeChar_injective heq]
    exact (hspaces n hn).1
  · intro h
    have := (hspaces c.toNat h).2
    rwa [Char.ofNat_toNat] at this

theorem utf8_append (s t : List Char) :
    utf8 (String.ofList (s ++ t)) = utf8 (String.ofList s) ++ utf8 (String.ofList t) := by
  simp [utf8]

theorem whiteSpace_utf8 {s : List Char} (hs : ∀ c ∈ s, isSpace c = true) :
    WhiteSpace (utf8 (String.ofList s)) := by
  refine ⟨s.map String.utf8EncodeChar, ?_, by simp [utf8, List.flatMap]⟩
  rw [List.forall_mem_map]
  exact fun c hc => cutSpace_utf8EncodeChar.2 (hs c hc)

theorem cutSpace_utf8 {s : List Char} (hs : ∀ c ∈ s.head?, isSpace c = false) :
    cutSpace (utf8 (String.ofList s)) = none := by
  cases s with
  | nil => rfl
  | cons c s =>
    rw [utf8, String.toList_ofList, List.flatMap_cons]
    cases hcut : cutSpace (String.utf8EncodeChar c ++ s.flatMap String.utf8EncodeChar) with
    | none => rfl
    | some rest =>
      obtain ⟨w, hw, heq⟩ := cuts_cutSpace.split _ _ hcut
      have hrune := cuts_cutRune.append w [] rest (cutRune_of_cutSpace hw)
      rw [heq, cuts_cutRune.append _ [] _ (cutRune_utf8EncodeChar c)] at hrune
      obtain rfl : s.flatMap String.utf8EncodeChar = rest := Option.some.inj hrune
      rw [List.append_cancel_right_eq] at heq
      subst heq
      rw [cutSpace_utf8EncodeChar, hs c rfl] at hw
      cases hw

theorem cutSpaceReversed_utf8 {s : List Char} (hs : ∀ c ∈ s.getLast?, isSpace c = false) :
    cutSpaceReversed (utf8 (String.ofList s)).reverse = none := by
  cases hcut : cutSpaceReversed (utf8 (String.ofList s)).reverse with
  | none => rfl
  | some rest =>
    obtain ⟨w, hw, heq⟩ := cutSpaceReversed_split hcut
    obtain rfl | ⟨s, c, rfl⟩ := List.eq_nil_or_concat s
    · cases hcut
    · have hends : rest.reverse ++ w = utf8 (String.ofList s) ++ String.utf8EncodeChar c := by
        have hreverse := congrArg List.reverse heq
        simpa [utf8] using hreverse
      have := rune_at_end_unique (cutRune_of_cutSpace hw) (cutRune_utf8EncodeChar c) hends
      rw [this, cutSpace_utf8EncodeChar, hs c (by simp)] at hw
      cases hw

theorem trimSpaceBytes_utf8 (s : String) : trimSpaceBytes (utf8 s) = utf8 (trimSpace s) := by
  obtain ⟨left, right, hleft, hright, hs⟩ := exists_trimSpace s
  have hdrop : ∀ (l : List Char), ∀ c ∈ (l.dropWhile isSpace).head?, isSpace c = false := by
    intro l c hc
    have hhead := List.head?_dropWhile_not isSpace l
    rwa [hc] at hhead
  have hback : ∀ c ∈ (trimSpace s).toList.getLast?, isSpace c = false := by
    rw [trimSpace, String.toList_ofList, List.getLast?_reverse]
    exact hdrop _
  have hfront : ∀ c ∈ (trimSpace s).toList.head?, isSpace c = false := by
    -- What the second loop leaves begins as what the first one left.
    intro c hc
    refine hdrop s.toList c ?_
    rw [trimSpace, String.toList_ofList] at hc
    obtain ⟨t, ht⟩ := List.reverse_prefix.2
      (List.dropWhile_suffix isSpace (l := (s.toList.dropWhile isSpace).reverse))
    rw [List.reverse_reverse] at ht
    rw [← ht, List.head?_append, hc]
    rfl
  have htrim := trimSpaceBytes_around (whiteSpace_utf8 hleft) (whiteSpace_utf8 hright)
    (cutSpace_utf8 hfront) (cutSpaceReversed_utf8 hback)
  rwa [← utf8_append, ← utf8_append, ← hs, String.ofList_toList, String.ofList_toList] at htrim

end Text

end IdentityService.Go
