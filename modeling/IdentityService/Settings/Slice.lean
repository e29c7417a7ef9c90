import IdentityService.Defs.GoTrim
import IdentityService.Defs.Setting

/-! A list that is written into a variable is read back. -/

namespace IdentityService

/-- Values that can be written: other values would be split, or lose what they begin or end
with. -/
structure SliceValue (value : Bytes) : Prop where
  ne_nil : value ≠ []
  comma : 0x2C ∉ value
  bracket : value.head? ≠ some 0x5B
  quote : ∀ q ∈ [(0x22 : UInt8), 0x27], value.head? ≠ some q ∧ value.getLast? ≠ some q
  front : Go.cutSpace value = none
  back : Go.cutSpaceReversed value.reverse = none

structure Written where
  left : Bytes
  quote : Bytes
  right : Bytes
  left_white : Go.WhiteSpace left
  right_white : Go.WhiteSpace right
  quotes : quote = [] ∨ quote = [0x22] ∨ quote = [0x27]

theorem dropWhile_of_head {p : UInt8 → Prop} [DecidablePred p] {b : Bytes}
    (h : ∀ x, b.head? = some x → ¬p x) : b.dropWhile (fun x => p x) = b := by
  cases b with
  | nil => rfl
  | cons x b => exact List.dropWhile_cons_of_neg (by simpa using h x rfl)

namespace Written

def body (w : Written) (value : Bytes) : Bytes := w.quote ++ value ++ w.quote

def text (w : Written) (value : Bytes) : Bytes := w.left ++ w.body value ++ w.right

section Body

variable {w : Written} {value : Bytes} (h : SliceValue value)

include h

theorem body_ne_nil : w.body value ≠ [] := by
  simp [body, h.ne_nil]

theorem body_head : (w.body value).head? ≠ some 0x5B := by
  obtain hq | hq | hq := w.quotes
  · simpa [body, hq] using h.bracket
  · simp [body, hq]
  · simp [body, hq]

theorem cutSpace_body : Go.cutSpace (w.body value) = none := by
  obtain hq | hq | hq := w.quotes
  · simpa [body, hq] using h.front
  · simpa [body, hq] using (Go.cutSpace_visible (x := 0x22) (by decide) _).1
  · simpa [body, hq] using (Go.cutSpace_visible (x := 0x27) (by decide) _).1

theorem cutSpaceReversed_body : Go.cutSpaceReversed (w.body value).reverse = none := by
  obtain hq | hq | hq := w.quotes
  · simpa [body, hq] using h.back
  · simpa [body, hq] using (Go.cutSpace_visible (x := 0x22) (by decide) _).2
  · simpa [body, hq] using (Go.cutSpace_visible (x := 0x27) (by decide) _).2

theorem trimSpaceBytes_text : Go.trimSpaceBytes (w.text value) = w.body value :=
  Go.trimSpaceBytes_around w.left_white w.right_white (cutSpace_body h) (cutSpaceReversed_body h)

theorem trim_body : Go.trim [0x22, 0x27] (w.body value) = value := by
  have hquote : ∀ x ∈ w.quote, x ∈ [(0x22 : UInt8), 0x27] := by
    obtain hq | hq | hq := w.quotes <;> simp [hq]
  have hfront : value.dropWhile (· ∈ [(0x22 : UInt8), 0x27]) = value :=
    dropWhile_of_head fun x hx hmem => (h.quote x hmem).1 hx
  have hback : (value.reverse ++ w.quote.reverse).dropWhile (· ∈ [(0x22 : UInt8), 0x27]) =
      value.reverse ++ w.quote.reverse := by
    refine dropWhile_of_head fun x hx hmem => (h.quote x hmem).2 ?_
    rwa [List.head?_append_of_ne_nil _ (by simpa using h.ne_nil), List.head?_reverse] at hx
  rw [Go.trim, body, List.reverse_append, List.dropWhile_append_of_pos (by simpa using hquote),
    List.reverse_append, hback, List.reverse_append, List.reverse_reverse, List.reverse_reverse,
    List.dropWhile_append_of_pos (by simpa using hquote), hfront]

theorem comma_not_mem_text : 0x2C ∉ w.text value := by
  have hquote : 0x2C ∉ w.quote := by
    obtain hq | hq | hq := w.quotes <;> simp [hq]
  simp [text, body, hquote, h.comma, w.left_white.not_mem_comma, w.right_white.not_mem_comma]

end Body

end Written

def joined (elements : List (Written × Bytes)) : Bytes :=
  [0x2C].intercalate (elements.map (fun e => e.1.text e.2))

section Joined

variable {elements es : List (Written × Bytes)} {e : Written × Bytes}

theorem joined_cons : joined (e :: es) =
    e.1.text e.2 ++ (if es = [] then [] else 0x2C :: joined es) := by
  cases es with
  | nil => simp [joined]
  | cons d ds => simp [joined, List.intercalate_cons_cons]

theorem joined_concat : joined (es ++ [e]) =
    (if es = [] then [] else joined es ++ [0x2C]) ++ e.1.text e.2 := by
  induction es with
  | nil => simp [joined]
  | cons d ds ih =>
    rw [List.cons_append, joined_cons, ih]
    by_cases hds : ds = [] <;> simp [joined_cons, hds]

theorem cutSpaceReversed_after {pre left x : Bytes} (hpre : pre = [] ∨ ∃ a, pre = a ++ [0x2C])
    (hleft : Go.WhiteSpace left) (hne : x ≠ []) (hx : Go.cutSpaceReversed x.reverse = none) :
    Go.cutSpaceReversed (pre ++ left ++ x).reverse = none := by
  obtain ⟨ws, hws, rfl⟩ := hleft
  obtain rfl | ⟨ws, w, rfl⟩ := List.eq_nil_or_concat ws
  · obtain rfl | ⟨a, rfl⟩ := hpre
    · simpa using hx
    · simpa using Go.cutSpaceReversed_append_eq_none (a := a) (u := [0x2C]) hne hx (by decide)
  · have hw := Go.cutRune_of_cutSpace (hws w (by simp))
    simpa using Go.cutSpaceReversed_append_eq_none (a := pre ++ ws.flatten) hne hx hw

structure Bare (elements : List (Written × Bytes)) : Prop where
  front : ∀ e ∈ elements.head?, e.1.left = []
  back : ∀ e ∈ elements.getLast?, e.1.right = []

theorem Bare.cutSpace_joined (h : Bare (e :: es)) (hvalue : SliceValue e.2) :
    Go.cutSpace (joined (e :: es)) = none := by
  have hleft : e.1.left = [] := h.front e rfl
  rw [joined_cons, Written.text, hleft, List.nil_append, List.append_assoc]
  refine Go.cutSpace_append_eq_none (Written.body_ne_nil hvalue) (Written.cutSpace_body hvalue) ?_
  -- A character begins after the element: white space, a comma, or nothing at all.
  intro b hb
  cases hright : e.1.right with
  | nil =>
    rw [hright, List.nil_append] at hb
    split at hb
    · cases hb
    · cases hb
      rfl
  | cons x right =>
    have hwhite := e.1.right_white.head
    rw [hright] at hwhite hb
    exact hwhite b hb

theorem Bare.cutSpaceReversed_joined (h : Bare (es ++ [e])) (hvalue : SliceValue e.2) :
    Go.cutSpaceReversed (joined (es ++ [e])).reverse = none := by
  have hright : e.1.right = [] := h.back e (by simp)
  rw [joined_concat, Written.text, hright, List.append_nil, ← List.append_assoc]
  refine cutSpaceReversed_after ?_ e.1.left_white (Written.body_ne_nil hvalue)
    (Written.cutSpaceReversed_body hvalue)
  split
  · exact .inl rfl
  · exact .inr ⟨_, rfl⟩

theorem Bare.trimSpaceBytes_joined {left right : Bytes} (h : Bare elements)
    (hne : elements ≠ []) (hvalues : ∀ e ∈ elements, SliceValue e.2)
    (hleft : Go.WhiteSpace left) (hright : Go.WhiteSpace right) :
    Go.trimSpaceBytes (left ++ joined elements ++ right) = joined elements := by
  refine Go.trimSpaceBytes_around hleft hright ?_ ?_
  · obtain ⟨e, es, rfl⟩ := List.exists_cons_of_ne_nil hne
    exact h.cutSpace_joined (hvalues e (.head es))
  · obtain rfl | ⟨es, e, rfl⟩ := List.eq_nil_or_concat elements
    · cases hne rfl
    · rw [List.concat_eq_append] at h ⊢
      exact h.cutSpaceReversed_joined (hvalues e (by simp))

end Joined

namespace Written

def front (w : Written) : Written := { w with left := [], left_white := Go.whiteSpace_nil }

def back (w : Written) : Written := { w with right := [], right_white := Go.whiteSpace_nil }

end Written

theorem joined_front (e : Written × Bytes) (es : List (Written × Bytes)) :
    joined (e :: es) = e.1.left ++ joined ((e.1.front, e.2) :: es) := by
  simp [joined_cons, Written.text, Written.body, Written.front]

theorem joined_back (es : List (Written × Bytes)) (e : Written × Bytes) :
    joined (es ++ [e]) = joined (es ++ [(e.1.back, e.2)]) ++ e.1.right := by
  simp [joined_concat, Written.text, Written.body, Written.back]

theorem exists_bare {elements : List (Written × Bytes)} (hne : elements ≠ []) :
    ∃ left right bare, Go.WhiteSpace left ∧ Go.WhiteSpace right ∧
      joined elements = left ++ joined bare ++ right ∧ Bare bare ∧
      bare.map Prod.snd = elements.map Prod.snd := by
  obtain ⟨e, es, rfl⟩ := List.exists_cons_of_ne_nil hne
  obtain hnil | ⟨init, last, hlast⟩ := List.eq_nil_or_concat ((e.1.front, e.2) :: es)
  · cases hnil
  refine ⟨e.1.left, last.1.right, init ++ [(last.1.back, last.2)], e.1.left_white,
    last.1.right_white, ?_, ⟨?_, ?_⟩, ?_⟩
  · rw [joined_front, hlast, List.concat_eq_append, joined_back, List.append_assoc]
  · intro d hd
    cases init with
    | nil =>
      obtain ⟨rfl, -⟩ := List.cons.inj hlast
      cases hd
      rfl
    | cons i init =>
      obtain ⟨rfl, -⟩ := List.cons.inj hlast
      cases hd
      rfl
  · intro d hd
    obtain rfl : (last.1.back, last.2) = d := by simpa using hd
    rfl
  · have hvalues := congrArg (List.map Prod.snd) hlast
    simpa using hvalues.symm

section Hook

variable {elements : List (Written × Bytes)} (hne : elements ≠ [])
  (hvalues : ∀ e ∈ elements, SliceValue e.2)

include hne hvalues

theorem Bare.head_joined (h : Bare elements) : (joined elements).head? ≠ some 0x5B ∧
    joined elements ≠ [] := by
  obtain ⟨e, es, rfl⟩ := List.exists_cons_of_ne_nil hne
  have hvalue := hvalues e (.head es)
  have hleft : e.1.left = [] := h.front e rfl
  have hbody := Written.body_ne_nil (w := e.1) hvalue
  rw [joined_cons, Written.text, hleft, List.nil_append, List.append_assoc]
  refine ⟨?_, by simp [hbody]⟩
  rw [List.head?_append_of_ne_nil _ hbody]
  exact Written.body_head hvalue

theorem split_joined : ((joined elements).splitOn 0x2C).map (fun value =>
    Go.trim [0x22, 0x27] (Go.trimSpaceBytes value)) = elements.map Prod.snd := by
  rw [joined, List.splitOn_intercalate 0x2C ?_ (by simpa using hne), List.map_map]
  · refine List.map_congr_left fun e he => ?_
    have hvalue := hvalues e he
    exact (congrArg _ (Written.trimSpaceBytes_text hvalue)).trans (Written.trim_body hvalue)
  · rw [List.forall_mem_map]
    exact fun e he => Written.comma_not_mem_text (hvalues e he)

end Hook

/-- A list of values is read from every way to write it into a variable as it is from a file. -/
theorem slice_setting_read_back (values : List Bytes) (hne : values ≠ [])
    (hvalues : ∀ value ∈ values, SliceValue value) (elements : List (Written × Bytes))
    (helements : elements.map Prod.snd = values) :
    stringToStringSliceHook (.slice values) = .slice values ∧
    stringToStringSliceHook (.string (joined elements)) = .slice values ∧
    ∀ left right, Go.WhiteSpace left → Go.WhiteSpace right →
      stringToStringSliceHook (.string (left ++ ([0x5B] ++ joined elements ++ [0x5D]) ++ right)) =
        .slice values := by
  have hsome : elements ≠ [] := by
    rintro rfl
    exact hne helements.symm
  obtain ⟨l, r, bare, hl, hr, hjoined, hbare, hsame⟩ := exists_bare hsome
  rw [helements] at hsame
  have hbareValues : ∀ e ∈ bare, SliceValue e.2 := fun e he =>
    hvalues e.2 (hsame ▸ List.mem_map_of_mem he)
  have hbareSome : bare ≠ [] := by
    rintro rfl
    exact hne hsame.symm
  have htrim : Go.trimSpaceBytes (joined elements) = joined bare := by
    rw [hjoined, hbare.trimSpaceBytes_joined hbareSome hbareValues hl hr]
  obtain ⟨hhead, hraw⟩ := hbare.head_joined hbareSome hbareValues
  have hsplit := split_joined hbareSome hbareValues
  refine ⟨rfl, ?_, fun left right hleft hright => ?_⟩
  · simp only [stringToStringSliceHook, htrim, hhead, false_and, if_false, hraw, hsplit, hsame]
  · have hbracket : Go.trimSpaceBytes (left ++ ([0x5B] ++ joined elements ++ [0x5D]) ++ right) =
        [0x5B] ++ joined elements ++ [0x5D] :=
      Go.trimSpaceBytes_around hleft hright (Go.cutSpace_visible (by decide) _).1
        (by simpa using (Go.cutSpace_visible (x := 0x5D) (by decide) _).2)
    have hopen : ([0x5B] ++ joined elements ++ [0x5D]).head? = some 0x5B ∧
        ([0x5B] ++ joined elements ++ [0x5D]).getLast? = some 0x5D :=
      ⟨rfl, List.getLast?_concat⟩
    have hinner : ([0x5B] ++ joined elements ++ [0x5D]).tail.dropLast = joined elements := by simp
    simp only [stringToStringSliceHook, hbracket, hopen, and_self, if_true, hinner, htrim, hraw,
      if_false, hsplit, hsame]

namespace sample

def quoted : Written :=
  ⟨[0x09], [0x22], [], ⟨[[0x09]], by decide, by decide⟩, Go.whiteSpace_nil, .inr (.inl rfl)⟩

def plain : Written :=
  ⟨[], [], [0xC2, 0xA0], Go.whiteSpace_nil, ⟨[[0xC2, 0xA0]], by decide, by decide⟩, .inl rfl⟩

end sample

theorem slice_setting_patterns :
    joined [(sample.quoted, Go.ascii "/api/v1/[ab]"), (sample.plain, Go.ascii "/api/v1/a b")] =
      Go.ascii "\t\"/api/v1/[ab]\",/api/v1/a b" ++ [0xC2, 0xA0] ∧
    stringToStringSliceHook (.string (Go.ascii "\t\"/api/v1/[ab]\",/api/v1/a b" ++ [0xC2, 0xA0])) =
      .slice [Go.ascii "/api/v1/[ab]", Go.ascii "/api/v1/a b"] := by
  have hvalues : ∀ value ∈ [Go.ascii "/api/v1/[ab]", Go.ascii "/api/v1/a b"], SliceValue value := by
    simp only [List.forall_mem_cons]
    refine ⟨⟨?_, ?_, ?_, ?_, ?_, ?_⟩, ⟨?_, ?_, ?_, ?_, ?_, ?_⟩, List.forall_mem_nil _⟩ <;>
      decide +kernel
  have hread := slice_setting_read_back [Go.ascii "/api/v1/[ab]", Go.ascii "/api/v1/a b"]
    (by simp) hvalues
    [(sample.quoted, Go.ascii "/api/v1/[ab]"), (sample.plain, Go.ascii "/api/v1/a b")] rfl
  exact ⟨by decide +kernel, hread.2.1⟩

end IdentityService
