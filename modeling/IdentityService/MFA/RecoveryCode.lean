import IdentityService.MFA.Challenge
import IdentityService.Defs.Encoding
import IdentityService.Defs.GoLaws

/-! Recovery codes: what is shown, what is typed and what is hashed. -/

namespace IdentityService

open Lib Service
open Lib.Program (Along along_require along_perform along_expect along_reject along_ret)

/-- `typed` is `shown` with letters in either case and hyphens put in or left out. -/
inductive Retyped : List Char → List Char → Prop
  | nil : Retyped [] []
  | char {c c' : Char} {shown typed : List Char} (hcase : c'.toUpper = c.toUpper) :
      Retyped shown typed → Retyped (c :: shown) (c' :: typed)
  | insert {shown typed : List Char} : Retyped shown typed → Retyped shown ('-' :: typed)
  | leave {shown typed : List Char} : Retyped shown typed → Retyped ('-' :: shown) typed

def significant (cs : List Char) : List Char := (cs.filter (· ≠ '-')).map Char.toUpper

theorem significant_hyphen (cs : List Char) : significant ('-' :: cs) = significant cs := rfl

theorem significant_cons {c : Char} (h : c ≠ '-') (cs : List Char) :
    significant (c :: cs) = c.toUpper :: significant cs := by
  simp [significant, h]

theorem Retyped.significant_eq {shown typed : List Char} (h : Retyped shown typed) :
    significant typed = significant shown := by
  induction h with
  | nil => rfl
  | @char c c' shown typed hcase _ ih =>
    by_cases hc : c = '-'
    · have hc' : c' = '-' := toUpper_eq_hyphen.1 (hcase.trans (toUpper_eq_hyphen.2 hc))
      rw [hc, hc', significant_hyphen, significant_hyphen, ih]
    · have hc' : c' ≠ '-' := fun h => hc (toUpper_eq_hyphen.1 (hcase ▸ toUpper_eq_hyphen.2 h))
      rw [significant_cons hc, significant_cons hc', hcase, ih]
  | insert _ ih => rw [significant_hyphen, ih]
  | leave _ ih => rw [significant_hyphen, ih]

theorem Retyped.of_significant {shown typed : List Char}
    (h : significant typed = significant shown) : Retyped shown typed := by
  induction shown generalizing typed with
  | nil =>
    induction typed with
    | nil => exact .nil
    | cons c' typed ih =>
      by_cases hc' : c' = '-'
      · subst hc'
        exact .insert (ih h)
      · rw [significant_cons hc'] at h
        cases h
  | cons c shown ih =>
    by_cases hc : c = '-'
    · subst hc
      exact .leave (ih h)
    · induction typed with
      | nil =>
        rw [significant_cons hc] at h
        cases h
      | cons c' typed ih' =>
        by_cases hc' : c' = '-'
        · subst hc'
          exact .insert (ih' h)
        · rw [significant_cons hc, significant_cons hc', List.cons.injEq] at h
          exact .char h.1 (ih h.2)

theorem Retyped.plain {shown typed : List Char} (h : Retyped shown typed)
    (hshown : ∀ c ∈ shown, Plain c) : ∀ c ∈ typed, Plain c := by
  induction h with
  | nil => exact hshown
  | char hcase _ ih =>
    rw [List.forall_mem_cons] at hshown ⊢
    exact ⟨plain_of_toUpper (hcase ▸ hshown.1.toUpper), ih hshown.2⟩
  | insert _ ih => exact List.forall_mem_cons.2 ⟨⟨by decide, by decide⟩, ih hshown⟩
  | leave _ ih => exact ih (List.forall_mem_cons.1 hshown).2

def TypedAs (shown typed : String) : Prop :=
  ∃ left middle right, (∀ c ∈ left, Go.isSpace c = true) ∧ (∀ c ∈ right, Go.isSpace c = true) ∧
    typed.toList = left ++ middle ++ right ∧ Retyped shown.toList middle

theorem TypedAs.trimSpace {shown typed : String} (h : TypedAs shown typed)
    (hshown : ∀ c ∈ shown.toList, Plain c) :
    Retyped shown.toList (Go.trimSpace typed).toList := by
  obtain ⟨left, middle, right, hleft, hright, htyped, hmiddle⟩ := h
  have htrim := Go.trimSpace_around hleft
    (fun c hc => (hmiddle.plain hshown c hc).isSpace) hright
  rw [← htyped, String.ofList_toList] at htrim
  rw [htrim, String.toList_ofList]
  exact hmiddle

namespace MFACrypto

variable {m : MFACrypto}

def recoveryInput (m : MFACrypto) (code : String) : String :=
  m.toUpper (String.ofList ((Go.trimSpace code).toList.filter (· ≠ '-')))

theorem recoveryCodeHash_eq (m : MFACrypto) (code : String) :
    m.recoveryCodeHash code = m.recoveryMAC (m.recoveryInput code) := rfl

theorem recoveryInput_eq (hupper : UpperCase m.toUpper) {code : String}
    (h : ∀ c ∈ (Go.trimSpace code).toList, c.toNat < 128) :
    m.recoveryInput code = String.ofList (significant (Go.trimSpace code).toList) := by
  rw [recoveryInput, hupper.ascii _ (by simpa using fun c hc _ => h c hc), String.toList_ofList]
  rfl

theorem significant_displayCode (compact : String) :
    significant (displayCode compact).toList = significant compact.toList := by
  have hsplit : compact.toList = compact.toList.take 4 ++ ((compact.toList.drop 4).take 4 ++
      ((compact.toList.drop 8).take 4 ++ compact.toList.drop 12)) := by
    rw [← List.drop_drop (i := 4) (j := 8), List.take_append_drop,
      ← List.drop_drop (i := 4) (j := 4), List.take_append_drop, List.take_append_drop]
  conv => rhs; rw [hsplit]
  simp [displayCode, significant]

theorem plain_displayCode {compact : String} (h : ∀ c ∈ compact.toList, Plain c) :
    ∀ c ∈ (displayCode compact).toList, Plain c := by
  have hhyphen : Plain '-' := ⟨by decide, by decide⟩
  simp only [displayCode, String.toList_ofList, List.forall_mem_append, List.forall_mem_cons]
  exact ⟨⟨⟨fun c hc => h c (List.mem_of_mem_take hc), hhyphen,
    fun c hc => h c (List.mem_of_mem_drop (List.mem_of_mem_take hc))⟩, hhyphen,
    fun c hc => h c (List.mem_of_mem_drop (List.mem_of_mem_take hc))⟩, hhyphen,
    fun c hc => h c (List.mem_of_mem_drop hc)⟩

theorem significant_encode (raw : Bytes) :
    significant (Base32.encode raw).toList = (Base32.encode raw).toList := by
  rw [significant, List.filter_eq_self.2 fun c hc => decide_eq_true (Base32.mem_encode hc).1]
  conv => rhs; rw [← List.map_id (Base32.encode raw).toList]
  exact List.map_congr_left fun c hc => (Base32.mem_encode hc).2.1

def shown (raw : Bytes) : String := displayCode (Base32.encode raw)

theorem plain_shown (raw : Bytes) : ∀ c ∈ (shown raw).toList, Plain c :=
  plain_displayCode fun _ hc => (Base32.mem_encode hc).2.2

theorem significant_shown (raw : Bytes) :
    significant (shown raw).toList = (Base32.encode raw).toList := by
  rw [shown, significant_displayCode, significant_encode]

theorem recoveryInput_of_typedAs (hupper : UpperCase m.toUpper) {raw : Bytes} {typed : String}
    (h : TypedAs (shown raw) typed) : m.recoveryInput typed = Base32.encode raw := by
  have hmiddle := h.trimSpace (plain_shown raw)
  rw [recoveryInput_eq hupper, hmiddle.significant_eq, significant_shown, String.ofList_toList]
  intro c hc
  exact Nat.lt_succ_of_lt (hmiddle.plain (plain_shown raw) c hc).2

theorem typedAs_trimSpace {raw : Bytes} {typed : String} (h : TypedAs (shown raw) typed) :
    TypedAs (shown raw) (Go.trimSpace typed) :=
  ⟨[], (Go.trimSpace typed).toList, [], by simp, by simp, by simp, h.trimSpace (plain_shown raw)⟩

theorem typedAs_shown (raw : Bytes) : TypedAs (shown raw) (shown raw) :=
  ⟨[], (shown raw).toList, [], by simp, by simp, by simp, .of_significant rfl⟩

theorem typedAs_of_recoveryInput (hupper : UpperCase m.toUpper) {raw : Bytes} {typed : String}
    (hascii : ∀ c ∈ typed.toList, c.toNat < 128) (h : m.recoveryInput typed = Base32.encode raw) :
    TypedAs (shown raw) typed := by
  obtain ⟨left, right, hleft, hright, htyped⟩ := Go.exists_trimSpace typed
  refine ⟨left, _, right, hleft, hright, htyped, .of_significant ?_⟩
  rw [recoveryInput_eq hupper] at h
  · rw [significant_shown, ← h, String.toList_ofList]
  · intro c hc
    refine hascii c ?_
    rw [htyped]
    simp [hc]

end MFACrypto

section Stored

variable {svc : Service} {op : Op} {acts : List Act}

def recoveryCodesOf : Option (Except AppError Reply) → Option (List String)
  | some (.ok (.mfaConfirmation confirmation)) => some confirmation.recoveryCodes
  | some (.ok (.mfaRotation rotation)) => some rotation.recoveryCodes
  | _ => none

def Op.rotatesFor : Op → Option String
  | .confirmMFASetup (some actor) _ _ => some actor.id
  | .regenerateMFARecoveryCodes (some actor) _ _ _ => some actor.id
  | _ => none

structure StoredCodes (svc : Service) (acts : List Act) (userID : String) (codes : List String)
    (s : Store) : Prop where
  drawn : ∃ compacts : List String, compacts.length = MFACrypto.recoveryCodeCount ∧
    codes = compacts.map MFACrypto.displayCode ∧
    ∀ compact ∈ compacts, Act.drew .recoveryCode compact ∈ acts
  hashes : ∀ m, svc.mfa = some m →
    (s.mfaRecoveryCodes.rows.filter (·.userID = userID)).map (·.codeHash) =
      codes.map m.recoveryCodeHash

def CodesSpec (svc : Service) (op : Op) (acts : List Act) :
    (e : Effect) → e.Res → Prog Reply → Prop
  | .within body, .ok n, next => ∀ userID, op.rotatesFor = some userID →
    ∀ codes, recoveryCodesOf next.outcome = some codes →
      ∀ s s', body.run svc.lower s = .ok (n, s') → StoredCodes svc acts userID codes s'
  | _, _, _ => True

theorem codesSpec_newRecoveryCodes {m : MFACrypto} {actor : Principal} {now : Time}
    {payload : List MFARecoveryCode → Payload} {body : List MFARecoveryCode → OutboxEvent → Tx Nat}
    {reply : List String → Nat → Reply} (hmfa : svc.mfa = some m)
    (hop : op.rotatesFor = some actor.id)
    (hreply : ∀ codes n, recoveryCodesOf (some (.ok (reply codes n))) = some codes)
    (hbody : ∀ rows event n s s', rows ≠ [] →
      (∀ row ∈ rows, row.userID = actor.id ∧ row.consumedAt = none) →
      (body rows event).run svc.lower s = .ok (n, s') →
      s'.mfaRecoveryCodes.rows =
        s.mfaRecoveryCodes.rows.filter (fun r => !decide (r.userID = actor.id)) ++ rows) :
    Along (CodesSpec svc op) acts (do
      let codes ← generateRecoveryCodes MFACrypto.recoveryCodeCount
      let fields ← .require (.unauthorized "authenticated actor is required")
        (svc.platform.auditNew (some actor) now)
      let rows ← recoveryCodeRows actor.id fields (codes.map m.recoveryCodeHash)
      let event ← mfaStatusChangedEvent (some actor) actor.id now (payload rows)
      let n ← .expect translateIdentityError (← within (body rows event))
      return reply codes n) := by
  refine along_newRecoveryCodes (fun _ _ _ _ => trivial)
    fun draws compacts rows event hdraws _ _ => ?_
  simp only [within, along_perform, along_expect]
  intro r
  refine ⟨?_, fun n _ => along_ret _⟩
  cases r with
  | error err => trivial
  | ok n =>
    intro userID huser codes hcodes s s' hrun
    cases hop.symm.trans huser
    cases (hreply _ n).symm.trans hcodes
    refine ⟨⟨compacts, hdraws.length, rfl, fun compact hc => ?_⟩, fun m' hm' => ?_⟩
    · exact List.mem_append_left _ (hdraws.drawn compact hc)
    · cases hmfa.symm.trans hm'
      rw [hbody rows _ n s s' (codes_ne_nil hdraws.length_rows) hdraws.owner hrun,
        List.filter_append, List.filter_filter]
      have hold : ∀ r : MFARecoveryCode, (decide (r.userID = actor.id) &&
          !decide (r.userID = actor.id)) = false := fun r => by simp
      simp only [hold, List.filter_false, List.nil_append]
      rw [List.filter_eq_self.2 fun row hrow => decide_eq_true (hdraws.owner row hrow).1,
        hdraws.hashes]

theorem codesSpec_confirm (ctx : Context) (code : String) (version : Int) :
    Along (CodesSpec svc (.confirmMFASetup ctx code version)) []
      (svc.program (.confirmMFASetup ctx code version)) := by
  simp only [program, confirmMFASetup, query, Service.now, bind_assoc, pure_bind, along_require,
    along_perform, along_expect, along_reject, CodesSpec, true_and]
  intro actor hactor m hmfa _ enrollment _ now _ secret _ step _
  obtain ⟨rfl, -⟩ := requireSessionUser_eq hactor
  refine codesSpec_newRecoveryCodes hmfa rfl (fun _ _ => rfl) ?_
  intro rows event n s s' hne hrows hrun
  simp [Repository.run_replaceRecoveryCodes hne hrows] at hrun
  obtain ⟨_, -, t, ht, _, -, ⟨_, -, rfl⟩, -⟩ := hrun
  exact ht

theorem codesSpec_regenerate (ctx : Context) (password code : String) (version : Int) :
    Along (CodesSpec svc (.regenerateMFARecoveryCodes ctx password code version)) []
      (svc.program (.regenerateMFARecoveryCodes ctx password code version)) := by
  simp only [program, regenerateMFARecoveryCodes, requireFactor, verifyCurrentPassword, query,
    Service.now, bind_assoc, pure_bind, along_require, along_perform, along_expect, along_reject,
    CodesSpec, true_and]
  intro actor hactor m hmfa _ _ _ _ _ _ enrollment _ _ secret _ now step _ _
  obtain ⟨rfl, -⟩ := requireSessionUser_eq hactor
  refine codesSpec_newRecoveryCodes hmfa rfl (fun _ _ => rfl) ?_
  intro rows event n s s' hne hrows hrun
  simp [Repository.run_replaceRecoveryCodes hne hrows] at hrun
  obtain ⟨_, -, t, ht, ⟨_, -, rfl⟩, -⟩ := hrun
  exact ht

theorem program_codesSpec (op : Op) : Along (CodesSpec svc op) [] (svc.program op) := by
  cases op with
  | confirmMFASetup ctx code version => exact codesSpec_confirm ctx code version
  | regenerateMFARecoveryCodes ctx password code version =>
    exact codesSpec_regenerate ctx password code version
  | _ =>
    refine Along.of_length (n := 0) (fun acts e r p _ => ?_) _ (Nat.zero_le _)
    unfold CodesSpec
    split
    · exact fun userID h => nomatch h
    · trivial

theorem storedCodes_of_answer {π : Policy} {w : World} {c : Config} {ev : Event}
    (h : svc.machine.Reach π w c) (hev : ev ∈ c.history) {userID : String} {codes : List String}
    (hop : ev.request.rotatesFor = some userID) (hcodes : recoveryCodesOf ev.outcome = some codes) :
    StoredCodes svc (c.actsOf ev.thread) userID codes ev.after.store := by
  obtain ⟨c0, c1, k, a, h0, hf, -, h1⟩ := h.event_of_mem hev
  obtain ⟨reply, hreply⟩ : ∃ reply, ev.outcome = some (.ok reply) := by
    unfold recoveryCodesOf at hcodes
    split at hcodes
    · exact ⟨_, by assumption⟩
    · exact ⟨_, by assumption⟩
    · cases hcodes
  have hlast : ev.request.commitsLast = true := by
    unfold Op.rotatesFor at hop
    split at hop
    · simp [*, Op.commitsLast, Op.writes]
    · simp [*, Op.commitsLast, Op.writes]
    · cases hop
  obtain ⟨body, n, next, hcom⟩ := committed_of_ok h0 hf hlast hreply
  have hspec := h0.along (fun op => program_codesSpec op) hf
  have hrun := hcom.run
  have hact := hcom.act
  rw [hf.outcome] at hcodes
  rw [hf.state] at hrun
  have hsub : c0.history <:+ c.history :=
    (hf.history ▸ List.suffix_cons _ _ : c0.history <:+ c1.history).trans h1.history_suffix
  have hstored : StoredCodes svc (c0.actsOf ev.thread) userID codes ev.after.store := by
    obtain ⟨i, q, e, r, s, s', o⟩ := ev
    cases hact
    exact hspec userID hop codes hcodes _ _ hrun
  obtain ⟨⟨compacts, hlength, hdisplay, hdrawn⟩, hhashes⟩ := hstored
  exact ⟨⟨compacts, hlength, hdisplay,
    fun compact hc => Machine.Reach.actsOf_mono hsub (hdrawn compact hc)⟩, hhashes⟩

end Stored

/-- A code is recognised in any case, with hyphens anywhere and white space around it, and among
ASCII texts only then.  Two codes are confused only where the HMAC collides, and the hashes stored
by the two calls that hand out codes are those of the codes in their answers. -/
theorem recovery_codes_match_as_typed (svc : Service) (m : MFACrypto) (hmfa : svc.mfa = some m)
    (hupper : UpperCase m.toUpper) :
    (∀ raw typed, raw.length = 10 → TypedAs (MFACrypto.shown raw) typed →
      m.recoveryCodeHash typed = m.recoveryCodeHash (MFACrypto.shown raw) ∧
      m.recoveryCodeHash (Go.trimSpace typed) = m.recoveryCodeHash (MFACrypto.shown raw)) ∧
    (∀ raw typed, raw.length = 10 → (∀ c ∈ typed.toList, c.toNat < 128) →
      (m.recoveryInput typed = m.recoveryInput (MFACrypto.shown raw) ↔
        TypedAs (MFACrypto.shown raw) typed)) ∧
    (∀ raw raw', raw.length = 10 → raw'.length = 10 → raw ≠ raw' →
      MFACrypto.shown raw ≠ MFACrypto.shown raw' ∧
      m.recoveryInput (MFACrypto.shown raw) ≠ m.recoveryInput (MFACrypto.shown raw') ∧
      (m.recoveryCodeHash (MFACrypto.shown raw) = m.recoveryCodeHash (MFACrypto.shown raw') →
        ∃ x y, x ≠ y ∧ m.recoveryMAC x = m.recoveryMAC y)) ∧
    ∀ (π : Policy) (w : World) (c : Config), svc.machine.Reach π w c →
      (∀ e ∈ c.history, ∀ compact, e.act = Act.drew .recoveryCode compact →
        ∃ raw : Bytes, raw.length = 10 ∧ compact = Base32.encode raw) →
      ∀ ev ∈ c.history, ∀ userID codes, ev.request.rotatesFor = some userID →
        recoveryCodesOf ev.outcome = some codes →
        ∃ raws : List Bytes, raws.length = 10 ∧ (∀ raw ∈ raws, raw.length = 10) ∧
          codes = raws.map MFACrypto.shown ∧
          (ev.after.store.mfaRecoveryCodes.rows.filter (·.userID = userID)).map (·.codeHash) =
            codes.map m.recoveryCodeHash := by
  have hinput : ∀ raw, m.recoveryInput (MFACrypto.shown raw) = Base32.encode raw := fun raw =>
    MFACrypto.recoveryInput_of_typedAs hupper (MFACrypto.typedAs_shown raw)
  refine ⟨?_, ?_, ?_, ?_⟩
  · intro raw typed _ htyped
    simp only [MFACrypto.recoveryCodeHash_eq, hinput]
    rw [MFACrypto.recoveryInput_of_typedAs hupper htyped,
      MFACrypto.recoveryInput_of_typedAs hupper (MFACrypto.typedAs_trimSpace htyped)]
    exact ⟨rfl, rfl⟩
  · intro raw typed _ hascii
    rw [hinput]
    exact ⟨MFACrypto.typedAs_of_recoveryInput hupper hascii,
      MFACrypto.recoveryInput_of_typedAs hupper⟩
  · intro raw raw' _ _ hne
    have hdiffer :
        m.recoveryInput (MFACrypto.shown raw) ≠ m.recoveryInput (MFACrypto.shown raw') := by
      rw [hinput, hinput]
      exact fun heq => hne (Base32.encode_injective heq)
    exact ⟨fun heq => hdiffer (congrArg m.recoveryInput heq), hdiffer,
      fun hhash => ⟨m.recoveryInput _, m.recoveryInput _, hdiffer, hhash⟩⟩
  · intro π w c h hdraws ev hev userID codes hop hcodes
    obtain ⟨⟨compacts, hlength, rfl, hdrawn⟩, hhashes⟩ := storedCodes_of_answer h hev hop hcodes
    have hraw : ∀ compact ∈ compacts, ∃ raw : Bytes, raw.length = 10 ∧
        compact = Base32.encode raw := by
      intro compact hc
      obtain ⟨e, he, -, hact⟩ := Machine.Reach.mem_actsOf.1 (hdrawn compact hc)
      exact hdraws e he compact hact
    choose! raw hlen hencode using hraw
    refine ⟨compacts.map raw, (List.length_map _).trans hlength, ?_, ?_, hhashes m hmfa⟩
    · simpa using hlen
    · rw [List.map_map]
      refine List.map_congr_left fun compact hc => ?_
      rw [Function.comp_apply, MFACrypto.shown, ← hencode compact hc]

namespace sample

def upperCrypto : MFACrypto :=
  { crypto with toUpper := fun s => String.ofList (s.toList.map Char.toUpper) }

end sample

theorem recovery_codes_match_lower_case :
    MFACrypto.shown (List.replicate 10 0) = "AAAA-AAAA-AAAA-AAAA" ∧
    sample.upperCrypto.recoveryCodeHash " aaaaaaaa-aaaaaaaa" =
      sample.upperCrypto.recoveryCodeHash "AAAA-AAAA-AAAA-AAAA" := by
  have hshown : MFACrypto.shown (List.replicate 10 0) = "AAAA-AAAA-AAAA-AAAA" := by decide +kernel
  have htyped : TypedAs (MFACrypto.shown (List.replicate 10 0)) " aaaaaaaa-aaaaaaaa" :=
    ⟨[' '], "aaaaaaaa-aaaaaaaa".toList, [], by simp [Go.isSpace], by simp, by decide +kernel,
      .of_significant (by decide +kernel)⟩
  have hmatch := (recovery_codes_match_as_typed (sample [] (some sample.upperCrypto))
    sample.upperCrypto rfl ⟨fun _ _ => rfl⟩).1 _ _ rfl htyped
  rw [hshown] at hmatch
  exact ⟨hshown, hmatch.1⟩

end IdentityService
