import IdentityService.Defs.Effect
import IdentityService.Defs.PasswordHash

/-! The texts that `Hash` writes, and those that `parsePasswordHash` reads. -/

namespace IdentityService

open Lib

namespace Go

variable {ds rest : Bytes}

theorem skipSpace_of_none {n : Nat} {b : Bytes} (hhead : b.head? ≠ some 0x0A)
    (hcut : cutSpace b = none) : skipSpace n b = some b := by
  cases n with
  | zero => rfl
  | succ n => rw [skipSpace, if_neg hhead, hcut]

theorem cutSpace_digit {b : UInt8} (h : Decimal.isDigit b = true) :
    cutSpace (b :: rest) = none := by
  obtain ⟨hlo, hhi⟩ := Decimal.isDigit_iff.1 h
  unfold cutSpace
  split <;> simp_all [UInt8.ext_iff]
  omega

theorem skipSpace_numeral (n : Nat) (h : Decimal.IsNumeral ds) :
    skipSpace n (ds ++ rest) = some (ds ++ rest) := by
  cases ds with
  | nil => cases h.ne_nil rfl
  | cons b ds =>
    have hb := h.isDigit b (.head _)
    refine skipSpace_of_none ?_ (cutSpace_digit hb)
    rintro ⟨⟩
    cases hb

theorem scanUint_bind_eq_some {α : Type} (bits : Nat) (hbits : bits ≤ 64)
    (h : Decimal.IsNumeral ds) (hrest : ∀ b ∈ rest.head?, Decimal.isDigit b = false)
    {f : Nat × Bytes → Option α} {a : α} :
    (scanUint bits (ds ++ rest)).bind f = some a ↔
      Decimal.value ds < 2 ^ bits ∧ f (Decimal.value ds, rest) = some a := by
  rw [scanUint, skipSpace_numeral _ h]
  simp only [Option.bind_eq_bind, Option.bind_some, Decimal.scan_append h hrest]
  split
  case isTrue hfits => simp [hfits.2]
  case isFalse hfits =>
    have hpow : 2 ^ bits ≤ 2 ^ 64 := Nat.pow_le_pow_right (by decide) hbits
    have hlt : ¬Decimal.value ds < 2 ^ bits := fun hlt => hfits ⟨Nat.lt_of_lt_of_le hlt hpow, hlt⟩
    simp [hlt]

theorem scanText_append (text : String) (rest : Bytes) :
    scanText text (ascii text ++ rest) = some rest := by
  rw [scanText, if_pos (List.prefix_append _ _), List.drop_left]

theorem char_ofNat_of_lt :
    ∀ n < 128, (Char.ofNat n).toNat = n ∧ (Char.ofNat n).utf8Size = 1 := by
  decide

theorem utf8_asciiText {b : Bytes} (h : ∀ x ∈ b, x < 0x80) : utf8 (asciiText b) = b := by
  rw [utf8, asciiText, String.toList_ofList]
  induction b with
  | nil => rfl
  | cons x b ih =>
    obtain ⟨hx, hb⟩ := List.forall_mem_cons.1 h
    obtain ⟨hchar, hsize⟩ := char_ofNat_of_lt x.toNat hx
    have hbyte : (Char.ofNat x.toNat).val.toUInt8 = x := by
      rw [← UInt8.toNat_inj, UInt32.toNat_toUInt8]
      exact (congrArg (· % 2 ^ 8) hchar).trans (Nat.mod_eq_of_lt x.toNat_lt)
    rw [List.map_cons, List.flatMap_cons, String.utf8EncodeChar_eq_singleton hsize, ih hb, hbyte]
    rfl

theorem length_utf8 (s : String) : (utf8 s).length = s.utf8ByteSize := by
  have hbytes := @String.toByteArray_ofList s.toList
  rw [String.ofList_toList] at hbytes
  rw [String.utf8ByteSize, hbytes, List.utf8Encode]
  simp [utf8]

end Go

def parameterText (memory iterations parallelism : Bytes) : Bytes :=
  Go.ascii "m=" ++ memory ++ Go.ascii ",t=" ++ iterations ++ Go.ascii ",p=" ++ parallelism

theorem head_comma (text : String) (h : (Go.ascii text).head? = some 0x2C) (rest : Bytes) :
    ∀ b ∈ (Go.ascii text ++ rest).head?, Decimal.isDigit b = false := by
  intro b hb
  rw [List.head?_append, h] at hb
  cases hb
  rfl

theorem scanParameters_text {m t p : Bytes} (hm : Decimal.IsNumeral m) (ht : Decimal.IsNumeral t)
    (hp : Decimal.IsNumeral p) {memory iterations : UInt32} {parallelism : UInt8} :
    scanParameters (parameterText m t p) = some (memory, iterations, parallelism) ↔
      memory.toNat = Decimal.value m ∧ iterations.toNat = Decimal.value t ∧
        parallelism.toNat = Decimal.value p := by
  have hend : ∀ b ∈ ([] : Bytes).head?, Decimal.isDigit b = false := by simp
  have hscan : scanParameters (parameterText m t (p ++ [])) =
      some (memory, iterations, parallelism) ↔
      Decimal.value m < 2 ^ 32 ∧ Decimal.value t < 2 ^ 32 ∧ Decimal.value p < 2 ^ 8 ∧
        UInt32.ofNat (Decimal.value m) = memory ∧ UInt32.ofNat (Decimal.value t) = iterations ∧
        UInt8.ofNat (Decimal.value p) = parallelism := by
    simp only [scanParameters, parameterText, List.append_assoc, Go.scanText_append,
      Option.bind_eq_bind, Option.bind_some,
      Go.scanUint_bind_eq_some 32 (by decide) hm (head_comma ",t=" rfl _),
      Go.scanUint_bind_eq_some 32 (by decide) ht (head_comma ",p=" rfl _),
      Go.scanUint_bind_eq_some 8 (by decide) hp hend, Option.pure_def,
      Option.some.injEq, Prod.mk.injEq]
  rw [List.append_nil] at hscan
  rw [hscan]
  constructor
  · rintro ⟨hm32, ht32, hp8, rfl, rfl, rfl⟩
    exact ⟨UInt32.toNat_ofNat_of_lt' hm32, UInt32.toNat_ofNat_of_lt' ht32,
      UInt8.toNat_ofNat_of_lt' hp8⟩
  · rintro ⟨hmemory, hiterations, hparallelism⟩
    rw [← hmemory, ← hiterations, ← hparallelism]
    exact ⟨memory.toNat_lt, iterations.toNat_lt, parallelism.toNat_lt, UInt32.ofNat_toNat,
      UInt32.ofNat_toNat, UInt8.ofNat_toNat⟩

theorem map_newPasswordHasher_eq_ok {α : Type} {p : PasswordParameters} {a b : α} :
    (newPasswordHasher p).map (fun _ => a) = .ok b ↔ p.Safe ∧ a = b := by
  rw [newPasswordHasher]
  split
  case isTrue h => simp [Except.map, h]
  case isFalse h => simp [Except.map, h]

theorem parsePasswordHash_eq_ok {s salt key : Bytes} {p : PasswordParameters} :
    parsePasswordHash s = .ok (p, salt, key) ↔
      ∃ front version parameters saltText keyText,
        s.splitOn 0x24 = [front, Go.ascii "argon2id", version, parameters, saltText, keyText] ∧
        scanVersion version = some (argon2Version : Int) ∧
        scanParameters parameters = some (p.memory, p.iterations, p.parallelism) ∧
        Base64.decode Base64.rawStd true saltText = some salt ∧
        Base64.decode Base64.rawStd true keyText = some key ∧
        p.saltLength = UInt32.ofNat salt.length ∧ p.keyLength = UInt32.ofNat key.length ∧
        p.Safe := by
  constructor
  · intro h
    unfold parsePasswordHash at h
    split at h
    case h_2 => cases h
    case h_1 front name version parameters saltText keyText hsplit =>
      simp only [ne_eq, ite_not] at h
      repeat' split at h
      all_goals try cases h
      rename_i hname hversion _ _ _ _ hparameters _ _ hsalt _ _ hkey
      obtain ⟨hsafe, rfl, rfl, rfl⟩ := map_newPasswordHasher_eq_ok.1 h
      exact ⟨front, version, parameters, saltText, keyText, hname ▸ hsplit, hversion, hparameters,
        hsalt, hkey, rfl, rfl, hsafe⟩
  · rintro ⟨front, version, parameters, saltText, keyText, hsplit, hversion, hparameters, hsalt,
      hkey, hsaltLength, hkeyLength, hsafe⟩
    unfold parsePasswordHash
    simp only [hsplit, hversion, hparameters, hsalt, hkey, ← hsaltLength, ← hkeyLength, ne_eq,
      not_true_eq_false, if_false]
    exact map_newPasswordHasher_eq_ok.2 ⟨hsafe, rfl⟩

section Text

variable {p : PasswordParameters} {salt key : Bytes}

def hashParts (memory iterations parallelism saltText keyText : Bytes) : List Bytes :=
  [[], Go.ascii "argon2id", Go.ascii "v=19", parameterText memory iterations parallelism,
    saltText, keyText]

theorem passwordHashText_eq (p : PasswordParameters) (salt key : Bytes) :
    passwordHashText p salt key =
      [0x24].intercalate (hashParts (Decimal.digits p.memory.toNat)
        (Decimal.digits p.iterations.toNat) (Decimal.digits p.parallelism.toNat)
        (Base64.encode Base64.rawStd salt) (Base64.encode Base64.rawStd key)) := by
  have hfront :
      Go.ascii "$argon2id$v=" = 0x24 :: Go.ascii "argon2id" ++ 0x24 :: Go.ascii "v=" := rfl
  have hmemory : Go.ascii "$m=" = 0x24 :: Go.ascii "m=" := rfl
  have hversion : Go.ascii "v=19" = Go.ascii "v=" ++ Decimal.digits argon2Version := rfl
  have hseparator : Go.ascii "$" = [0x24] := rfl
  simp [passwordHashText, hashParts, parameterText, List.intercalate, hfront, hmemory, hversion,
    hseparator]

theorem rawStd_symbol : ∀ v < 64, Base64.rawStd.symbol v ≠ 0x24 ∧
    Base64.rawStd.symbol v ≠ 0x0D ∧ Base64.rawStd.symbol v ≠ 0x0A ∧
    Base64.rawStd.symbol v < 0x80 := by
  decide

theorem mem_encode_rawStd {bytes : Bytes} {b : UInt8}
    (h : b ∈ Base64.encode Base64.rawStd bytes) :
    b ≠ 0x24 ∧ b ≠ 0x0D ∧ b ≠ 0x0A ∧ b < 0x80 := by
  obtain ⟨v, hv, rfl⟩ := List.mem_map.1 h
  exact rawStd_symbol v (Base64.sextets_lt bytes v hv)

theorem not_mem_numeral {ds : Bytes} (h : Decimal.IsNumeral ds) : 0x24 ∉ ds := fun hmem => by
  cases h.isDigit _ hmem

theorem not_mem_parameterText {m t p : Bytes} (hm : Decimal.IsNumeral m)
    (ht : Decimal.IsNumeral t) (hp : Decimal.IsNumeral p) : 0x24 ∉ parameterText m t p := by
  have hmText : 0x24 ∉ Go.ascii "m=" := by decide
  have htText : 0x24 ∉ Go.ascii ",t=" := by decide
  have hpText : 0x24 ∉ Go.ascii ",p=" := by decide
  simp only [parameterText, List.mem_append, not_or]
  exact ⟨⟨⟨⟨⟨hmText, not_mem_numeral hm⟩, htText⟩, not_mem_numeral ht⟩, hpText⟩,
    not_mem_numeral hp⟩

theorem splitOn_passwordHashText (p : PasswordParameters) (salt key : Bytes) :
    (passwordHashText p salt key).splitOn 0x24 =
      hashParts (Decimal.digits p.memory.toNat) (Decimal.digits p.iterations.toNat)
        (Decimal.digits p.parallelism.toNat) (Base64.encode Base64.rawStd salt)
        (Base64.encode Base64.rawStd key) := by
  rw [passwordHashText_eq]
  refine List.splitOn_intercalate 0x24 ?_ (List.cons_ne_nil _ _)
  simp only [hashParts, List.forall_mem_cons]
  refine ⟨List.not_mem_nil, by decide, by decide, ?_, fun h => (mem_encode_rawStd h).1 rfl,
    fun h => (mem_encode_rawStd h).1 rfl, List.forall_mem_nil _⟩
  exact not_mem_parameterText (Decimal.isNumeral_digits _) (Decimal.isNumeral_digits _)
    (Decimal.isNumeral_digits _)

theorem scanVersion_written : scanVersion (Go.ascii "v=19") = some (argon2Version : Int) :=
  rfl

theorem parsePasswordHash_text (hsafe : p.Safe) (hsalt : salt.length = p.saltLength.toNat)
    (hkey : key.length = p.keyLength.toNat) :
    parsePasswordHash (passwordHashText p salt key) = .ok (p, salt, key) := by
  rw [parsePasswordHash_eq_ok]
  refine ⟨_, _, _, _, _, splitOn_passwordHashText p salt key, scanVersion_written, ?_,
    Base64.decode_encode _ _ _, Base64.decode_encode _ _ _, ?_, ?_, hsafe⟩
  · rw [scanParameters_text (Decimal.isNumeral_digits _) (Decimal.isNumeral_digits _)
      (Decimal.isNumeral_digits _)]
    exact ⟨(Decimal.value_digits _).symm, (Decimal.value_digits _).symm,
      (Decimal.value_digits _).symm⟩
  · rw [hsalt, UInt32.ofNat_toNat]
  · rw [hkey, UInt32.ofNat_toNat]

end Text

theorem PasswordParameters.safe_iff {p : PasswordParameters} :
    p.Safe ↔ 8192 ≤ p.memory.toNat ∧ 1 ≤ p.iterations.toNat ∧ 1 ≤ p.parallelism.toNat ∧
      16 ≤ p.saltLength.toNat ∧ 16 ≤ p.keyLength.toNat := by
  simp only [Safe, not_or, UInt32.lt_iff_toNat_lt, ← UInt32.toNat_inj, ← UInt8.toNat_inj,
    UInt32.reduceToNat, UInt8.reduceToNat, Nat.not_lt]
  have : (8 * 1024 : UInt32).toNat = 8192 := rfl
  omega

theorem newPasswordHasher_of_safe {p : PasswordParameters} (h : p.Safe) :
    newPasswordHasher p = .ok ⟨p, h⟩ := dif_pos h

theorem verify_passwordHashText (argon : Argon2id) {p : PasswordParameters} (hsafe : p.Safe)
    (password : Bytes) {salt : Bytes} (hsalt : salt.length = p.saltLength.toNat)
    (q : Argon2Hasher) :
    q.verify argon password (passwordHashText p salt
      (argon.idKey password salt p.iterations p.memory p.parallelism p.keyLength)) =
        .ok (true, decide (p ≠ q.parameters)) := by
  have hkey := argon.length_idKey password salt p.iterations p.memory p.parallelism p.keyLength
  rw [Argon2Hasher.verify, parsePasswordHash_text hsafe hsalt hkey]
  simp only [bind, Except.bind, hkey, UInt32.ofNat_toNat, decide_true, Bool.true_and]
  rfl

theorem password_hash_decodes (argon : Argon2id) {p : PasswordParameters}
    (hp : 8192 ≤ p.memory.toNat ∧ 1 ≤ p.iterations.toNat ∧ 1 ≤ p.parallelism.toNat ∧
      16 ≤ p.saltLength.toNat ∧ 16 ≤ p.keyLength.toNat) (password salt : Bytes)
    (hpassword : 12 ≤ password.length ∧ password.length ≤ 1024)
    (hsalt : salt.length = p.saltLength.toNat) :
    ∃ hasher encoded, newPasswordHasher p = .ok hasher ∧
      hasher.hash argon password salt = .ok encoded ∧
      parsePasswordHash encoded = .ok (p, salt,
        argon.idKey password salt p.iterations p.memory p.parallelism p.keyLength) ∧
      hasher.verify argon password encoded = .ok (true, false) ∧
      ∀ q : Argon2Hasher, q.verify argon password encoded =
        .ok (true, decide (q.parameters ≠ p)) := by
  have hsafe := PasswordParameters.safe_iff.2 hp
  have hkey := argon.length_idKey password salt p.iterations p.memory p.parallelism p.keyLength
  have hverify := verify_passwordHashText argon hsafe password hsalt
  refine ⟨⟨p, hsafe⟩, _, newPasswordHasher_of_safe hsafe, if_neg (by omega),
    parsePasswordHash_text hsafe hsalt hkey, ?_, fun q => ?_⟩
  · rw [hverify, decide_eq_false (not_not_intro rfl)]
  · rw [hverify, decide_eq_decide.2 ne_comm]

def sample.argon : Argon2id where
  idKey password salt _ _ _ keyLen :=
    (password ++ salt ++ List.replicate keyLen.toNat 0).take keyLen.toNat
  length_idKey password salt _ _ _ keyLen := by
    simp only [List.length_take, List.length_append, List.length_replicate]
    omega

theorem password_hash_decodes_sample :
    ∃ hasher encoded, newPasswordHasher ⟨8192, 1, 1, 16, 16⟩ = .ok hasher ∧
      hasher.hash sample.argon (Go.ascii "correct horse") (Go.ascii "0123456789abcdef") =
        .ok encoded ∧
      hasher.verify sample.argon (Go.ascii "correct horse") encoded = .ok (true, false) := by
  obtain ⟨hasher, encoded, hnew, hhash, -, hverify, -⟩ :=
    password_hash_decodes sample.argon (p := ⟨8192, 1, 1, 16, 16⟩) (by decide)
      (Go.ascii "correct horse") (Go.ascii "0123456789abcdef") (by decide) (by decide)
  exact ⟨hasher, encoded, hnew, hhash, hverify⟩

section Strings

variable (argon : Argon2id) (h q : Argon2Hasher) (salt password : String)

theorem passwordHashText_ascii (p : PasswordParameters) (salt key : Bytes) :
    ∀ b ∈ passwordHashText p salt key, b < 0x80 := by
  have hdigits : ∀ n, ∀ b ∈ Decimal.digits n, b < 0x80 := by
    intro n b hb
    have hdigit := Decimal.isDigit_iff.1 ((Decimal.isNumeral_digits n).isDigit b hb)
    exact Nat.lt_of_le_of_lt hdigit.2 (by decide)
  have hencode : ∀ bytes, ∀ b ∈ Base64.encode Base64.rawStd bytes, b < 0x80 :=
    fun bytes b hb => (mem_encode_rawStd hb).2.2.2
  have hfixed : ∀ s, (Go.ascii s).all (· < 0x80) = true → ∀ b ∈ Go.ascii s, b < 0x80 :=
    fun s hs b hb => of_decide_eq_true (List.all_eq_true.1 hs b hb)
  simp only [passwordHashText, List.forall_mem_append]
  exact ⟨⟨⟨⟨⟨⟨⟨⟨⟨⟨⟨hfixed _ rfl, hdigits _⟩, hfixed _ rfl⟩, hdigits _⟩, hfixed _ rfl⟩, hdigits _⟩,
    hfixed _ rfl⟩, hdigits _⟩, hfixed _ rfl⟩, hencode _⟩, hfixed _ rfl⟩, hencode _⟩

theorem toPasswordHasher_hash :
    h.hash argon (Go.utf8 password) (Go.ascii salt) =
      (validatePassword password).map fun _ =>
        Go.utf8 ((h.toPasswordHasher argon).encode salt password) := by
  rw [Argon2Hasher.hash, validatePassword, Go.length_utf8]
  split
  · rfl
  · exact congrArg Except.ok (Go.utf8_asciiText (passwordHashText_ascii _ _ _)).symm

theorem toPasswordHasher_verify (hsalt : salt.length = h.parameters.saltLength.toNat) :
    (q.toPasswordHasher argon).verify password ((h.toPasswordHasher argon).encode salt password) =
      some (true, decide (h.parameters ≠ q.parameters)) := by
  have hlength : (Go.ascii salt).length = h.parameters.saltLength.toNat := by
    rw [Go.ascii, List.length_map, String.length_toList, hsalt]
  have hverify := verify_passwordHashText argon h.safe (Go.utf8 password) hlength q
  simp only [Argon2Hasher.toPasswordHasher, Go.utf8_asciiText (passwordHashText_ascii _ _ _),
    hverify]
  rfl

theorem Service.verified_encode {svc : Service} (hsvc : svc.hasher = h.toPasswordHasher argon)
    (hsalt : salt.length = h.parameters.saltLength.toNat) :
    svc.verified password (svc.hasher.encode salt password) = true := by
  rw [Service.verified, hsvc, toPasswordHasher_verify argon h h salt password hsalt]

end Strings

/-- Text as `Hash` writes it: nothing in front, the version in two digits, numbers without a
leading zero and nothing after them, and no line breaks. -/
def InHashFormat (s : Bytes) : Prop :=
  ∃ memory iterations parallelism saltText keyText,
    s.splitOn 0x24 = hashParts memory iterations parallelism saltText keyText ∧
      Decimal.Canonical memory ∧ Decimal.Canonical iterations ∧ Decimal.Canonical parallelism ∧
      ∀ b ∈ saltText ++ keyText, b ≠ 0x0D ∧ b ≠ 0x0A

theorem inHashFormat_text {p : PasswordParameters} (hsafe : p.Safe) (salt key : Bytes) :
    InHashFormat (passwordHashText p salt key) := by
  obtain ⟨hmemory, hiterations, hparallelism, -⟩ := PasswordParameters.safe_iff.1 hsafe
  refine ⟨_, _, _, _, _, splitOn_passwordHashText p salt key,
    Decimal.canonical_digits (by omega), Decimal.canonical_digits (by omega),
    Decimal.canonical_digits (by omega), ?_⟩
  intro b hb
  obtain hb | hb := List.mem_append.1 hb
  · exact ⟨(mem_encode_rawStd hb).2.1, (mem_encode_rawStd hb).2.2.1⟩
  · exact ⟨(mem_encode_rawStd hb).2.1, (mem_encode_rawStd hb).2.2.1⟩

theorem encode_of_decode_rawStd {text bytes : Bytes} (hbreak : ∀ b ∈ text, b ≠ 0x0D ∧ b ≠ 0x0A)
    (h : Base64.decode Base64.rawStd true text = some bytes) :
    Base64.encode Base64.rawStd bytes = text := by
  rw [Base64.encode_of_decode Base64.rawStd h, List.filter_eq_self]
  intro b hb
  simp [Base64.rawStd, Alphabet.ofLetters, hbreak b hb]

theorem InHashFormat.eq_text {s salt key : Bytes} {p : PasswordParameters} (hs : InHashFormat s)
    (h : parsePasswordHash s = .ok (p, salt, key)) : s = passwordHashText p salt key := by
  obtain ⟨m, t, par, saltText, keyText, hparts, hm, ht, hpar, hbreak⟩ := hs
  obtain ⟨front, version, parameters, saltText', keyText', hsplit, -, hscan, hsalt, hkey, -⟩ :=
    parsePasswordHash_eq_ok.1 h
  have hsame := hparts.symm.trans hsplit
  simp only [hashParts, List.cons.injEq, and_true] at hsame
  obtain ⟨-, -, -, rfl, rfl, rfl⟩ := hsame
  obtain ⟨hmemory, hiterations, hparallelism⟩ :=
    (scanParameters_text hm.toIsNumeral ht.toIsNumeral hpar.toIsNumeral).1 hscan
  obtain ⟨hsaltBreak, hkeyBreak⟩ := List.forall_mem_append.1 hbreak
  calc s = [0x24].intercalate (hashParts m t par saltText keyText) := by
        rw [← hparts, List.intercalate_splitOn]
    _ = passwordHashText p salt key := by
        rw [passwordHashText_eq, hmemory, hiterations, hparallelism, hm.digits_value,
          ht.digits_value, hpar.digits_value, encode_of_decode_rawStd hsaltBreak hsalt,
          encode_of_decode_rawStd hkeyBreak hkey]

theorem parsed_hash_canonical_iff {s salt key : Bytes} {p : PasswordParameters}
    (h : parsePasswordHash s = .ok (p, salt, key)) :
    (s = passwordHashText p salt key ↔ InHashFormat s) ∧
      ∀ t, parsePasswordHash t = .ok (p, salt, key) → InHashFormat s → InHashFormat t → s = t := by
  obtain ⟨-, -, -, -, -, -, -, -, -, -, -, -, hsafe⟩ := parsePasswordHash_eq_ok.1 h
  refine ⟨⟨fun heq => ?_, fun hs => hs.eq_text h⟩, fun t ht hsformat htformat => ?_⟩
  · rw [heq]
    exact inHashFormat_text hsafe salt key
  · rw [hsformat.eq_text h, htformat.eq_text ht]

def sample.hash (front version parameters : String) : Bytes :=
  Go.ascii (front ++ "$argon2id$" ++ version ++ "$" ++ parameters ++
    "$AAAAAAAAAAAAAAAAAAAAAA$AAAAAAAAAAAAAAAAAAAAAA")

def sample.parsed : PasswordParameters × Bytes × Bytes :=
  (⟨8192, 1, 1, 16, 16⟩, List.replicate 16 0, List.replicate 16 0)

theorem parsed_hash_canonical_sample :
    InHashFormat (sample.hash "" "v=19" "m=8192,t=1,p=1") ∧
      sample.hash "" "v=19" "m=8192,t=1,p=1" =
        passwordHashText ⟨8192, 1, 1, 16, 16⟩ (List.replicate 16 0) (List.replicate 16 0) := by
  have hparse : parsePasswordHash (sample.hash "" "v=19" "m=8192,t=1,p=1") = .ok sample.parsed := by
    decide
  have htext : sample.hash "" "v=19" "m=8192,t=1,p=1" =
      passwordHashText ⟨8192, 1, 1, 16, 16⟩ (List.replicate 16 0) (List.replicate 16 0) := by
    decide
  exact ⟨(parsed_hash_canonical_iff hparse).1.1 htext, htext⟩

/-- Something in front of the hash, after its version, before and after its numbers. -/
theorem other_hashes_accepted :
    parsePasswordHash (sample.hash "" "v=19" "m=8192,t=1,p=1") = .ok sample.parsed ∧
    parsePasswordHash (sample.hash "x" "v=19" "m=8192,t=1,p=1") = .ok sample.parsed ∧
    parsePasswordHash (sample.hash "" "v=+19.1" "m=8192,t=1,p=1") = .ok sample.parsed ∧
    parsePasswordHash (sample.hash "" "v=19" "m=08192,t= 1,p=1;x") = .ok sample.parsed ∧
    [sample.hash "" "v=19" "m=8192,t=1,p=1", sample.hash "x" "v=19" "m=8192,t=1,p=1",
      sample.hash "" "v=+19.1" "m=8192,t=1,p=1",
      sample.hash "" "v=19" "m=08192,t= 1,p=1;x"].Nodup := by
  decide +kernel

end IdentityService
