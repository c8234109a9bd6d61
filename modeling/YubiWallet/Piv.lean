import YubiWallet.Account
import YubiWallet.Apdu
import YubiWallet.KeyScan
import YubiWallet.Lib.Ber
import Mathlib.Data.List.Nodup

/-! PIV applet: Ed25519 signing in many slots and public-key retrieval from the slots'
certificates. -/
namespace YubiWallet.Piv
open Interaction

def aid : Bytes := [0xA0, 0x00, 0x00, 0x03, 0x08, 0x00, 0x00, 0x10, 0x00, 0x01, 0x00]
def algEd25519 : UInt8 := 0xE0
def p2PivPin : UInt8 := 0x80
def tagDynamicAuth : UInt8 := 0x7C
def tagResponse : UInt8 := 0x82
def tagChallenge : UInt8 := 0x81
def tagDataObject : UInt8 := 0x53
def tagCertificate : UInt8 := 0x70

/-- `SEQ { SEQ { OID 1.3.101.112 } BIT STRING (0 unused) }`; the key follows. -/
def ed25519SpkiPrefix : Bytes :=
  [0x30, 0x2A, 0x30, 0x05, 0x06, 0x03, 0x2B, 0x65, 0x70, 0x03, 0x21, 0x00]

structure SlotInfo where
  slot : UInt8
  ed25519Pubkey : Option (BytesN 32)
deriving DecidableEq

def ensureEd25519 (acc : Account) : Except Error Unit :=
  match acc.curve with
  | .ed25519 => .ok ()
  | .secp256k1 =>
    .error (.unsupported "PIV does not support secp256k1; use the OpenPGP applet")

def ensureSlot (slot : UInt8) : Except Error Unit :=
  if PivSlot.isValid slot then .ok ()
  else .error (.unsupported s!"{fmtHash04x slot} is not a PIV signing slot")

def select : CardM Unit := do
  let _ ← Apdu.send Apdu.cla Apdu.insSelect 0x04 0x00 (some aid) none 512
  pure ()

/-- The data object that holds a slot's certificate. -/
def slotObjectTag (slot : UInt8) : Except Error (BytesN 3) :=
  if slot = PivSlot.auth then .ok ⟨[0x5F, 0xC1, 0x05], rfl⟩
  else if slot = PivSlot.sign then .ok ⟨[0x5F, 0xC1, 0x0A], rfl⟩
  else if slot = PivSlot.keyMgmt then .ok ⟨[0x5F, 0xC1, 0x0B], rfl⟩
  else if slot = PivSlot.cardAuth then .ok ⟨[0x5F, 0xC1, 0x01], rfl⟩
  else if PivSlot.retiredFirst ≤ slot ∧ slot ≤ PivSlot.retiredLast then
    .ok ⟨[0x5F, 0xC1, 0x0D + (slot - PivSlot.retiredFirst)], rfl⟩
  else .error (.unsupported s!"not a PIV slot: {fmtHash04x slot}")

def berLen (n : Nat) : Bytes :=
  if n < 0x80 then [UInt8.ofNat n]
  else if n ≤ 0xFF then [0x81, UInt8.ofNat n]
  else if n ≤ 0xFFFF then [0x82, UInt8.ofNat (n >>> 8), UInt8.ofNat n]
  else [0x83, UInt8.ofNat (n >>> 16), UInt8.ofNat (n >>> 8), UInt8.ofNat n]

/-- `82 00 81 L <message>` -/
def generalAuthenticateTemplate (message : Bytes) : Bytes :=
  [tagResponse, 0x00, tagChallenge] ++ berLen message.length ++ message

def buildGeneralAuthenticateData (message : Bytes) : Bytes :=
  let inner := generalAuthenticateTemplate message
  [tagDynamicAuth] ++ berLen inner.length ++ inner

/-- The loop over the `num` length bytes of a long form. -/
def readLenBytes (data : Bytes) : Nat → Nat → Nat → Except Error (Nat × Nat)
  | 0, i, len => .ok (len, i)
  | num + 1, i, len =>
    match data[i]? with
    | none => .error (.parse "TLV length truncated")
    | some b => readLenBytes data num (i + 1) (len <<< 8 ||| b.toNat)

/-- Read a definite length at `i`; the result is the length and the next index. -/
def readBerLen (data : Bytes) (i : Nat) : Except Error (Nat × Nat) :=
  match data[i]? with
  | none => .error (.parse "TLV length truncated")
  | some first =>
    let num := (first &&& 0x7F).toNat
    if first < 0x80 then .ok (first.toNat, i + 1)
    else if num = 0 ∨ num > 4 then .error (.parse s!"bad BER length byte {fmtHash04x first}")
    else readLenBytes data num (i + 1) 0

theorem readLenBytes_next {data : Bytes} {num i len n next : Nat}
    (h : readLenBytes data num i len = .ok (n, next)) : next = i + num := by
  induction num generalizing i len with
  | zero =>
    obtain ⟨-, rfl⟩ : len = n ∧ i = next := by simpa [readLenBytes] using h
    rfl
  | succ num ih =>
    simp only [readLenBytes] at h
    split at h
    · simp at h
    · rw [ih h]
      omega

/-- The index moves forward past every length field. -/
theorem readBerLen_next {data : Bytes} {i n next : Nat}
    (h : readBerLen data i = .ok (n, next)) : i < next := by
  simp only [readBerLen] at h
  split at h
  · simp at h
  · split at h
    · obtain ⟨-, rfl⟩ : _ ∧ i + 1 = next := by simpa using h
      omega
    · split at h
      · simp at h
      · have := readLenBytes_next h
        omega

/-- The loop of `read_tlv` from index `i` on. A length of at most four bytes cannot
overflow the 64-bit sum that `checked_add` guards. -/
def readTlvFrom (data : Bytes) (tag : UInt8) (i : Nat) : Except Error Bytes :=
  match data[i]? with
  | none => .error (.parse s!"TLV tag {fmtHash04x tag} not found")
  | some t =>
    match h : readBerLen data (i + 1) with
    | .error e => .error e
    | .ok (len, start) =>
      if start + len ≤ data.length then
        if t = tag then .ok ((data.drop start).take len)
        else
          have : i < start + len := by have := readBerLen_next h; omega
          readTlvFrom data tag (start + len)
      else .error (.parse s!"TLV {fmtHash04x t} overruns buffer")
termination_by data.length - i
decreasing_by
  have := readBerLen_next h
  omega

def readTlv (data : Bytes) (tag : UInt8) : Except Error Bytes := readTlvFrom data tag 0

theorem readLenBytes_eq (data : Bytes) (num i len : Nat) :
    readLenBytes data num i len =
      if i + num ≤ data.length then
        .ok (((data.drop i).take num).foldl (fun n b => n * 256 + b.toNat) len, i + num)
      else if num = 0 then .ok (len, i)
      else .error (.parse "TLV length truncated") := by
  induction num generalizing i len with
  | zero => simp [readLenBytes]
  | succ num ih =>
    by_cases hi : i < data.length
    · have hb := (data[i]).toNat_lt
      have hor : len <<< 8 ||| (data[i]).toNat = len * 256 + (data[i]).toNat := by
        rw [← Nat.shiftLeft_add_eq_or_of_lt (by simpa using hb), Nat.shiftLeft_eq]
      have hdrop : data.drop i = data[i] :: data.drop (i + 1) := List.drop_eq_getElem_cons hi
      simp only [readLenBytes, List.getElem?_eq_getElem hi, hor, ih, hdrop, List.take_succ_cons,
        List.foldl_cons]
      split
      · rw [if_pos (by omega)]
        congr 2
        omega
      · rw [if_neg (by omega), if_neg (by omega)]
        split
        · omega
        · rfl
    · rw [if_neg (by omega), if_neg (by omega), readLenBytes,
        List.getElem?_eq_none (by omega)]

/-- Reading a length at `i` is reading it off the front of what stands there. -/
theorem readBerLen_toOption (data : Bytes) (i : Nat) :
    (readBerLen data i).toOption.map (fun r => (r.1, data.drop r.2)) =
      Ber.readLength (data.drop i) := by
  by_cases hi : i < data.length
  · have hdrop : data.drop i = data[i] :: data.drop (i + 1) := List.drop_eq_getElem_cons hi
    have hlt := (data[i]).toNat_lt
    have hshort : (data[i] < 0x80) ↔ (data[i]).toNat < 0x80 := UInt8.lt_iff_toNat_lt
    simp only [readBerLen, List.getElem?_eq_getElem hi, hdrop, Ber.readLength, hshort]
    by_cases h80 : (data[i]).toNat < 0x80
    · rw [if_pos h80, if_pos h80]
      rfl
    · have hnum : (data[i] &&& 0x7F).toNat = (data[i]).toNat - 0x80 := by
        have hmod : (data[i] &&& 0x7F).toNat = (data[i]).toNat % 2 ^ 7 := by
          rw [UInt8.toNat_and, ← Nat.and_two_pow_sub_one_eq_mod]
          rfl
        omega
      simp only [h80, if_false, hnum, readLenBytes_eq, List.length_drop]
      generalize (data[i]).toNat - 0x80 = k
      by_cases hk : k = 0 ∨ k > 4
      · rw [if_pos hk, if_neg (by omega)]
        rfl
      · rw [if_neg hk]
        by_cases hfit : i + 1 + k ≤ data.length
        · rw [if_pos hfit, if_pos (by omega), List.drop_drop]
          rfl
        · rw [if_neg hfit, if_neg (by omega), if_neg (by omega)]
          rfl
  · simp [readBerLen, List.getElem?_eq_none (by omega : data.length ≤ i),
      List.drop_eq_nil_of_le (by omega : data.length ≤ i), Ber.readLength, Except.toOption]

theorem readBerLen_le {data : Bytes} {i n next : Nat} (h : readBerLen data i = .ok (n, next)) :
    next ≤ data.length := by
  simp only [readBerLen] at h
  split at h
  · simp at h
  · rename_i b hb
    have hi : i < data.length := (List.getElem?_eq_some_iff.mp hb).1
    split at h
    · obtain ⟨-, rfl⟩ : _ ∧ i + 1 = next := by simpa using h
      omega
    · split at h
      · simp at h
      · rename_i hnum
        rw [readLenBytes_eq] at h
        split at h
        · obtain ⟨-, rfl⟩ : _ ∧ _ = next := by simpa using h
          assumption
        · rw [if_neg (by omega)] at h
          simp at h

/-- One round of the loop reads one element. -/
theorem readElement_drop {data : Bytes} {i len start : Nat} {t : UInt8}
    (ht : data[i]? = some t) (hlen : readBerLen data (i + 1) = .ok (len, start)) :
    Ber.readElement (data.drop i) =
      if start + len ≤ data.length then
        some ((t, (data.drop start).take len), data.drop (start + len))
      else none := by
  obtain ⟨hlt, rfl⟩ := List.getElem?_eq_some_iff.mp ht
  have hread := readBerLen_toOption data (i + 1)
  have hle := readBerLen_le hlen
  rw [hlen] at hread
  rw [List.drop_eq_getElem_cons hlt, Ber.readElement, ← hread]
  simp only [Except.toOption, Option.map_some, List.length_drop, List.drop_drop]
  by_cases hfit : start + len ≤ data.length
  · rw [if_pos hfit, if_pos (by omega)]
  · rw [if_neg hfit, if_neg (by omega)]

theorem readTlvFrom_toOption (data : Bytes) (tag : UInt8) (i : Nat) :
    (readTlvFrom data tag i).toOption = Ber.find tag (data.drop i) := by
  fun_induction readTlvFrom data tag i with
  | case1 i hi =>
    have hnil : data.drop i = [] := List.drop_eq_nil_of_le (List.getElem?_eq_none_iff.mp hi)
    rw [Ber.find_of_none _ (by rw [hnil]; rfl)]
    rfl
  | case2 i t ht e he =>
    obtain ⟨hlt, -⟩ := List.getElem?_eq_some_iff.mp ht
    have hlen := readBerLen_toOption data (i + 1)
    rw [he] at hlen
    have hnone : Ber.readElement (data.drop i) = none := by
      rw [List.drop_eq_getElem_cons hlt, Ber.readElement, ← hlen]
      rfl
    rw [Ber.find_of_none _ hnone]
    rfl
  | case3 i len start hlen hfit ht =>
    rw [Ber.find_of_readElement _ (by rw [readElement_drop ht hlen, if_pos hfit]), if_pos rfl]
    rfl
  | case4 i t ht len start hlen hfit hne _ ih =>
    rw [Ber.find_of_readElement _ (by rw [readElement_drop ht hlen, if_pos hfit]), if_neg hne,
      ih]
  | case5 i t ht len start hlen hover =>
    rw [Ber.find_of_none _ (by rw [readElement_drop ht hlen, if_neg hover])]
    rfl

/-- `read_tlv` finds the first element with the tag. -/
theorem readTlv_toOption (data : Bytes) (tag : UInt8) :
    (readTlv data tag).toOption = Ber.find tag data := readTlvFrom_toOption data tag 0

theorem readTlv_eq_ok_iff (data : Bytes) (tag : UInt8) (v : Bytes) :
    readTlv data tag = .ok v ↔ Ber.find tag data = some v := by
  rw [← readTlv_toOption]
  cases readTlv data tag <;> simp [Except.toOption]

def parseSignatureResponse (resp : Bytes) : Except Error Bytes := do
  let dynamic ← readTlv resp tagDynamicAuth
  readTlv dynamic tagResponse

/-- The signature is the value of `82` within the value of `7C`. -/
theorem parseSignatureResponse_eq_ok_iff (resp sig : Bytes) :
    parseSignatureResponse resp = .ok sig ↔
      (Ber.find tagDynamicAuth resp).bind (Ber.find tagResponse) = some sig := by
  rw [← readTlv_toOption resp]
  cases h : readTlv resp tagDynamicAuth with
  | error e => simp [parseSignatureResponse, h, Except.toOption, bind, Except.bind]
  | ok v => simp [parseSignatureResponse, h, Except.toOption, bind, Except.bind, readTlv_eq_ok_iff]

def extractCertificate (resp : Bytes) : Except Error Bytes := do
  let object ← readTlv resp tagDataObject
  let cert ← readTlv object tagCertificate
  if cert.isEmpty then .error (.pubkeyNotFound "empty certificate in slot") else .ok cert

def extractEd25519FromCert (der : Bytes) : Except Error (BytesN 32) :=
  scanKey ed25519SpkiPrefix 32 "truncated Ed25519 key in cert"
    "no Ed25519 SubjectPublicKeyInfo in certificate (is the slot Ed25519?)" der

/-- Pad a PIN to eight bytes with `FF`. -/
def pinPadded (pin : String) : Except Error Bytes :=
  let bytes := asBytes pin
  if bytes.length > 8 then .error (.parse "PIV PIN must be at most 8 characters")
  else .ok (bytes ++ List.replicate (8 - bytes.length) 0xFF)

/-- GET DATA for the object that holds a slot's certificate. -/
def getDataCommand (tag : Bytes) : Bytes :=
  Apdu.buildApduExt Apdu.cla Apdu.insGetData 0x3F 0xFF ([0x5C, 0x03] ++ tag) (some 0)

/-- The key in the answer to GET DATA. -/
def readCertificateKey (resp : Bytes) : Except Error (BytesN 32) := do
  let cert ← extractCertificate resp
  extractEd25519FromCert cert

def fetchEd25519Pubkey (slot : UInt8) : CardM (BytesN 32) := do
  let tag ← Action.ofExcept (slotObjectTag slot)
  let resp ← Apdu.transmit (getDataCommand tag.val) 4096
  Action.ofExcept (readCertificateKey resp)

def getPubkey (acc : Account) : CardM Bytes := do
  Action.ofExcept (ensureEd25519 acc)
  Action.ofExcept (ensureSlot acc.slot)
  Apdu.connect
  select
  let k ← fetchEd25519Pubkey acc.slot
  pure k.val

def generalAuthenticateCommand (slot : UInt8) (message : Bytes) : Bytes :=
  Apdu.buildApduExt Apdu.cla Apdu.insGeneralAuthenticate algEd25519 slot
    (buildGeneralAuthenticateData message) (some 0)

def sign (acc : Account) (message : Bytes) (pin : Option String) : CardM Bytes := do
  Action.ofExcept (ensureEd25519 acc)
  Action.ofExcept (ensureSlot acc.slot)
  Apdu.connect
  select
  let pinStr ← Pin.resolve pin "Enter PIV PIN: "
  let padded ← Action.ofExcept (pinPadded pinStr)
  let _ ← Apdu.send Apdu.cla Apdu.insVerify 0x00 p2PivPin (some padded) none 512
  let resp ← Apdu.transmit (generalAuthenticateCommand acc.slot message) 4096
  Action.ofExcept (parseSignatureResponse resp)

/-- One slot of the enumeration: a slot that cannot be read holds no key. -/
def slotInfo (slot : UInt8) : Prog SlotInfo := do
  let key ← (fetchEd25519Pubkey slot).run
  pure ⟨slot, key.toOption⟩

def listAccounts : CardM (List SlotInfo) := do
  Apdu.connect
  select
  liftM (PivSlot.all.mapM slotInfo)

theorem ensureEd25519_ok {acc : Account} {u : Unit} (h : ensureEd25519 acc = .ok u) :
    acc.curve = .ed25519 := by
  unfold ensureEd25519 at h
  split at h
  · assumption
  · simp at h

theorem ensureEd25519_of {acc : Account} (h : acc.curve = .ed25519) :
    ensureEd25519 acc = .ok () := by
  rw [ensureEd25519, h]

theorem ensureSlot_of {slot : UInt8} (h : PivSlot.isValid slot = true) :
    ensureSlot slot = .ok () := if_pos h

theorem ensureSlot_ok {slot : UInt8} {u : Unit} (h : ensureSlot slot = .ok u) :
    PivSlot.isValid slot = true := by
  unfold ensureSlot at h
  split at h
  · assumption
  · simp at h

/-- The slots with a certificate object are the valid ones. -/
theorem slotObjectTag_isSome (slot : UInt8) :
    (slotObjectTag slot).toOption.isSome = PivSlot.isValid slot := by
  have h : ∀ n : Fin 256, (slotObjectTag (UInt8.ofNat n)).toOption.isSome =
      PivSlot.isValid (UInt8.ofNat n) := by decide +kernel
  simpa using h ⟨slot.toNat, slot.toNat_lt⟩

theorem exists_slotObjectTag {slot : UInt8} (h : PivSlot.isValid slot = true) :
    ∃ tag, slotObjectTag slot = .ok tag := by
  rw [← slotObjectTag_isSome] at h
  cases htag : slotObjectTag slot with
  | ok tag => exact ⟨tag, rfl⟩
  | error e => simp [htag, Except.toOption] at h

/-- No two slots share a certificate object. -/
theorem slotObjectTag_inj {slot slot' : UInt8} {tag : BytesN 3}
    (h : slotObjectTag slot = .ok tag) (h' : slotObjectTag slot' = .ok tag) : slot = slot' := by
  have hnodup : (PivSlot.all.map fun slot => (slotObjectTag slot).toOption).Nodup := by
    decide +kernel
  have hmem : ∀ {s}, slotObjectTag s = .ok tag → s ∈ PivSlot.all := fun hs => by
    rw [PivSlot.mem_all_iff, ← slotObjectTag_isSome, hs]
    rfl
  exact List.inj_on_of_nodup_map hnodup (hmem h) (hmem h') (by rw [h, h'])

theorem pinPadded_ok {pin : String} {padded : Bytes} (h : pinPadded pin = .ok padded) :
    (asBytes pin).length ≤ 8 ∧
      padded = asBytes pin ++ List.replicate (8 - (asBytes pin).length) 0xFF := by
  simp only [pinPadded] at h
  split at h
  · simp at h
  · exact ⟨by omega, (Except.ok.inj h).symm⟩

theorem pinPadded_length {pin : String} {padded : Bytes} (h : pinPadded pin = .ok padded) :
    padded.length = 8 := by
  obtain ⟨hlen, rfl⟩ := pinPadded_ok h
  rw [List.length_append, List.length_replicate]
  omega

end YubiWallet.Piv
