import YubiWallet.Account
import YubiWallet.Apdu
import YubiWallet.KeyScan

/-! OpenPGP card applet: public-key retrieval and signing. -/
namespace YubiWallet.Openpgp
open Interaction

def aid : Bytes := [0xD2, 0x76, 0x00, 0x01, 0x24, 0x01]

/-- PW1 mode for PSO:CDS. -/
def p2Pw1Sign : UInt8 := 0x81

/-- PW1 mode for the other commands, such as INTERNAL AUTHENTICATE. -/
def p2Pw1Other : UInt8 := 0x82

def p1Sign : UInt8 := 0x9E
def p2ComputeSignature : UInt8 := 0x9A

def crtTag (slot : UInt8) : Except Error UInt8 :=
  if slot = OpenpgpSlot.sig then .ok 0xB6
  else if slot = OpenpgpSlot.aut then .ok 0xA4
  else .error (.unsupported s!"OpenPGP slot {fmtHash04x slot}: only SIG and AUT are supported")

def select : CardM Unit := do
  let _ ← Apdu.send Apdu.cla Apdu.insSelect 0x04 0x00 (some aid) none 512
  pure ()

/-- GET PUBLIC KEY with an extended length and the control reference template `crt 00`. -/
def getPublicKeyCommand (crt : UInt8) : Bytes :=
  [Apdu.cla, Apdu.insGetPublicKey, 0x81, 0x00, 0x00, 0x00, 0x02, crt, 0x00, 0x00, 0x00]

def getPubkeyRawOn (slot : UInt8) : CardM Bytes := do
  let crt ← Action.ofExcept (crtTag slot)
  Apdu.transmit (getPublicKeyCommand crt) 512

def getPubkeyRaw (slot : UInt8) : CardM Bytes := do
  Apdu.connect
  select
  getPubkeyRawOn slot

def ed25519Marker : Bytes := [0x86, 0x20]
def secp256k1Marker : Bytes := [0x86, 0x41]

/-- The 32 bytes behind the first `86 20`. -/
def extractEd25519Pubkey (tlv : Bytes) : Except Error (BytesN 32) :=
  if tlv.length < 2 then .error (.pubkeyNotFound "GET PUBLIC KEY response too short")
  else
    scanKey ed25519Marker 32 "truncated 0x86 public-key TLV"
      s!"no Ed25519 (0x86,0x20) tag in response (TLV: {Hex.encode tlv})" tlv

/-- The 65 bytes behind the first `86 41`, which must begin with `04`. -/
def extractSecp256k1Pubkey (tlv : Bytes) : Except Error (BytesN 65) :=
  if tlv.length < 2 then .error (.pubkeyNotFound "GET PUBLIC KEY response too short")
  else
    match scanKey secp256k1Marker 65 "truncated 0x86 secp256k1 point TLV"
      s!"no secp256k1 (0x86,0x41) tag in response (TLV: {Hex.encode tlv})" tlv with
    | .error e => .error e
    | .ok point =>
      if point.val.getD 0 0 ≠ 0x04 then
        .error (.pubkeyNotFound
          s!"expected uncompressed point (0x04 prefix), got {fmtHash04x (point.val.getD 0 0)}")
      else .ok point

/-- What `get_pubkey` makes of the raw response for the claimed curve. -/
def readPubkey (curve : Curve) (raw : Bytes) : Except Error Bytes :=
  match curve with
  | .ed25519 => (extractEd25519Pubkey raw).map Subtype.val
  | .secp256k1 => (extractSecp256k1Pubkey raw).map Subtype.val

def getPubkey (acc : Account) : CardM Bytes := do
  let raw ← getPubkeyRaw acc.slot
  Action.ofExcept (readPubkey acc.curve raw)

/-- The curve detection of `detect_account`: Ed25519 is tried first. -/
def classify (slot : UInt8) (raw : Bytes) : Except Error (Curve × Bytes) :=
  match extractEd25519Pubkey raw with
  | .ok k => .ok (.ed25519, k.val)
  | .error _ =>
    match extractSecp256k1Pubkey raw with
    | .ok k => .ok (.secp256k1, k.val)
    | .error _ =>
      .error (.pubkeyNotFound
        s!"OpenPGP slot {fmtHash04x slot}: not an Ed25519 or secp256k1 key")

def detectAccount (slot : UInt8) : CardM (Curve × Bytes) := do
  let raw ← getPubkeyRaw slot
  Action.ofExcept (classify slot raw)

def sign (acc : Account) (message : Bytes) (pin : Option String) : CardM Bytes := do
  Apdu.connect
  select
  if acc.slot = OpenpgpSlot.sig then do
    let userPin ← Pin.resolve pin "Enter User PIN (PW1/PIN2): "
    let _ ← Apdu.send Apdu.cla Apdu.insVerify 0x00 p2Pw1Sign (some (asBytes userPin)) none 512
    Apdu.send Apdu.cla Apdu.insPso p1Sign p2ComputeSignature (some message) (some 0x00) 512
  else if acc.slot = OpenpgpSlot.aut then do
    let userPin ← Pin.resolve pin "Enter User PIN (PW1): "
    let _ ← Apdu.send Apdu.cla Apdu.insVerify 0x00 p2Pw1Other (some (asBytes userPin)) none 512
    Apdu.send Apdu.cla Apdu.insInternalAuthenticate 0x00 0x00 (some message) (some 0x00) 512
  else
    throw (.unsupported
      s!"OpenPGP slot {fmtHash04x acc.slot}: only SIG and AUT are supported")

theorem crtTag_eq_ok_iff (slot crt : UInt8) :
    crtTag slot = .ok crt ↔
      slot = OpenpgpSlot.sig ∧ crt = 0xB6 ∨ slot = OpenpgpSlot.aut ∧ crt = 0xA4 := by
  unfold crtTag
  split
  · rename_i hsig
    subst hsig
    simp [OpenpgpSlot.sig, OpenpgpSlot.aut, eq_comm]
  · rename_i hsig
    split
    · rename_i haut
      subst haut
      simp [OpenpgpSlot.sig, OpenpgpSlot.aut, eq_comm]
    · rename_i haut
      simp [hsig, haut]

theorem exists_crtTag {slot : UInt8} (h : slot = OpenpgpSlot.sig ∨ slot = OpenpgpSlot.aut) :
    ∃ crt, crtTag slot = .ok crt := by
  cases h with
  | inl hsig => exact ⟨_, (crtTag_eq_ok_iff _ _).mpr (Or.inl ⟨hsig, rfl⟩)⟩
  | inr haut => exact ⟨_, (crtTag_eq_ok_iff _ _).mpr (Or.inr ⟨haut, rfl⟩)⟩

/-- The slots of the applet have different templates. -/
theorem crtTag_inj {slot slot' crt : UInt8} (h : crtTag slot = .ok crt)
    (h' : crtTag slot' = .ok crt) : slot = slot' := by
  rcases (crtTag_eq_ok_iff _ _).mp h with ⟨rfl, rfl⟩ | ⟨rfl, rfl⟩ <;>
    rcases (crtTag_eq_ok_iff _ _).mp h' with ⟨rfl, hcrt⟩ | ⟨rfl, hcrt⟩
  · rfl
  · exact absurd hcrt (by decide)
  · exact absurd hcrt (by decide)
  · rfl

theorem ed25519Marker_borderless : Window.Borderless ed25519Marker := by decide
theorem secp256k1Marker_borderless : Window.Borderless secp256k1Marker := by decide

theorem extractEd25519Pubkey_eq_ok_iff (tlv : Bytes) (k : BytesN 32) :
    extractEd25519Pubkey tlv = .ok k ↔ Window.extract ed25519Marker 32 tlv = some k.val := by
  unfold extractEd25519Pubkey
  split
  · rename_i hlen
    rw [← scanKey_eq_ok_iff _ _ "" "", scanKey_short _ _ _ _ hlen]
    simp
  · rw [scanKey_eq_ok_iff]

theorem extractSecp256k1Pubkey_eq_ok_iff (tlv : Bytes) (k : BytesN 65) :
    extractSecp256k1Pubkey tlv = .ok k ↔
      Window.extract secp256k1Marker 65 tlv = some k.val ∧ k.val.getD 0 0 = 0x04 := by
  unfold extractSecp256k1Pubkey
  split
  · rename_i hlen
    rw [← scanKey_eq_ok_iff _ _ "" "", scanKey_short _ _ _ _ hlen]
    simp
  · rw [← scanKey_eq_ok_iff _ _ "truncated 0x86 secp256k1 point TLV"
      s!"no secp256k1 (0x86,0x41) tag in response (TLV: {Hex.encode tlv})"]
    split
    · rename_i e he
      simp [he]
    · rename_i point hpoint
      rw [hpoint]
      by_cases hhead : point.val.getD 0 0 = 0x04
      · rw [if_neg (not_not.mpr hhead)]
        constructor
        · intro h
          obtain rfl : point = k := Except.ok.inj h
          exact ⟨rfl, hhead⟩
        · exact And.left
      · rw [if_pos hhead]
        constructor
        · intro h
          simp at h
        · rintro ⟨h, hk⟩
          obtain rfl : point = k := Except.ok.inj h
          exact absurd hk hhead

/-- The answer that a scanner fails on is one that its search fails on. -/
theorem extractEd25519Pubkey_eq_error_iff (tlv : Bytes) :
    (∃ e, extractEd25519Pubkey tlv = .error e) ↔
      Window.extract ed25519Marker 32 tlv = none := by
  constructor
  · rintro ⟨e, he⟩
    cases hx : Window.extract ed25519Marker 32 tlv with
    | none => rfl
    | some k =>
      obtain ⟨pre, post, -, hlen, -⟩ := (Window.extract_eq_some_iff ed25519Marker_borderless
        (by decide) 32 tlv k).mp hx
      have hok := (extractEd25519Pubkey_eq_ok_iff tlv ⟨k, hlen⟩).mpr hx
      rw [he] at hok
      simp at hok
  · intro hnone
    cases hx : extractEd25519Pubkey tlv with
    | error e => exact ⟨e, rfl⟩
    | ok k =>
      rw [(extractEd25519Pubkey_eq_ok_iff tlv k).mp hx] at hnone
      simp at hnone

end YubiWallet.Openpgp
