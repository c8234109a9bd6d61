import YubiWallet.Error

/-! Account selection: which applet, which key slot, which curve. -/
namespace YubiWallet

inductive Applet where
  | openPgp | piv
deriving DecidableEq, Repr

inductive Curve where
  | ed25519 | secp256k1
deriving DecidableEq, Repr

structure Account where
  applet : Applet
  slot : UInt8
  curve : Curve
deriving DecidableEq, Repr

namespace OpenpgpSlot
def sig : UInt8 := 0x01
def aut : UInt8 := 0x03
end OpenpgpSlot

namespace PivSlot
def auth : UInt8 := 0x9A
def sign : UInt8 := 0x9C
def keyMgmt : UInt8 := 0x9D
def cardAuth : UInt8 := 0x9E
def retiredFirst : UInt8 := 0x82
def retiredLast : UInt8 := 0x95

def isValid (slot : UInt8) : Bool :=
  slot = auth || slot = sign || slot = keyMgmt || slot = cardAuth ||
    (retiredFirst ≤ slot && slot ≤ retiredLast)

/-- The retired slots, `RETIRED_FIRST..=RETIRED_LAST`. -/
def retired : List UInt8 :=
  (List.range (retiredLast.toNat + 1 - retiredFirst.toNat)).map fun i =>
    retiredFirst + UInt8.ofNat i

def all : List UInt8 := [auth, sign, keyMgmt, cardAuth] ++ retired

/-- The listed slots are exactly the valid ones. -/
theorem mem_all_iff (slot : UInt8) : slot ∈ all ↔ isValid slot = true := by
  have h : ∀ n : Fin 256, UInt8.ofNat n ∈ all ↔ isValid (UInt8.ofNat n) = true := by
    decide +kernel
  simpa using h ⟨slot.toNat, slot.toNat_lt⟩

end PivSlot

def Applet.fromStr (s : String) : Except Error Applet :=
  match toAsciiLowercase (trim s) with
  | "openpgp" | "pgp" | "gpg" => .ok .openPgp
  | "piv" => .ok .piv
  | _ => .error (.parse s!"unknown applet '{s}' (use openpgp|piv)")

def Curve.fromStr (s : String) : Except Error Curve :=
  match toAsciiLowercase (trim s) with
  | "ed25519" | "ed" => .ok .ed25519
  | "secp256k1" | "k1" => .ok .secp256k1
  | _ => .error (.parse s!"unknown curve '{s}' (use ed25519|secp256k1)")

def parseHexByte (s : String) : Option UInt8 := u8FromStrRadix16 (stripPrefix0x s.toList)

/-- The aliases of the PIV slots, or a slot id in hexadecimal. -/
def pivSlotValue (t : String) : Option UInt8 :=
  match t with
  | "auth" => some PivSlot.auth
  | "sign" => some PivSlot.sign
  | "keymgmt" | "key-mgmt" => some PivSlot.keyMgmt
  | "cardauth" | "card-auth" => some PivSlot.cardAuth
  | other => parseHexByte other

def parseSlot (applet : Applet) (s : String) : Except Error UInt8 :=
  let t := toAsciiLowercase (trim s)
  match applet with
  | .openPgp =>
    match t with
    | "sig" | "signature" => .ok OpenpgpSlot.sig
    | "aut" | "auth" | "authentication" => .ok OpenpgpSlot.aut
    | _ => .error (.parse s!"unknown OpenPGP slot '{s}' (use sig|aut)")
  | .piv =>
    match pivSlotValue t with
    | none => .error (.parse s!"unknown PIV slot '{s}'")
    | some v =>
      if PivSlot.isValid v then .ok v
      else .error (.parse s!"{s} is not a valid PIV signing slot")

/-- The slots that `parse_slot` can give for an applet. -/
def Applet.slotOk : Applet → UInt8 → Prop
  | .openPgp, slot => slot = OpenpgpSlot.sig ∨ slot = OpenpgpSlot.aut
  | .piv, slot => PivSlot.isValid slot = true

theorem parseSlot_ok {applet : Applet} {s : String} {slot : UInt8}
    (h : parseSlot applet s = .ok slot) : applet.slotOk slot := by
  cases applet with
  | openPgp =>
    simp only [parseSlot] at h
    split at h <;> simp_all [Applet.slotOk]
  | piv =>
    simp only [parseSlot] at h
    split at h
    · simp at h
    · split at h
      · rename_i v _ hvalid
        obtain rfl : v = slot := by simpa using h
        exact hvalid
      · simp at h

end YubiWallet
