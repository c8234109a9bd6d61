import YubiWallet.Error

/-! Ethereum post-processing of secp256k1 signatures: low-S form, recovery id and
address. -/
namespace YubiWallet
open Endian

namespace Secp256k1

/-- The order of the group. -/
def n : Nat := 0xFFFFFFFFFFFFFFFFFFFFFFFFFFFFFFFEBAAEDCE6AF48A03BBFD25E8CD0364141

end Secp256k1

/-- `k256::ecdsa::Signature`: two scalars, neither of them zero. -/
structure Signature where
  r : Nat
  s : Nat
  r_pos : 0 < r
  r_lt : r < Secp256k1.n
  s_pos : 0 < s
  s_lt : s < Secp256k1.n

namespace Signature

/-- `Signature::from_slice` on 64 bytes. -/
def fromSlice (rs : BytesN 64) : Option Signature :=
  let r := beNat (rs.val.take 32)
  let s := beNat (rs.val.drop 32)
  if h : (0 < r ∧ r < Secp256k1.n) ∧ (0 < s ∧ s < Secp256k1.n) then
    some ⟨r, s, h.1.1, h.1.2, h.2.1, h.2.2⟩
  else none

/-- The other signature for the same message, when `s` is in the upper half. -/
def normalizeS (sig : Signature) : Option Signature :=
  if sig.s > Secp256k1.n / 2 then
    some { sig with
      s := Secp256k1.n - sig.s
      s_pos := by have := sig.s_lt; omega
      s_lt := by have := sig.s_pos; have := sig.s_lt; omega }
  else none

def toBytes (sig : Signature) : Bytes := beBytes 32 sig.r ++ beBytes 32 sig.s

end Signature

/-- What the `k256` crate provides for recovery. -/
structure K256 where
  VerifyingKey : Type
  [decEq : DecidableEq VerifyingKey]
  fromSec1Bytes : Bytes → Except String VerifyingKey
  recoverFromPrehash : BytesN 32 → Signature → UInt8 → Except String VerifyingKey
  /-- The text of the error for scalars out of range. -/
  signatureError : String

namespace Eth

structure EthSignature where
  r : BytesN 32
  s : BytesN 32
  v : UInt64
deriving DecidableEq

/-- `keccak256(X || Y)[12..]` -/
def addressFromPubkey (keccak256 : Bytes → BytesN 32) (pubkey : Bytes) :
    Except Error (BytesN 20) :=
  if pubkey.length ≠ 65 ∨ pubkey.getD 0 0 ≠ 0x04 then
    .error (.parse "expected 65-byte uncompressed secp256k1 public key")
  else .ok ⟨(keccak256 (pubkey.drop 1)).val.drop 12, by
    rw [List.length_drop, (keccak256 (pubkey.drop 1)).property]⟩

def addressToHex (addr : BytesN 20) : String := "0x" ++ Hex.encode addr.val

/-- The arithmetic of `u64`, which wraps around. -/
def eip155V (recoveryId : UInt8) (chainId : UInt64) : UInt64 :=
  recoveryId.toUInt64 + chainId * 2 + 35

/-- The loop over the recovery ids. -/
def searchRecoveryId (k : K256) (expected : k.VerifyingKey) (msgHash : BytesN 32)
    (sig : Signature) (chainId : UInt64) : List UInt8 → Except Error EthSignature
  | [] => .error .recoveryFailed
  | rid :: rids =>
    have := k.decEq
    match k.recoverFromPrehash msgHash sig rid with
    | .ok vk =>
      if vk = expected then
        .ok { r := ⟨sig.toBytes.take 32, by simp [Signature.toBytes]⟩
              s := ⟨sig.toBytes.drop 32, by simp [Signature.toBytes]⟩
              v := eip155V rid chainId }
      else searchRecoveryId k expected msgHash sig chainId rids
    | .error _ => searchRecoveryId k expected msgHash sig chainId rids

def ethereumSignature (k : K256) (pubkey : Bytes) (msgHash : BytesN 32) (rs : BytesN 64)
    (chainId : UInt64) : Except Error EthSignature :=
  match k.fromSec1Bytes pubkey with
  | .error e => .error (.signature s!"invalid public key: {e}")
  | .ok expected =>
    match Signature.fromSlice rs with
    | none => .error (.signature s!"invalid R||S: {k.signatureError}")
    | some sig =>
      searchRecoveryId k expected msgHash (sig.normalizeS.getD sig) chainId [0, 1]

end Eth

namespace Signature

/-- The form of a signature that Ethereum accepts. -/
def lowS (sig : Signature) : Signature := sig.normalizeS.getD sig

@[simp] theorem lowS_r (sig : Signature) : sig.lowS.r = sig.r := by
  unfold lowS normalizeS
  split <;> rfl

theorem lowS_s (sig : Signature) : sig.lowS.s = sig.s ∨ sig.lowS.s = Secp256k1.n - sig.s := by
  unfold lowS normalizeS
  split
  · exact Or.inr rfl
  · exact Or.inl rfl

theorem lowS_le (sig : Signature) : sig.lowS.s ≤ Secp256k1.n / 2 := by
  unfold lowS normalizeS
  split
  · have hodd : Secp256k1.n = 2 * (Secp256k1.n / 2) + 1 := by decide
    change Secp256k1.n - sig.s ≤ _
    omega
  · change sig.s ≤ _
    omega

theorem fromSlice_eq_some {rs : BytesN 64} {sig : Signature} (h : fromSlice rs = some sig) :
    sig.r = beNat (rs.val.take 32) ∧ sig.s = beNat (rs.val.drop 32) := by
  simp only [fromSlice] at h
  split at h
  · obtain rfl := Option.some.inj h
    exact ⟨rfl, rfl⟩
  · simp at h

theorem toBytes_take (sig : Signature) : sig.toBytes.take 32 = beBytes 32 sig.r := by
  rw [toBytes, List.take_left' (beBytes_length 32 sig.r)]

theorem toBytes_drop (sig : Signature) : sig.toBytes.drop 32 = beBytes 32 sig.s := by
  rw [toBytes, List.drop_left' (beBytes_length 32 sig.r)]

end Signature

namespace Eth

theorem searchRecoveryId_ok {k : K256} {expected : k.VerifyingKey} {msgHash : BytesN 32}
    {sig : Signature} {chainId : UInt64} {rids : List UInt8} {e : EthSignature}
    (h : searchRecoveryId k expected msgHash sig chainId rids = .ok e) :
    ∃ rid ∈ rids, k.recoverFromPrehash msgHash sig rid = .ok expected ∧
      e.r.val = beBytes 32 sig.r ∧ e.s.val = beBytes 32 sig.s ∧ e.v = eip155V rid chainId := by
  induction rids with
  | nil => simp [searchRecoveryId] at h
  | cons rid rids ih =>
    have hlater : searchRecoveryId k expected msgHash sig chainId rids = .ok e →
        ∃ rid' ∈ rid :: rids, k.recoverFromPrehash msgHash sig rid' = .ok expected ∧
          e.r.val = beBytes 32 sig.r ∧ e.s.val = beBytes 32 sig.s ∧
          e.v = eip155V rid' chainId := fun hrest =>
      let ⟨rid', hmem, hfound⟩ := ih hrest
      ⟨rid', List.mem_cons_of_mem rid hmem, hfound⟩
    simp only [searchRecoveryId] at h
    split at h
    · rename_i vk hvk
      split at h
      · rename_i heq
        obtain rfl := Except.ok.inj h
        subst heq
        refine ⟨rid, List.mem_cons_self, hvk, ?_, ?_, ?_⟩
        · dsimp only
          exact sig.toBytes_take
        · dsimp only
          exact sig.toBytes_drop
        · dsimp only
      · exact hlater h
    · exact hlater h

/-- A successful result recovers to the given public key, in low-S form. -/
theorem ethereumSignature_ok {k : K256} {pubkey : Bytes} {msgHash : BytesN 32}
    {rs : BytesN 64} {chainId : UInt64} {e : EthSignature}
    (h : ethereumSignature k pubkey msgHash rs chainId = .ok e) :
    ∃ vk sig rid, k.fromSec1Bytes pubkey = .ok vk ∧ Signature.fromSlice rs = some sig ∧
      (rid = 0 ∨ rid = 1) ∧ k.recoverFromPrehash msgHash sig.lowS rid = .ok vk ∧
      e.r.val = beBytes 32 sig.r ∧ e.s.val = beBytes 32 sig.lowS.s ∧
      e.v = eip155V rid chainId := by
  unfold ethereumSignature at h
  split at h
  · simp at h
  · rename_i vk hvk
    split at h
    · simp at h
    · rename_i sig hsig
      have hlow : sig.normalizeS.getD sig = sig.lowS := rfl
      rw [hlow] at h
      obtain ⟨rid, hmem, hrec, hr, hs, hv⟩ := searchRecoveryId_ok h
      rw [Signature.lowS_r] at hr
      exact ⟨vk, sig, rid, hvk, hsig, by simpa using hmem, hrec, hr, hs, hv⟩

/-- The public key of the Hardhat/Anvil dev account #0. -/
def hardhatKey : Bytes := 0x04 ::
  (beBytes 32 0x8318535b54105d4a7aae60c08fc45f9687181b4fdfc625bd1a753fa7397fed75 ++
    beBytes 32 0x3547f11ca8696646f2f3acb08e31016afac23e630c5d11f59f61fef57b0d2aa5)

end Eth
end YubiWallet
