import YubiWallet.Host.Soundness
import YubiWallet.Recovery

/-! The WebAssembly bindings, and what their signatures have in common with the host's:
canonical form, recovery id and chain id. -/
namespace YubiWallet
open Interaction Outcome Endian Secp256k1

namespace Wasm

/-- `JsError` holds the message of the error. -/
def unhex (hexErrorText : Hex.FromHexError → String) (s : String) : Except String Bytes :=
  (Hex.decode (String.ofList (trimStartMatches0x s.toList))).mapError hexErrorText

/-- `bytes.try_into().map_err(..)` -/
def arrayOr (n : Nat) (message : String) (b : Bytes) : Except String (BytesN n) :=
  match toArray n b with
  | some a => .ok a
  | none => .error message

def solanaAddress (hexErrorText : Hex.FromHexError → String) (pubkeyHex : String) :
    Except String String := do
  let pk ← unhex hexErrorText pubkeyHex
  if pk.length ≠ 32 then .error "expected a 32-byte Ed25519 public key" else .ok (Bs58.encode pk)

def ethAddress (keccak256 : Bytes → BytesN 32) (hexErrorText : Hex.FromHexError → String)
    (pubkeyHex : String) : Except String String := do
  let pk ← unhex hexErrorText pubkeyHex
  let addr ← (Eth.addressFromPubkey keccak256 pk).mapError Error.display
  pure (Eth.addressToHex addr)

structure EvmSignature where
  r : String
  s : String
  v : UInt64
deriving DecidableEq

def evmSignature (sig : Eth.EthSignature) : EvmSignature :=
  ⟨Hex.encode sig.r.val, Hex.encode sig.s.val, sig.v⟩

def ethSignature (k : K256) (hexErrorText : Hex.FromHexError → String)
    (pubkeyHex hashHex rsHex : String) (chainId : UInt64) : Except String EvmSignature := do
  let pk ← unhex hexErrorText pubkeyHex
  let hashBytes ← unhex hexErrorText hashHex
  let hash ← arrayOr 32 "hash must be 32 bytes" hashBytes
  let rsBytes ← unhex hexErrorText rsHex
  let rs ← arrayOr 64 "R||S must be 64 bytes" rsBytes
  let sig ← (Eth.ethereumSignature k pk hash rs chainId).mapError Error.display
  pure (evmSignature sig)

theorem unhex_encode (hexErrorText : Hex.FromHexError → String) (b : Bytes) :
    unhex hexErrorText (Hex.encode b) = .ok b := by
  rw [unhex, Hex.trimStartMatches0x_encode, String.ofList_toList, Hex.decode_encode]
  rfl

theorem arrayOr_eq_ok_iff {n : Nat} {message : String} {b : Bytes} {a : BytesN n} :
    arrayOr n message b = .ok a ↔ b = a.val := by
  unfold arrayOr toArray
  by_cases h : b.length = n
  · rw [dif_pos h]
    simp only [Except.ok.injEq]
    exact Subtype.ext_iff
  · rw [dif_neg h]
    constructor
    · intro hbad
      cases hbad
    · intro heq
      exact absurd (heq ▸ a.property) h

/-- A success is the library's, on the bytes behind the three strings. -/
theorem ethSignature_eq_ok_iff {k : K256} {hexErrorText : Hex.FromHexError → String}
    {pubkeyHex hashHex rsHex : String} {chainId : UInt64} {out : EvmSignature} :
    ethSignature k hexErrorText pubkeyHex hashHex rsHex chainId = .ok out ↔
      ∃ (pk : Bytes) (hash : BytesN 32) (rs : BytesN 64) (e : Eth.EthSignature),
        unhex hexErrorText pubkeyHex = .ok pk ∧ unhex hexErrorText hashHex = .ok hash.val ∧
        unhex hexErrorText rsHex = .ok rs.val ∧
        Eth.ethereumSignature k pk hash rs chainId = .ok e ∧ evmSignature e = out := by
  simp only [ethSignature, bind_eq_ok_iff, mapError_eq_ok_iff, arrayOr_eq_ok_iff]
  constructor
  · intro h
    obtain ⟨pk, hpk, _, hhash, hash, rfl, _, hrs, rs, rfl, e, he, hout⟩ := h
    exact ⟨pk, hash, rs, e, hpk, hhash, hrs, he, Except.ok.inj hout⟩
  · intro h
    obtain ⟨pk, hash, rs, e, hpk, hhash, hrs, he, rfl⟩ := h
    exact ⟨pk, hpk, _, hhash, hash, rfl, _, hrs, rs, rfl, e, he, rfl⟩

end Wasm

namespace Signature

theorem eq_of_scalars {sig sig' : Signature} (hr : sig.r = sig'.r) (hs : sig.s = sig'.s) :
    sig = sig' := by
  cases sig
  cases sig'
  cases hr
  cases hs
  rfl

theorem oppositeS_length (rs : BytesN 64) :
    (rs.val.take 32 ++ beBytes 32 (n - beNat (rs.val.drop 32))).length = 64 := by
  rw [List.length_append, List.length_take, rs.property, beBytes_length]
  rfl

/-- The signature with `n - s` in the place of `s`. -/
def oppositeS (rs : BytesN 64) : BytesN 64 :=
  ⟨rs.val.take 32 ++ beBytes 32 (n - beNat (rs.val.drop 32)), oppositeS_length rs⟩

theorem oppositeS_parts (rs : BytesN 64) :
    (oppositeS rs).val.take 32 = rs.val.take 32 ∧
      beNat ((oppositeS rs).val.drop 32) = n - beNat (rs.val.drop 32) := by
  have hlen : (rs.val.take 32).length = 32 := by
    rw [List.length_take, rs.property]
    rfl
  have hbound : n - beNat (rs.val.drop 32) < 256 ^ 32 :=
    lt_of_le_of_lt (Nat.sub_le n _) (by decide)
  constructor
  · exact List.take_left' hlen
  · rw [oppositeS, List.drop_left' hlen, beNat_beBytes hbound]

/-- The two forms of a signature have the same low one. -/
theorem lowS_eq_of_opposite {sig sig' : Signature} (hr : sig'.r = sig.r)
    (hs : sig'.s = n - sig.s) : sig'.lowS = sig.lowS := by
  have hodd : n = 2 * (n / 2) + 1 := by decide
  have hlt := sig.s_lt
  apply eq_of_scalars
  · rw [lowS_r, lowS_r, hr]
  · by_cases hlow : sig.s ≤ n / 2
    · rw [lowS_of_le hlow, lowS_s_of_gt (by omega), hs]
      omega
    · have hhigh : n / 2 < sig.s := by omega
      rw [lowS_s_of_gt hhigh, lowS_of_le (by omega), hs]

theorem fromSlice_oppositeS (rs : BytesN 64) :
    (fromSlice (oppositeS rs)).map lowS = (fromSlice rs).map lowS := by
  obtain ⟨htake, hdrop⟩ := oppositeS_parts rs
  by_cases hvalid : (0 < beNat (rs.val.take 32) ∧ beNat (rs.val.take 32) < n) ∧
      (0 < beNat (rs.val.drop 32) ∧ beNat (rs.val.drop 32) < n)
  · have hvalid' : (0 < beNat (rs.val.take 32) ∧ beNat (rs.val.take 32) < n) ∧
        (0 < n - beNat (rs.val.drop 32) ∧ n - beNat (rs.val.drop 32) < n) := by omega
    simp only [fromSlice, htake, hdrop, dif_pos hvalid, dif_pos hvalid', Option.map_some]
    exact congrArg some (lowS_eq_of_opposite rfl rfl)
  · have hvalid' : ¬ ((0 < beNat (rs.val.take 32) ∧ beNat (rs.val.take 32) < n) ∧
        (0 < n - beNat (rs.val.drop 32) ∧ n - beNat (rs.val.drop 32) < n)) := by omega
    simp only [fromSlice, htake, hdrop, dif_neg hvalid, dif_neg hvalid', Option.map_none]

theorem lowS_lowS (sig : Signature) : sig.lowS.lowS = sig.lowS := lowS_of_le sig.lowS_le

end Signature

namespace Eth

/-- The result depends on the low form of the signature only. -/
theorem ethereumSignature_congr (k : K256) (pubkey : Bytes) (msgHash : BytesN 32)
    {rs rs' : BytesN 64} (chainId : UInt64)
    (h : (Signature.fromSlice rs').map Signature.lowS =
      (Signature.fromSlice rs).map Signature.lowS) :
    ethereumSignature k pubkey msgHash rs' chainId =
      ethereumSignature k pubkey msgHash rs chainId := by
  unfold ethereumSignature
  cases k.fromSec1Bytes pubkey with
  | error e => rfl
  | ok vk =>
    cases hrs : Signature.fromSlice rs with
    | none =>
      rw [hrs, Option.map_none, Option.map_eq_none_iff] at h
      rw [h]
    | some sig =>
      rw [hrs, Option.map_some, Option.map_eq_some_iff] at h
      obtain ⟨sig', hrs', hlow⟩ := h
      rw [hrs']
      change searchRecoveryId k vk msgHash sig'.lowS chainId [0, 1] =
        searchRecoveryId k vk msgHash sig.lowS chainId [0, 1]
      rw [hlow]

theorem EthSignature.rs_length (e : EthSignature) : (e.r.val ++ e.s.val).length = 64 := by
  rw [List.length_append, e.r.property, e.s.property]

/-- `r || s` -/
def EthSignature.rs (e : EthSignature) : BytesN 64 := ⟨e.r.val ++ e.s.val, e.rs_length⟩

/-- A result is in low form already. -/
theorem fromSlice_result {k : K256} {pubkey : Bytes} {msgHash : BytesN 32} {rs : BytesN 64}
    {chainId : UInt64} {e : EthSignature}
    (h : ethereumSignature k pubkey msgHash rs chainId = .ok e) :
    (Signature.fromSlice e.rs).map Signature.lowS =
      (Signature.fromSlice rs).map Signature.lowS := by
  obtain ⟨vk, sig, rid, -, hsig, -, -, hr, hs, -⟩ := ethereumSignature_ok h
  have hslice : e.rs = sig.lowS.slice := by
    apply Subtype.ext
    change e.r.val ++ e.s.val = beBytes 32 sig.lowS.r ++ beBytes 32 sig.lowS.s
    rw [hr, hs, Signature.lowS_r]
  rw [hslice, Signature.fromSlice_slice, hsig, Option.map_some, Option.map_some,
    Signature.lowS_lowS]

end Eth

namespace Host

theorem unhex_answer (hexErrorText : Hex.FromHexError → String) (e : Eth.EthSignature) :
    Wasm.unhex hexErrorText (Hex.encode e.r.val ++ Hex.encode e.s.val) = .ok e.rs.val := by
  rw [← Hex.encode_append, Wasm.unhex_encode]
  rfl

/-- What `eth_signature` makes of the host's `r` and `s` for another chain id. -/
theorem finishSecp256k1_wasm {C : Crates} {pk rsVec : Bytes} {hash : BytesN 32} {v : Value}
    (h : finishSecp256k1 C pk hash rsVec = .ok v) :
    ∃ (r s : String) (recoveryId : UInt64),
      v = .obj [("r", .str r), ("s", .str s), ("recovery_id", .num (.posInt recoveryId))] ∧
      ∀ (chainId : UInt64) (pubkeyHex hashHex : String), 2 * chainId.toNat + 36 < 2 ^ 64 →
        Wasm.unhex C.hexErrorText pubkeyHex = .ok pk →
        Wasm.unhex C.hexErrorText hashHex = .ok hash.val →
        ∃ out, Wasm.ethSignature C.k256 C.hexErrorText pubkeyHex hashHex (r ++ s) chainId =
            .ok out ∧
          out.r = r ∧ out.s = s ∧ out.v.toNat = recoveryId.toNat + 2 * chainId.toNat + 35 := by
  unfold finishSecp256k1 at h
  split at h
  · cases h
  · rename_i rs hrs
    cases hsig : Eth.ethereumSignature C.k256 pk hash rs 0 with
    | error e =>
      rw [hsig] at h
      cases h
    | ok e =>
      rw [hsig] at h
      obtain rfl : secp256k1Json e = v := Except.ok.inj h
      obtain ⟨rid, hid, hv, hall⟩ := Eth.ethereumSignature_chain hsig
      have hle := hid.le_one
      refine ⟨Hex.encode e.r.val, Hex.encode e.s.val, rid.toUInt64, ?_, ?_⟩
      · simp only [secp256k1Json, hv, recoveryId_of_v hid.zero_or_one]
      · intro chainId pubkeyHex hashHex hfit hpk hhash
        have hagain := (Eth.ethereumSignature_congr C.k256 pk hash chainId
          (Eth.fromSlice_result hsig)).trans (hall chainId)
        refine ⟨Wasm.evmSignature { e with v := Eth.eip155V rid chainId }, ?_, rfl, rfl, ?_⟩
        · apply Wasm.ethSignature_eq_ok_iff.mpr
          exact ⟨pk, hash, e.rs, _, hpk, hhash, unhex_answer C.hexErrorText e, hagain, rfl⟩
        · change (Eth.eip155V rid chainId).toNat = _
          rw [Eth.eip155V_toNat (by omega), UInt8.toNat_toUInt64]

/-- Both forms of a signature give one result, a result is its own, and the host's answer
gives the same `r` and `s` in the bindings, with a `v` for their chain id. -/
theorem signature_canonical :
    (∀ (k : K256) (pubkey : Bytes) (msgHash : BytesN 32) (rs : BytesN 64) (chainId : UInt64),
      Eth.ethereumSignature k pubkey msgHash (Signature.oppositeS rs) chainId =
        Eth.ethereumSignature k pubkey msgHash rs chainId) ∧
    (∀ (k : K256) (pubkey : Bytes) (msgHash : BytesN 32) (rs : BytesN 64) (chainId : UInt64)
      (e : Eth.EthSignature), Eth.ethereumSignature k pubkey msgHash rs chainId = .ok e →
      Eth.ethereumSignature k pubkey msgHash e.rs chainId = .ok e) ∧
    (∀ (C : Crates) (params : Value) (env : Env) (h : Trace) (v : Value),
      (Prog.run env (signSecp256k1 C params).run h).1 = .ok v →
      ∃ acc hash pk c x r s recoveryId, secp256k1Args C params = .ok (acc, hash) ∧
        (c, x) ∈ exchanges (Prog.run env (signSecp256k1 C params).run h).2 ∧
        ReadsPubkey acc c x pk ∧
        v = .obj [("r", .str r), ("s", .str s), ("recovery_id", .num (.posInt recoveryId))] ∧
        ∀ (chainId : UInt64) (pubkeyHex hashHex : String), 2 * chainId.toNat + 36 < 2 ^ 64 →
          Wasm.unhex C.hexErrorText pubkeyHex = .ok pk →
          Wasm.unhex C.hexErrorText hashHex = .ok hash.val →
          ∃ out, Wasm.ethSignature C.k256 C.hexErrorText pubkeyHex hashHex (r ++ s) chainId =
              .ok out ∧
            out.r = r ∧ out.s = s ∧
            out.v.toNat = recoveryId.toNat + 2 * chainId.toNat + 35) := by
  refine ⟨?_, ?_, ?_⟩
  · intro k pubkey msgHash rs chainId
    exact Eth.ethereumSignature_congr k pubkey msgHash chainId (Signature.fromSlice_oppositeS rs)
  · intro k pubkey msgHash rs chainId e he
    exact (Eth.ethereumSignature_congr k pubkey msgHash chainId (Eth.fromSlice_result he)).trans he
  · intro C params env h v hok
    obtain ⟨acc, hash, pin, pk, rs, u, c, x, w, c', y, hargs, hex, hpk, -, hfinish⟩ :=
      (signSecp256k1_reads C params).run env h v hok
    obtain ⟨r, s, recoveryId, hv, hwasm⟩ := finishSecp256k1_wasm hfinish
    refine ⟨acc, hash, pk, c, x, r, s, recoveryId, hargs, ?_, hpk, hv, hwasm⟩
    rw [hex]
    simp

set_option maxRecDepth 10000 in
theorem signature_canonical_sample :
    ∃ acc hash pk c x r s recoveryId, secp256k1Args sampleCrates sampleParams = .ok (acc, hash) ∧
      (c, x) ∈ exchanges (Prog.run sampleEnv (signSecp256k1 sampleCrates sampleParams).run []).2 ∧
      ReadsPubkey acc c x pk ∧
      sampleAnswer =
        .obj [("r", .str r), ("s", .str s), ("recovery_id", .num (.posInt recoveryId))] ∧
      ∃ out, Wasm.ethSignature sampleCrates.k256 sampleCrates.hexErrorText (Hex.encode pk)
          (Hex.encode hash.val) (r ++ s) 1 = .ok out ∧
        out.r = r ∧ out.s = s ∧ out.v.toNat = recoveryId.toNat + 2 * 1 + 35 := by
  obtain ⟨acc, hash, pk, c, x, r, s, recoveryId, hargs, hmem, hpk, hv, hwasm⟩ :=
    signature_canonical.2.2 sampleCrates sampleParams sampleEnv [] sampleAnswer rfl
  have hfit : 2 * (1 : UInt64).toNat + 36 < 2 ^ 64 := by decide
  exact ⟨acc, hash, pk, c, x, r, s, recoveryId, hargs, hmem, hpk, hv,
    hwasm 1 _ _ hfit (Wasm.unhex_encode _ pk) (Wasm.unhex_encode _ hash.val)⟩

theorem solanaAddress_host (C : Crates) {pk : Bytes} (hlen : pk.length = 32) :
    Wasm.solanaAddress C.hexErrorText (Hex.encode pk) = .ok (address C .ed25519 pk) := by
  rw [Wasm.solanaAddress, Wasm.unhex_encode]
  exact if_neg (not_not.mpr hlen)

theorem ethAddress_host (C : Crates) {pk : Bytes} (hlen : pk.length = 65)
    (hhead : pk.getD 0 0 = 0x04) :
    Wasm.ethAddress C.keccak256 C.hexErrorText (Hex.encode pk) =
      .ok (address C .secp256k1 pk) := by
  cases haddress : Eth.addressFromPubkey C.keccak256 pk with
  | error e =>
    unfold Eth.addressFromPubkey at haddress
    rw [if_neg (not_or.mpr ⟨not_not.mpr hlen, not_not.mpr hhead⟩)] at haddress
    cases haddress
  | ok addr =>
    simp only [Wasm.ethAddress, Wasm.unhex_encode, bind_eq_ok_iff, address, haddress]
    exact ⟨pk, rfl, addr, by rw [haddress]; rfl, rfl⟩

/-- The bindings make the address that the host shows of the public key that it shows. -/
theorem classified_address (C : Crates) {slot : UInt8} {raw pk : Bytes} {curve : Curve}
    (h : Openpgp.classify slot raw = .ok (curve, pk)) :
    (match curve with
      | .ed25519 => Wasm.solanaAddress C.hexErrorText (Hex.encode pk)
      | .secp256k1 => Wasm.ethAddress C.keccak256 C.hexErrorText (Hex.encode pk)) =
      .ok (address C curve pk) := by
  unfold Openpgp.classify at h
  split at h
  · rename_i k _
    obtain ⟨rfl, rfl⟩ := Prod.mk.inj (Except.ok.inj h)
    exact solanaAddress_host C k.property
  · split at h
    · rename_i k hk
      obtain ⟨rfl, rfl⟩ := Prod.mk.inj (Except.ok.inj h)
      exact ethAddress_host C k.property
        ((Openpgp.extractSecp256k1Pubkey_eq_ok_iff raw k).mp hk).2
    · cases h

/-- The recovery id that a call of the bindings finds. -/
def WasmRecoveryId (k : K256) (hexErrorText : Hex.FromHexError → String)
    (pubkeyHex hashHex rsHex : String) (rid : UInt8) : Prop :=
  ∃ (pk : Bytes) (hash : BytesN 32) (rs : BytesN 64),
    Wasm.unhex hexErrorText pubkeyHex = .ok pk ∧ Wasm.unhex hexErrorText hashHex = .ok hash.val ∧
    Wasm.unhex hexErrorText rsHex = .ok rs.val ∧ Eth.RecoveryIdOf k pk hash rs rid

/-- The value of `v` without overflow. -/
def exactV (rid : UInt8) (chainId : UInt64) : Nat := rid.toNat + 2 * chainId.toNat + 35

theorem exactV_inj {rid rid' : UInt8} {chainId chainId' : UInt64} (h : rid.toNat ≤ 1)
    (h' : rid'.toNat ≤ 1) (heq : exactV rid chainId = exactV rid' chainId') :
    chainId = chainId' ∧ rid = rid' := by
  unfold exactV at heq
  constructor
  · apply UInt64.toNat_inj.mp
    omega
  · apply UInt8.toNat_inj.mp
    omega

theorem ethereumSignature_exact_iff (k : K256) (pubkey : Bytes) (msgHash : BytesN 32)
    (rs : BytesN 64) (chainId : UInt64) :
    (∀ e, Eth.ethereumSignature k pubkey msgHash rs chainId = .ok e →
      ∃ rid, Eth.RecoveryIdOf k pubkey msgHash rs rid ∧ e.v.toNat = exactV rid chainId) ↔
      ∀ rid, Eth.RecoveryIdOf k pubkey msgHash rs rid → exactV rid chainId < 2 ^ 64 := by
  constructor
  · intro hexact rid hid
    obtain ⟨e, he, -⟩ := hid.ok chainId
    obtain ⟨rid', hid', hv⟩ := hexact e he
    rw [hid.unique hid', ← hv]
    exact e.v.toNat_lt
  · intro hfits e he
    obtain ⟨rid, hid, hv, -⟩ := Eth.ethereumSignature_chain he
    exact ⟨rid, hid, by rw [hv]; exact Eth.eip155V_toNat (hfits rid hid)⟩

theorem ethSignature_exact_iff (k : K256) (hexErrorText : Hex.FromHexError → String)
    (pubkeyHex hashHex rsHex : String) (chainId : UInt64) :
    (∀ out, Wasm.ethSignature k hexErrorText pubkeyHex hashHex rsHex chainId = .ok out →
      ∃ rid, WasmRecoveryId k hexErrorText pubkeyHex hashHex rsHex rid ∧
        out.v.toNat = exactV rid chainId) ↔
      ∀ rid, WasmRecoveryId k hexErrorText pubkeyHex hashHex rsHex rid →
        exactV rid chainId < 2 ^ 64 := by
  constructor
  · intro hexact rid hfound
    obtain ⟨pk, hash, rs, hpk, hhash, hrs, hid⟩ := hfound
    refine (ethereumSignature_exact_iff k pk hash rs chainId).mp ?_ rid hid
    intro e he
    obtain ⟨rid', ⟨pk', hash', rs', hpk', hhash', hrs', hid'⟩, hv⟩ :=
      hexact _ (Wasm.ethSignature_eq_ok_iff.mpr ⟨pk, hash, rs, e, hpk, hhash, hrs, he, rfl⟩)
    obtain rfl : pk = pk' := Except.ok.inj (hpk.symm.trans hpk')
    obtain rfl : hash = hash' := Subtype.ext (Except.ok.inj (hhash.symm.trans hhash'))
    obtain rfl : rs = rs' := Subtype.ext (Except.ok.inj (hrs.symm.trans hrs'))
    exact ⟨rid', hid', hv⟩
  · intro hfits out hout
    obtain ⟨pk, hash, rs, e, hpk, hhash, hrs, he, rfl⟩ := Wasm.ethSignature_eq_ok_iff.mp hout
    obtain ⟨rid, hid, hv⟩ := (ethereumSignature_exact_iff k pk hash rs chainId).mpr
      (fun rid hid => hfits rid ⟨pk, hash, rs, hpk, hhash, hrs, hid⟩) e he
    exact ⟨rid, ⟨pk, hash, rs, hpk, hhash, hrs, hid⟩, hv⟩

/-- `v` is exact in just those calls whose sum fits 64 bits, in the library and in the
bindings; an exact `v` determines the chain id and the recovery id. -/
theorem v_exact_iff (k : K256) (hexErrorText : Hex.FromHexError → String) (pubkey : Bytes)
    (msgHash : BytesN 32) (rs : BytesN 64) (pubkeyHex hashHex rsHex : String)
    (chainId : UInt64) :
    ((∀ e, Eth.ethereumSignature k pubkey msgHash rs chainId = .ok e →
        ∃ rid, Eth.RecoveryIdOf k pubkey msgHash rs rid ∧ e.v.toNat = exactV rid chainId) ↔
      ∀ rid, Eth.RecoveryIdOf k pubkey msgHash rs rid → exactV rid chainId < 2 ^ 64) ∧
    ((∀ out, Wasm.ethSignature k hexErrorText pubkeyHex hashHex rsHex chainId = .ok out →
        ∃ rid, WasmRecoveryId k hexErrorText pubkeyHex hashHex rsHex rid ∧
          out.v.toNat = exactV rid chainId) ↔
      ∀ rid, WasmRecoveryId k hexErrorText pubkeyHex hashHex rsHex rid →
        exactV rid chainId < 2 ^ 64) ∧
    (∀ (rid rid' : UInt8) (chainId' : UInt64), rid.toNat ≤ 1 → rid'.toNat ≤ 1 →
      exactV rid chainId < 2 ^ 64 → exactV rid' chainId' < 2 ^ 64 →
      Eth.eip155V rid chainId = Eth.eip155V rid' chainId' → chainId = chainId' ∧ rid = rid') := by
  refine ⟨ethereumSignature_exact_iff k pubkey msgHash rs chainId,
    ethSignature_exact_iff k hexErrorText pubkeyHex hashHex rsHex chainId, ?_⟩
  intro rid rid' chainId' h h' hfit hfit' heq
  apply exactV_inj h h'
  rw [exactV, exactV, ← Eth.eip155V_toNat hfit, ← Eth.eip155V_toNat hfit', heq]

def sampleSig : Signature where
  r := sampleR
  s := sampleS
  r_pos := by decide
  r_lt := by decide
  s_pos := by decide
  s_lt := by decide

theorem sample_recoveryId :
    Eth.RecoveryIdOf sampleK256 Eth.hardhatKey (.fill 32 7) sampleSig.slice 1 := by
  have hlow : sampleSig.lowS.s = n - sampleS := Signature.lowS_s_of_gt (by decide)
  have htable : ∀ rid : UInt8, sampleK256.recoverFromPrehash (.fill 32 7) sampleSig.lowS rid =
      if rid = 0 then .ok otherKey else if rid = 1 then .ok Eth.hardhatKey
      else .error "signature error" := by
    intro rid
    have hentry : (BytesN.fill 32 7).val = List.replicate 32 7 ∧ sampleSig.lowS.r = sampleR ∧
        sampleSig.lowS.s = n - sampleS := ⟨rfl, sampleSig.lowS_r, hlow⟩
    simp only [sampleK256, if_pos hentry]
  have hother : otherKey ≠ Eth.hardhatKey := by decide
  refine ⟨Eth.hardhatKey, sampleSig, ?_, sampleSig.fromSlice_slice, ?_, Or.inr ⟨rfl, ?_⟩⟩
  · simp only [sampleK256, if_true]
  · rw [htable]
    rfl
  · rw [htable, if_pos rfl]
    intro h
    exact hother (Except.ok.inj h)

/-- Twice the chain id 2^63 is nothing in 64 bits: the result is that for chain id 0. -/
theorem v_wraps :
    ∃ e, Eth.ethereumSignature sampleK256 Eth.hardhatKey (.fill 32 7) sampleSig.slice
        9223372036854775808 = .ok e ∧
      Eth.ethereumSignature sampleK256 Eth.hardhatKey (.fill 32 7) sampleSig.slice 0 = .ok e ∧
      ∀ rid : UInt8, e.v.toNat ≠ exactV rid 9223372036854775808 := by
  obtain ⟨e, he, hv⟩ := sample_recoveryId.ok 9223372036854775808
  obtain ⟨rid, hid, -, hall⟩ := Eth.ethereumSignature_chain he
  obtain rfl := sample_recoveryId.unique hid
  have hsame : Eth.eip155V 1 0 = e.v := by
    rw [hv]
    decide
  refine ⟨e, he, ?_, ?_⟩
  · rw [hall 0, hsame]
  · intro rid
    have hvalue : e.v.toNat = 36 := by
      rw [hv]
      decide
    have hchain : (9223372036854775808 : UInt64).toNat = 9223372036854775808 := by decide
    rw [hvalue, exactV, hchain]
    omega

end Host
end YubiWallet
