import YubiWallet.Secp256k1

/-! The recovery id of a signature: which one the loop finds, and the `v` made of it. -/
namespace YubiWallet
open Endian Secp256k1

/-- The byte of a recovery id: the parity of the point's `y`. -/
def idByte (odd : Bool) : UInt8 := if odd then 1 else 0

theorem idByte_toNat (odd : Bool) : (idByte odd).toNat = odd.toNat := by
  cases odd <;> rfl

theorem exists_idByte {rid : UInt8} (h : rid = 0 ∨ rid = 1) : ∃ odd, rid = idByte odd := by
  cases h with
  | inl h => exact ⟨false, h⟩
  | inr h => exact ⟨true, h⟩

def hashScalar (hash : BytesN 32) : ZMod n := (beNat hash.val : ZMod n)

/-- ECDSA recovery on the points of `C`, for signatures in low-S form; `point` is what a
key of the crate stands for. -/
def K256.Recovers {G : Type} [AddCommGroup G] [Module (ZMod n) G] [DecidableEq G] (k : K256)
    (C : Ecdsa.Curve (ZMod n) G) (point : k.VerifyingKey → G) : Prop :=
  ∀ (hash : BytesN 32) (sig : Signature) (odd : Bool) (vk : k.VerifyingKey), sig.s ≤ n / 2 →
    (k.recoverFromPrehash hash sig (idByte odd) = .ok vk ↔
      C.recover (hashScalar hash) (sig.r : ZMod n) (sig.s : ZMod n) odd = some (point vk))

theorem natCast_ne_zero {a : Nat} (hpos : 0 < a) (hlt : a < n) : (a : ZMod n) ≠ 0 := by
  intro h
  have hdvd := (ZMod.natCast_eq_zero_iff a n).mp h
  exact absurd (Nat.le_of_dvd hpos hdvd) (by omega)

theorem two_ne_zero_zmod : (2 : ZMod n) ≠ 0 :=
  natCast_ne_zero (a := 2) (by decide) (by decide)

theorem natCast_order_sub {a : Nat} (h : a < n) : ((n - a : Nat) : ZMod n) = -(a : ZMod n) := by
  rw [Nat.cast_sub h.le, ZMod.natCast_self, zero_sub]

namespace Signature

theorem lowS_of_le {sig : Signature} (h : sig.s ≤ n / 2) : sig.lowS = sig := by
  unfold lowS normalizeS
  rw [if_neg (by omega)]
  rfl

theorem lowS_s_of_gt {sig : Signature} (h : n / 2 < sig.s) : sig.lowS.s = n - sig.s := by
  unfold lowS normalizeS
  rw [if_pos h]
  rfl

theorem toBytes_length (sig : Signature) : sig.toBytes.length = 64 := by
  rw [toBytes, List.length_append, beBytes_length, beBytes_length]

/-- `to_bytes`, as an array. -/
def slice (sig : Signature) : BytesN 64 := ⟨sig.toBytes, sig.toBytes_length⟩

/-- A signature is read back from its bytes. -/
theorem fromSlice_slice (sig : Signature) : fromSlice sig.slice = some sig := by
  have hbound : ∀ a : Nat, a < n → a < 256 ^ 32 := fun a ha => ha.trans (by decide)
  have hr : beNat (sig.slice.val.take 32) = sig.r := by
    rw [slice, sig.toBytes_take, beNat_beBytes (hbound sig.r sig.r_lt)]
  have hs : beNat (sig.slice.val.drop 32) = sig.s := by
    rw [slice, sig.toBytes_drop, beNat_beBytes (hbound sig.s sig.s_lt)]
  simp only [fromSlice, hr, hs]
  exact dif_pos ⟨⟨sig.r_pos, sig.r_lt⟩, sig.s_pos, sig.s_lt⟩

/-- The bytes of a signature are those it was read from. -/
theorem fromSlice_bytes {rs : BytesN 64} {sig : Signature} (h : fromSlice rs = some sig) :
    beBytes 32 sig.r = rs.val.take 32 ∧ beBytes 32 sig.s = rs.val.drop 32 := by
  obtain ⟨hr, hs⟩ := fromSlice_eq_some h
  have htake : (rs.val.take 32).length = 32 := by
    rw [List.length_take, rs.property]
    rfl
  have hdrop : (rs.val.drop 32).length = 32 := by
    rw [List.length_drop, rs.property]
  constructor
  · calc beBytes 32 sig.r = beBytes (rs.val.take 32).length (beNat (rs.val.take 32)) := by
          rw [hr, htake]
      _ = rs.val.take 32 := beBytes_beNat _
  · calc beBytes 32 sig.s = beBytes (rs.val.drop 32).length (beNat (rs.val.drop 32)) := by
          rw [hs, hdrop]
      _ = rs.val.drop 32 := beBytes_beNat _

end Signature

namespace Eth

theorem searchRecoveryId_eq_error_iff {k : K256} {expected : k.VerifyingKey} {msgHash : BytesN 32}
    {sig : Signature} {chainId : UInt64} {rids : List UInt8} {e : Error} :
    searchRecoveryId k expected msgHash sig chainId rids = .error e ↔
      e = .recoveryFailed ∧ ∀ rid ∈ rids, k.recoverFromPrehash msgHash sig rid ≠ .ok expected := by
  induction rids with
  | nil =>
    simp only [searchRecoveryId, Except.error.injEq, List.not_mem_nil, false_imp_iff,
      implies_true, and_true]
    exact eq_comm
  | cons rid rids ih =>
    rw [searchRecoveryId, List.forall_mem_cons]
    cases hrec : k.recoverFromPrehash msgHash sig rid with
    | error e' => simpa using ih
    | ok vk =>
      by_cases hvk : vk = expected
      · simp [hvk]
      · simpa [hvk] using ih

theorem ethereumSignature_eq_search {k : K256} {pubkey : Bytes} {vk : k.VerifyingKey}
    (hvk : k.fromSec1Bytes pubkey = .ok vk) (msgHash : BytesN 32) {rs : BytesN 64}
    {sig : Signature} (hsig : Signature.fromSlice rs = some sig) (chainId : UInt64) :
    ethereumSignature k pubkey msgHash rs chainId =
      searchRecoveryId k vk msgHash sig.lowS chainId [0, 1] := by
  unfold ethereumSignature
  rw [hvk, hsig]
  rfl

/-- The search stops at the first id that gives the key; the chain id has no part in it. -/
theorem searchRecoveryId_first {k : K256} {expected : k.VerifyingKey} {msgHash : BytesN 32}
    {sig : Signature} {chainId : UInt64} {rids : List UInt8} {e : EthSignature}
    (h : searchRecoveryId k expected msgHash sig chainId rids = .ok e) :
    ∃ pre rid post, rids = pre ++ rid :: post ∧
      (∀ rid' ∈ pre, k.recoverFromPrehash msgHash sig rid' ≠ .ok expected) ∧
      k.recoverFromPrehash msgHash sig rid = .ok expected ∧ e.v = eip155V rid chainId ∧
      ∀ chainId', searchRecoveryId k expected msgHash sig chainId' rids =
        .ok { e with v := eip155V rid chainId' } := by
  induction rids with
  | nil => cases h
  | cons rid rids ih =>
    have hlater : k.recoverFromPrehash msgHash sig rid ≠ .ok expected →
        ∀ c, searchRecoveryId k expected msgHash sig c (rid :: rids) =
          searchRecoveryId k expected msgHash sig c rids := by
      intro hne c
      rw [searchRecoveryId]
      cases hrec : k.recoverFromPrehash msgHash sig rid with
      | error e' => rfl
      | ok vk =>
        have hvk : vk ≠ expected := by
          intro heq
          exact hne (heq ▸ hrec)
        simp [hvk]
    by_cases hrec : k.recoverFromPrehash msgHash sig rid = .ok expected
    · simp only [searchRecoveryId, hrec, if_true] at h
      refine ⟨[], rid, rids, rfl, by simp, hrec, ?_, fun chainId' => ?_⟩
      · rw [← Except.ok.inj h]
      · simp only [searchRecoveryId, hrec, if_true]
        rw [← Except.ok.inj h]
    · rw [hlater hrec] at h
      obtain ⟨pre, rid', post, rfl, hpre, hrec', hv, hall⟩ := ih h
      refine ⟨rid :: pre, rid', post, rfl, List.forall_mem_cons.mpr ⟨hrec, hpre⟩, hrec', hv, ?_⟩
      intro chainId'
      rw [hlater hrec, hall]

/-- The id that the loop finds for a call. -/
def RecoveryIdOf (k : K256) (pubkey : Bytes) (msgHash : BytesN 32) (rs : BytesN 64)
    (rid : UInt8) : Prop :=
  ∃ vk sig, k.fromSec1Bytes pubkey = .ok vk ∧ Signature.fromSlice rs = some sig ∧
    k.recoverFromPrehash msgHash sig.lowS rid = .ok vk ∧
    (rid = 0 ∨ rid = 1 ∧ k.recoverFromPrehash msgHash sig.lowS 0 ≠ .ok vk)

theorem RecoveryIdOf.zero_or_one {k : K256} {pubkey : Bytes} {msgHash : BytesN 32}
    {rs : BytesN 64} {rid : UInt8} (h : RecoveryIdOf k pubkey msgHash rs rid) :
    rid = 0 ∨ rid = 1 := by
  obtain ⟨vk, sig, -, -, -, hrid⟩ := h
  cases hrid with
  | inl h0 => exact Or.inl h0
  | inr h1 => exact Or.inr h1.1

theorem RecoveryIdOf.le_one {k : K256} {pubkey : Bytes} {msgHash : BytesN 32} {rs : BytesN 64}
    {rid : UInt8} (h : RecoveryIdOf k pubkey msgHash rs rid) : rid.toNat ≤ 1 := by
  cases h.zero_or_one with
  | inl h0 =>
    rw [h0]
    decide
  | inr h1 =>
    rw [h1]
    decide

theorem RecoveryIdOf.unique {k : K256} {pubkey : Bytes} {msgHash : BytesN 32} {rs : BytesN 64}
    {rid rid' : UInt8} (h : RecoveryIdOf k pubkey msgHash rs rid)
    (h' : RecoveryIdOf k pubkey msgHash rs rid') : rid = rid' := by
  obtain ⟨vk, sig, hvk, hsig, hrec, hrid⟩ := h
  obtain ⟨vk', sig', hvk', hsig', hrec', hrid'⟩ := h'
  obtain rfl : vk = vk' := Except.ok.inj (hvk.symm.trans hvk')
  obtain rfl : sig = sig' := Option.some.inj (hsig.symm.trans hsig')
  cases hrid with
  | inl h0 =>
    subst h0
    cases hrid' with
    | inl h0' => exact h0'.symm
    | inr h1' => exact absurd hrec h1'.2
  | inr h1 =>
    cases hrid' with
    | inl h0' =>
      subst h0'
      exact absurd hrec' h1.2
    | inr h1' => rw [h1.1, h1'.1]

/-- A successful call has a recovery id, and with another chain id it differs in `v` only. -/
theorem ethereumSignature_chain {k : K256} {pubkey : Bytes} {msgHash : BytesN 32}
    {rs : BytesN 64} {chainId : UInt64} {e : EthSignature}
    (h : ethereumSignature k pubkey msgHash rs chainId = .ok e) :
    ∃ rid, RecoveryIdOf k pubkey msgHash rs rid ∧ e.v = eip155V rid chainId ∧
      ∀ chainId', ethereumSignature k pubkey msgHash rs chainId' =
        .ok { e with v := eip155V rid chainId' } := by
  obtain ⟨vk, sig, -, hvk, hsig, -⟩ := ethereumSignature_ok h
  rw [ethereumSignature_eq_search hvk msgHash hsig] at h
  obtain ⟨pre, rid, post, hrids, hpre, hrec, hv, hall⟩ := searchRecoveryId_first h
  refine ⟨rid, ⟨vk, sig, hvk, hsig, hrec, ?_⟩, hv, fun chainId' => ?_⟩
  · -- either no id was passed over, or the first of the two was
    cases pre with
    | nil =>
      obtain ⟨rfl, -⟩ := List.cons.inj hrids
      exact Or.inl rfl
    | cons rid' pre =>
      obtain ⟨rfl, hrest⟩ := List.cons.inj hrids
      have hone : rid ∈ [(1 : UInt8)] := by
        rw [hrest]
        exact List.mem_append_right pre List.mem_cons_self
      exact Or.inr ⟨List.mem_singleton.mp hone, hpre 0 List.mem_cons_self⟩
  · rw [ethereumSignature_eq_search hvk msgHash hsig, hall]

/-- A call with a recovery id succeeds. -/
theorem RecoveryIdOf.ok {k : K256} {pubkey : Bytes} {msgHash : BytesN 32} {rs : BytesN 64}
    {rid : UInt8} (h : RecoveryIdOf k pubkey msgHash rs rid) (chainId : UInt64) :
    ∃ e, ethereumSignature k pubkey msgHash rs chainId = .ok e ∧ e.v = eip155V rid chainId := by
  have hid := h
  obtain ⟨vk, sig, hvk, hsig, hrec, -⟩ := h
  cases hres : ethereumSignature k pubkey msgHash rs chainId with
  | ok e =>
    obtain ⟨rid', hid', hv, -⟩ := ethereumSignature_chain hres
    rw [hid.unique hid']
    exact ⟨e, rfl, hv⟩
  | error err =>
    rw [ethereumSignature_eq_search hvk msgHash hsig] at hres
    have hmem : rid ∈ [(0 : UInt8), 1] := by simpa using hid.zero_or_one
    exact absurd hrec ((searchRecoveryId_eq_error_iff.mp hres).2 rid hmem)

/-- The arithmetic of `v` is exact as long as the sum fits. -/
theorem eip155V_toNat {rid : UInt8} {chainId : UInt64}
    (h : rid.toNat + 2 * chainId.toNat + 35 < 2 ^ 64) :
    (eip155V rid chainId).toNat = rid.toNat + 2 * chainId.toNat + 35 := by
  have hrid := rid.toNat_lt
  simp only [eip155V, UInt64.toNat_add, UInt64.toNat_mul, UInt8.toNat_toUInt64]
  change (((rid.toNat + chainId.toNat * 2 % 2 ^ 64) % 2 ^ 64) + 35) % 2 ^ 64 = _
  omega

section Complete
variable {G : Type} [AddCommGroup G] [Module (ZMod n) G] [DecidableEq G]
  {k : K256} {C : Ecdsa.Curve (ZMod n) G} {point : k.VerifyingKey → G}

/-- The parity that recovers the key from the low-S form of a signature. -/
def lowParity (sig : Signature) (odd : Bool) : Bool := if sig.s ≤ n / 2 then odd else !odd

theorem lowParity_toNat (sig : Signature) (odd : Bool) :
    (lowParity sig odd).toNat = if sig.s ≤ n / 2 then odd.toNat else 1 - odd.toNat := by
  unfold lowParity
  split
  · rfl
  · cases odd <;> rfl

/-- Going to low-S form exchanges the recovery ids exactly when it changes `s`. -/
theorem recover_lowS (C : Ecdsa.Curve (ZMod n) G) (z : ZMod n) (sig : Signature) (odd : Bool) :
    C.recover z (sig.lowS.r : ZMod n) (sig.lowS.s : ZMod n) (lowParity sig odd) =
      C.recover z (sig.r : ZMod n) (sig.s : ZMod n) odd := by
  unfold lowParity
  by_cases hlow : sig.s ≤ n / 2
  · rw [if_pos hlow, Signature.lowS_of_le hlow]
  · rw [if_neg hlow, Signature.lowS_r, Signature.lowS_s_of_gt (by omega),
      natCast_order_sub sig.s_lt, C.recover_neg]

/-- The only recovery id that the loop can stop at. -/
theorem recover_lowS_unique {z : ZMod n} {sig : Signature} {q : G} {odd odd' : Bool}
    (h : C.recover z (sig.r : ZMod n) (sig.s : ZMod n) odd = some q)
    (h' : C.recover z (sig.lowS.r : ZMod n) (sig.lowS.s : ZMod n) odd' = some q) :
    odd' = lowParity sig odd := by
  rw [← recover_lowS] at h
  exact C.recover_unique (natCast_ne_zero sig.lowS.r_pos sig.lowS.r_lt)
    (natCast_ne_zero sig.lowS.s_pos sig.lowS.s_lt) two_ne_zero_zmod h' h

theorem idByte_mem (odd : Bool) : idByte odd ∈ [(0 : UInt8), 1] := by
  cases odd <;> decide

/-- A valid signature is found with the right recovery id, whichever of its two forms
the card gives; where no recovery id gives the key, the error says so. -/
theorem ethereumSignature_complete (hk : k.Recovers C point) {pubkey : Bytes}
    {vk : k.VerifyingKey} (hvk : k.fromSec1Bytes pubkey = .ok vk) (msgHash : BytesN 32)
    {rs : BytesN 64} {sig : Signature} (hsig : Signature.fromSlice rs = some sig)
    {chainId : UInt64} (hfit : 2 * chainId.toNat + 36 < 2 ^ 64) :
    let recovers := fun odd : Bool =>
      C.recover (hashScalar msgHash) (sig.r : ZMod n) (sig.s : ZMod n) odd = some (point vk)
    (∀ odd, recovers odd → ∃ e, ethereumSignature k pubkey msgHash rs chainId = .ok e ∧
      e.r.val = rs.val.take 32 ∧
      if sig.s ≤ n / 2 then
        e.s.val = rs.val.drop 32 ∧ e.v.toNat = odd.toNat + 2 * chainId.toNat + 35
      else
        beNat e.s.val = n - sig.s ∧ e.v.toNat = (1 - odd.toNat) + 2 * chainId.toNat + 35) ∧
    ((∀ odd, ¬ recovers odd) →
      ethereumSignature k pubkey msgHash rs chainId = .error .recoveryFailed) := by
  intro recovers
  rw [ethereumSignature_eq_search hvk msgHash hsig chainId]
  obtain ⟨hrBytes, hsBytes⟩ := Signature.fromSlice_bytes hsig
  constructor
  · intro odd hodd
    have hfound : k.recoverFromPrehash msgHash sig.lowS (idByte (lowParity sig odd)) = .ok vk := by
      apply (hk msgHash sig.lowS (lowParity sig odd) vk sig.lowS_le).mpr
      rw [recover_lowS]
      exact hodd
    cases hsearch : searchRecoveryId k vk msgHash sig.lowS chainId [0, 1] with
    | error e =>
      obtain ⟨-, hnone⟩ := searchRecoveryId_eq_error_iff.mp hsearch
      exact absurd hfound (hnone _ (idByte_mem _))
    | ok e =>
      obtain ⟨rid, hmem, hrec, hr, hs, hv⟩ := searchRecoveryId_ok hsearch
      obtain ⟨odd', rfl⟩ := exists_idByte (by simpa using hmem)
      -- the id at which the loop stopped is the only one there is
      obtain rfl := recover_lowS_unique hodd ((hk msgHash sig.lowS odd' vk sig.lowS_le).mp hrec)
      have hbit : (lowParity sig odd).toNat ≤ 1 := Bool.toNat_le _
      have hvNat : e.v.toNat = (lowParity sig odd).toNat + 2 * chainId.toNat + 35 := by
        rw [hv, eip155V_toNat (by rw [idByte_toNat]; omega), idByte_toNat]
      rw [lowParity_toNat] at hvNat
      refine ⟨e, rfl, by rw [hr, Signature.lowS_r, hrBytes], ?_⟩
      by_cases hlow : sig.s ≤ n / 2
      · rw [if_pos hlow] at hvNat ⊢
        exact ⟨by rw [hs, Signature.lowS_of_le hlow, hsBytes], hvNat⟩
      · rw [if_neg hlow] at hvNat ⊢
        have hbound : n - sig.s < 256 ^ 32 := lt_of_le_of_lt (Nat.sub_le n sig.s) (by decide)
        exact ⟨by rw [hs, Signature.lowS_s_of_gt (by omega), beNat_beBytes hbound], hvNat⟩
  · intro hnone
    apply searchRecoveryId_eq_error_iff.mpr
    refine ⟨rfl, fun rid hmem hrec => ?_⟩
    obtain ⟨odd', rfl⟩ := exists_idByte (by simpa using hmem)
    have hrecovered := (hk msgHash sig.lowS odd' vk sig.lowS_le).mp hrec
    have hparity : odd' = lowParity sig (lowParity sig odd') := by
      unfold lowParity
      split
      · rfl
      · exact (Bool.not_not odd').symm
    rw [hparity, recover_lowS] at hrecovered
    exact hnone _ hrecovered

end Complete

def generatorX : Nat := 0x79be667ef9dcbbac55a06295ce870b07029bfcdb2dce28d959f2815b16f81798

/-- The secret key of the Hardhat/Anvil dev account #0. -/
def hardhatSecret : ZMod n :=
  ((0xac0974bec39a17e36ba4a6b4d238ff944bacb478cbed5efcae784d7bf4f2ff80 : Nat) : ZMod n)

/-- The generator is the nonce point. Points stand for their discrete logarithms, and of all
x-coordinates only the generator's is looked up. -/
def generatorCurve : Ecdsa.Curve (ZMod n) (ZMod n) where
  generator := 1
  lift x odd := if x = generatorX then some (if odd then -1 else 1) else none
  lift_not := by
    intro x odd
    by_cases hx : x = generatorX
    · cases odd <;> simp [hx]
    · simp [hx]
  lift_ne_zero := by
    intro x odd R hR
    by_cases hx : x = generatorX
    · rw [if_pos hx] at hR
      obtain rfl := Option.some.inj hR
      cases odd <;> simp
    · rw [if_neg hx] at hR
      cases hR

def generatorK256 : K256 where
  VerifyingKey := ZMod n
  decEq := inferInstanceAs (DecidableEq (ZMod n))
  fromSec1Bytes b := if b = hardhatKey then .ok hardhatSecret else .error "signature error"
  recoverFromPrehash hash sig rid :=
    let recover := generatorCurve.recover (hashScalar hash) (sig.r : ZMod n) (sig.s : ZMod n)
    match if rid = 0 then recover false else if rid = 1 then recover true else none with
    | some q => .ok q
    | none => .error "signature error"
  signatureError := "signature error"

theorem generatorK256_recovers : generatorK256.Recovers generatorCurve id := by
  intro hash sig odd vk hlow
  have hcases : generatorK256.recoverFromPrehash hash sig (idByte odd) =
      match generatorCurve.recover (hashScalar hash) (sig.r : ZMod n) (sig.s : ZMod n) odd with
      | some q => .ok q
      | none => .error "signature error" := by
    cases odd <;> rfl
  rw [hcases]
  cases generatorCurve.recover (hashScalar hash) (sig.r : ZMod n) (sig.s : ZMod n) odd with
  | none =>
    constructor
    · intro h
      cases h
    · intro h
      cases h
  | some q =>
    constructor
    · intro h
      exact congrArg some (Except.ok.inj h)
    · intro h
      exact congrArg Except.ok (Option.some.inj h)

/-- `s` in the upper half: the point with odd `y` is the nonce point. -/
def generatorSig : Signature where
  r := generatorX
  s := n - 0x4d714a88e132aff4b8445f94040a413ca522dda12a3001040115d687bdf2c39b
  r_pos := by decide
  r_lt := by decide
  s_pos := by decide
  s_lt := by decide

theorem ethereumSignature_complete_sample :
    ∃ e, ethereumSignature generatorK256 hardhatKey (.fill 32 7) generatorSig.slice 1 = .ok e ∧
      e.r.val = generatorSig.toBytes.take 32 ∧
      beNat e.s.val = 0x4d714a88e132aff4b8445f94040a413ca522dda12a3001040115d687bdf2c39b ∧
      e.v.toNat = 37 := by
  have hvk : generatorK256.fromSec1Bytes hardhatKey = .ok hardhatSecret := by
    simp only [generatorK256, if_true]
  have hrecovers : generatorCurve.recover (hashScalar (.fill 32 7)) (generatorSig.r : ZMod n)
      (generatorSig.s : ZMod n) true = some hardhatSecret := by
    apply generatorCurve.recover_eq_some_iff.mpr
    refine ⟨-1, by decide +kernel, ?_, by decide +kernel⟩
    apply (generatorCurve.candidate_eq_iff (natCast_ne_zero generatorSig.r_pos generatorSig.r_lt)).mpr
    decide +kernel
  have hfit : 2 * (1 : UInt64).toNat + 36 < 2 ^ 64 := by decide
  have hhigh : ¬ generatorSig.s ≤ n / 2 := by decide
  obtain ⟨e, he, hr, hsv⟩ := (ethereumSignature_complete generatorK256_recovers hvk (.fill 32 7)
    generatorSig.fromSlice_slice hfit).1 true hrecovers
  rw [if_neg hhigh] at hsv
  exact ⟨e, he, hr, hsv.1, hsv.2⟩

end Eth
end YubiWallet
