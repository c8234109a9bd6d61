import YubiWallet.CommandOrder
import YubiWallet.Host.Methods
import YubiWallet.Lib.Outcome

/-! Soundness of `sign_secp256k1` against any card: a successful answer recovers to the
public key that was read in the same call. -/
namespace YubiWallet.Host
open Interaction Outcome Endian

/-- The command that reads the public key of an account, its answer, and the key. -/
def ReadsPubkey (acc : Account) (c : Bytes) (x : Except String Bytes) (pk : Bytes) : Prop :=
  match acc.applet with
  | .openPgp => ∃ crt raw, Openpgp.crtTag acc.slot = .ok crt ∧
      c = Openpgp.getPublicKeyCommand crt ∧ Carries x raw ∧
      Openpgp.readPubkey acc.curve raw = .ok pk
  | .piv => acc.curve = .ed25519 ∧ ∃ tag resp k, Piv.slotObjectTag acc.slot = .ok tag ∧
      c = Piv.getDataCommand tag.val ∧ Carries x resp ∧
      Piv.readCertificateKey resp = .ok k ∧ pk = k.val

theorem readsPubkey_of_keyReading {acc : Account} {r : KeyReading} {x : Except String Bytes}
    {d pk : Bytes} (hcheck : acc.check = .ok ()) (hr : acc.keyReading = .ok r)
    (hx : Carries x d) (hpk : r.key d = .ok pk) : ReadsPubkey acc r.command x pk := by
  unfold ReadsPubkey
  rcases keyReading_cases hr with ⟨happlet, crt, hcrt, rfl⟩ | ⟨happlet, tag, htag, rfl⟩ <;>
    rw [happlet]
  · exact ⟨crt, d, hcrt, rfl, hx, hpk⟩
  · obtain ⟨k, hk, rfl⟩ := map_eq_ok_iff.mp hpk
    exact ⟨(check_piv happlet hcheck).1, tag, d, k, htag, rfl, hx, hk, rfl⟩

theorem getPubkey_fromLast (acc : Account) :
    FromLast exchange? (ReadsPubkey acc) (getPubkey acc) := by
  rw [getPubkey_eq]
  refine FromLast.ofExcept_bind _ fun _ hcheck => FromLast.bind _ fun _ => FromLast.bind _ fun _ =>
    FromLast.ofExcept_bind _ fun r hr => ?_
  refine ((transmit_fromLast r.command r.bufLen).ofExcept r.key).mono fun c x pk h => ?_
  obtain ⟨d, ⟨rfl, hx⟩, hpk⟩ := h
  exact readsPubkey_of_keyReading hcheck hr hx hpk

/-- The answer `v` to a prehash, given the public key that was read and the card's R||S:
a signature in low-S form with the id by which it recovers to that key. -/
def SoundAnswer (k : K256) (hash : BytesN 32) (pk rs : Bytes) (v : Value) : Prop :=
  ∃ (sig : Signature) (recoveryId : UInt8) (vk : k.VerifyingKey) (r s : String),
    v = .obj [("r", .str r), ("s", .str s), ("recovery_id", .num (.posInt recoveryId.toUInt64))] ∧
    (recoveryId = 0 ∨ recoveryId = 1) ∧
    r = Hex.encode (beBytes 32 sig.r) ∧ s = Hex.encode (beBytes 32 sig.s) ∧
    (∀ digits ∈ [r, s], digits.length = 64 ∧ ∀ c ∈ digits.toList, (hexDigit c).isSome) ∧
    sig.s ≤ Secp256k1.n / 2 ∧ rs.length = 64 ∧ sig.r = beNat (rs.take 32) ∧
    (sig.s = beNat (rs.drop 32) ∨ sig.s = Secp256k1.n - beNat (rs.drop 32)) ∧
    k.recoverFromPrehash hash sig recoveryId = .ok vk ∧ k.fromSec1Bytes pk = .ok vk

theorem toArray_eq_some {n : Nat} {b : Bytes} {a : BytesN n} (h : toArray n b = some a) :
    a.val = b := by
  unfold toArray at h
  split at h
  · exact congrArg Subtype.val (Option.some.inj h).symm
  · cases h

/-- With chain id 0, what is taken off `v` again is what was added to it. -/
theorem recoveryId_of_v {rid : UInt8} (h : rid = 0 ∨ rid = 1) :
    (if Eth.eip155V rid 0 < 35 then 0 else Eth.eip155V rid 0 - 35) = rid.toUInt64 := by
  rcases h with rfl | rfl <;> decide

theorem finishSecp256k1_sound {C : Crates} {pk rsVec : Bytes} {hash : BytesN 32} {v : Value}
    (h : finishSecp256k1 C pk hash rsVec = .ok v) : SoundAnswer C.k256 hash pk rsVec v := by
  unfold finishSecp256k1 at h
  split at h
  · cases h
  · rename_i rs hrs
    obtain rfl : rs.val = rsVec := toArray_eq_some hrs
    cases hsig : Eth.ethereumSignature C.k256 pk hash rs 0 with
    | error e =>
      rw [hsig] at h
      cases h
    | ok e =>
      rw [hsig] at h
      obtain rfl : secp256k1Json e = v := Except.ok.inj h
      obtain ⟨vk, sig, rid, hvk, hslice, hrid, hrec, hr, hs, hv⟩ := Eth.ethereumSignature_ok hsig
      obtain ⟨hsr, hss⟩ := Signature.fromSlice_eq_some hslice
      refine ⟨sig.lowS, rid, vk, _, _, ?_, hrid, rfl, rfl, ?_, sig.lowS_le, rs.property, ?_, ?_,
        hrec, hvk⟩
      · simp only [secp256k1Json, hr, hs, hv, recoveryId_of_v hrid, Signature.lowS_r]
      · have hdigits : ∀ n : Nat, (Hex.encode (beBytes 32 n)).length = 64 ∧
            ∀ c ∈ (Hex.encode (beBytes 32 n)).toList, (hexDigit c).isSome := fun n => by
          exact ⟨by rw [Hex.encode_length, beBytes_length], Hex.encode_isHexDigit _⟩
        simp only [List.forall_mem_cons, List.not_mem_nil, false_imp_iff, implies_true, and_true]
        exact ⟨hdigits _, hdigits _⟩
      · rw [Signature.lowS_r, hsr]
      · rw [← hss]
        exact sig.lowS_s

theorem hostPin_silent : Prog.Always hostPin.run fun t _ => exchanges t = [] := by
  rw [hostPin, Action.always_mapErr]
  refine Prog.Always.mono readPin_only fun t r ht => ?_
  refine List.filterMap_eq_nil_iff.mpr fun e he => ?_
  have hop := ht e he
  obtain ⟨op, x⟩ := e
  cases op <;> first | rfl | cases hop

/-- A success of `sign_secp256k1` is made of the public key that was read in its first
session and the signature that was given at the end of the second. -/
theorem signSecp256k1_reads (C : Crates) (params : Value) :
    Prog.Always (signSecp256k1 C params).run fun t r => ∀ v, r = .ok v →
      ∃ acc hash pin pk rs u c x w c' y, secp256k1Args C params = .ok (acc, hash) ∧
        exchanges t = u ++ [(c, x)] ++ w ++ [(c', y)] ∧
        ReadsPubkey acc c x pk ∧ Reads acc hash.val pin c' y rs ∧
        finishSecp256k1 C pk hash rs = .ok v := by
  refine Action.always_ofExcept_bind_of (fun _ _ _ h => nomatch h) fun args hargs => ?_
  obtain ⟨acc, hash⟩ := args
  refine Action.always_mapErr_bind_of (getPubkey_fromLast acc)
    (fun _ _ _ _ h => nomatch h) fun t pk hr => ?_
  obtain ⟨u, c, x, hu, hpk⟩ := hr pk rfl
  refine Action.always_bind_of hostPin_silent (fun _ _ _ _ h => nomatch h) fun t' pin ht' => ?_
  refine Action.always_mapErr_bind_of (signWithPin_fromLast acc hash.val pin)
    (fun _ _ _ _ h => nomatch h) fun t'' rs hr'' => ?_
  obtain ⟨w, c', y, hw, hrs⟩ := hr'' rs rfl
  intro v hv
  refine ⟨acc, hash, pin, pk, rs, u, c, x, w, c', y, hargs, ?_, hpk, hrs, hv⟩
  change exchanges (t ++ (t' ++ (t'' ++ []))) = _
  change exchanges t = _ at hu
  change exchanges t'' = _ at hw
  simp only [List.append_nil, exchanges_append, hu, ht', hw, List.nil_append,
    List.append_assoc]

/-- Against any card, also against one that changes between its two sessions: a success
of `sign_secp256k1` is a sound answer for the public key that was read in the first
session and the signature that was given at the end of the second. -/
theorem signSecp256k1_sound (C : Crates) (params : Value) (env : Env) (h : Trace) (v : Value)
    (hok : (Prog.run env (signSecp256k1 C params).run h).1 = .ok v) :
    ∃ acc hash pin pk rs u c x w c' y,
      secp256k1Args C params = .ok (acc, hash) ∧
      exchanges (Prog.run env (signSecp256k1 C params).run h).2 =
        u ++ [(c, x)] ++ w ++ [(c', y)] ∧
      ReadsPubkey acc c x pk ∧ Reads acc hash.val pin c' y rs ∧
      SoundAnswer C.k256 hash pk rs v := by
  obtain ⟨acc, hash, pin, pk, rs, u, c, x, w, c', y, hargs, hex, hpk, hrs, hfinish⟩ :=
    (signSecp256k1_reads C params).run env h v hok
  exact ⟨acc, hash, pin, pk, rs, u, c, x, w, c', y, hargs, hex, hpk, hrs,
    finishSecp256k1_sound hfinish⟩

/-- The key that recovery id 0 gives. -/
def otherKey : Bytes := 0x04 ::
  (beBytes 32 0x94f26c0696068c0ae62e94d475cc2afe4702d70ee560c7a9bf930b217b1fe405 ++
    beBytes 32 0x472b7cd3ecef7452683b894f3028b26f4c6c9039b9460160f21db7674ed2aad4)

def sampleR : Nat := 0xc6047f9441ed7d6d3045406e95c07cd85c778e4b8cef3ca7abac09b95c709ee5
def sampleS : Nat := 0xab03f191186babb184f916ca91b44b6d70d0fc73a65cd675d0d207c5d65d185a

/-- The curve arithmetic on the sample, as a table. -/
def sampleK256 : K256 where
  VerifyingKey := Bytes
  fromSec1Bytes b := if b = Eth.hardhatKey then .ok Eth.hardhatKey else .error "signature error"
  recoverFromPrehash hash sig rid :=
    if hash.val = List.replicate 32 7 ∧ sig.r = sampleR ∧ sig.s = Secp256k1.n - sampleS then
      if rid = 0 then .ok otherKey else if rid = 1 then .ok Eth.hardhatKey
      else .error "signature error"
    else .error "signature error"
  signatureError := "signature error"

def sampleCrates : Crates where
  keccak256 _ := .fill 32 0
  k256 := sampleK256
  serde := Texts.serde ⟨[], [], [], []⟩ (fun _ => "") fun _ => []
  hexErrorText _ := ""

def sampleEnv : Env := fun _ op =>
  match op with
  | .connect => Connection.card
  | .transmit command _ =>
    if command = Openpgp.getPublicKeyCommand 0xB6 then
      Except.ok ([0x7F, 0x49, 0x43, 0x86, 0x41] ++ Eth.hardhatKey ++ [0x90, 0x00])
    else if command.getD 1 0 = Apdu.insPso then
      Except.ok (beBytes 32 sampleR ++ beBytes 32 sampleS ++ [0x90, 0x00])
    else Apdu.success
  | .print _ => Except.ok ()
  | .readLine => Except.ok ""
  | .envVar _ => some "123456"
  | .writeTty _ => ()
  | .openTty => Except.ok ()
  | .readTty => Except.ok ""
  | .writeOut _ => ()
  | .flushOut => ()

def sampleParams : Value := .obj [("account_id", .str "openpgp:sig:secp256k1"),
  ("prehash", .str "0x0707070707070707070707070707070707070707070707070707070707070707")]

def sampleAnswer : Value := .obj
  [("r", .str "c6047f9441ed7d6d3045406e95c07cd85c778e4b8cef3ca7abac09b95c709ee5"),
    ("s", .str "54fc0e6ee794544e7b06e9356e4bb49149dde07308ebc9c5ef0056c6f9d928e7"),
    ("recovery_id", .num (.posInt 1))]

set_option maxRecDepth 10000 in
theorem signSecp256k1_sound_sample :
    ∃ acc hash pin pk rs u c x w c' y,
      secp256k1Args sampleCrates sampleParams = .ok (acc, hash) ∧
      exchanges (Prog.run sampleEnv (signSecp256k1 sampleCrates sampleParams).run []).2 =
        u ++ [(c, x)] ++ w ++ [(c', y)] ∧
      ReadsPubkey acc c x pk ∧ Reads acc hash.val pin c' y rs ∧
      SoundAnswer sampleCrates.k256 hash pk rs sampleAnswer :=
  signSecp256k1_sound sampleCrates sampleParams sampleEnv [] sampleAnswer rfl

end YubiWallet.Host
