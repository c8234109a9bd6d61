import YubiWallet.Chains.Signer
import YubiWallet.Standard64
import YubiWallet.Lib.Format

/-! The program `sui_sign`: the address of a PIV slot, or its signature on a transaction. -/
namespace YubiWallet.Chains.Sui
open Interaction Endian

structure Crates where
  blake2b256 : Bytes → BytesN 32

/-- The account of the first argument. -/
def account (args : List String) : Except Panic Account := do
  let slotStr ← expectSome "arg1=slot" args[1]?
  let slot ← expect "unwrap" (parseSlot .piv slotStr)
  pure ⟨.piv, slot, .ed25519⟩

def address (C : Crates) (pk : Bytes) : String :=
  "0x" ++ Hex.encode (C.blake2b256 ([0x00] ++ pk)).val

/-- The hash of the transaction behind its intent. -/
def digest (C : Crates) (tx : Bytes) : Bytes := (C.blake2b256 ([0, 0, 0] ++ tx)).val

/-- The flag of Ed25519, the signature and the key. -/
def serialize (sig pk : Bytes) : Bytes := [0x00] ++ sig ++ pk

def main (C : Crates) (args : List String) : MainM Unit := do
  let acc ← Action.ofExcept (account args)
  let pk ← expectCard "pubkey" (getPubkey acc)
  match args[2]? with
  | none => println (address C pk)
  | some txb64 =>
    let tx ← Action.ofExcept (expectSome "decode tx bytes" (Standard64.decode (trim txb64)))
    let sig ← expectCard "card sign" (sign acc (digest C tx))
    println (Standard64.encode (serialize sig pk))

/-- A signature as the network takes it. -/
structure UserSignature where
  sig : BytesN 64
  pk : BytesN 32

def userSignature : Format UserSignature :=
  ((Format.marker [0x00]).pair ((Format.bytes 64).pair (Format.bytes 32))).iso
    (fun x => ⟨x.2.1, x.2.2⟩) (fun u => ((), u.sig, u.pk)) (fun _ => rfl) fun _ => rfl

theorem write_userSignature (u : UserSignature) :
    userSignature.write u = serialize u.sig.val u.pk.val := rfl

-- the reader is used through `Format.read_iff` only, never unfolded
attribute [irreducible] userSignature

/-- The last 32 bytes are the key. When the card's signature does not have 64 bytes, nothing
is read. -/
theorem read_serialize_iff (sig : Bytes) (pk : BytesN 32) (u : UserSignature) :
    userSignature.read (serialize sig pk.val) = some (u, []) ↔ u.sig.val = sig ∧ u.pk = pk := by
  rw [Format.read_eq_nil_iff, write_userSignature, serialize, serialize]
  constructor
  · intro h
    obtain ⟨hfront, hpk⟩ := List.append_inj' h (pk.property.trans u.pk.property.symm)
    exact ⟨(List.append_cancel_left hfront).symm, Subtype.ext hpk.symm⟩
  · intro h
    rw [h.1, h.2]

theorem piv_of_account {args : List String} {acc : Account} (h : account args = .ok acc) :
    acc.applet = .piv := by
  obtain ⟨slotStr, -, h⟩ := Outcome.bind_eq_ok_iff.mp h
  obtain ⟨slot, -, h⟩ := Outcome.bind_eq_ok_iff.mp h
  obtain rfl := Except.ok.inj h
  rfl

/-- The key of a PIV account has 32 bytes. -/
theorem exists_array {acc : Account} (hpiv : acc.applet = .piv) {pk : Bytes}
    {ex : List (Bytes × Except String Bytes)} (h : ReadsKey acc pk ex) :
    ∃ k : BytesN 32, k.val = pk := by
  obtain ⟨u, c, x, -, hreads⟩ := h
  rw [Host.ReadsPubkey, hpiv] at hreads
  obtain ⟨-, -, -, k, -, -, -, -, hpk⟩ := hreads
  exact ⟨k, hpk.symm⟩

/-- What was printed, for the arguments. -/
def Shows (C : Crates) (args : List String) (acc : Account) (pk : BytesN 32) (line : String)
    (ex : List (Bytes × Except String Bytes)) : Prop :=
  match args[2]? with
  | none => ReadsKey acc pk.val ex ∧ line = address C pk.val
  | some txb64 => ∃ tx sig, Standard64.decode (trim txb64) = some tx ∧
      ReadsThenSigns acc pk.val (digest C tx) sig ex ∧
      Standard64.decode line = some ([0x00] ++ sig ++ pk.val) ∧
      ∀ u, (Standard64.decode line).bind userSignature.read = some (u, []) ↔
        u.sig.val = sig ∧ u.pk = pk

theorem main_always (C : Crates) (args : List String) :
    Prog.Always (main C args).run fun t r => ∀ u, r = .ok u →
      ∃ acc pk line t', account args = .ok acc ∧
        t = t' ++ [⟨.print (line ++ "\n"), Except.ok ()⟩] ∧
        Shows C args acc pk line (exchanges t) := by
  refine Action.always_ofExcept_bind_of (fun _ _ _ h => nomatch h) fun acc hacc => ?_
  refine Action.always_bind_of (getPubkey_always acc "pubkey") (fun _ _ _ _ h => nomatch h)
    fun first pk hfirst => ?_
  have hkey := hfirst pk rfl
  obtain ⟨k, rfl⟩ := exists_array (piv_of_account hacc) hkey
  unfold Shows
  cases args[2]? with
  | none =>
    refine Prog.Always.mono (printLine_always _ _) fun last r hlast u hr => ?_
    obtain rfl := hlast u hr
    refine ⟨acc, k, address C k.val, first, hacc, rfl, ?_, rfl⟩
    rw [exchanges_append]
    exact (List.append_nil _).symm ▸ hkey
  | some txb64 =>
    dsimp only
    generalize hdecode : Standard64.decode (trim txb64) = decoded
    refine Action.always_ofExcept_bind_of (fun _ _ _ h => nomatch h) fun tx htx => ?_
    refine Action.always_bind_of (sign_always acc _ "card sign") (fun _ _ _ _ h => nomatch h)
      fun second sig hsecond => ?_
    refine Prog.Always.mono (printLine_always _ _) fun last r hlast u hr => ?_
    obtain rfl := hlast u hr
    refine ⟨acc, k, Standard64.encode (serialize sig k.val), first ++ second, hacc, ?_, tx, sig,
      ?_, ?_, Standard64.decode_encode _, fun u => ?_⟩
    · rw [List.append_assoc]
    · exact expectSome_eq_ok_iff.mp htx
    · refine ⟨exchanges first, exchanges second, ?_, hkey, hsecond sig rfl⟩
      rw [exchanges_append, exchanges_append]
      exact congrArg (exchanges first ++ ·) (List.append_nil _)
    · rw [Standard64.decode_encode, Option.bind_some]
      exact read_serialize_iff sig k u

/-- Whatever the card answers: a run of `sui_sign` that ends well shows the address of the key
that it has read, or it shows the flag, the signature and the key, which read back as these if the
signature has 64 bytes, and then the card has signed the digest of the decoded transaction. -/
theorem main_signs (C : Crates) (args : List String) (env : Env) (h : Trace)
    (hok : (Prog.run env (main C args).run h).1 = .ok ()) :
    ∃ acc pk line t', account args = .ok acc ∧
      (Prog.run env (main C args).run h).2 = t' ++ [⟨.print (line ++ "\n"), Except.ok ()⟩] ∧
      Shows C args acc pk line (exchanges (Prog.run env (main C args).run h).2) :=
  (main_always C args).run env h () hok

/-- The values of BLAKE2b on the sample. -/
def sampleCrates : Crates where
  blake2b256 d := ⟨beBytes 32 <|
    if d = [0, 0, 0, 1, 2, 3] then
      0xee461b814937755e5cd5ab7d72d521d48bc4150c1c2c52cca6d5c6666afaec9d
    else
      0x0a0cb64ee9932145bb2398a0964c964dc89f917b6b8d5809f3b1487c80cf827d,
    beBytes_length 32 _⟩

def sampleArgs : List String := ["sui_sign", "9a", "AQID"]

theorem sample_ok : (Prog.run pivSample (main sampleCrates sampleArgs).run []).1 = .ok () := by
  decide +kernel

theorem main_signs_sample :
    ∃ acc pk line t', account sampleArgs = .ok acc ∧
      (Prog.run pivSample (main sampleCrates sampleArgs).run []).2 =
        t' ++ [⟨.print (line ++ "\n"), Except.ok ()⟩] ∧
      Shows sampleCrates sampleArgs acc pk line
        (exchanges (Prog.run pivSample (main sampleCrates sampleArgs).run []).2) :=
  main_signs sampleCrates sampleArgs pivSample [] sample_ok

end YubiWallet.Chains.Sui
