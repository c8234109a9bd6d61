import YubiWallet.Chains.Bitcoin

/-! What `btc_sign` prints, read back as a transaction, and what the card has signed. -/
namespace YubiWallet.Chains.Bitcoin
open Interaction Outcome Endian

theorem content_length_le {n : Nat} (h : n < Secp256k1.n) : (Der.content n).length ≤ 33 :=
  Der.content_length_le 32 (h.trans (by decide))

/-- A scalar is short enough for the simple form of lengths. -/
def derScalar (n : Nat) (h : n < Secp256k1.n) : Der.ShortInt :=
  ⟨n, lt_of_le_of_lt (content_length_le h) (by decide)⟩

theorem write_derScalar_length {n : Nat} (h : n < Secp256k1.n) :
    (Der.integer.write (derScalar n h)).length ≤ 35 := by
  have hlen := content_length_le h
  rw [Der.write_integer]
  simp only [derScalar, List.length_cons]
  omega

theorem write_scalars_length (sig : Signature) :
    (Der.integer.write (derScalar sig.r sig.r_lt) ++
      Der.integer.write (derScalar sig.s sig.s_lt)).length ≤ 70 := by
  have hr := write_derScalar_length sig.r_lt
  have hs := write_derScalar_length sig.s_lt
  rw [List.length_append]
  omega

def derSignature (sig : Signature) : Der.ShortPair :=
  ⟨(derScalar sig.r sig.r_lt, derScalar sig.s sig.s_lt),
    lt_of_le_of_lt (write_scalars_length sig) (by decide)⟩

theorem toDer_eq (sig : Signature) : toDer sig = Der.sequence.write (derSignature sig) := by
  rw [Der.write_sequence, Format.write_pair]
  simp only [toDer, derSignature, Der.write_integer, derScalar]

theorem toDer_length_le (sig : Signature) : (toDer sig).length ≤ 72 := by
  have hlen := write_scalars_length sig
  rw [toDer_eq, Der.write_sequence]
  simp only [derSignature, List.length_cons]
  omega

theorem witnessSignature_ok {rs sig : Bytes} (h : witnessSignature rs = .ok sig) :
    ∃ (rs64 : BytesN 64) (parsed : Signature), rs64.val = rs ∧
      Signature.fromSlice rs64 = some parsed ∧ sig = toDer parsed.lowS ++ [0x01] := by
  unfold witnessSignature at h
  cases harray : toArray 64 rs with
  | none =>
    rw [harray] at h
    cases h
  | some rs64 =>
    rw [harray] at h
    cases hparsed : Signature.fromSlice rs64 with
    | none =>
      simp only [Option.bind_some, hparsed] at h
      cases h
    | some parsed =>
      simp only [Option.bind_some, hparsed] at h
      exact ⟨rs64, parsed, Host.toArray_eq_some harray, hparsed, (Except.ok.inj h).symm⟩

/-- The item of the witness is the card's signature in strict DER with `s` in the lower half,
and behind it the type of the digest. -/
theorem witnessSignature_lowS {rs sig : Bytes} (h : witnessSignature rs = .ok sig) :
    ∃ x : Der.ShortPair, Der.sequence.read sig = some (x, [0x01]) ∧ sig.length ≤ 73 ∧
      rs.length = 64 ∧ x.val.1.val = beNat (rs.take 32) ∧ x.val.2.val ≤ Secp256k1.n / 2 ∧
      (x.val.2.val = beNat (rs.drop 32) ∨ x.val.2.val = Secp256k1.n - beNat (rs.drop 32)) := by
  obtain ⟨rs64, parsed, rfl, hparsed, rfl⟩ := witnessSignature_ok h
  obtain ⟨hr, hs⟩ := Signature.fromSlice_eq_some hparsed
  have hread : Der.sequence.read (toDer parsed.lowS ++ [0x01]) =
      some (derSignature parsed.lowS, [0x01]) := by
    rw [toDer_eq, Format.read_write]
  have hlen : (toDer parsed.lowS ++ [0x01]).length ≤ 73 := by
    have hder := toDer_length_le parsed.lowS
    rw [List.length_append]
    exact Nat.add_le_add_right hder 1
  refine ⟨derSignature parsed.lowS, hread, hlen, rs64.property, ?_, parsed.lowS_le, ?_⟩
  · exact parsed.lowS_r.trans hr
  · rw [← hs]
    exact parsed.lowS_s

def spent (s : Spend) (htxid : s.txidLe.length = 32) : BitcoinTx.TxIn where
  previous := ⟨⟨s.txidLe, htxid⟩, s.vout⟩
  scriptSig := ⟨[], Nat.two_pow_pos 64⟩
  sequence := sequence

/-- The payment as a transaction with one input and one output. -/
def payment (s : Spend) (htxid : s.txidLe.length = 32) (hspk : s.destSpk.length < 2 ^ 64)
    (sig cpk : BitcoinTx.Script) : BitcoinTx.Tx where
  version := version
  inputs := .one (spent s htxid)
  outputs := .one ⟨s.outSat, ⟨s.destSpk, hspk⟩⟩
  witnesses := ⟨[.two sig cpk], rfl⟩
  locktime := locktime

/-- What stands in front of the length of the script, and what stands behind it. -/
def front (s : Spend) : Bytes :=
  u32Le version ++ [0x00, 0x01, 0x01] ++ outpoint s ++ [0x00] ++ u32Le sequence ++ [0x01] ++
    u64Le s.outSat

def back (s : Spend) (sig cpk : Bytes) : Bytes :=
  s.destSpk ++ [0x02, UInt8.ofNat sig.length] ++ sig ++ [UInt8.ofNat cpk.length] ++ cpk ++
    u32Le locktime

theorem rawTx_split (s : Spend) (sig cpk : Bytes) :
    rawTx s sig cpk = front s ++ [UInt8.ofNat s.destSpk.length] ++ back s sig cpk := by
  simp only [rawTx, front, back, List.append_assoc, List.cons_append, List.nil_append]

theorem write_payment (s : Spend) (htxid : s.txidLe.length = 32)
    (hspk : s.destSpk.length < 2 ^ 64) {sig cpk : BitcoinTx.Script} (hsig : sig.val.length < 253)
    (hcpk : cpk.val.length < 253) :
    BitcoinTx.tx.write (payment s htxid hspk sig cpk) =
      front s ++ BitcoinTx.writeCompactSize ⟨s.destSpk.length, hspk⟩ ++ back s sig.val cpk.val := by
  have hout : BitcoinTx.txOut.write ⟨s.outSat, ⟨s.destSpk, hspk⟩⟩ =
      u64Le s.outSat ++ (BitcoinTx.writeCompactSize ⟨s.destSpk.length, hspk⟩ ++ s.destSpk) :=
    congrArg (u64Le s.outSat ++ ·) (BitcoinTx.write_script _)
  have hin : BitcoinTx.txIn.write (spent s htxid) = outpoint s ++ ([0x00] ++ u32Le sequence) := rfl
  rw [BitcoinTx.write_tx]
  simp only [payment, BitcoinTx.write_one, BitcoinTx.write_two, List.flatMap_singleton,
    BitcoinTx.write_script_of_lt hsig,
    BitcoinTx.write_script_of_lt hcpk, hin, hout]
  simp only [front, back, u32Le, Format.write_u32, BitcoinTx.segwit, List.append_assoc,
    List.cons_append, List.nil_append]

theorem read_rawTx_iff_size (s : Spend) (htxid : s.txidLe.length = 32)
    (hspk : s.destSpk.length < 2 ^ 64) {sig cpk : BitcoinTx.Script}
    (hsig : sig.val.length < 253) (hcpk : cpk.val.length < 253) :
    BitcoinTx.tx.read (rawTx s sig.val cpk.val) = some (payment s htxid hspk sig cpk, []) ↔
      [UInt8.ofNat s.destSpk.length] = BitcoinTx.writeCompactSize ⟨s.destSpk.length, hspk⟩ := by
  rw [Format.read_eq_nil_iff, rawTx_split, write_payment s htxid hspk hsig hcpk,
    List.append_assoc, List.append_assoc, List.append_right_inj, List.append_left_inj]

theorem read_rawTx_of_lt (s : Spend) (htxid : s.txidLe.length = 32) (hspk : s.destSpk.length < 253)
    (sig cpk : BitcoinTx.Script) (hsig : sig.val.length < 253) (hcpk : cpk.val.length < 253) :
    BitcoinTx.tx.read (rawTx s sig.val cpk.val) =
      some (payment s htxid (hspk.trans (by decide)) sig cpk, []) := by
  rw [read_rawTx_iff_size s htxid _ hsig hcpk]
  exact (BitcoinTx.writeCompactSize_of_lt (n := ⟨s.destSpk.length, hspk.trans (by decide)⟩) hspk).symm

/-- One byte for the length of the destination script is enough below 253 only: then the
printed bytes are read as the payment, and otherwise they are not. -/
theorem read_rawTx_iff (s : Spend) (htxid : s.txidLe.length = 32)
    (hspk : s.destSpk.length < 2 ^ 64) (sig cpk : BitcoinTx.Script)
    (hsig : sig.val.length < 253) (hcpk : cpk.val.length < 253) :
    BitcoinTx.tx.read (rawTx s sig.val cpk.val) = some (payment s htxid hspk sig cpk, []) ↔
      s.destSpk.length < 253 := by
  constructor
  · intro h
    have hlen := congrArg List.length ((read_rawTx_iff_size s htxid hspk hsig hcpk).mp h)
    exact (BitcoinTx.writeCompactSize_length _).mp hlen.symm
  · intro h
    exact read_rawTx_of_lt s htxid h sig cpk hsig hcpk

/-- A destination script of 300 bytes, which the one byte cuts to 44. -/
def longSpend : Spend := ⟨List.replicate 32 0x7B, 1, 100000, List.replicate 300 0x51, 99000⟩

theorem longSpend_length : longSpend.destSpk.length = 300 := List.length_replicate

theorem read_rawTx_iff_long :
    BitcoinTx.tx.read (rawTx longSpend (List.replicate 71 0x30) (List.replicate 33 0x02)) ≠
      some (payment longSpend (by decide) (by rw [longSpend_length]; decide)
        ⟨List.replicate 71 0x30, by decide⟩ ⟨List.replicate 33 0x02, by decide⟩, []) := by
  intro h
  have hshort := (read_rawTx_iff longSpend (by decide) (by rw [longSpend_length]; decide)
    ⟨List.replicate 71 0x30, by decide⟩ ⟨List.replicate 33 0x02, by decide⟩ (by decide)
    (by decide)).mp h
  rw [longSpend_length] at hshort
  exact absurd hshort (by decide)

/-- The script of a key hash, which stands for the witness program. -/
def keyHashScript (h160 : BytesN 20) : BitcoinTx.Script :=
  ⟨[0x76, 0xA9, 0x14] ++ h160.val ++ [0x88, 0xAC], by
    simp only [List.length_append, h160.property]
    decide⟩

theorem write_keyHashScript (h160 : BytesN 20) :
    BitcoinTx.script.write (keyHashScript h160) = scriptCode h160 := by
  have hlen : (keyHashScript h160).val.length = 25 := by
    simp [keyHashScript, h160.property]
  rw [BitcoinTx.write_script_of_lt (by rw [hlen]; decide), hlen]
  rfl

/-- The digest that the card is asked to sign is the one for the input of the payment. -/
theorem sighash_eq (C : Crates) (s : Spend) (h160 : BytesN 20) (htxid : s.txidLe.length = 32)
    (hspk : s.destSpk.length < 253) (sig cpk : BitcoinTx.Script) :
    sighash C s h160 = BitcoinTx.digest C.sha256
      (payment s htxid (hspk.trans (by decide)) sig cpk) (spent s htxid) (keyHashScript h160)
      s.inSat := by
  have hout : BitcoinTx.txOut.write ⟨s.outSat, ⟨s.destSpk, hspk.trans (by decide)⟩⟩ =
      outputs s := by
    have hscript := BitcoinTx.write_script_of_lt
      (s := ⟨s.destSpk, hspk.trans (by decide)⟩) hspk
    rw [outputs, List.append_assoc]
    exact congrArg (u64Le s.outSat ++ ·) hscript
  rw [sighash, preimage, BitcoinTx.digest, write_keyHashScript]
  simp only [payment, BitcoinTx.Many.one, List.flatMap_singleton, hout]
  rfl

/-- What the arguments, the card and the last line of a run are to each other. -/
structure Printed (C : Crates) (args : List String) (t : Trace) (acc : Account) (spend : Spend)
    (pk cpk rs sig : Bytes) : Prop where
  hasAccount : account args = .ok acc
  hasSpend : parseSpend args = .ok spend
  hasKey : compress pk = .ok cpk
  hasSignature : witnessSignature rs = .ok sig
  lastLine : ∃ t', t = t' ++ [⟨.print (Hex.encode (rawTx spend sig cpk) ++ "\n"), Except.ok ()⟩]
  signs : ReadsThenSigns acc pk (sighash C spend (hash160 C cpk)) rs (exchanges t)

theorem main_always (C : Crates) {args : List String} (hsign : 3 ≤ args.length) :
    Prog.Always (main C args).run fun t r => ∀ u, r = .ok u →
      ∃ acc spend pk cpk rs sig, Printed C args t acc spend pk cpk rs sig := by
  refine Action.always_ofExcept_bind_of (fun _ _ _ h => nomatch h) fun acc hacc => ?_
  refine Action.always_bind_of (getPubkey_always acc "pubkey") (fun _ _ _ _ h => nomatch h)
    fun first pk hfirst => ?_
  refine Action.always_ofExcept_bind_of (fun _ _ _ h => nomatch h) fun cpk hcpk => ?_
  rw [if_neg (not_lt.mpr hsign)]
  refine Action.always_ofExcept_bind_of (fun _ _ _ h => nomatch h) fun spend hspend => ?_
  refine Action.always_bind_of (sign_always acc _ "card sign") (fun _ _ _ _ h => nomatch h)
    fun second rs hsecond => ?_
  refine Action.always_ofExcept_bind_of (fun _ _ _ h => nomatch h) fun sig hsig => ?_
  refine Prog.Always.mono (printLine_always _ _) fun last r hlast u hr => ?_
  obtain rfl := hlast u hr
  have hex : exchanges (first ++ (second ++ [⟨.print (Hex.encode (rawTx spend sig cpk) ++ "\n"),
      Except.ok ()⟩])) = exchanges first ++ exchanges second := by
    rw [exchanges_append, exchanges_append]
    exact congrArg (exchanges first ++ ·) (List.append_nil _)
  refine ⟨acc, spend, pk, cpk, rs, sig, hacc, hspend, hcpk, hsig, ⟨first ++ second, ?_⟩, ?_⟩
  · rw [List.append_assoc]
  · exact ⟨exchanges first, exchanges second, hex, hfirst pk rfl, hsecond rs rfl⟩

theorem compress_length {pk cpk : Bytes} (h : compress pk = .ok cpk) : cpk.length = 33 := by
  unfold compress at h
  split at h
  · cases h
  · rename_i last hlast
    have hlen : 64 < pk.length := (List.getElem?_eq_some_iff.mp hlast).1
    obtain rfl := Except.ok.inj h
    rw [List.length_cons, List.length_take, List.length_drop]
    omega

/-- The printed transaction is the payment of the arguments, and the card has signed its digest
under the key that the witness shows. -/
structure Pays (C : Crates) (spend : Spend) (htxid : spend.txidLe.length = 32)
    (hspk : spend.destSpk.length < 253) (pk rs raw message : Bytes) : Prop where
  reads : ∃ (sig cpk : BitcoinTx.Script) (x : Der.ShortPair),
    BitcoinTx.tx.read raw = some (payment spend htxid (hspk.trans (by decide)) sig cpk, []) ∧
    message = BitcoinTx.digest C.sha256 (payment spend htxid (hspk.trans (by decide)) sig cpk)
      (spent spend htxid) (keyHashScript (hash160 C cpk.val)) spend.inSat ∧
    compress pk = .ok cpk.val ∧ Der.sequence.read sig.val = some (x, [0x01]) ∧
    x.val.1.val = beNat (rs.take 32) ∧ x.val.2.val ≤ Secp256k1.n / 2 ∧
    (x.val.2.val = beNat (rs.drop 32) ∨ x.val.2.val = Secp256k1.n - beNat (rs.drop 32))

/-- Whatever the card answers: when `btc_sign` ends well with the arguments of a payment, the
line that it has printed last is, read as a transaction, that payment, and what the card has
signed is the digest of that transaction. -/
theorem main_pays (C : Crates) (args : List String) (env : Env) (h : Trace)
    (hsign : 3 ≤ args.length) (hok : (Prog.run env (main C args).run h).1 = .ok ()) :
    ∃ acc spend pk rs raw message t', account args = .ok acc ∧ parseSpend args = .ok spend ∧
      (Prog.run env (main C args).run h).2 =
        t' ++ [⟨.print (Hex.encode raw ++ "\n"), Except.ok ()⟩] ∧
      ReadsThenSigns acc pk message rs (exchanges (Prog.run env (main C args).run h).2) ∧
      ∀ (htxid : spend.txidLe.length = 32) (hspk : spend.destSpk.length < 253),
        Pays C spend htxid hspk pk rs raw message := by
  obtain ⟨acc, spend, pk, cpk, rs, sig, hprinted⟩ := (main_always C hsign).run env h () hok
  obtain ⟨t', hline⟩ := hprinted.lastLine
  refine ⟨acc, spend, pk, rs, rawTx spend sig cpk, sighash C spend (hash160 C cpk), t',
    hprinted.hasAccount, hprinted.hasSpend, hline, hprinted.signs, fun htxid hspk => ?_⟩
  obtain ⟨x, hder, hsig, -, hr, hlow, hs⟩ := witnessSignature_lowS hprinted.hasSignature
  have hsig : sig.length < 253 := lt_of_le_of_lt hsig (by decide)
  have hcpk : cpk.length < 253 := by
    rw [compress_length hprinted.hasKey]
    decide
  have hread := read_rawTx_of_lt spend htxid hspk ⟨sig, hsig.trans (by decide)⟩
    ⟨cpk, hcpk.trans (by decide)⟩ hsig hcpk
  exact ⟨_, _, x, hread, sighash_eq C spend (hash160 C cpk) htxid hspk _ _,
    hprinted.hasKey, hder, hr, hlow, hs⟩

/-- The values of SHA-256 in the run, each input and output as a number. -/
def sampleHashes : List (Nat × Nat) := [
    (0x038318535b54105d4a7aae60c08fc45f9687181b4fdfc625bd1a753fa7397fed75, 0x46c7c6c629137b99d0d1c454bc45d5148eeacbecd6e6f33cc100ffbbbf5f97b9),
    (0x7b7b7b7b7b7b7b7b7b7b7b7b7b7b7b7b7b7b7b7b7b7b7b7b7b7b7b7b7b7b7b7b01000000, 0x90afd5334d2add9369222c31252631aaa47d123e3f989a5d7c8162f61bdfda2e),
    (0x90afd5334d2add9369222c31252631aaa47d123e3f989a5d7c8162f61bdfda2e, 0xf3678b0017a6ddbc1f1f544bc41fcfc7513d77d79fceecd5bb3e5a511d3bbe73),
    (0xffffffff, 0xad95131bc0b799c0b1af477fb14fcf26a6a9f76079e48bf090acb7e8367bfd0e),
    (0xad95131bc0b799c0b1af477fb14fcf26a6a9f76079e48bf090acb7e8367bfd0e, 0x3bb13029ce7b1f559ef5e747fcac439f1455a2ec7c5f09b72290795e70665044),
    (0xb882010000000000160014a55476015c13afb8afb92160329a8cde976f1f2e, 0xd2d9f107ab21656f1b09cd40c40c4732705e121016781123d49919d3126788e7),
    (0xd2d9f107ab21656f1b09cd40c40c4732705e121016781123d49919d3126788e7, 0xd7558eb265912dadb4ff44e73e2810c834c47d5220c16d37bbad3a47c8fd621d),
    (0x02000000f3678b0017a6ddbc1f1f544bc41fcfc7513d77d79fceecd5bb3e5a511d3bbe733bb13029ce7b1f559ef5e747fcac439f1455a2ec7c5f09b72290795e706650447b7b7b7b7b7b7b7b7b7b7b7b7b7b7b7b7b7b7b7b7b7b7b7b7b7b7b7b7b7b7b7b010000001976a914a55476015c13afb8afb92160329a8cde976f1f2e88aca086010000000000ffffffffd7558eb265912dadb4ff44e73e2810c834c47d5220c16d37bbad3a47c8fd621d0000000001000000, 0xc43cea37b8144a50a5417b1c73076a0623faf648f5c652f74a7d1ce93a725fdf),
    (0xc43cea37b8144a50a5417b1c73076a0623faf648f5c652f74a7d1ce93a725fdf, 0xef378385835ddcc1d6bae5f32a2a9de209d4a39af61f9e2b3c35fb8fd0fbb27b)]

def sampleCrates : Crates where
  sha256 d := ⟨beBytes 32 ((sampleHashes.lookup (beNat d)).getD 0), beBytes_length 32 _⟩
  ripemd160 _ := ⟨beBytes 20 0xa55476015c13afb8afb92160329a8cde976f1f2e, beBytes_length 20 _⟩
  encodeV0 _ := none

/-- A payment of the card's key to itself. -/
def sampleArgs : List String := ["btc_sign", "sig", "sign",
  "7b7b7b7b7b7b7b7b7b7b7b7b7b7b7b7b7b7b7b7b7b7b7b7b7b7b7b7b7b7b7b7b", "1", "100000",
  "0014a55476015c13afb8afb92160329a8cde976f1f2e", "99000"]

theorem sample_ok : (Prog.run Host.sampleEnv (main sampleCrates sampleArgs).run []).1 = .ok () := by
  decide +kernel

theorem main_pays_sample :
    ∃ acc spend pk rs raw message t', account sampleArgs = .ok acc ∧
      parseSpend sampleArgs = .ok spend ∧
      (Prog.run Host.sampleEnv (main sampleCrates sampleArgs).run []).2 =
        t' ++ [⟨.print (Hex.encode raw ++ "\n"), Except.ok ()⟩] ∧
      ReadsThenSigns acc pk message rs
        (exchanges (Prog.run Host.sampleEnv (main sampleCrates sampleArgs).run []).2) ∧
      ∀ (htxid : spend.txidLe.length = 32) (hspk : spend.destSpk.length < 253),
        Pays sampleCrates spend htxid hspk pk rs raw message :=
  main_pays sampleCrates sampleArgs Host.sampleEnv [] (by decide) sample_ok

end YubiWallet.Chains.Bitcoin
