import YubiWallet.Chains.Ethereum
import YubiWallet.Host.Listing
import YubiWallet.Recovery

/-! What `ethereum` broadcasts, read back as a transaction, and whom a node takes for its
sender. -/
namespace YubiWallet.Chains.Ethereum
open Interaction Endian

def chainNumber (c : UInt64) : Below (256 ^ 8) := ⟨c.toNat, c.toNat_lt⟩

def TxLegacy.legacy (tx : TxLegacy) : EthereumTx.Legacy where
  nonce := ⟨tx.nonce.toNat, tx.nonce.toNat_lt⟩
  gasPrice := ⟨tx.gasPrice.val, tx.gasPrice.property⟩
  gasLimit := ⟨tx.gasLimit.toNat, tx.gasLimit.toNat_lt⟩
  recipient := tx.recipient
  value := ⟨tx.value.val, tx.value.property⟩
  input := tx.input

def TxLegacy.signed (tx : TxLegacy) (c : UInt64) (sig : TxSignature) : EthereumTx.Signed :=
  ⟨tx.legacy, EthereumTx.eip155 (chainNumber c) sig.yParity, sig.r, sig.s⟩

/-- What `alloy` documents: a transaction for a chain is hashed and written as EIP-155 has
it. -/
structure Alloy.Documented (A : Alloy) (keccak256 : Bytes → BytesN 32) : Prop where
  signatureHash : ∀ tx c, tx.chainId = some c →
    A.signatureHash tx = keccak256 (EthereumTx.signingBytes tx.legacy (chainNumber c))
  encoded2718 : ∀ tx c sig, tx.chainId = some c →
    A.encoded2718 tx sig = EthereumTx.signedBytes (tx.signed c sig)

/-- A node takes the transaction for one of the key's on the chain: `v` names the chain, `s` is
in the lower half, and the signature on the hash recovers to the key. -/
def SentBy (C : Crates) (x : EthereumTx.Signed) (c : Below (256 ^ 8)) (vk : C.k256.VerifyingKey) :
    Prop :=
  ∃ odd sig, x.v = EthereumTx.eip155 c odd ∧ sig.r = x.r.val ∧ sig.s = x.s.val ∧
    sig.s ≤ Secp256k1.n / 2 ∧
    C.k256.recoverFromPrehash (C.keccak256 (EthereumTx.signingBytes x.tx c)) sig (idByte odd) =
      .ok vk

/-- There is one chain and one sender. -/
theorem SentBy.unique {C : Crates} {x : EthereumTx.Signed} {c c' : Below (256 ^ 8)}
    {vk vk' : C.k256.VerifyingKey} (h : SentBy C x c vk) (h' : SentBy C x c' vk') :
    c' = c ∧ vk' = vk := by
  obtain ⟨odd, ⟨r, s, _, _, _, _⟩, hv, hr, hs, -, hrec⟩ := h
  obtain ⟨odd', ⟨r', s', _, _, _, _⟩, hv', hr', hs', -, hrec'⟩ := h'
  obtain ⟨rfl, rfl⟩ := EthereumTx.eip155_inj (hv'.symm.trans hv)
  obtain rfl : r' = r := hr'.trans hr.symm
  obtain rfl : s' = s := hs'.trans hs.symm
  exact ⟨rfl, Except.ok.inj (hrec'.symm.trans hrec)⟩

/-- The parity that is taken off `v` again. -/
theorem parity_eip155V (odd : Bool) : parity (Eth.eip155V (idByte odd) chainId) = odd := by
  cases odd <;> decide

theorem fromBeBytes_val {b : BytesN 32} {n : Nat} (hb : b.val = beBytes 32 n) (hn : n < 256 ^ 32) :
    (fromBeBytes b).val = n := by
  change beNat b.val = n
  rw [hb, beNat_beBytes hn]

/-- The signature that goes into the transaction makes the key its sender. -/
theorem sentBy_of_signature {C : Crates} (hdoc : C.alloy.Documented C.keccak256) {tx : TxLegacy}
    (hchain : tx.chainId = some chainId) {pubkey : Bytes} {rs : BytesN 64}
    {signed : Eth.EthSignature}
    (h : Eth.ethereumSignature C.k256 pubkey (C.alloy.signatureHash tx) rs chainId = .ok signed) :
    ∃ vk, C.k256.fromSec1Bytes pubkey = .ok vk ∧
      SentBy C (tx.signed chainId (txSignature signed)) (chainNumber chainId) vk := by
  obtain ⟨vk, sig, rid, hvk, -, hrid, hrec, hr, hs, hv⟩ := Eth.ethereumSignature_ok h
  obtain ⟨odd, rfl⟩ := exists_idByte hrid
  have hn : Secp256k1.n < 256 ^ 32 := by decide
  refine ⟨vk, hvk, odd, sig.lowS, ?_, ?_, ?_, sig.lowS_le, ?_⟩
  · change EthereumTx.eip155 (chainNumber chainId) (parity signed.v) = _
    rw [hv, parity_eip155V]
  · rw [Signature.lowS_r]
    exact (fromBeBytes_val hr (sig.r_lt.trans hn)).symm
  · exact (fromBeBytes_val hs (sig.lowS.s_lt.trans hn)).symm
  · rw [hdoc.signatureHash tx chainId hchain] at hrec
    exact hrec

abbrev EthTrace := Interaction.Trace (Op ⊕ Rpc) (Either Op.Ans Rpc.Ans)

def printed (line : String) : Event (Op ⊕ Rpc) (Either Op.Ans Rpc.Ans) :=
  Event.inl ⟨.print (line ++ "\n"), Except.ok ()⟩

/-- A prompt and the line behind it. -/
def prompted (prompt line : String) : Trace :=
  [⟨.print prompt, Except.ok ()⟩, ⟨.readLine, Except.ok line⟩]

/-- What the user has typed, and what it is read as. -/
structure Typing (C : Crates) where
  recipientLine : String
  amountLine : String
  recipient : BytesN 20
  amount : Binary64.Number
  recipient_eq : C.alloy.parseAddress (trim recipientLine) = .ok recipient
  amount_eq : Binary64.parse (trim amountLine) = .ok amount

def Typing.trace {C : Crates} (y : Typing C) : Trace :=
  prompted "Recipient address (0x...): " y.recipientLine ++
    prompted "Amount (ETH): " y.amountLine

theorem weiPerEther_units : weiPerEther.units = 10 ^ 18 * Binary64.scale := by
  have hshift : weiPerEther.shift = 7 + Binary64.places := by
    rw [Binary64.places]
    rfl
  have hmantissa : weiPerEther.mantissa * 2 ^ 7 = 10 ^ 18 := by decide
  rw [Binary64.Magnitude.units, hshift, Nat.pow_add, ← Nat.mul_assoc, hmantissa, Binary64.scale]

theorem weiPerEther_toRat : weiPerEther.toRat = 10 ^ 18 := by
  have hscale : (Binary64.scale : ℚ) ≠ 0 := Nat.cast_ne_zero.mpr Binary64.scale_pos.ne'
  rw [Binary64.Magnitude.toRat, weiPerEther_units, Nat.cast_mul, mul_div_cancel_right₀ _ hscale]
  norm_num

theorem le_scale : 4 * 10 ^ 18 ≤ Binary64.scale := by
  have hplaces : 62 ≤ Binary64.places := by
    rw [Binary64.places]
    decide
  exact le_trans (by decide) (Nat.pow_le_pow_right Nat.two_pos hplaces)

/-- Two roundings and the cast keep an amount within two wei and one part in 2^51. -/
theorem amountWei_close {digits : Nat} {exponent : Int}
    (h : Binary64.decimalValue digits exponent * 10 ^ 18 ≤ 2 ^ 126) :
    |((amountWei ((Binary64.Literal.decimal digits exponent).number false)).val : ℚ) -
      Binary64.decimalValue digits exponent * 10 ^ 18| ≤
        2 + Binary64.decimalValue digits exponent * 10 ^ 18 / 2 ^ 51 := by
  have hscale : 4 * weiPerEther.toRat ≤ Binary64.scale := by
    rw [weiPerEther_toRat]
    exact_mod_cast le_scale
  have hmax : ((2 ^ 128 - 1 : Nat) : ℚ) = 2 ^ 128 - 1 := by norm_num
  rw [Binary64.decimalValue, ← weiPerEther_toRat] at h ⊢
  refine Binary64.toUnsigned_mul_close (Binary64.decimalDen_pos _) (by decide : 128 ≤ 1023)
    (by decide) ?_ hscale ?_
  · rw [weiPerEther_toRat]
    norm_num
  · rw [hmax]
    linarith

/-- Nothing is sent for a negative amount. -/
theorem amountWei_negative (l : Binary64.Literal) : (amountWei (l.number true)).val = 0 := by
  cases l with
  | nan => rfl
  | infinite => rfl
  | decimal digits exponent =>
    rw [amountWei, Binary64.Literal.number]
    cases Binary64.round _ _ with
    | none => rfl
    | some x =>
      change ((Binary64.Number.ofRound true (x.mul weiPerEther)).toUnsigned _) = 0
      cases x.mul weiPerEther <;> rfl

example : ["1", "1.1", "0.07", "-1", "nan"].map
    (fun s => ((Binary64.parse s).map fun x => (amountWei x).val).toOption) =
      [some 1000000000000000000, some 1100000000000000128, some 70000000000000008, some 0, some 0] := by
  decide +kernel

/-- A run that got to its end: the key is read, the node is asked, the user types, the hash of
the transfer is signed, and the transaction is sent. -/
structure Course (C : Crates) (slot : String) (t : EthTrace) where
  acc : Account
  pubkey : Bytes
  sender : BytesN 20
  balance : Below (2 ^ 256)
  nonce : UInt64
  gasPrice : Below (2 ^ 128)
  typing : Typing C
  rs : BytesN 64
  signed : Eth.EthSignature
  pending : Except String (BytesN 32)
  reading : Trace
  signing : Trace
  tx : TxLegacy
  tx_eq : tx = transfer nonce gasPrice typing.recipient (amountWei typing.amount)
  account_eq : ethAccount slot = .ok acc
  reads : ReadsKey acc pubkey (exchanges reading)
  sender_eq : Eth.addressFromPubkey C.keccak256 pubkey = .ok sender
  signs : Signs acc (C.alloy.signatureHash tx).val rs.val (exchanges signing)
  signed_eq : Eth.ethereumSignature C.k256 pubkey (C.alloy.signatureHash tx) rs chainId = .ok signed
  eq : t = (reading.map Event.inl ++
      [printed s!"Sender address (from YubiKey): {Eth.addressToHex sender}"]) ++
    ([Event.inr ⟨.getBalance sender, Except.ok balance⟩,
      Event.inr ⟨.getTransactionCount sender, Except.ok nonce⟩,
      Event.inr ⟨.getGasPrice, Except.ok gasPrice⟩,
      printed (chainStateLine balance nonce gasPrice)] ++
    (typing.trace.map Event.inl ++
    ((printed s!"Signing tx hash {Hex.encode (C.alloy.signatureHash tx).val} on YubiKey..." ::
      signing.map Event.inl) ++
    [printed s!"Signed raw tx: 0x{Hex.encode (C.alloy.encoded2718 tx (txSignature signed))}",
      Event.inr ⟨.sendRawTransaction (C.alloy.encoded2718 tx (txSignature signed)), pending⟩,
      printed (report pending)])))

theorem placeholder : contains ethereumRpcUrl "YOUR_INFURA_PROJECT_ID" = true := by
  decide +kernel

/-- At a placeholder the program stops before it has asked for anything. -/
theorem mainAt_refuses (C : Crates) {url : String} (slot : String)
    (hurl : contains url "YOUR_INFURA_PROJECT_ID" = true) :
    Prog.Always (mainAt C url slot).run fun t r => t = [] ∧ ∃ e, r = .error (.failed e) := by
  refine Action.always_ofExcept_bind_of (fun e he => ?_) fun acc _ => ?_
  · obtain ⟨x, -, rfl⟩ := Outcome.mapError_eq_error_iff.mp he
    exact ⟨rfl, _, rfl⟩
  · rw [Action.always_mapErr, ethereumTransactionWithYubikey, if_pos hurl]
    exact ⟨rfl, _, rfl⟩

/-- The endpoint in the source is one. -/
theorem main_refuses (C : Crates) (slot : String) :
    Prog.Always (main C slot).run fun t r => t = [] ∧ ∃ e, r = .error (.failed e) :=
  mainAt_refuses C slot placeholder

/-- What was sent is read back as one transaction, the one that the user asked for, and a node
takes it for one of the card's key on Sepolia and of no other key or chain. The card has signed
its hash. The value is the typed amount but for the rounding, and nothing for a negative one. -/
structure Sent {C : Crates} {slot : String} {t : EthTrace} (c : Course C slot t) : Prop where
  reads : ∃ (x : EthereumTx.Transaction) (vk : C.k256.VerifyingKey),
    EthereumTx.transaction.read (C.alloy.encoded2718 c.tx (txSignature c.signed)) = some (x, []) ∧
    x.val.tx = {
      nonce := chainNumber c.nonce
      gasPrice := ⟨c.gasPrice.val, c.gasPrice.property⟩
      gasLimit := ⟨21000, by decide⟩
      recipient := some c.typing.recipient
      value := ⟨(amountWei c.typing.amount).val, amount_lt _⟩
      input := ⟨[], by decide⟩ } ∧
    C.k256.fromSec1Bytes c.pubkey = .ok vk ∧
    (∀ chain vk', SentBy C x.val chain vk' ↔ chain = chainNumber chainId ∧ vk' = vk) ∧
    Signs c.acc (C.keccak256 (EthereumTx.signingBytes x.val.tx (chainNumber chainId))).val
      c.rs.val (exchanges c.signing)
  close : ∀ digits exponent,
    Binary64.literal (trim c.typing.amountLine) = some (false, .decimal digits exponent) →
    Binary64.decimalValue digits exponent * 10 ^ 18 ≤ 2 ^ 126 →
    |((amountWei c.typing.amount).val : ℚ) - Binary64.decimalValue digits exponent * 10 ^ 18| ≤
      2 + Binary64.decimalValue digits exponent * 10 ^ 18 / 2 ^ 51
  negative : ∀ l, Binary64.literal (trim c.typing.amountLine) = some (true, l) →
    (amountWei c.typing.amount).val = 0

theorem Course.sent {C : Crates} (hdoc : C.alloy.Documented C.keccak256) {slot : String}
    {t : EthTrace} (c : Course C slot t) : Sent c := by
  have hchain : c.tx.chainId = some chainId := by rw [c.tx_eq]; rfl
  obtain ⟨vk, hvk, hsent⟩ := sentBy_of_signature hdoc hchain c.signed_eq
  have hinput : (c.tx.signed chainId (txSignature c.signed)).tx.input.val.length < 2 ^ 32 := by
    change c.tx.input.val.length < _
    rw [c.tx_eq]
    exact (by decide : 0 < 2 ^ 32)
  have hsigns := c.signs
  rw [hdoc.signatureHash c.tx chainId hchain] at hsigns
  refine ⟨⟨⟨c.tx.signed chainId (txSignature c.signed),
    EthereumTx.write_signedBody_length_lt hinput⟩,
    vk, ?_, ?_, hvk, fun chain vk' => ⟨fun h => hsent.unique h, ?_⟩, hsigns⟩,
    fun digits exponent h hsmall => ?_, fun l h => ?_⟩
  · rw [hdoc.encoded2718 c.tx chainId _ hchain]
    exact EthereumTx.read_signedBytes hinput
  · change c.tx.legacy = _
    rw [c.tx_eq]
    rfl
  · rintro ⟨rfl, rfl⟩
    exact hsent
  · rw [Binary64.parse_of_literal h c.typing.amount_eq]
    exact amountWei_close hsmall
  · rw [Binary64.parse_of_literal h c.typing.amount_eq]
    exact amountWei_negative l

def sampleRecipient : BytesN 20 :=
  ⟨beBytes 20 0x70997970C51812dc3A010C7d01b50e0d17dc79C8, beBytes_length 20 _⟩

def samplePayload : Bytes :=
  [0xEE, 0x07, 0x84, 0x3B, 0x9A, 0xCA, 0x00, 0x82, 0x52, 0x08, 0x94] ++ sampleRecipient.val ++
    [0x88, 0x0D, 0xE0, 0xB6, 0xB3, 0xA7, 0x64, 0x00, 0x00, 0x80, 0x83, 0xAA, 0x36, 0xA7, 0x80, 0x80]

def sampleHash : BytesN 32 :=
  ⟨beBytes 32 0x9113c4f58fd07b87e2177560be8f0f3c4e6ff5053080ab611a57ca2d6d10424e,
    beBytes_length 32 _⟩

def sampleR : Nat := 0x5bca0564101393bf7cb0e7915a26458c18feee0f2e5b25d321a56d24c73ebead
def sampleS : Nat := 0xf269fb78c25688686ad478542d2bb995df5bbceb06ad43fa6b8d338e69318f85

/-- The key that recovery id 1 gives. -/
def otherKey : Bytes := 0x04 ::
  (beBytes 32 0xcf9c842ca9f2bdee0c4e07102f12cea5cb458458c86b555ab5eb622529993fb4 ++
    beBytes 32 0xe83edc7a9ceefcba76e41551fb002a98bfc712c43d7a4511e9853b229f34e846)

/-- The hash function and the curve arithmetic on the sample, as tables. -/
def sampleKeccak (b : Bytes) : BytesN 32 :=
  if b = samplePayload then sampleHash else Host.hardhatCrates.keccak256 b

def sampleK256 : K256 where
  VerifyingKey := Bytes
  fromSec1Bytes b := if b = Eth.hardhatKey then .ok Eth.hardhatKey else .error "signature error"
  recoverFromPrehash hash sig rid :=
    if hash = sampleHash ∧ sig.r = sampleR ∧ sig.s = Secp256k1.n - sampleS then
      if rid = 0 then .ok Eth.hardhatKey else if rid = 1 then .ok otherKey
      else .error "signature error"
    else .error "signature error"
  signatureError := "signature error"

def sampleCrates : Crates where
  keccak256 := sampleKeccak
  k256 := sampleK256
  alloy := {
    parseUrl := fun _ => .ok ()
    parseAddress := fun s =>
      if s = "0x70997970C51812dc3A010C7d01b50e0d17dc79C8" then .ok sampleRecipient
      else .error "invalid string length"
    signatureHash := fun tx =>
      sampleKeccak (EthereumTx.signingBytes tx.legacy (chainNumber (tx.chainId.getD 0)))
    encoded2718 := fun tx sig => EthereumTx.signedBytes (tx.signed (tx.chainId.getD 0) sig) }

/-- What the user types behind a prompt. -/
def sampleLine (prompt : String) : String :=
  if prompt = "Recipient address (0x...): " then "0x70997970C51812dc3A010C7d01b50e0d17dc79C8\n"
  else if prompt = "Amount (ETH): " then "1\n"
  else "123456\n"

def sampleEnv : Interaction.Env (Op ⊕ Rpc) (Either Op.Ans Rpc.Ans) := fun h op =>
  match op with
  | .inl .readLine =>
    match h.getLast? with
    | some ⟨.inl (.print prompt), _⟩ => Except.ok (sampleLine prompt)
    | _ => Except.error "end of file"
  | .inl (.transmit command bufLen) =>
    if command.getD 1 0 = Apdu.insPso then
      Except.ok (beBytes 32 sampleR ++ beBytes 32 sampleS ++ [0x90, 0x00])
    else Host.sampleEnv [] (.transmit command bufLen)
  | .inl op => Host.sampleEnv [] op
  | .inr (.getBalance _) => Except.ok ⟨2 * 10 ^ 18, by decide⟩
  | .inr (.getTransactionCount _) => Except.ok 7
  | .inr .getGasPrice => Except.ok ⟨10 ^ 9, by decide⟩
  | .inr (.sendRawTransaction _) => Except.ok (.fill 32 0)

theorem sample_ok :
    (Prog.run sampleEnv (mainAt sampleCrates "http://127.0.0.1:8545" "sig").run []).1 = .ok () := by
  decide +kernel

end YubiWallet.Chains.Ethereum
