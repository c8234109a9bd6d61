import YubiWallet.Lib.Rlp

/-! Legacy transactions of Ethereum: the bytes that a signature is for, with the chain id in
them, and the signed transaction. -/
namespace EthereumTx

abbrev Address := { b : List UInt8 // b.length = 20 }

/-- Without a recipient, a contract is created. -/
structure Legacy where
  nonce : Below (256 ^ 8)
  gasPrice : Below (256 ^ 16)
  gasLimit : Below (256 ^ 8)
  recipient : Option Address
  value : Below (256 ^ 32)
  input : Rlp.Payload

def recipient : Format (Option Address) :=
  (Rlp.string.refine fun b => b.val.length = 0 ∨ b.val.length = 20).iso
    (fun b => if h : b.val.val.length = 20 then some ⟨b.val.val, h⟩ else none)
    (fun a => match a with
      | some a => ⟨⟨a.val, by rw [a.property]; decide⟩, Or.inr a.property⟩
      | none => ⟨⟨[], by decide⟩, Or.inl rfl⟩)
    (fun b => by
      obtain ⟨⟨b, hb⟩, hempty | hlen⟩ := b
      · obtain rfl : b = [] := List.length_eq_zero_iff.mp hempty
        rfl
      · simp only [dif_pos hlen])
    (fun a => by
      cases a with
      | none => rfl
      | some a => exact dif_pos a.property)

def body : Format Legacy :=
  ((Rlp.number 8 (by decide)).pair ((Rlp.number 16 (by decide)).pair
    ((Rlp.number 8 (by decide)).pair (recipient.pair
      ((Rlp.number 32 (by decide)).pair Rlp.string))))).iso
    (fun x => ⟨x.1, x.2.1, x.2.2.1, x.2.2.2.1, x.2.2.2.2.1, x.2.2.2.2.2⟩)
    (fun tx => (tx.nonce, tx.gasPrice, tx.gasLimit, tx.recipient, tx.value, tx.input))
    (fun _ => rfl) fun _ => rfl

/-- The fields behind the chain id are empty. -/
def unsignedBody : Format (Legacy × Below (256 ^ 8)) :=
  (body.pair ((Rlp.number 8 (by decide)).pair (Format.marker [0x80, 0x80]))).iso
    (fun x => (x.1, x.2.1)) (fun x => (x.1, x.2, ())) (fun _ => rfl) fun _ => rfl

structure Signed where
  tx : Legacy
  v : Below (256 ^ 32)
  r : Below (256 ^ 32)
  s : Below (256 ^ 32)

def signedBody : Format Signed :=
  (body.pair ((Rlp.number 32 (by decide)).pair ((Rlp.number 32 (by decide)).pair
    (Rlp.number 32 (by decide))))).iso
    (fun x => ⟨x.1, x.2.1, x.2.2.1, x.2.2.2⟩) (fun x => (x.tx, x.v, x.r, x.s)) (fun _ => rfl)
    fun _ => rfl

/-- The chain id and the parity of the signature's point, in one number. -/
def eip155 (chainId : Below (256 ^ 8)) (odd : Bool) : Below (256 ^ 32) :=
  ⟨2 * chainId.val + 35 + odd.toNat, by
    have hc := chainId.property
    have hodd := odd.toNat_le
    have hpow : 2 * 256 ^ 8 + 36 < 256 ^ 32 := by decide
    omega⟩

/-- The number tells the chain and the parity. -/
theorem eip155_inj {c c' : Below (256 ^ 8)} {odd odd' : Bool} (h : eip155 c odd = eip155 c' odd') :
    c = c' ∧ odd = odd' := by
  have hval : 2 * c.val + 35 + odd.toNat = 2 * c'.val + 35 + odd'.toNat :=
    congrArg Subtype.val h
  have hodd : odd = odd' := by
    cases odd <;> cases odd' <;> simp_all <;> omega
  subst hodd
  exact ⟨Subtype.ext (by omega), rfl⟩

/-- What is hashed for the signature on a chain. -/
def signingBytes (tx : Legacy) (chainId : Below (256 ^ 8)) : List UInt8 :=
  Rlp.writeList (unsignedBody.write (tx, chainId))

def signedBytes (x : Signed) : List UInt8 := Rlp.writeList (signedBody.write x)

abbrev Transaction := { x : Signed // (signedBody.write x).length < 2 ^ 64 }

def transaction : Format Transaction := Rlp.list signedBody

theorem write_body_length_le (tx : Legacy) :
    (body.write tx).length ≤ tx.input.val.length + 138 := by
  have hnonce := Rlp.write_number_length_le 8 (by decide) tx.nonce
  have hprice := Rlp.write_number_length_le 16 (by decide) tx.gasPrice
  have hlimit := Rlp.write_number_length_le 8 (by decide) tx.gasLimit
  have hvalue := Rlp.write_number_length_le 32 (by decide) tx.value
  have hinput := Rlp.write_string_length_le tx.input
  have hto : (recipient.write tx.recipient).length ≤ 29 := by
    cases tx.recipient with
    | none => exact (Rlp.write_string_length_le ⟨[], by decide⟩).trans (by simp)
    | some a =>
      refine (Rlp.write_string_length_le _).trans ?_
      rw [a.property]
  change ((Rlp.number 8 _).write tx.nonce ++ ((Rlp.number 16 _).write tx.gasPrice ++
    ((Rlp.number 8 _).write tx.gasLimit ++ (recipient.write tx.recipient ++
      ((Rlp.number 32 _).write tx.value ++ Rlp.string.write tx.input))))).length ≤ _
  simp only [List.length_append]
  omega

theorem write_signedBody (x : Signed) :
    signedBody.write x = body.write x.tx ++ ((Rlp.number 32 (by decide)).write x.v ++
      ((Rlp.number 32 (by decide)).write x.r ++ (Rlp.number 32 (by decide)).write x.s)) := rfl

theorem write_signedBody_length_lt {x : Signed} (h : x.tx.input.val.length < 2 ^ 32) :
    (signedBody.write x).length < 2 ^ 64 := by
  have hbody := write_body_length_le x.tx
  have hv := Rlp.write_number_length_le 32 (by decide) x.v
  have hr := Rlp.write_number_length_le 32 (by decide) x.r
  have hs := Rlp.write_number_length_le 32 (by decide) x.s
  rw [write_signedBody]
  simp only [List.length_append]
  omega

/-- A signed transaction is read back, and nothing else is read as it. -/
theorem read_signedBytes {x : Signed} (h : x.tx.input.val.length < 2 ^ 32) :
    transaction.read (signedBytes x) = some (⟨x, write_signedBody_length_lt h⟩, []) :=
  (transaction.read_eq_nil_iff _ _).mpr rfl

end EthereumTx
