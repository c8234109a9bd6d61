import YubiWallet.Lib.Varint

/-! Solana transactions of the legacy kind: their serialization, which accounts of a message
sign and which may change, and the transfers that a message asks for. -/
namespace SolanaTx
open Format

/-- A vector whose length is written in base 128. -/
abbrev Short (α : Type) := { as : List α // as.length < 2 ^ 16 }

def shortLength : Format (Below (2 ^ 16)) := Varint.format.refine (· < 2 ^ 16)

@[simp] theorem write_shortLength (n : Below (2 ^ 16)) :
    shortLength.write n = Varint.write n.val := rfl

theorem read_shortLength_iff (n : Nat) (rest : List UInt8) :
    (∃ k rest', shortLength.read (Varint.write n ++ rest) = some (k, rest')) ↔ n < 2 ^ 16 := by
  constructor
  · intro h
    obtain ⟨k, rest', hread⟩ := h
    have hwrite := (shortLength.read_iff _ _ _).mp hread
    obtain ⟨rfl, -⟩ := Varint.format.write_prefix_free hwrite
    exact k.property
  · intro h
    exact ⟨⟨n, h⟩, rest, shortLength.read_write ⟨n, h⟩ rest⟩

def short {α : Type} (F : Format α) : Format (Short α) := shortLength.counted F

theorem write_short {α : Type} (F : Format α) (as : Short α) :
    (short F).write as = Varint.write as.val.length ++ as.val.flatMap F.write :=
  write_counted shortLength F as

theorem write_short_byte (b : Short UInt8) :
    (short byte).write b = Varint.write b.val.length ++ b.val :=
  write_counted_byte shortLength b

abbrev Key := { b : List UInt8 // b.length = 32 }

abbrev Signature := { b : List UInt8 // b.length = 64 }

/-- The accounts that sign come first. Of both kinds the last ones are read only. -/
structure Header where
  requiredSignatures : UInt8
  readonlySigned : UInt8
  readonlyUnsigned : UInt8

structure Instruction where
  program : UInt8
  accounts : Short UInt8
  data : Short UInt8

structure Message where
  header : Header
  accountKeys : Short Key
  recentBlockhash : Key
  instructions : Short Instruction

structure Tx where
  signatures : Short Signature
  message : Message

def header : Format Header :=
  (byte.pair (byte.pair byte)).iso (fun x => ⟨x.1, x.2.1, x.2.2⟩)
    (fun h => (h.requiredSignatures, h.readonlySigned, h.readonlyUnsigned)) (fun _ => rfl)
    fun _ => rfl

def instruction : Format Instruction :=
  (byte.pair ((short byte).pair (short byte))).iso (fun x => ⟨x.1, x.2.1, x.2.2⟩)
    (fun i => (i.program, i.accounts, i.data)) (fun _ => rfl) fun _ => rfl

/-- The first byte of other kinds of messages has its top bit set. -/
def Message.Legacy (m : Message) : Prop := m.header.requiredSignatures < 128

instance : DecidablePred Message.Legacy := fun m => UInt8.decLt m.header.requiredSignatures 128

def message : Format Message :=
  (header.pair ((short (bytes 32)).pair ((bytes 32).pair (short instruction)))).iso
    (fun x => ⟨x.1, x.2.1, x.2.2.1, x.2.2.2⟩)
    (fun m => (m.header, m.accountKeys, m.recentBlockhash, m.instructions)) (fun _ => rfl)
    fun _ => rfl

def tx : Format Tx :=
  ((short (bytes 64)).pair message).iso (fun x => ⟨x.1, x.2⟩)
    (fun t => (t.signatures, t.message)) (fun _ => rfl) fun _ => rfl

def legacyTx : Format { t : Tx // t.message.Legacy } := tx.refine fun t => t.message.Legacy

theorem write_header (h : Header) :
    header.write h = [h.requiredSignatures, h.readonlySigned, h.readonlyUnsigned] := rfl

theorem write_instruction (i : Instruction) :
    instruction.write i = i.program :: (Varint.write i.accounts.val.length ++ i.accounts.val ++
      (Varint.write i.data.val.length ++ i.data.val)) := by
  rw [← write_short_byte, ← write_short_byte]
  rfl

theorem write_message (m : Message) :
    message.write m = header.write m.header ++
      (Varint.write m.accountKeys.val.length ++ m.accountKeys.val.flatMap Subtype.val ++
        (m.recentBlockhash.val ++ (Varint.write m.instructions.val.length ++
          m.instructions.val.flatMap instruction.write))) := by
  rw [← write_short instruction]
  have hkeys : (short (bytes 32)).write m.accountKeys =
      Varint.write m.accountKeys.val.length ++ m.accountKeys.val.flatMap Subtype.val :=
    write_short (bytes 32) m.accountKeys
  rw [← hkeys]
  rfl

theorem write_tx (t : Tx) :
    tx.write t = Varint.write t.signatures.val.length ++ t.signatures.val.flatMap Subtype.val ++
      message.write t.message := by
  have hsigs : (short (bytes 64)).write t.signatures =
      Varint.write t.signatures.val.length ++ t.signatures.val.flatMap Subtype.val :=
    write_short (bytes 64) t.signatures
  rw [← hsigs]
  rfl

-- the readers are used through `Format.read_iff` only, never unfolded
attribute [irreducible] message tx

/-- The account at this place has to sign. -/
def Message.Signer (m : Message) (i : Nat) : Prop := i < m.header.requiredSignatures.toNat

/-- The account at this place may change. -/
def Message.Writable (m : Message) (i : Nat) : Prop :=
  i < m.header.requiredSignatures.toNat - m.header.readonlySigned.toNat ∨
    m.header.requiredSignatures.toNat ≤ i ∧
      i < m.accountKeys.val.length - m.header.readonlyUnsigned.toNat

/-- What is asked of a message before it is run: the header fits the accounts, the first of
which pays and so may change, and all places exist. -/
structure Message.Sane (m : Message) : Prop where
  fits : m.header.requiredSignatures.toNat + m.header.readonlyUnsigned.toNat ≤
    m.accountKeys.val.length
  pays : m.header.readonlySigned < m.header.requiredSignatures
  noDuplicates : m.accountKeys.val.Nodup
  programs : ∀ i ∈ m.instructions.val, i.program ≠ 0 ∧ i.program.toNat < m.accountKeys.val.length
  accounts : ∀ i ∈ m.instructions.val, ∀ a ∈ i.accounts.val, a.toNat < m.accountKeys.val.length

/-- One signature for each account that has to sign. -/
structure Tx.Sane (t : Tx) : Prop where
  message : t.message.Sane
  signatures : t.signatures.val.length = t.message.header.requiredSignatures.toNat

def systemProgram : Key := ⟨List.replicate 32 0, List.length_replicate⟩

structure Transfer where
  source : Key
  dest : Key
  lamports : UInt64

/-- The number of the instruction, and the amount. -/
def transferData : Format UInt64 :=
  ((marker [2, 0, 0, 0]).pair u64).iso Prod.snd (fun n => ((), n)) (fun _ => rfl) fun _ => rfl

theorem write_transferData (n : UInt64) :
    transferData.write n = [2, 0, 0, 0] ++ Endian.leBytes 8 n.toNat := rfl

/-- The transfer that an instruction asks for, from its first account to its second. -/
def Message.transfer? (m : Message) (i : Instruction) : Option Transfer := do
  let program ← m.accountKeys.val[i.program.toNat]?
  if program = systemProgram then
    let source ← i.accounts.val[0]?.bind (m.accountKeys.val[·.toNat]?)
    let dest ← i.accounts.val[1]?.bind (m.accountKeys.val[·.toNat]?)
    let amount ← transferData.read i.data.val
    pure ⟨source, dest, amount.1⟩
  else none

def Message.transfers (m : Message) : List Transfer :=
  m.instructions.val.filterMap m.transfer?

end SolanaTx
