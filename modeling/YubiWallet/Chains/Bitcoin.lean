import YubiWallet.Chains.Signer
import YubiWallet.Lib.BitcoinTx
import YubiWallet.Lib.Der

/-! The program `btc_sign`: it spends one P2WPKH output to one script. -/
namespace YubiWallet.Chains.Bitcoin
open Interaction Endian

/-- The hash functions, and the address of a witness program of version 0. -/
structure Crates where
  sha256 : Bytes → BytesN 32
  ripemd160 : Bytes → BytesN 20
  encodeV0 : Bytes → Option String

def sha256d (C : Crates) (d : Bytes) : BytesN 32 := C.sha256 (C.sha256 d).val

def hash160 (C : Crates) (d : Bytes) : BytesN 20 := C.ripemd160 (C.sha256 d).val

/-- The X coordinate behind the parity of Y. -/
def compress (pk65 : Bytes) : Except Panic Bytes :=
  match pk65[64]? with
  | none => .error .index
  | some last => .ok ((if last &&& 1 = 0 then 0x02 else 0x03) :: (pk65.drop 1).take 32)

/-- The arguments behind `sign`. -/
structure Spend where
  txidLe : Bytes
  vout : UInt32
  inSat : UInt64
  destSpk : Bytes
  outSat : UInt64

def parseSpend (args : List String) : Except Panic Spend := do
  let txid ← argument args 3
  let txid ← expect "txid" (Hex.decode txid)
  let vout ← argument args 4
  let vout ← expectSome "vout" (parseUnsigned (2 ^ 32) vout)
  let inSat ← argument args 5
  let inSat ← expectSome "in_sat" (parseUnsigned (2 ^ 64) inSat)
  let destSpk ← argument args 6
  let destSpk ← expect "dest_spk" (Hex.decode destSpk)
  let outSat ← argument args 7
  let outSat ← expectSome "out_sat" (parseUnsigned (2 ^ 64) outSat)
  pure ⟨txid.reverse, UInt32.ofNat vout, UInt64.ofNat inSat, destSpk, UInt64.ofNat outSat⟩

/-- `to_le_bytes` -/
def u32Le (x : UInt32) : Bytes := leBytes 4 x.toNat
def u64Le (x : UInt64) : Bytes := leBytes 8 x.toNat

def version : UInt32 := 2
def sequence : UInt32 := 0xFFFFFFFF
def locktime : UInt32 := 0

def outpoint (s : Spend) : Bytes := s.txidLe ++ u32Le s.vout

def scriptCode (h160 : BytesN 20) : Bytes := [0x19, 0x76, 0xA9, 0x14] ++ h160.val ++ [0x88, 0xAC]

/-- The length of the script is cut to one byte, whatever it is. -/
def outputs (s : Spend) : Bytes :=
  u64Le s.outSat ++ [UInt8.ofNat s.destSpk.length] ++ s.destSpk

def preimage (C : Crates) (s : Spend) (h160 : BytesN 20) : Bytes :=
  u32Le version ++ (sha256d C (outpoint s)).val ++ (sha256d C (u32Le sequence)).val ++
    outpoint s ++ scriptCode h160 ++ u64Le s.inSat ++ u32Le sequence ++
    (sha256d C (outputs s)).val ++ u32Le locktime ++ u32Le 1

def sighash (C : Crates) (s : Spend) (h160 : BytesN 20) : Bytes :=
  (sha256d C (preimage C s h160)).val

/-- `Signature::to_der` -/
def toDer (sig : Signature) : Bytes :=
  let integer (n : Nat) : Bytes := 0x02 :: UInt8.ofNat (Der.content n).length :: Der.content n
  let body := integer sig.r ++ integer sig.s
  0x30 :: UInt8.ofNat body.length :: body

/-- The signature as the network wants it, in low-S form and with its type, SIGHASH_ALL. -/
def witnessSignature (rs : Bytes) : Except Panic Bytes :=
  match (toArray 64 rs).bind Signature.fromSlice with
  | none => .error (.expect "signature")
  | some sig => .ok (toDer (sig.normalizeS.getD sig) ++ [0x01])

def rawTx (s : Spend) (sig cpk : Bytes) : Bytes :=
  u32Le version ++ [0x00] ++ [0x01] ++ [0x01] ++ outpoint s ++ [0x00] ++ u32Le sequence ++
    [0x01] ++ u64Le s.outSat ++ [UInt8.ofNat s.destSpk.length] ++ s.destSpk ++
    [0x02] ++ [UInt8.ofNat sig.length] ++ sig ++ [UInt8.ofNat cpk.length] ++ cpk ++ u32Le locktime

def showAddress (C : Crates) (cpk : Bytes) : MainM Unit := do
  let addr ← Action.ofExcept (expectSome "valid v0 witness program" (C.encodeV0 (hash160 C cpk).val))
  println s!"addr={addr}"
  println s!"cpk={Hex.encode cpk}"

def signSpend (C : Crates) (acc : Account) (cpk : Bytes) (args : List String) : MainM Unit := do
  let spend ← Action.ofExcept (parseSpend args)
  let rs ← expectCard "card sign" (sign acc (sighash C spend (hash160 C cpk)))
  let sig ← Action.ofExcept (witnessSignature rs)
  println (Hex.encode (rawTx spend sig cpk))

/-- The account of the first argument. -/
def account (args : List String) : Except Panic Account := do
  let slot ← argument args 1
  let slot ← expect "slot" (parseSlot .openPgp slot)
  pure ⟨.openPgp, slot, .secp256k1⟩

/-- The second argument is not looked at: it is enough that it is there. -/
def main (C : Crates) (args : List String) : MainM Unit := do
  let acc ← Action.ofExcept (account args)
  let pk ← expectCard "pubkey" (getPubkey acc)
  let cpk ← Action.ofExcept (compress pk)
  if args.length < 3 then showAddress C cpk else signSpend C acc cpk args

end YubiWallet.Chains.Bitcoin
