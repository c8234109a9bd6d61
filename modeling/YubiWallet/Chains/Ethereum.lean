import YubiWallet.Chains.Signer
import YubiWallet.Cli.Commands
import YubiWallet.Lib.Binary64
import YubiWallet.Lib.EthereumTx
import YubiWallet.Lib.Worlds

/-! The program `ethereum`: a transfer that a key in an OpenPGP slot signs. The crate `alloy`
speaks to the node and writes the transaction. -/
namespace YubiWallet.Chains.Ethereum
open Interaction Endian
open Cli (CliM Stop)

/-- The methods of the provider. -/
inductive Rpc where
  | getBalance (addr : BytesN 20)
  | getTransactionCount (addr : BytesN 20)
  | getGasPrice
  | sendRawTransaction (raw : Bytes)
deriving DecidableEq

def Rpc.Ans : Rpc → Type
  | .getBalance _ => Except String (Below (2 ^ 256))
  | .getTransactionCount _ => Except String UInt64
  | .getGasPrice => Except String (Below (2 ^ 128))
  | .sendRawTransaction _ => Except String (BytesN 32)

abbrev EthM := Action (Op ⊕ Rpc) (Either Op.Ans Rpc.Ans) Stop

/-- The computer with the card. -/
def here {α : Type} (p : CliM α) : EthM α := Action.inl p

def println (line : String) : EthM Unit := here (Cli.println line)

def request (op : Rpc) : Interaction.Prog (Op ⊕ Rpc) (Either Op.Ans Rpc.Ans) op.Ans :=
  Interaction.Prog.request op

/-- `.await?` -/
def demand {α : Type}
    (p : Interaction.Prog (Op ⊕ Rpc) (Either Op.Ans Rpc.Ans) (Except String α)) : EthM α :=
  Action.demand .failed p

def orFail {α : Type} (r : Except String α) : EthM α := Action.ofExcept (r.mapError .failed)

/-- `r?` where the error is one of the library. -/
def orError {α : Type} (r : Except Error α) : EthM α :=
  Action.ofExcept (r.mapError fun e => .failed e.display)

def withCard {α : Type} (p : CardM α) : EthM α :=
  here (Action.mapErr (fun e => .failed e.display) p)

structure TxLegacy where
  chainId : Option UInt64
  nonce : UInt64
  gasPrice : Below (2 ^ 128)
  gasLimit : UInt64
  recipient : Option (BytesN 20)
  value : Below (2 ^ 256)
  input : Rlp.Payload

/-- `alloy::primitives::Signature` -/
structure TxSignature where
  r : Below (256 ^ 32)
  s : Below (256 ^ 32)
  yParity : Bool

structure Alloy where
  parseUrl : String → Except String Unit
  parseAddress : String → Except String (BytesN 20)
  signatureHash : TxLegacy → BytesN 32
  encoded2718 : TxLegacy → TxSignature → Bytes

structure Crates where
  keccak256 : Bytes → BytesN 32
  k256 : K256
  alloy : Alloy

def ethereumRpcUrl : String := "https://sepolia.infura.io/v3/YOUR_INFURA_PROJECT_ID"

def chainId : UInt64 := 11155111

-- irreducible, like the account below: no proof about runs looks into these texts
@[irreducible] def contains (s pat : String) : Bool := pat.toList <:+: s.toList

def readLine (prompt : String) : CliM String := do
  match ← perform (.print prompt) with
  | .error e => throw (.failed e)
  | .ok () =>
    match ← perform .readLine with
    | .error e => throw (.failed e)
    | .ok s => pure (trim s)

@[irreducible] def ethAccount (slot : String) : Except Error Account := do
  let slot ← parseSlot .openPgp slot
  pure ⟨.openPgp, slot, .secp256k1⟩

/-- `U256::from_be_bytes` -/
def fromBeBytes (b : BytesN 32) : Below (256 ^ 32) :=
  ⟨beNat b.val, by
    have h := beNat_lt b.val
    rwa [b.property] at h⟩

theorem weiPerEther_lt : 7812500000000000 < 2 ^ 53 := by decide

theorem weiPerEther_shift : 1081 ≤ 2045 := by decide

theorem weiPerEther_normal : 1081 = 0 ∨ 2 ^ 52 ≤ 7812500000000000 := by decide

/-- The literal `1e18`. -/
def weiPerEther : Binary64.Magnitude :=
  ⟨7812500000000000, 1081, weiPerEther_lt, weiPerEther_shift, weiPerEther_normal⟩

theorem castU128_lt (x : Binary64.Number) : x.toUnsigned (2 ^ 128 - 1) < 2 ^ 128 :=
  (x.toUnsigned_le _).trans_lt (by decide)

/-- `as u128` -/
def castU128 (x : Binary64.Number) : Below (2 ^ 128) := ⟨x.toUnsigned (2 ^ 128 - 1), castU128_lt x⟩

def amountWei (amount : Binary64.Number) : Below (2 ^ 128) :=
  castU128 (amount.mul (.finite false weiPerEther))

theorem amount_lt (amount : Below (2 ^ 128)) : amount.val < 2 ^ 256 :=
  amount.property.trans (by decide)

theorem noInput_lt : ([] : Bytes).length < 2 ^ 64 := Nat.two_pow_pos 64

def transfer (nonce : UInt64) (gasPrice : Below (2 ^ 128)) (recipient : BytesN 20)
    (amountWei : Below (2 ^ 128)) : TxLegacy where
  chainId := some chainId
  nonce
  gasPrice
  gasLimit := 21000
  recipient := some recipient
  value := ⟨amountWei.val, amount_lt amountWei⟩
  input := ⟨[], noInput_lt⟩

/-- The arithmetic of `u64`, which wraps around. -/
def parity (v : UInt64) : Bool := v - chainId * 2 - 35 = 1

def txSignature (signed : Eth.EthSignature) : TxSignature :=
  ⟨fromBeBytes signed.r, fromBeBytes signed.s, parity signed.v⟩

def fetchSender (C : Crates) (account : Account) : EthM (Bytes × BytesN 20) := do
  let pubkey ← withCard (getPubkey account)
  let sender ← orError (Eth.addressFromPubkey C.keccak256 pubkey)
  println s!"Sender address (from YubiKey): {Eth.addressToHex sender}"
  pure (pubkey, sender)

def chainStateLine (balance : Below (2 ^ 256)) (nonce : UInt64) (gasPrice : Below (2 ^ 128)) :
    String :=
  s!"Balance: {balance.val} wei | nonce: {nonce} | gas price: {gasPrice.val} wei"

def queryChainState (C : Crates) (url : String) (sender : BytesN 20) :
    EthM (UInt64 × Below (2 ^ 128)) := do
  let () ← orFail (C.alloy.parseUrl url)
  let balance ← demand (request (.getBalance sender))
  let nonce ← demand (request (.getTransactionCount sender))
  let gasPrice ← demand (request .getGasPrice)
  println (chainStateLine balance nonce gasPrice)
  pure (nonce, gasPrice)

def buildTransaction (C : Crates) (nonce : UInt64) (gasPrice : Below (2 ^ 128)) :
    EthM TxLegacy := do
  let recipient ← here (readLine "Recipient address (0x...): ")
  let recipient ← orFail (C.alloy.parseAddress recipient)
  let amount ← here (readLine "Amount (ETH): ")
  let amount ← orFail (Binary64.parse amount)
  pure (transfer nonce gasPrice recipient (amountWei amount))

def signHash (account : Account) (txHash : BytesN 32) : EthM (BytesN 64) := do
  println s!"Signing tx hash {Hex.encode txHash.val} on YubiKey..."
  let rs ← withCard (sign account txHash.val)
  orFail ((toArray 64 rs).elim (.error "expected 64-byte R||S") .ok)

/-- The last line, for what the node has answered. -/
def report : Except String (BytesN 32) → String
  | .ok hash => s!"Broadcast! tx hash: 0x{Hex.encode hash.val}"
  | .error e => s!"Broadcast failed: {e}"

def broadcast (C : Crates) (tx : TxLegacy) (signed : Eth.EthSignature) : EthM Unit := do
  let raw := C.alloy.encoded2718 tx (txSignature signed)
  println s!"Signed raw tx: 0x{Hex.encode raw}"
  let pending ← liftM (request (.sendRawTransaction raw))
  println (report pending)

def send (C : Crates) (url : String) (account : Account) : EthM Unit := do
  let (pubkey, sender) ← fetchSender C account
  let (nonce, gasPrice) ← queryChainState C url sender
  let tx ← buildTransaction C nonce gasPrice
  let txHash := C.alloy.signatureHash tx
  let rs ← signHash account txHash
  let signed ← orError (Eth.ethereumSignature C.k256 pubkey txHash rs chainId)
  broadcast C tx signed

def ethereumTransactionWithYubikey (C : Crates) (url : String) (account : Account) : EthM Unit :=
  if contains url "YOUR_INFURA_PROJECT_ID" then
    throw (.failed "Set ETHEREUM_RPC_URL to a real RPC endpoint first.")
  else send C url account

def operationFailed : Stop → Stop
  | .failed e => .failed s!"Operation failed: {e}"
  | .panicked e => .panicked e

/-- The program with an endpoint. The error is the line on the standard error output. -/
def mainAt (C : Crates) (url slot : String) : EthM Unit := do
  let account ← Action.ofExcept ((ethAccount slot).mapError fun e =>
    .failed s!"Invalid account selection: {e.display}")
  Action.mapErr operationFailed (ethereumTransactionWithYubikey C url account)

def main (C : Crates) (slot : String) : EthM Unit := mainAt C ethereumRpcUrl slot

end YubiWallet.Chains.Ethereum
