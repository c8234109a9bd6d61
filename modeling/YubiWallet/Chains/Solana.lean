import YubiWallet.Chains.Signer
import YubiWallet.Base58
import YubiWallet.Lib.Worlds
import YubiWallet.Lib.SolanaTx
import YubiWallet.Standard64

/-! The program `sol_surfpool`: it has a node fund the account of a PIV slot, and sends a
transfer from it. It speaks JSON-RPC over a plain TCP socket. -/
namespace YubiWallet.Chains.Solana
open Interaction Endian

/-- The socket that was connected last, and the clock. -/
inductive Net where
  | connect (addr : String)
  | writeAll (bytes : Bytes)
  | readToString
  | sleep (secs : Nat)
deriving DecidableEq

def Net.Ans : Net → Type
  | .connect _ => Except String Unit
  | .writeAll _ => Except String Unit
  | .readToString => Except String String
  | .sleep _ => Unit

abbrev SolM := Action (Op ⊕ Net) (Either Op.Ans Net.Ans) Panic

/-- The computer with the card. -/
def here {α : Type} (p : MainM α) : SolM α := Action.inl p

abbrev SolProg := Interaction.Prog (Op ⊕ Net) (Either Op.Ans Net.Ans)

def perform (op : Net) : SolProg op.Ans := Interaction.Prog.request op

/-- An operation of the network, and a panic when it fails. -/
def demand {α : Type} (what : String) (p : SolProg (Except String α)) : SolM α :=
  Action.demand (fun _ => .expect what) p

def defaultAddr : String := "127.0.0.1:8899"

def requestBody (method params : String) : String :=
  "\x7b\"jsonrpc\":\"2.0\",\"id\":1,\"method\":\"" ++ method ++ "\",\"params\":" ++ params ++ "\x7d"

def request (addr body : String) : String :=
  "POST / HTTP/1.1\r\nHost: " ++ addr ++ "\r\nContent-Type: application/json\r\nContent-Length: " ++
    toString (asBytes body).length ++ "\r\nConnection: close\r\n\r\n" ++ body

/-- `split_once` -/
def splitOnce (s sep : String) : Option (String × String) :=
  (Window.splitOnce sep.toList s.toList).map fun x => (String.ofList x.1, String.ofList x.2)

def responseBody (resp : String) : String :=
  ((splitOnce resp "\r\n\r\n").map Prod.snd).getD ""

def rpc (method params : String) : SolM String := do
  let addr ← here (liftM (YubiWallet.perform (.envVar "SOLANA_RPC")))
  let addr := addr.getD defaultAddr
  let req := request addr (requestBody method params)
  let () ← demand "connect to Solana RPC" (perform (.connect addr))
  let () ← demand "unwrap" (perform (.writeAll (asBytes req)))
  let resp ← demand "unwrap" (perform .readToString)
  pure (responseBody resp)

/-- What stands behind the first `"key":"`, up to the next quotation mark. -/
def jsonStr (body key : String) : Option String :=
  (splitOnce body ("\"" ++ key ++ "\":\"")).bind fun x =>
    (splitOnce x.2 "\"").map Prod.fst

/-- The bytes for `n` are pushed behind `out`. -/
def compactU16 (n : Nat) (out : Bytes) : Bytes :=
  if n >>> 7 ≠ 0 then compactU16 (n >>> 7) (out ++ [UInt8.ofNat (n &&& 0x7F) ||| 0x80])
  else out ++ [UInt8.ofNat (n &&& 0x7F)]
termination_by n
decreasing_by
  rename_i h
  rw [Nat.shiftRight_eq_div_pow] at h ⊢
  omega

def b58 (s : String) : Except Panic (BytesN 32) := do
  let b ← expectSome "base58" (Bs58.decode s)
  expectSome "32 bytes" (toArray 32 b)

def systemProgram : BytesN 32 := BytesN.fill 32 0

def recipientB58 : String := "So11111111111111111111111111111111111111112"

/-- The instruction: a transfer of 1000 lamports. -/
def transferData : Bytes := [2, 0, 0, 0] ++ leBytes 8 1000

def message (fromKey toKey blockhash : BytesN 32) : Bytes :=
  let msg := compactU16 3 [1, 0, 1]
  let msg := msg ++ fromKey.val ++ toKey.val ++ systemProgram.val ++ blockhash.val
  let msg := compactU16 1 msg ++ [2]
  let msg := compactU16 2 msg ++ [0, 1]
  compactU16 transferData.length msg ++ transferData

def rawTx (sig msg : Bytes) : Bytes := compactU16 1 [] ++ sig ++ msg

/-- The account of the first argument. -/
def account (args : List String) : Except Panic (String × Account) := do
  let slotStr ← expectSome "arg1=slot (e.g. 9a)" args[1]?
  let slot ← expect "slot" (parseSlot .piv slotStr)
  pure (slotStr, ⟨.piv, slot, .ed25519⟩)

def airdropParams (fromB58 : String) : String := "[\"" ++ fromB58 ++ "\", 1000000000]"

def sendParams (txB64 : String) : String :=
  "[\"" ++ txB64 ++ "\", \x7b\"encoding\":\"base64\"\x7d]"

/-- The line for what the node answered. -/
def report (slotStr fromB58 send : String) : String :=
  match jsonStr send "result" with
  | some s => "slot " ++ slotStr ++ " " ++ fromB58 ++ " BROADCAST_OK tx=" ++ s
  | none => "slot " ++ slotStr ++ " " ++ fromB58 ++ " ERR " ++ trim send

def main (args : List String) : SolM Unit := do
  let (slotStr, acc) ← Action.ofExcept (account args)
  let pk ← here (expectCard "pubkey" (getPubkey acc))
  let fromKey ← Action.ofExcept (expectSome "unwrap" (toArray 32 pk))
  let fromB58 := Bs58.encode fromKey.val
  let toKey ← Action.ofExcept (b58 recipientB58)
  let _ ← rpc "requestAirdrop" (airdropParams fromB58)
  let () ← liftM (perform (.sleep 8))
  let bhResp ← rpc "getLatestBlockhash" "[]"
  let blockhash ← Action.ofExcept (expectSome "blockhash" (jsonStr bhResp "blockhash"))
  let blockhash ← Action.ofExcept (b58 blockhash)
  let msg := message fromKey toKey blockhash
  let sig ← here (expectCard "card sign" (sign acc msg))
  let send ← rpc "sendTransaction" (sendParams (Standard64.encode (rawTx sig msg)))
  here (println (report slotStr fromB58 send))

end YubiWallet.Chains.Solana
