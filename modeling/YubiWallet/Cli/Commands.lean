import YubiWallet.Cli
import YubiWallet.Eth
import YubiWallet.Calls

/-! The subcommands of the command line. -/
namespace YubiWallet.Cli
open Interaction

inductive Command where
  | list
  | address (args : AccountArgs)
  | sshToSolana (sshKey : Option String)

/-- How a run ends early: with an error, or in a panic. -/
inductive Stop where
  | failed (e : String)
  | panicked (e : String)
deriving DecidableEq

/-- What the commands use of other crates. -/
structure Crates where
  keccak256 : Bytes → BytesN 32
  base64Error : Bytes → String

abbrev CliM := Action Op Op.Ans Stop

def println (line : String) : CliM Unit :=
  printLine (fun e => .panicked s!"failed printing to stdout: {e}") line

/-- `r?` in a function whose error is a text. -/
def orFail {α : Type} (r : Except String α) : CliM α := Action.ofExcept (r.mapError .failed)

def formatAddress (C : Crates) (curve : Curve) (pubkey : Bytes) : Except String String :=
  match curve with
  | .ed25519 => .ok s!"Solana: {Bs58.encode pubkey}"
  | .secp256k1 =>
    match Eth.addressFromPubkey C.keccak256 pubkey with
    | .ok addr => .ok s!"Ethereum: {Eth.addressToHex addr}"
    | .error e => .error e.display

/-- A slot of the OpenPGP applet, with the key that is in it. -/
def listSlot (C : Crates) (name : String) (slot : UInt8) : CliM Unit := do
  println s!"OpenPGP ({name} slot):"
  match ← (Openpgp.detectAccount slot).run with
  | .ok (curve, pk) => do
    let address ← orFail (formatAddress C curve pk)
    println s!"  {address}  ({Hex.encode pk})"
  | .error e => println s!"  (none: {e.display})"

/-- The loop over the PIV slots; the result is `found`. -/
def listPivSlots : List Piv.SlotInfo → Nat → CliM Nat
  | [], found => pure found
  | info :: infos, found =>
    match info.ed25519Pubkey with
    | some pk => do
      println s!"  slot {fmtHash04x info.slot}  Solana: {Bs58.encode pk.val}  ({Hex.encode pk.val})"
      listPivSlots infos (found + 1)
    | none => listPivSlots infos found

def list (C : Crates) : CliM Unit := do
  listSlot C "SIG" OpenpgpSlot.sig
  listSlot C "AUT" OpenpgpSlot.aut
  println "PIV slots (Ed25519 → Solana):"
  let infos ← Action.mapErr (fun e => .failed e.display) Piv.listAccounts
  let found ← listPivSlots infos 0
  if found = 0 then
    println "  (none — generate one, e.g. `ykman piv keys generate -a ED25519 9a ...`)"
  else pure ()

def address (C : Crates) (args : AccountArgs) : CliM Unit := do
  let account ← orFail args.toAccount
  let pubkey ← Action.mapErr (fun e => .failed e.display) (getPubkey account)
  println s!"Public key: {Hex.encode pubkey}"
  let text ← orFail (formatAddress C account.curve pubkey)
  println text

/-- A line without its end, `\n` or `\r\n`. -/
def stripNewline (line : List Char) : List Char :=
  match line.reverse with
  | '\n' :: '\r' :: rest => rest.reverse
  | '\n' :: rest => rest.reverse
  | _ => line

/-- The first of the lines of the standard input. Nothing is read at its end. -/
def readKey : CliM String := do
  match ← perform .readLine with
  | .error e => throw (.failed e)
  | .ok line =>
    if line.isEmpty then throw (.failed "no input provided")
    else pure (String.ofList (stripNewline line.toList))

def keyOrLine : Option String → CliM String
  | some key => pure key
  | none => readKey

def sshToSolana (C : Crates) (sshKey : Option String) : CliM Unit := do
  let key ← keyOrLine sshKey
  let text ← orFail (sshEd25519ToSolana C.base64Error key)
  println text

def run (C : Crates) : Command → CliM Unit
  | .list => list C
  | .address args => address C args
  | .sshToSolana sshKey => sshToSolana C sshKey

def printed? (e : Event Op Op.Ans) : Option String :=
  match e.op with
  | .print text => some text
  | _ => none

def printed (t : Trace) : List String := t.filterMap printed?

theorem printed?_of_readsCard (e : Event Op Op.Ans) (h : ReadsCard e.op) : printed? e = none := by
  obtain ⟨op, x⟩ := e
  cases op <;> first | rfl | cases h

theorem orFail_only {P : Op → Prop} {α : Type} (r : Except String α) :
    Prog.Only P (orFail r).run := Action.only_ofExcept _

end YubiWallet.Cli
