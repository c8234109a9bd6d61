import YubiWallet.Openpgp
import YubiWallet.Piv

/-! The entry points of the library: the account's applet decides. -/
namespace YubiWallet
open Interaction

def getPubkey (acc : Account) : CardM Bytes :=
  match acc.applet with
  | .openPgp => Openpgp.getPubkey acc
  | .piv => Piv.getPubkey acc

def signDispatch (acc : Account) (message : Bytes) (pin : Option String) : CardM Bytes :=
  match acc.applet with
  | .openPgp => Openpgp.sign acc message pin
  | .piv => Piv.sign acc message pin

/-- Sign with a prompt for the PIN. -/
def sign (acc : Account) (message : Bytes) : CardM Bytes := signDispatch acc message none

def signWithPin (acc : Account) (message : Bytes) (pin : String) : CardM Bytes :=
  signDispatch acc message (some pin)

/-- The account of the older entry points, whose errors are texts. -/
def Account.openpgpSig : Account := ⟨.openPgp, OpenpgpSlot.sig, .ed25519⟩

def getPinFromUser (prompt : String) : Action Op Op.Ans String String :=
  Action.mapErr Error.display (Pin.prompt prompt)

/-- `<[u8; 32]>::try_from` -/
def wholeKey (pk : Bytes) : Except String (BytesN 32) :=
  match toArray 32 pk with
  | some k => .ok k
  | none => .error "could not convert slice to array"

def getPubkeyFromYubikey : Action Op Op.Ans String (BytesN 32) := do
  let pk ← Action.mapErr Error.display (getPubkey .openpgpSig)
  Action.ofExcept (wholeKey pk)

def signWithYubikey (message : Bytes) : Action Op Op.Ans String Bytes :=
  Action.mapErr Error.display (sign .openpgpSig message)

theorem wholeKey_val (k : BytesN 32) : wholeKey k.val = .ok k := by
  have hk : toArray 32 k.val = some k := dif_pos k.property
  rw [wholeKey, hk]

/-- The key has its length already, so that the conversion never fails. -/
theorem run_getPubkeyFromYubikey (env : Env) (h : Trace) :
    (Prog.run env getPubkeyFromYubikey.run h).1.map Subtype.val =
      (Prog.run env (getPubkey .openpgpSig).run h).1.mapError Error.display := by
  have hmapErr : (Prog.run env (Action.mapErr Error.display (getPubkey .openpgpSig)).run h).1 =
      (Prog.run env (getPubkey .openpgpSig).run h).1.mapError Error.display :=
    congrArg Prod.fst (Prog.run_map env _ _ h)
  have hraw : (Prog.run env (getPubkey .openpgpSig).run h).1 =
      (Prog.run env (Openpgp.getPubkeyRaw OpenpgpSlot.sig).run h).1 >>=
        Openpgp.readPubkey .ed25519 := Action.run_bind_ofExcept env _ _ h
  unfold getPubkeyFromYubikey
  rw [Action.run_bind_ofExcept, hmapErr, hraw]
  cases (Prog.run env (Openpgp.getPubkeyRaw OpenpgpSlot.sig).run h).1 with
  | error e => rfl
  | ok raw =>
    change (((Openpgp.extractEd25519Pubkey raw).map Subtype.val).mapError Error.display >>=
      wholeKey).map Subtype.val =
        ((Openpgp.extractEd25519Pubkey raw).map Subtype.val).mapError Error.display
    cases Openpgp.extractEd25519Pubkey raw with
    | error e => rfl
    | ok k => exact congrArg (Except.map Subtype.val) (wholeKey_val k)

end YubiWallet
