import YubiWallet.Eth
import YubiWallet.Host.Json
import YubiWallet.Lib.Outcome
import YubiWallet.Calls

/-! The methods of the native-messaging host. -/
namespace YubiWallet.Host
open Interaction Outcome

/-- What the host and the library use of other crates. -/
structure Crates where
  keccak256 : Bytes → BytesN 32
  k256 : K256
  serde : SerdeJson
  hexErrorText : Hex.FromHexError → String

abbrev HostM := Action Op Op.Ans (String × String)

def cardErr (e : Error) : String × String := ("CARD_ERROR", e.display)

/-- A line from the terminal. A prompt that cannot be written is not missed. -/
def readTtyPin : Prog (Except String String) := do
  let _ ← perform (.writeTty "YubiWallet PIN: ")
  match ← perform .openTty with
  | .error e =>
    pure (.error s!"no PIN source (set YUBIWALLET_PIN or run with a tty): {e}")
  | .ok () =>
    match ← perform .readTty with
    | .error e => pure (.error e)
    | .ok line => pure (.ok (trim line))

/-- `$YUBIWALLET_PIN`, if it is set and not empty, else a line from the terminal. -/
def readPin : Prog (Except String String) := do
  match ← perform (.envVar "YUBIWALLET_PIN") with
  | some p => if p.isEmpty then readTtyPin else pure (.ok p)
  | none => readTtyPin

/-- `read_pin().map_err(..)` -/
def hostPin : HostM String := Action.mapErr (fun m => ("PIN_FAILED", m)) (ExceptT.mk readPin)

def unknownAccount (m : String) : String × String := ("UNKNOWN_ACCOUNT", m)

def parseAccount (id : String) : Except (String × String) Account :=
  match split id ':' with
  | [a, s, c] => do
    let applet ← (Applet.fromStr a).mapError fun e => unknownAccount e.display
    let slot ← (parseSlot applet s).mapError fun e => unknownAccount e.display
    let curve ← (Curve.fromStr c).mapError fun e => unknownAccount e.display
    pure ⟨applet, slot, curve⟩
  | _ => .error (unknownAccount s!"bad account_id '{id}' (want applet:slot:curve)")

/-- The texts of the parts of an account. -/
def Parts (a s c : String) (acc : Account) : Prop :=
  Applet.fromStr a = .ok acc.applet ∧ parseSlot acc.applet s = .ok acc.slot ∧
    Curve.fromStr c = .ok acc.curve

/-- The parser reads the three parts of an id. -/
theorem parseAccount_eq_ok_iff {a s c : String} (ha : ':' ∉ a.toList) (hs : ':' ∉ s.toList)
    (hc : ':' ∉ c.toList) (acc : Account) :
    parseAccount (a ++ ":" ++ s ++ ":" ++ c) = .ok acc ↔ Parts a s c acc := by
  have hsplit : split (a ++ ":" ++ s ++ ":" ++ c) ':' = [a, s, c] := split_three rfl ha hs hc
  unfold parseAccount
  rw [hsplit]
  simp only [bind_eq_ok_iff, mapError_eq_ok_iff]
  constructor
  · intro h
    obtain ⟨applet, happlet, slot, hslot, curve, hcurve, hacc⟩ := h
    obtain rfl := Except.ok.inj hacc
    exact ⟨happlet, hslot, hcurve⟩
  · intro h
    exact ⟨acc.applet, h.1, acc.slot, h.2.1, acc.curve, h.2.2, rfl⟩

def paramStr (params : Value) (key : String) : Except (String × String) String :=
  match (params.get key).bind Value.asStr with
  | some s => .ok s
  | none => .error ("BAD_REQUEST", s!"missing param '{key}'")

/-- A parameter in hexadecimal, behind any number of `0x`. -/
def paramHex (C : Crates) (params : Value) (key : String) : Except (String × String) Bytes := do
  let s ← paramStr params key
  (Hex.decode (String.ofList (trimStartMatches0x s.toList))).mapError fun e =>
    ("BAD_REQUEST", s!"{key} hex: {C.hexErrorText e}")

def secp256k1Args (C : Crates) (params : Value) :
    Except (String × String) (Account × BytesN 32) := do
  let id ← paramStr params "account_id"
  let acc ← parseAccount id
  let prehash ← paramHex C params "prehash"
  match toArray 32 prehash with
  | some hash => pure (acc, hash)
  | none => .error ("BAD_REQUEST", "prehash must be 32 bytes")

def secp256k1Json (sig : Eth.EthSignature) : Value :=
  -- `saturating_sub`
  let recoveryId := if sig.v < 35 then 0 else sig.v - 35
  .obj [("r", .str (Hex.encode sig.r.val)), ("s", .str (Hex.encode sig.s.val)),
    ("recovery_id", .num (.posInt recoveryId))]

/-- What `sign_secp256k1` makes of the card's answer. The chain id is 0. -/
def finishSecp256k1 (C : Crates) (pubkey : Bytes) (hash : BytesN 32) (rsVec : Bytes) :
    Except (String × String) Value :=
  match toArray 64 rsVec with
  | none => .error ("CARD_ERROR", "expected 64-byte R||S")
  | some rs =>
    ((Eth.ethereumSignature C.k256 pubkey hash rs 0).mapError cardErr).map secp256k1Json

def signSecp256k1 (C : Crates) (params : Value) : HostM Value := do
  let (acc, hash) ← Action.ofExcept (secp256k1Args C params)
  let pubkey ← Action.mapErr cardErr (getPubkey acc)
  let pin ← hostPin
  let rsVec ← Action.mapErr cardErr (signWithPin acc hash.val pin)
  Action.ofExcept (finishSecp256k1 C pubkey hash rsVec)

def ed25519Args (C : Crates) (params : Value) :
    Except (String × String) (Account × Bytes) := do
  let id ← paramStr params "account_id"
  let acc ← parseAccount id
  let message ← paramHex C params "message"
  pure (acc, message)

def signEd25519 (C : Crates) (params : Value) : HostM Value := do
  let (acc, message) ← Action.ofExcept (ed25519Args C params)
  let pin ← hostPin
  let sig ← Action.mapErr cardErr (signWithPin acc message pin)
  pure (.obj [("signature", .str (Hex.encode sig))])

/-- The address of a key, as its family writes it. -/
def address (C : Crates) (curve : Curve) (pk : Bytes) : String :=
  match curve with
  | .ed25519 => Bs58.encode pk
  | .secp256k1 =>
    match Eth.addressFromPubkey C.keccak256 pk with
    | .ok a => Eth.addressToHex a
    | .error _ => ""

def family : Curve → String
  | .ed25519 => "solana"
  | .secp256k1 => "evm"

def curveStr : Curve → String
  | .ed25519 => "ed25519"
  | .secp256k1 => "secp256k1"

def accountJson (C : Crates) (applet slot : String) (curve : Curve) (pk : Bytes) : Value :=
  .obj [("id", .str s!"{applet}:{slot}:{curveStr curve}"), ("family", .str (family curve)),
    ("curve", .str (curveStr curve)), ("applet", .str applet), ("slot", .str slot),
    ("address", .str (address C curve pk)), ("pubkey", .str (Hex.encode pk))]

/-- A slot of the OpenPGP applet is listed when its key is recognised. -/
def openpgpEntries (C : Crates) (slotName : String) (slot : UInt8) : Prog (List Value) := do
  match ← (Openpgp.detectAccount slot).run with
  | .ok (curve, pk) => pure [accountJson C "openpgp" slotName curve pk]
  | .error _ => pure []

/-- The slots of the PIV applet that hold an Ed25519 certificate. -/
def pivEntries (C : Crates) (slots : List Piv.SlotInfo) : List Value :=
  slots.filterMap fun info => info.ed25519Pubkey.map fun pk =>
    accountJson C "piv" (fmt02x info.slot) .ed25519 pk.val

def listAccounts (C : Crates) : Prog (List Value) := do
  let sig ← openpgpEntries C "sig" OpenpgpSlot.sig
  let aut ← openpgpEntries C "aut" OpenpgpSlot.aut
  match ← Piv.listAccounts.run with
  | .ok slots => pure (sig ++ aut ++ pivEntries C slots)
  | .error _ => pure (sig ++ aut)

def protocolVersion : UInt64 := 1

def info : Value :=
  .obj [("name", .str "yubiwallet-host"), ("version", .str "0.1.0"),
    ("protocol", .num (.posInt protocolVersion)),
    ("methods", .arr [.str "get_info", .str "get_status", .str "list_accounts",
      .str "sign_secp256k1", .str "sign_ed25519"])]

def dispatch (C : Crates) (method : String) (params : Value) : HostM Value :=
  match method with
  | "get_info" => pure info
  | "list_accounts" => do
    let accounts ← listAccounts C
    pure (.obj [("accounts", .arr accounts)])
  | "get_status" => do
    let accounts ← listAccounts C
    pure (.obj [("card_present", .bool !accounts.isEmpty), ("accounts", .arr accounts)])
  | "sign_secp256k1" => signSecp256k1 C params
  | "sign_ed25519" => signEd25519 C params
  | other => throw ("UNSUPPORTED_METHOD", s!"unknown method: {other}")

/-- The response to a message that was read as a request, or was not. -/
def respond (C : Crates) : Except String Req → Prog Resp
  | .error e => pure (response 0 (.error ("BAD_REQUEST", e)))
  | .ok req => response req.id <$> (dispatch C req.method req.params).run

def handle (C : Crates) (msg : Bytes) : Prog Bytes :=
  C.serde.toVec <$> respond C (C.serde.fromSlice msg)

/-- The PIN comes from the environment or from the terminal. -/
def AsksPin : Op → Prop
  | .envVar _ | .writeTty _ | .openTty | .readTty => True
  | _ => False

theorem readPin_only : Prog.Only AsksPin readPin := by
  have htty : Prog.Only AsksPin readTtyPin := by
    refine Prog.Only.bind (Prog.Only.perform trivial) fun _ =>
      Prog.Only.bind (Prog.Only.perform trivial) fun x => ?_
    cases x with
    | error e => exact Prog.Only.pure _
    | ok u =>
      refine Prog.Only.bind (Prog.Only.perform trivial) fun y => ?_
      cases y with
      | error e => exact Prog.Only.pure _
      | ok line => exact Prog.Only.pure _
  refine Prog.Only.bind (Prog.Only.perform trivial) fun x => ?_
  cases x with
  | none => exact htty
  | some p =>
    change Prog.Only AsksPin (if p.isEmpty then readTtyPin else pure (.ok p))
    split
    · exact htty
    · exact Prog.Only.pure _

theorem listAccounts_readsCard (C : Crates) : Prog.Only ReadsCard (listAccounts C) := by
  have hentries : ∀ name slot, Prog.Only ReadsCard (openpgpEntries C name slot) :=
    fun name slot => (detectAccount_readsCard slot).bind fun r => by
      cases r <;> exact Prog.Only.pure _
  exact (hentries _ _).bind fun _ => (hentries _ _).bind fun _ =>
    YubiWallet.listAccounts_readsCard.bind fun r => by cases r <;> exact Prog.Only.pure _

/-- A method uses the card and asks for the PIN, nothing else. -/
theorem dispatch_only (C : Crates) (method : String) (params : Value) :
    Prog.Only (fun op => UsesCard op ∨ AsksPin op) (dispatch C method params).run := by
  have hlist : Prog.Only (fun op => UsesCard op ∨ AsksPin op) (listAccounts C) :=
    (listAccounts_readsCard C).mono fun _ h => Or.inl h.usesCard
  have hpin : Prog.Only (fun op => UsesCard op ∨ AsksPin op) hostPin.run :=
    Action.only_mapErr (p := ExceptT.mk readPin) (readPin_only.mono fun _ => Or.inr) _
  have hsign : ∀ acc message pin, Prog.Only (fun op => UsesCard op ∨ AsksPin op)
      (Action.mapErr cardErr (signWithPin acc message pin) : HostM Bytes).run :=
    fun acc message pin => Action.only_mapErr
      ((signWithPin_usesCard acc message pin).mono fun _ => Or.inl) _
  unfold dispatch
  split
  · exact Prog.Only.pure _
  · exact Action.only_bind (Action.only_lift hlist) fun _ => Prog.Only.pure _
  · exact Action.only_bind (Action.only_lift hlist) fun _ => Prog.Only.pure _
  · refine Action.only_bind (Action.only_ofExcept _) fun args => Action.only_bind
      (Action.only_mapErr ?_ _) fun pubkey => Action.only_bind hpin fun pin =>
      Action.only_bind (hsign _ _ _) fun _ => Action.only_ofExcept _
    exact (getPubkey_readsCard args.1).mono fun _ h => Or.inl h.usesCard
  · exact Action.only_bind (Action.only_ofExcept _) fun args => Action.only_bind hpin fun pin =>
      Action.only_bind (hsign _ _ _) fun _ => Prog.Only.pure _
  · exact Action.only_throw _

end YubiWallet.Host
