import YubiWallet.Client.Matching
import YubiWallet.Host.Effects
import YubiWallet.Host.Listing

/-! The typed methods of the client: what the host sends has the type that the client gives the
promise, and a method is refused with its own errors only. -/
open Outcome
namespace YubiWallet.Client
open Interaction Transition
open Host (Value Crates MethodResult parseAccount)

def signSecp256k1Params (accountId prehash : String) : Value :=
  .obj [("account_id", .str accountId), ("prehash", .str prehash)]

def signEd25519Params (accountId message : String) : Value :=
  .obj [("account_id", .str accountId), ("message", .str message)]

/-- An object of two strings, as it is posted. -/
def twoStrings (key value key' value' : String) : JsValue :=
  .obj [(Utf16.encode key, .str (Utf16.encode value)),
    (Utf16.encode key', .str (Utf16.encode value'))]

theorem twoStrings_toValue (key value key' value' : String) :
    (twoStrings key value key' value').toValue =
      some (.obj [(key, .str value), (key', .str value')]) := by
  simp [twoStrings, JsValue.toValue, JsValue.toMembers, Utf16.decode_encode]

namespace HostClient
variable (c : HostClient) (thrown : Option String)

def getInfo : HostClient × Request := c.call "get_info" none thrown

def getStatus : HostClient × Request := c.call "get_status" none thrown

def listAccounts : HostClient × Request := c.call "list_accounts" none thrown

def signSecp256k1 (accountId prehash : String) : HostClient × Request :=
  c.call "sign_secp256k1" (some (twoStrings "account_id" accountId "prehash" prehash)) thrown

def signEd25519 (accountId message : String) : HostClient × Request :=
  c.call "sign_ed25519" (some (twoStrings "account_id" accountId "message" message)) thrown

end HostClient

/-- A call of one of the methods, with its arguments. -/
inductive Call where
  | getInfo
  | getStatus
  | listAccounts
  | signSecp256k1 (accountId prehash : String)
  | signEd25519 (accountId message : String)

def Call.on (c : HostClient) (thrown : Option String) : Call → HostClient × Request
  | .getInfo => c.getInfo thrown
  | .getStatus => c.getStatus thrown
  | .listAccounts => c.listAccounts thrown
  | .signSecp256k1 accountId prehash => c.signSecp256k1 thrown accountId prehash
  | .signEd25519 accountId message => c.signEd25519 thrown accountId message

/-- The union `Method`. -/
def methodNames : List String :=
  ["get_info", "get_status", "list_accounts", "sign_secp256k1", "sign_ed25519"]

structure GetInfoResult (v : Value) : Prop where
  name : ∃ s, v.get "name" = some (.str s)
  version : ∃ s, v.get "version" = some (.str s)
  protocol : v.get "protocol" = some (.num (.posInt 1))
  methods : v.get "methods" = some (.arr (methodNames.map .str))

/-- The parts of an account agree with its id, its key and its address with its curve. -/
def IsAccount (C : Crates) (v : Value) : Prop :=
  ∃ acc pk addr,
    v.get "id" = some (.str (Host.accountId acc)) ∧
    parseAccount (Host.accountId acc) = .ok acc ∧
    v.get "family" = some (.str (Host.family acc.curve)) ∧
    v.get "curve" = some (.str (Host.curveStr acc.curve)) ∧
    v.get "applet" = some (.str (Host.appletStr acc.applet)) ∧
    v.get "slot" = some (.str (Host.slotStr acc.applet acc.slot)) ∧
    v.get "address" = some (.str addr) ∧ Host.AddressOf C acc.curve pk addr ∧
    v.get "pubkey" = some (.str (Hex.encode pk)) ∧ StaticCard.Shape acc.curve pk

def ListAccountsResult (C : Crates) (v : Value) : Prop :=
  ∃ accounts, v.get "accounts" = some (.arr accounts) ∧ ∀ a ∈ accounts, IsAccount C a

def GetStatusResult (C : Crates) (v : Value) : Prop :=
  ∃ accounts, v.get "accounts" = some (.arr accounts) ∧ (∀ a ∈ accounts, IsAccount C a) ∧
    v.get "card_present" = some (.bool !accounts.isEmpty)

def Digits32 (s : String) : Prop := s.length = 64 ∧ ∀ c ∈ s.toList, (hexDigit c).isSome

def SignSecp256k1Result (v : Value) : Prop :=
  ∃ r s recoveryId, v.get "r" = some (.str r) ∧ v.get "s" = some (.str s) ∧
    v.get "recovery_id" = some (.num (.posInt recoveryId)) ∧
    Digits32 r ∧ Digits32 s ∧ (recoveryId = 0 ∨ recoveryId = 1)

/-- The digits of the card's signature, however many they are. -/
def SignEd25519Result (v : Value) : Prop :=
  ∃ sig, v.get "signature" = some (.str (Hex.encode sig))

/-- The arguments of a signing method: an account, and the digits of bytes that fit. -/
def WellFormed (id digits : String) (fits : Bytes → Prop) : Prop :=
  (∃ acc, parseAccount id = .ok acc) ∧
    ∃ b, Hex.decode (String.ofList (trimStartMatches0x digits.toList)) = .ok b ∧ fits b

structure SignRefused (id digits : String) (fits : Bytes → Prop) (code : String) : Prop where
  mem : code ∈ ["UNKNOWN_ACCOUNT", "BAD_REQUEST", "PIN_FAILED", "CARD_ERROR"]
  unknown : code = "UNKNOWN_ACCOUNT" ↔ ¬ ∃ acc, parseAccount id = .ok acc
  bad : code = "BAD_REQUEST" ↔ (∃ acc, parseAccount id = .ok acc) ∧ ¬ WellFormed id digits fits

namespace Call

def Result (C : Crates) : Call → Value → Prop
  | .getInfo, v => GetInfoResult v
  | .getStatus, v => GetStatusResult C v
  | .listAccounts, v => ListAccountsResult C v
  | .signSecp256k1 id prehash, v => WellFormed id prehash (·.length = 32) ∧ SignSecp256k1Result v
  | .signEd25519 id message, v => WellFormed id message (fun _ => True) ∧ SignEd25519Result v

/-- The methods that do not sign are not refused. -/
def Refused : Call → String → Prop
  | .getInfo, _ | .getStatus, _ | .listAccounts, _ => False
  | .signSecp256k1 id prehash, code => SignRefused id prehash (·.length = 32) code
  | .signEd25519 id message, code => SignRefused id message (fun _ => True) code

def Answer (C : Crates) (call : Call) : MethodResult → Prop
  | .ok v => call.Result C v
  | .error e => call.Refused e.1

def Settled (C : Crates) (call : Call) : Outcome → Prop
  | .resolved result => ∃ v, result = some v ∧ call.Result C v
  | .rejected error => ∃ code message : String, error = s!"{code}: {message}" ∧ call.Refused code
  | .disconnected _ => True
  | .threw _ => False

end Call

namespace SignRefused
variable {id digits code : String} {fits : Bytes → Prop}

theorem of_unknown (h : ¬ ∃ acc, parseAccount id = .ok acc) (hcode : code = "UNKNOWN_ACCOUNT") :
    SignRefused id digits fits code := by
  subst hcode
  refine ⟨by decide, iff_of_true rfl h, iff_of_false (by decide) fun hbad => h hbad.1⟩

theorem of_bad (hacc : ∃ acc, parseAccount id = .ok acc) (h : ¬ WellFormed id digits fits)
    (hcode : code = "BAD_REQUEST") : SignRefused id digits fits code := by
  subst hcode
  exact ⟨by decide, iff_of_false (by decide) (not_not.mpr hacc), iff_of_true rfl ⟨hacc, h⟩⟩

/-- Behind well-formed arguments, the PIN or the card. -/
theorem of_wellFormed (h : WellFormed id digits fits)
    (hcode : code = "PIN_FAILED" ∨ code = "CARD_ERROR") : SignRefused id digits fits code := by
  have hbad : ¬ ((∃ acc, parseAccount id = .ok acc) ∧ ¬ WellFormed id digits fits) :=
    fun hbad => hbad.2 h
  rcases hcode with rfl | rfl
  · exact ⟨by decide, iff_of_false (by decide) (not_not.mpr h.1), iff_of_false (by decide) hbad⟩
  · exact ⟨by decide, iff_of_false (by decide) (not_not.mpr h.1), iff_of_false (by decide) hbad⟩

end SignRefused

/-- What a method makes of its arguments: the account and the bytes, or a refusal. -/
structure Checks {α : Type} (id digits : String) (fits : Bytes → Prop)
    (args : Except (String × String) α) : Prop where
  ok : ∀ a, args = .ok a → WellFormed id digits fits
  error : ∀ e, args = .error e → SignRefused id digits fits e.1

theorem paramHex_eq {C : Crates} {params : Value} {key digits : String}
    (hdigits : Host.paramStr params key = .ok digits) :
    Host.paramHex C params key =
      (Hex.decode (String.ofList (trimStartMatches0x digits.toList))).mapError fun e =>
        ("BAD_REQUEST", s!"{key} hex: {C.hexErrorText e}") := by
  simp only [Host.paramHex, hdigits, bind, Except.bind]

/-- The two signing methods check an account, then hexadecimal digits, then what they stand
for. -/
theorem checks_of {α : Type} (C : Crates) (params : Value) (key : String) {id digits : String}
    {fits : Bytes → Prop} {finish : Account → Bytes → Except (String × String) α}
    (hdigits : Host.paramStr params key = .ok digits)
    (hok : ∀ acc b a, finish acc b = .ok a → fits b)
    (herror : ∀ acc b e, finish acc b = .error e → e.1 = "BAD_REQUEST" ∧ ¬ fits b) :
    Checks id digits fits (do
      let acc ← parseAccount id
      let b ← Host.paramHex C params key
      finish acc b) where
  ok a h := by
    simp only [bind_eq_ok_iff, paramHex_eq hdigits, mapError_eq_ok_iff] at h
    obtain ⟨acc, hacc, b, hb, ha⟩ := h
    exact ⟨⟨acc, hacc⟩, b, hb, hok acc b a ha⟩
  error e h := by
    simp only [bind_eq_error_iff, paramHex_eq hdigits, mapError_eq_ok_iff,
      mapError_eq_error_iff] at h
    rcases h with hacc | ⟨acc, hacc, ⟨x, hx, rfl⟩ | ⟨b, hb, he⟩⟩
    · refine SignRefused.of_unknown ?_ (Host.parseAccount_error hacc)
      rintro ⟨acc, hok⟩
      rw [hok] at hacc
      cases hacc
    · refine SignRefused.of_bad ⟨acc, hacc⟩ ?_ rfl
      rintro ⟨-, b, hb, -⟩
      rw [hb] at hx
      cases hx
    · obtain ⟨hcode, hfits⟩ := herror acc b e he
      refine SignRefused.of_bad ⟨acc, hacc⟩ ?_ hcode
      rintro ⟨-, b', hb', hfits'⟩
      obtain rfl := Except.ok.inj (hb.symm.trans hb')
      exact hfits hfits'

theorem secp256k1Args_checks (C : Crates) (id prehash : String) :
    Checks id prehash (·.length = 32)
      (Host.secp256k1Args C (signSecp256k1Params id prehash)) := by
  refine checks_of C (signSecp256k1Params id prehash) "prehash" rfl ?_ ?_
  · intro acc b a ha
    split at ha
    · rename_i hash hhash
      rw [← Host.toArray_eq_some hhash]
      exact hash.property
    · cases ha
  · intro acc b e he
    split at he
    · cases he
    · rename_i hnone
      obtain rfl := Except.error.inj he
      refine ⟨rfl, fun hlen => ?_⟩
      rw [toArray, dif_pos hlen] at hnone
      cases hnone

theorem ed25519Args_checks (C : Crates) (id message : String) :
    Checks id message (fun _ => True)
      (Host.ed25519Args C (signEd25519Params id message)) := by
  refine checks_of C (signEd25519Params id message) "message" rfl ?_ ?_
  · exact fun _ _ _ _ => trivial
  · intro acc b e he
    cases he

theorem classify_shape {slot : UInt8} {raw pk : Bytes} {curve : Curve}
    (h : Openpgp.classify slot raw = .ok (curve, pk)) : StaticCard.Shape curve pk := by
  unfold Openpgp.classify at h
  split at h
  · rename_i k hk
    obtain ⟨rfl, rfl⟩ : Curve.ed25519 = curve ∧ k.val = pk := by simpa using h
    exact k.property
  · split at h
    · rename_i k hk
      obtain ⟨rfl, rfl⟩ : Curve.secp256k1 = curve ∧ k.val = pk := by simpa using h
      exact ⟨k.property, ((Openpgp.extractSecp256k1Pubkey_eq_ok_iff raw k).mp hk).2⟩
    · cases h

theorem isAccount_entryJson (C : Crates) {e : Host.Entry} (hslot : e.1.applet.slotOk e.1.slot)
    (hshape : StaticCard.Shape e.1.curve e.2) : IsAccount C (Host.entryJson C e) := by
  obtain ⟨hid, happlet, hslotStr, hcurve, haddr, hpubkey⟩ := Host.entryJson_get C e
  exact ⟨e.1, e.2, _, hid, Host.parseAccount_accountId hslot, rfl, hcurve, happlet, hslotStr,
    haddr, Host.address_of_shape C hshape, hpubkey, hshape⟩

theorem openpgpEntries_accounts (C : Crates) (slot : UInt8)
    (hslot : Applet.slotOk .openPgp slot) :
    Prog.Always (Host.openpgpEntries C (Host.slotStr .openPgp slot) slot) fun _ vs =>
      ∀ v ∈ vs, IsAccount C v := by
  have hdetect : Prog.Always (Openpgp.detectAccount slot).run fun _ r => ∀ curve pk,
      r = .ok (curve, pk) → StaticCard.Shape curve pk := by
    have hraw : Prog.Always (Openpgp.getPubkeyRaw slot).run fun _ _ => True :=
      Prog.Always.of_forall _ fun _ _ => trivial
    refine Action.always_bind_of hraw (fun _ _ _ _ _ h => nomatch h) fun t raw _ => ?_
    exact fun curve pk hpk => classify_shape hpk
  unfold Host.openpgpEntries
  rw [Prog.always_bind]
  refine hdetect.mono fun t r hr => ?_
  cases r with
  | error e =>
    intro v hv
    cases hv
  | ok found =>
    obtain ⟨curve, pk⟩ := found
    intro v hv
    obtain rfl := List.mem_singleton.mp hv
    exact isAccount_entryJson C (e := (⟨.openPgp, slot, curve⟩, pk)) hslot (hr curve pk rfl)

theorem pivListAccounts_slots : Prog.Always Piv.listAccounts.run fun _ r =>
    ∀ slots, r = .ok slots → ∀ info ∈ slots, PivSlot.isValid info.slot = true := by
  have hany : ∀ {α : Type} (p : CardM α), Prog.Always p.run fun _ _ => True :=
    fun p => Prog.Always.of_forall p.run fun _ _ => trivial
  refine Action.always_bind_of (hany _) (fun _ _ _ _ h => nomatch h) fun _ _ _ => ?_
  refine Action.always_bind_of (hany _) (fun _ _ _ _ h => nomatch h) fun _ _ _ => ?_
  have hinfo : ∀ slot, Prog.Always (Piv.slotInfo slot) fun _ info => info.slot = slot := by
    intro slot
    unfold Piv.slotInfo
    rw [Prog.always_bind]
    exact Prog.Always.of_forall _ fun _ _ => rfl
  rw [Action.always_lift]
  refine (Prog.Always.mapM hinfo PivSlot.all).mono fun t infos hinfos slots hslots info hmem => ?_
  obtain rfl := Except.ok.inj hslots
  obtain ⟨slot, hslot, rfl⟩ := hinfos info hmem
  exact (PivSlot.mem_all_iff _).mp hslot

theorem pivEntries_accounts (C : Crates) {slots : List Piv.SlotInfo}
    (hslots : ∀ info ∈ slots, PivSlot.isValid info.slot = true) :
    ∀ v ∈ Host.pivEntries C slots, IsAccount C v := by
  intro v hv
  obtain ⟨info, hinfo, hkey⟩ := List.mem_filterMap.mp hv
  obtain ⟨k, -, rfl⟩ := Option.map_eq_some_iff.mp hkey
  exact isAccount_entryJson C (e := (⟨.piv, info.slot, .ed25519⟩, k.val)) (hslots info hinfo)
    k.property

/-- Also a card that changes while it is read lists accounts only. -/
theorem listAccounts_accounts (C : Crates) :
    Prog.Always (Host.listAccounts C) fun _ vs => ∀ v ∈ vs, IsAccount C v := by
  have hsig := openpgpEntries_accounts C OpenpgpSlot.sig (Or.inl rfl)
  have haut := openpgpEntries_accounts C OpenpgpSlot.aut (Or.inr rfl)
  unfold Host.listAccounts
  rw [Prog.always_bind]
  refine hsig.mono fun _ sig hsig => ?_
  rw [Prog.always_bind]
  refine haut.mono fun _ aut haut => ?_
  have hboth : ∀ v ∈ sig ++ aut, IsAccount C v := by
    intro v hv
    cases List.mem_append.mp hv with
    | inl hv => exact hsig v hv
    | inr hv => exact haut v hv
  rw [Prog.always_bind]
  refine pivListAccounts_slots.mono fun _ r hr => ?_
  cases r with
  | error e => exact hboth
  | ok slots =>
    intro v hv
    cases List.mem_append.mp hv with
    | inl hv => exact hboth v hv
    | inr hv => exact pivEntries_accounts C (hr slots rfl) v hv

theorem info_typed : GetInfoResult Host.info where
  name := ⟨"yubiwallet-host", rfl⟩
  version := ⟨"0.1.0", rfl⟩
  protocol := rfl
  methods := rfl

theorem soundAnswer_typed {k : K256} {hash : BytesN 32} {pk rs : Bytes} {v : Value}
    (h : Host.SoundAnswer k hash pk rs v) : SignSecp256k1Result v := by
  obtain ⟨-, recoveryId, -, r, s, rfl, hid, -, -, hdigits, -⟩ := h
  refine ⟨r, s, recoveryId.toUInt64, rfl, rfl, rfl, hdigits r (by simp), hdigits s (by simp), ?_⟩
  rcases hid with rfl | rfl
  · exact Or.inl rfl
  · exact Or.inr rfl

/-- Only the PIN can fail while it is read. -/
theorem hostPin_error : Prog.Always Host.hostPin.run fun _ r =>
    ∀ e, r = .error e → e.1 = "PIN_FAILED" := by
  rw [Host.hostPin, Action.always_mapErr]
  refine Prog.Always.of_forall _ fun _ r e he => ?_
  obtain ⟨m, -, rfl⟩ := mapError_eq_error_iff.mp he
  rfl

/-- What a call asks of the host. -/
def Call.perform (C : Crates) : Call → Host.HostM Value
  | .getInfo => Host.dispatch C "get_info" .null
  | .getStatus => Host.dispatch C "get_status" .null
  | .listAccounts => Host.dispatch C "list_accounts" .null
  | .signSecp256k1 id prehash =>
    Host.dispatch C "sign_secp256k1" (signSecp256k1Params id prehash)
  | .signEd25519 id message => Host.dispatch C "sign_ed25519" (signEd25519Params id message)

theorem signSecp256k1_typed (C : Crates) (id prehash : String) :
    Prog.Always (Host.signSecp256k1 C (signSecp256k1Params id prehash)).run fun _ r =>
      (Call.signSecp256k1 id prehash).Answer C r := by
  have hargs := secp256k1Args_checks C id prehash
  refine Action.always_ofExcept_bind_of hargs.error fun args hok => ?_
  obtain ⟨acc, hash⟩ := args
  have hwell := hargs.ok _ hok
  have hany : ∀ {α : Type} (p : CardM α), Prog.Always p.run fun _ _ => True :=
    fun p => Prog.Always.of_forall p.run fun _ _ => trivial
  refine Action.always_mapErr_bind_of (hany (getPubkey acc)) ?_ fun _ pubkey _ => ?_
  · exact fun _ _ _ => SignRefused.of_wellFormed hwell (Or.inr rfl)
  refine Action.always_bind_of hostPin_error ?_ fun _ pin _ => ?_
  · exact fun _ e he => SignRefused.of_wellFormed hwell (Or.inl (he e rfl))
  refine Action.always_mapErr_bind_of (hany (signWithPin acc hash.val pin)) ?_ fun _ rs _ => ?_
  · exact fun _ _ _ => SignRefused.of_wellFormed hwell (Or.inr rfl)
  rw [Action.always_ofExcept]
  cases hfinish : Host.finishSecp256k1 C pubkey hash rs with
  | ok v => exact ⟨hwell, soundAnswer_typed (Host.finishSecp256k1_sound hfinish)⟩
  | error e =>
    exact SignRefused.of_wellFormed hwell (Or.inr (Host.finishSecp256k1_error hfinish))

theorem signEd25519_typed (C : Crates) (id message : String) :
    Prog.Always (Host.signEd25519 C (signEd25519Params id message)).run fun _ r =>
      (Call.signEd25519 id message).Answer C r := by
  have hargs := ed25519Args_checks C id message
  refine Action.always_ofExcept_bind_of hargs.error fun args hok => ?_
  obtain ⟨acc, bytes⟩ := args
  have hwell := hargs.ok _ hok
  have hany : ∀ {α : Type} (p : CardM α), Prog.Always p.run fun _ _ => True :=
    fun p => Prog.Always.of_forall p.run fun _ _ => trivial
  refine Action.always_bind_of hostPin_error ?_ fun _ pin _ => ?_
  · exact fun _ e he => SignRefused.of_wellFormed hwell (Or.inl (he e rfl))
  refine Action.always_mapErr_bind_of (hany (signWithPin acc bytes pin)) ?_ fun _ sig _ => ?_
  · exact fun _ _ _ => SignRefused.of_wellFormed hwell (Or.inr rfl)
  exact ⟨hwell, sig, rfl⟩

/-- Against any card and any terminal. -/
theorem perform_typed (C : Crates) (call : Call) :
    Prog.Always (call.perform C).run fun _ r => call.Answer C r := by
  cases call with
  | getInfo => exact info_typed
  | getStatus =>
    refine (Action.always_bind _ _ _).mpr ((Action.always_lift _ _).mpr ?_)
    exact (listAccounts_accounts C).mono fun _ vs hvs => ⟨vs, rfl, hvs, rfl⟩
  | listAccounts =>
    refine (Action.always_bind _ _ _).mpr ((Action.always_lift _ _).mpr ?_)
    exact (listAccounts_accounts C).mono fun _ vs hvs => ⟨vs, rfl, hvs⟩
  | signSecp256k1 id prehash => exact signSecp256k1_typed C id prehash
  | signEd25519 id message => exact signEd25519_typed C id message

/-- What the host should read of a call. -/
def Call.req (id : Nat) : Call → Host.Req
  | .getInfo => ⟨UInt64.ofNat id, "get_info", .null⟩
  | .getStatus => ⟨UInt64.ofNat id, "get_status", .null⟩
  | .listAccounts => ⟨UInt64.ofNat id, "list_accounts", .null⟩
  | .signSecp256k1 accountId prehash =>
    ⟨UInt64.ofNat id, "sign_secp256k1", signSecp256k1Params accountId prehash⟩
  | .signEd25519 accountId message =>
    ⟨UInt64.ofNat id, "sign_ed25519", signEd25519Params accountId message⟩

theorem toReq_on (c : HostClient) (thrown : Option String) (call : Call) :
    (call.on c thrown).2.toReq = some (call.req c.nextId) := by
  cases call with
  | signSecp256k1 accountId prehash =>
    simp [Call.on, HostClient.signSecp256k1, HostClient.call, Request.toReq, twoStrings_toValue,
      Call.req, signSecp256k1Params]
  | signEd25519 accountId message =>
    simp [Call.on, HostClient.signEd25519, HostClient.call, Request.toReq, twoStrings_toValue,
      Call.req, signEd25519Params]
  | _ => rfl

theorem respond_req (C : Crates) (id : Nat) (call : Call) :
    Host.respond C (.ok (call.req id)) =
      Host.response (UInt64.ofNat id) <$> (call.perform C).run := by
  cases call <;> rfl

theorem settled_of_answer {C : Crates} {call : Call} {id : UInt64} {result : MethodResult}
    (h : call.Answer C result) :
    call.Settled C (HostClient.answer (.ofResp (Host.response id result))) := by
  cases result with
  | ok v => exact ⟨v, rfl, h⟩
  | error e => exact ⟨e.1, e.2, rfl, h⟩

/-- In every run of fewer than 2^53 calls whose texts the host reads as the requests that were
meant, or not at all, whatever the order of the messages, the card and the terminal: the
promise of a call is resolved with a value of its type, or rejected for a reason that the call
allows, or the connection ended. -/
theorem run_settled (stringify : Request → Bytes) (C : Crates) {s : System} {ls : List Label}
    (hrun : Run (Step stringify C) .init ls s) (hregular : s.Regular stringify C) {k : Nat}
    {outcome : Outcome} (hk : (k, outcome) ∈ s.client.settled) {call : Call} {c : HostClient}
    {thrown : Option String} (hcall : s.calls[k]? = some (call.on c thrown).2) :
    call.Settled C outcome := by
  have hinv := Inv.run hrun hregular
  rcases hinv.settled k outcome hk with ⟨req, resp, hreq, hcomputed, hid, rfl⟩ | ⟨e, rfl⟩
  · obtain rfl := Option.some.inj (hcall.symm.trans hreq)
    obtain ⟨hmem, hcomputes⟩ := hinv.computed _ hcomputed
    cases hslice : C.serde.fromSlice (stringify (call.on c thrown).2) with
    | error e =>
      -- the id of the response would be 0
      rw [hslice] at hcomputes
      have hzero : resp.id.toNat = 0 := congrArg UInt64.toNat hcomputes.id_eq
      have hpos : 0 < (call.on c thrown).2.id := (hinv.id_of_mem hmem).1
      exact absurd (hid.symm.trans hzero) hpos.ne'
    | ok r =>
      obtain rfl : call.req c.nextId = r := Option.some.inj
        ((toReq_on c thrown call).symm.trans (hregular.notMistaken _ hmem r hslice))
      rw [hslice] at hcomputes
      obtain ⟨env, h, rfl⟩ := hcomputes
      rw [respond_req, Prog.run_map]
      exact settled_of_answer ((perform_typed C call).run env h)
  · trivial

def sampleCall : Call := .signSecp256k1 "openpgp:sig:secp256k1"
  "0x0707070707070707070707070707070707070707070707070707070707070707"

theorem sampleSign_eq : sampleSign = (sampleCall.on .new none).2 := rfl

theorem run_settled_sample : ∃ s ls, Run (Step sampleStringify sampleCrates) .init ls s ∧
    s.client.settled = [(0, .resolved (some Host.sampleAnswer))] ∧
    sampleCall.Settled sampleCrates (.resolved (some Host.sampleAnswer)) := by
  let answer : Host.Resp := Host.response 1 (.ok Host.sampleAnswer)
  have hanswer : HostComputes sampleCrates
      (sampleCrates.serde.fromSlice (sampleStringify sampleSign)) answer :=
    ⟨Host.sampleEnv, [], by rw [sampleSign_slice]; rfl⟩
  have hstart : Run (Step sampleStringify sampleCrates) System.init [] System.init := Run.nil _
  have hcall := hstart.snoc (Step.call _ "sign_secp256k1" sampleSign.params)
  have hrun := (hcall.snoc (@Step.handle _ _ _ [] [] sampleSign answer rfl hanswer)).snoc
    (@Step.deliver _ _ _ [] [] (.ofResp answer) rfl)
  have hread : sampleSign.Understood sampleStringify sampleCrates :=
    ⟨_, sampleSign_toReq, sampleSign_slice⟩
  refine ⟨_, _, hrun, rfl, ?_⟩
  have hregular : ∀ s : System, s.calls = [sampleSign] →
      s.Regular sampleStringify sampleCrates := by
    intro s hs
    refine ⟨by rw [hs]; decide, fun req hreq => ?_⟩
    rw [hs, List.mem_singleton] at hreq
    exact hreq ▸ hread.notMistaken
  exact @run_settled _ _ _ _ hrun (hregular _ rfl) 0 _ List.mem_cons_self sampleCall .new none
    (congrArg some sampleSign_eq)

end YubiWallet.Client
