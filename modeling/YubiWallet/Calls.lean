import YubiWallet.Lib.Outcome
import YubiWallet.Signing

/-! The calls of the library in one shape: an account is checked, its applet is selected, and
behind SELECT its key is read, or its PIN is verified and the message is sent. -/
namespace YubiWallet
open Interaction
open Apdu (shortCommand)

def selectCommand : Applet → Bytes
  | .openPgp => shortCommand [0x00, 0xA4, 0x04, 0x00] Openpgp.aid []
  | .piv => shortCommand [0x00, 0xA4, 0x04, 0x00] Piv.aid []

def Applet.select : Applet → CardM Unit
  | .openPgp => Openpgp.select
  | .piv => Piv.select

/-- What is checked of an account before the card is touched. -/
def Account.check (acc : Account) : Except Error Unit :=
  match acc.applet with
  | .openPgp => .ok ()
  | .piv => do
    Piv.ensureEd25519 acc
    Piv.ensureSlot acc.slot

/-- Something behind the check and the SELECT of an account. -/
def Account.session {α : Type} (acc : Account) (body : CardM α) : CardM α := do
  Action.ofExcept acc.check
  Apdu.connect
  acc.applet.select
  body

/-- The command that reads a public key, and how its answer is read. -/
structure KeyReading where
  command : Bytes
  bufLen : Nat
  key : Bytes → Except Error Bytes

def KeyReading.run (r : KeyReading) : CardM Bytes := do
  let resp ← Apdu.transmit r.command r.bufLen
  Action.ofExcept (r.key resp)

def Account.keyReading (acc : Account) : Except Error KeyReading :=
  match acc.applet with
  | .openPgp => (Openpgp.crtTag acc.slot).map fun crt =>
      ⟨Openpgp.getPublicKeyCommand crt, 512, Openpgp.readPubkey acc.curve⟩
  | .piv => (Piv.slotObjectTag acc.slot).map fun tag =>
      ⟨Piv.getDataCommand tag.val, 4096, fun resp => (Piv.readCertificateKey resp).map Subtype.val⟩

/-- How a message is signed: the prompt for the PIN, the reference and the data of VERIFY, the
signing command, which may not fit, and how its answer is read. -/
structure SigningCall where
  prompt : String
  reference : UInt8
  pinData : String → Except Error Bytes
  command : Except Error Bytes
  bufLen : Nat
  signature : Bytes → Except Error Bytes

def SigningCall.run (s : SigningCall) (pin : Option String) : CardM Bytes := do
  let userPin ← Pin.resolve pin s.prompt
  let data ← Action.ofExcept (s.pinData userPin)
  let _ ← Apdu.send Apdu.cla Apdu.insVerify 0x00 s.reference (some data) none 512
  let command ← Action.ofExcept s.command
  let resp ← Apdu.transmit command s.bufLen
  Action.ofExcept (s.signature resp)

/-- With the caller's PIN there is no prompt. -/
theorem SigningCall.run_given {s : SigningCall} {pin : String} {data : Bytes}
    (h : s.pinData pin = .ok data) :
    s.run (some pin) = (do
      let _ ← Apdu.send Apdu.cla Apdu.insVerify 0x00 s.reference (some data) none 512
      let command ← Action.ofExcept s.command
      let resp ← Apdu.transmit command s.bufLen
      Action.ofExcept (s.signature resp)) := by
  rw [SigningCall.run, Pin.resolve, pure_bind, h]
  rfl

def Openpgp.signingCall (prompt : String) (reference ins p1 p2 : UInt8) (message : Bytes) :
    SigningCall where
  prompt
  reference
  pinData := fun userPin => .ok (asBytes userPin)
  command := Apdu.buildApdu Apdu.cla ins p1 p2 (some message) (some 0x00)
  bufLen := 512
  signature := .ok

def Openpgp.sigCall (message : Bytes) : SigningCall :=
  signingCall "Enter User PIN (PW1/PIN2): " p2Pw1Sign Apdu.insPso p1Sign p2ComputeSignature message

def Openpgp.autCall (message : Bytes) : SigningCall :=
  signingCall "Enter User PIN (PW1): " p2Pw1Other Apdu.insInternalAuthenticate 0x00 0x00 message

def Piv.signingCall (slot : UInt8) (message : Bytes) : SigningCall where
  prompt := "Enter PIV PIN: "
  reference := p2PivPin
  pinData := pinPadded
  command := .ok (generalAuthenticateCommand slot message)
  bufLen := 4096
  signature := parseSignatureResponse

def Account.signingCall (acc : Account) (message : Bytes) : Except Error SigningCall :=
  match acc.applet with
  | .openPgp =>
    if acc.slot = OpenpgpSlot.sig then .ok (Openpgp.sigCall message)
    else if acc.slot = OpenpgpSlot.aut then .ok (Openpgp.autCall message)
    else
      .error (.unsupported
        s!"OpenPGP slot {fmtHash04x acc.slot}: only SIG and AUT are supported")
  | .piv => .ok (Piv.signingCall acc.slot message)

theorem session_openpgp {α : Type} {acc : Account} (happlet : acc.applet = .openPgp)
    (body : CardM α) :
    acc.session body = Apdu.connect >>= fun _ => Openpgp.select >>= fun _ => body := by
  rw [Account.session, Account.check, happlet]
  rfl

theorem session_piv {α : Type} {acc : Account} (happlet : acc.applet = .piv) (body : CardM α) :
    acc.session body = Action.ofExcept (Piv.ensureEd25519 acc) >>= fun _ =>
      Action.ofExcept (Piv.ensureSlot acc.slot) >>= fun _ =>
      Apdu.connect >>= fun _ => Piv.select >>= fun _ => body := by
  rw [Account.session, Account.check, happlet]
  cases Piv.ensureEd25519 acc <;> rfl

/-- `get_pubkey`, for both applets. -/
theorem getPubkey_eq (acc : Account) :
    getPubkey acc = acc.session (Action.ofExcept acc.keyReading >>= KeyReading.run) := by
  unfold getPubkey Account.keyReading
  cases happlet : acc.applet with
  | openPgp =>
    rw [session_openpgp happlet, Openpgp.getPubkey, Openpgp.getPubkeyRaw, Openpgp.getPubkeyRawOn]
    simp only [bind_assoc]
    cases Openpgp.crtTag acc.slot <;> rfl
  | piv =>
    rw [session_piv happlet, Piv.getPubkey, Piv.fetchEd25519Pubkey]
    simp only [bind_assoc, Action.ofExcept_map_bind]
    refine bind_congr fun _ => bind_congr fun _ => bind_congr fun _ => bind_congr fun _ =>
      bind_congr fun tag => bind_congr fun resp => ?_
    exact (Action.ofExcept_map _ _).symm

theorem Openpgp.run_signingCall (prompt : String) (reference ins p1 p2 : UInt8) (message : Bytes)
    (pin : Option String) :
    (signingCall prompt reference ins p1 p2 message).run pin = (do
      let userPin ← Pin.resolve pin prompt
      let _ ← Apdu.send Apdu.cla Apdu.insVerify 0x00 reference (some (asBytes userPin)) none 512
      Apdu.send Apdu.cla ins p1 p2 (some message) (some 0x00) 512) := by
  refine bind_congr fun userPin => ?_
  change Apdu.send Apdu.cla Apdu.insVerify 0x00 reference (some (asBytes userPin)) none 512 >>= _ = _
  refine bind_congr fun _ => bind_congr fun command => ?_
  exact bind_pure (Apdu.transmit command 512)

/-- `sign`, for both applets. -/
theorem signDispatch_eq (acc : Account) (message : Bytes) (pin : Option String) :
    signDispatch acc message pin =
      acc.session (Action.ofExcept (acc.signingCall message) >>= fun s => s.run pin) := by
  unfold signDispatch Account.signingCall
  cases happlet : acc.applet with
  | openPgp =>
    rw [session_openpgp happlet, Openpgp.sign]
    refine bind_congr fun _ => bind_congr fun _ => ?_
    split
    · exact (Openpgp.run_signingCall _ _ _ _ _ message pin).symm
    · split
      · exact (Openpgp.run_signingCall _ _ _ _ _ message pin).symm
      · rfl
  | piv =>
    rw [session_piv happlet, Piv.sign]
    rfl

theorem check_piv {acc : Account} (happlet : acc.applet = .piv) (h : acc.check = .ok ()) :
    acc.curve = .ed25519 ∧ PivSlot.isValid acc.slot = true := by
  rw [Account.check, happlet] at h
  obtain ⟨_, hcurve, hslot⟩ := Outcome.bind_eq_ok_iff.mp h
  exact ⟨Piv.ensureEd25519_ok hcurve, Piv.ensureSlot_ok hslot⟩

theorem check_ok {acc : Account} (hslot : acc.applet.slotOk acc.slot)
    (hcurve : acc.applet = .piv → acc.curve = .ed25519) : acc.check = .ok () := by
  unfold Account.check
  cases happlet : acc.applet with
  | openPgp => rfl
  | piv =>
    rw [happlet] at hslot
    exact Outcome.bind_eq_ok_iff.mpr
      ⟨(), Piv.ensureEd25519_of (hcurve happlet), Piv.ensureSlot_of hslot⟩

theorem exists_keyReading {acc : Account} (hslot : acc.applet.slotOk acc.slot) :
    ∃ r, acc.keyReading = .ok r := by
  unfold Account.keyReading
  cases happlet : acc.applet with
  | openPgp =>
    rw [happlet] at hslot
    obtain ⟨crt, hcrt⟩ := Openpgp.exists_crtTag hslot
    exact ⟨_, congrArg (Except.map _) hcrt⟩
  | piv =>
    rw [happlet] at hslot
    obtain ⟨tag, htag⟩ := Piv.exists_slotObjectTag hslot
    exact ⟨_, congrArg (Except.map _) htag⟩

theorem exists_signingCall {acc : Account} (hslot : acc.applet.slotOk acc.slot) (message : Bytes) :
    ∃ s, acc.signingCall message = .ok s := by
  unfold Account.signingCall
  cases happlet : acc.applet with
  | openPgp =>
    rw [happlet] at hslot
    by_cases hsig : acc.slot = OpenpgpSlot.sig
    · exact ⟨_, if_pos hsig⟩
    · exact ⟨_, (if_neg hsig).trans (if_pos (hslot.resolve_left hsig))⟩
  | piv => exact ⟨_, rfl⟩

theorem keyReading_cases {acc : Account} {r : KeyReading} (h : acc.keyReading = .ok r) :
    (acc.applet = .openPgp ∧ ∃ crt, Openpgp.crtTag acc.slot = .ok crt ∧
      r = ⟨Openpgp.getPublicKeyCommand crt, 512, Openpgp.readPubkey acc.curve⟩) ∨
    (acc.applet = .piv ∧ ∃ tag, Piv.slotObjectTag acc.slot = .ok tag ∧
      r = ⟨Piv.getDataCommand tag.val, 4096,
        fun resp => (Piv.readCertificateKey resp).map Subtype.val⟩) := by
  unfold Account.keyReading at h
  cases happlet : acc.applet with
  | openPgp =>
    rw [happlet] at h
    obtain ⟨crt, hcrt, rfl⟩ := Outcome.map_eq_ok_iff.mp h
    exact Or.inl ⟨rfl, crt, hcrt, rfl⟩
  | piv =>
    rw [happlet] at h
    obtain ⟨tag, htag, rfl⟩ := Outcome.map_eq_ok_iff.mp h
    exact Or.inr ⟨rfl, tag, htag, rfl⟩

theorem signingCall_cases {acc : Account} {message : Bytes} {s : SigningCall}
    (h : acc.signingCall message = .ok s) :
    (acc.applet = .openPgp ∧ acc.slot = OpenpgpSlot.sig ∧ s = Openpgp.sigCall message) ∨
    (acc.applet = .openPgp ∧ acc.slot = OpenpgpSlot.aut ∧ s = Openpgp.autCall message) ∨
    (acc.applet = .piv ∧ s = Piv.signingCall acc.slot message) := by
  unfold Account.signingCall at h
  cases happlet : acc.applet with
  | openPgp =>
    rw [happlet] at h
    dsimp only at h
    split at h
    · exact Or.inl ⟨rfl, ‹_›, (Except.ok.inj h).symm⟩
    · split at h
      · exact Or.inr (Or.inl ⟨rfl, ‹_›, (Except.ok.inj h).symm⟩)
      · cases h
  | piv =>
    rw [happlet] at h
    exact Or.inr (Or.inr ⟨rfl, (Except.ok.inj h).symm⟩)

theorem keyReading_ins {acc : Account} {r : KeyReading} (h : acc.keyReading = .ok r) :
    r.command.getD 1 0 ∈ [Apdu.insGetPublicKey, Apdu.insGetData] := by
  rcases keyReading_cases h with ⟨-, crt, -, rfl⟩ | ⟨-, tag, -, rfl⟩
  · exact List.mem_cons_self
  · exact List.mem_cons_of_mem _ List.mem_cons_self

theorem Openpgp.signingCall_command {prompt : String} {reference ins p1 p2 : UInt8}
    {message c : Bytes} (hc : (signingCall prompt reference ins p1 p2 message).command = .ok c) :
    message.length ≤ 255 ∧ c = shortCommand [0x00, ins, p1, p2] message [0x00] :=
  Apdu.buildApdu_some hc

theorem signingCall_ins {acc : Account} {message : Bytes} {s : SigningCall} {c : Bytes}
    (h : acc.signingCall message = .ok s) (hc : s.command = .ok c) :
    c.getD 1 0 ∈ [Apdu.insPso, Apdu.insInternalAuthenticate, Apdu.insGeneralAuthenticate] := by
  rcases signingCall_cases h with ⟨-, -, rfl⟩ | ⟨-, -, rfl⟩ | ⟨-, rfl⟩
  · rw [(Openpgp.signingCall_command hc).2]
    exact List.mem_cons_self
  · rw [(Openpgp.signingCall_command hc).2]
    exact List.mem_cons_of_mem _ List.mem_cons_self
  · obtain rfl := Except.ok.inj hc
    exact List.mem_cons_of_mem _ (List.mem_cons_of_mem _ List.mem_cons_self)

theorem keyReading_other {acc : Account} {r : KeyReading} (h : acc.keyReading = .ok r) :
    r.command.getD 1 0 ≠ Apdu.insSelect ∧ r.command.getD 1 0 ≠ Apdu.insVerify := by
  rcases List.mem_pair.mp (keyReading_ins h) with hins | hins <;> rw [hins] <;> decide

/-- A short PIN gives a short VERIFY. -/
theorem pinData_short {acc : Account} {message : Bytes} {s : SigningCall}
    (h : acc.signingCall message = .ok s) {pin : String} (hpin : (asBytes pin).length ≤ 8) :
    ∃ data, s.pinData pin = .ok data ∧ data.length ≤ 255 := by
  rcases signingCall_cases h with ⟨-, -, rfl⟩ | ⟨-, -, rfl⟩ | ⟨-, rfl⟩
  · exact ⟨asBytes pin, rfl, by omega⟩
  · exact ⟨asBytes pin, rfl, by omega⟩
  · refine ⟨_, if_neg (by omega), ?_⟩
    rw [List.length_append, List.length_replicate]
    omega

theorem command_short {acc : Account} {message : Bytes} {s : SigningCall}
    (h : acc.signingCall message = .ok s) (hlen : message.length ≤ 255) :
    ∃ c, s.command = .ok c := by
  rcases signingCall_cases h with ⟨-, -, rfl⟩ | ⟨-, -, rfl⟩ | ⟨-, rfl⟩
  · exact ⟨_, if_neg (by omega)⟩
  · exact ⟨_, if_neg (by omega)⟩
  · exact ⟨_, rfl⟩

/-- The OpenPGP applet hands on what the card answers. -/
theorem signingCall_openpgp {acc : Account} {message : Bytes} {s : SigningCall}
    (happlet : acc.applet = .openPgp) (h : acc.signingCall message = .ok s) :
    s.signature = .ok ∧
      ∀ c, s.command = .ok c → c.getD 1 0 ∈ [Apdu.insPso, Apdu.insInternalAuthenticate] := by
  rcases signingCall_cases h with ⟨-, -, rfl⟩ | ⟨-, -, rfl⟩ | ⟨hpiv, -⟩
  · refine ⟨rfl, fun c hc => ?_⟩
    rw [(Openpgp.signingCall_command hc).2]
    exact List.mem_cons_self
  · refine ⟨rfl, fun c hc => ?_⟩
    rw [(Openpgp.signingCall_command hc).2]
    exact List.mem_cons_of_mem _ List.mem_cons_self
  · rw [happlet] at hpiv
    cases hpiv

section
variable {P : Op → Prop}

theorem only_select {applet : Applet} (h : P (.transmit (selectCommand applet) 512)) :
    Prog.Only P applet.select.run := by
  cases applet with
  | openPgp =>
    exact Action.only_bind (Apdu.only_send_short fun _ => h) fun _ => Prog.Only.pure _
  | piv =>
    exact Action.only_bind (Apdu.only_send_short fun _ => h) fun _ => Prog.Only.pure _

variable {acc : Account} (hconnect : P .connect)
  (hselect : P (.transmit (selectCommand acc.applet) 512))

include hconnect hselect in
theorem only_session {α : Type} {body : CardM α}
    (hbody : acc.check = .ok () → Prog.Only P body.run) : Prog.Only P (acc.session body).run :=
  Action.only_ofExcept_bind _ fun _ hcheck => Action.only_bind (Apdu.only_connect hconnect)
    fun _ => Action.only_bind (only_select hselect) fun _ => hbody hcheck

include hconnect hselect in
theorem only_getPubkey (hread : ∀ r, acc.check = .ok () → acc.keyReading = .ok r →
    P (.transmit r.command r.bufLen)) : Prog.Only P (getPubkey acc).run := by
  rw [getPubkey_eq]
  refine only_session hconnect hselect fun hcheck => Action.only_ofExcept_bind _ fun r hr => ?_
  exact Action.only_bind (Apdu.only_transmit (hread r hcheck hr)) fun _ => Action.only_ofExcept _

include hconnect hselect in
theorem only_signDispatch {message : Bytes} {pin : Option String}
    (hpin : ∀ prompt, Prog.Only P (Pin.resolve pin prompt).run)
    (hverify : ∀ s userPin data, acc.signingCall message = .ok s → s.pinData userPin = .ok data →
      data.length ≤ 255 → P (.transmit (shortCommand [0x00, 0x20, 0x00, s.reference] data []) 512))
    (hsign : ∀ s c, acc.check = .ok () → acc.signingCall message = .ok s → s.command = .ok c →
      P (.transmit c s.bufLen)) :
    Prog.Only P (signDispatch acc message pin).run := by
  rw [signDispatch_eq]
  refine only_session hconnect hselect fun hcheck => Action.only_ofExcept_bind _ fun s hs => ?_
  refine Action.only_bind (hpin s.prompt) fun userPin =>
    Action.only_ofExcept_bind _ fun data hdata =>
    Action.only_bind (Apdu.only_send_short (hverify s userPin data hs hdata)) fun _ =>
    Action.only_ofExcept_bind _ fun c hc => ?_
  exact Action.only_bind (Apdu.only_transmit (hsign s c hcheck hs hc)) fun _ =>
    Action.only_ofExcept _

end

/-- Connecting, SELECT and the two commands that read public keys. -/
def ReadsCard : Op → Prop
  | .connect => True
  | .transmit command _ =>
    command.getD 1 0 ∈ [Apdu.insSelect, Apdu.insGetPublicKey, Apdu.insGetData]
  | _ => False

def UsesCard : Op → Prop
  | .connect | .transmit _ _ => True
  | _ => False

theorem ReadsCard.usesCard {op : Op} (h : ReadsCard op) : UsesCard op := by
  cases op <;> trivial

theorem selects_readsCard (applet : Applet) : ReadsCard (.transmit (selectCommand applet) 512) := by
  cases applet <;> exact List.mem_cons_self

theorem select_readsCard (applet : Applet) : Prog.Only ReadsCard applet.select.run :=
  only_select (selects_readsCard applet)

theorem getPubkeyRaw_readsCard (slot : UInt8) :
    Prog.Only ReadsCard (Openpgp.getPubkeyRaw slot).run :=
  Action.only_bind (Apdu.only_connect trivial) fun _ =>
    Action.only_bind (select_readsCard .openPgp) fun _ =>
    Action.only_bind (Action.only_ofExcept _) fun crt =>
    Apdu.only_transmit (by simp [ReadsCard, Openpgp.getPublicKeyCommand])

theorem detectAccount_readsCard (slot : UInt8) :
    Prog.Only ReadsCard (Openpgp.detectAccount slot).run :=
  Action.only_bind (getPubkeyRaw_readsCard slot) fun _ => Action.only_ofExcept _

theorem fetchEd25519Pubkey_readsCard (slot : UInt8) :
    Prog.Only ReadsCard (Piv.fetchEd25519Pubkey slot).run :=
  Action.only_bind (Action.only_ofExcept _) fun tag => Action.only_bind
    (Apdu.only_transmit (by simp [ReadsCard, Piv.getDataCommand, Apdu.buildApduExt]))
    fun _ => Action.only_ofExcept _

theorem getPubkey_readsCard (acc : Account) : Prog.Only ReadsCard (getPubkey acc).run :=
  only_getPubkey trivial (selects_readsCard acc.applet) fun _ _ hr =>
    List.mem_cons_of_mem _ (keyReading_ins hr)

theorem listAccounts_readsCard : Prog.Only ReadsCard Piv.listAccounts.run :=
  Action.only_bind (Apdu.only_connect trivial) fun _ =>
    Action.only_bind (select_readsCard .piv) fun _ =>
    Action.only_lift <| Prog.Only.mapM
      (fun slot => (fetchEd25519Pubkey_readsCard slot).bind fun _ => Prog.Only.pure _) _

/-- With the caller's PIN, signing does nothing but use the card. -/
theorem signWithPin_usesCard (acc : Account) (message : Bytes) (pin : String) :
    Prog.Only UsesCard (signWithPin acc message pin).run :=
  only_signDispatch trivial trivial (fun _ => Prog.Only.pure _) (fun _ _ _ _ _ _ => trivial)
    fun _ _ _ _ _ => trivial

end YubiWallet
