import YubiWallet.Extractors
import YubiWallet.Refusals

/-! Accounts that both applets serve: no call for them is refused as unsupported. -/
namespace YubiWallet
open Interaction

def IsUnsupported : Error → Prop
  | .unsupported _ => True
  | _ => False

/-- Whatever the card, the terminal and the user answer. -/
def NotUnsupported (p : CardM Bytes) : Prop :=
  ∀ (env : Env) (h : Trace) (e : Error), (Prog.run env p.run h).1 = .error e → ¬ IsUnsupported e

structure Supported (acc : Account) : Prop where
  getPubkey : NotUnsupported (getPubkey acc)
  sign : ∀ message, NotUnsupported (sign acc message)
  signWithPin : ∀ message pin, NotUnsupported (signWithPin acc message pin)

theorem notUnsupported_of_never {p : CardM Bytes} (h : Never IsUnsupported p) :
    NotUnsupported p := fun env t => Prog.Always.run h env t

theorem IsUnsupported.refusal {e : Error} (h : IsUnsupported e) : LibraryRefusal e := by
  cases e with
  | unsupported m => trivial
  | _ => exact h.elim

theorem connect_served : Never IsUnsupported Apdu.connect := by
  unfold Never
  rw [Apdu.always_connect]
  intro x e he
  cases x with
  | card => cases he
  | noReaders =>
    cases he
    exact id
  | failed m =>
    cases he
    exact id

theorem transmit_served (command : Bytes) (bufLen : Nat) :
    Never IsUnsupported (Apdu.transmit command bufLen) :=
  (transmit_never command bufLen).mono fun _ => IsUnsupported.refusal

theorem buildApdu_served {cla ins p1 p2 : UInt8} {data : Option Bytes} {le : Option UInt8}
    {e : Error} (h : Apdu.buildApdu cla ins p1 p2 data le = .error e) : ¬ IsUnsupported e := by
  cases data with
  | none => cases h
  | some d =>
    simp only [Apdu.buildApdu] at h
    split at h
    · cases h
      exact id
    · cases h

theorem send_served (cla ins p1 p2 : UInt8) (data : Option Bytes) (le : Option UInt8)
    (bufLen : Nat) : Never IsUnsupported (Apdu.send cla ins p1 p2 data le bufLen) :=
  Never.bind (Never.ofExcept fun _ => buildApdu_served) fun command =>
    transmit_served command bufLen

theorem resolve_served (pin : Option String) (message : String) :
    Never IsUnsupported (Pin.resolve pin message) := by
  cases pin with
  | some p => exact Never.pure p
  | none =>
    intro x
    cases x with
    | error m =>
      intro e he
      cases he
      exact id
    | ok u =>
      intro line
      cases line with
      | error m =>
        intro e he
        cases he
        exact id
      | ok line =>
        intro e he
        cases he

theorem pubkeyNotFound_served {e : Error} (h : ∃ text, e = .pubkeyNotFound text) :
    ¬ IsUnsupported e := by
  obtain ⟨text, rfl⟩ := h
  exact id

theorem select_served (applet : Applet) : Never IsUnsupported applet.select := by
  cases applet with
  | openPgp => exact Never.bind (send_served _ _ _ _ _ _ _) fun _ => Never.pure ()
  | piv => exact Never.bind (send_served _ _ _ _ _ _ _) fun _ => Never.pure ()

theorem session_served {α : Type} {acc : Account} {body : CardM α} (hcheck : acc.check = .ok ())
    (hbody : Never IsUnsupported body) : Never IsUnsupported (acc.session body) :=
  Never.bind (Never.ofExcept_ok hcheck) fun _ => Never.bind connect_served fun _ =>
    Never.bind (select_served acc.applet) fun _ => hbody

theorem Openpgp.readPubkey_served {curve : Curve} {raw : Bytes} {e : Error}
    (h : readPubkey curve raw = .error e) : ¬ IsUnsupported e := by
  apply pubkeyNotFound_served
  cases curve with
  | ed25519 => exact extractEd25519Pubkey_error (Outcome.map_eq_error_iff.mp h)
  | secp256k1 => exact extractSecp256k1Pubkey_error (Outcome.map_eq_error_iff.mp h)

theorem Piv.readTlv_served {data : Bytes} {tag : UInt8} {e : Error}
    (h : readTlv data tag = .error e) : ¬ IsUnsupported e := by
  obtain ⟨f, rfl⟩ := readTlv_error h
  exact id

theorem Piv.readCertificateKey_served {resp : Bytes} {e : Error}
    (h : readCertificateKey resp = .error e) : ¬ IsUnsupported e := by
  simp only [readCertificateKey, extractCertificate, Outcome.bind_eq_error_iff] at h
  rcases h with (hobject | ⟨object, -, hcert | ⟨cert, -, hempty⟩⟩) | ⟨cert, -, hkey⟩
  · exact readTlv_served hobject
  · exact readTlv_served hcert
  · split at hempty
    · cases hempty
      exact id
    · cases hempty
  · exact pubkeyNotFound_served (scanKey_error hkey)

theorem key_served {acc : Account} {r : KeyReading} (hr : acc.keyReading = .ok r) {resp : Bytes}
    {e : Error} (h : r.key resp = .error e) : ¬ IsUnsupported e := by
  rcases keyReading_cases hr with ⟨-, crt, -, rfl⟩ | ⟨-, tag, -, rfl⟩
  · exact Openpgp.readPubkey_served h
  · exact Piv.readCertificateKey_served (Outcome.map_eq_error_iff.mp h)

theorem Piv.pinPadded_served {pin : String} {e : Error} (h : pinPadded pin = .error e) :
    ¬ IsUnsupported e := by
  simp only [pinPadded] at h
  split at h
  · cases h
    exact id
  · cases h

theorem pinData_served {acc : Account} {message : Bytes} {s : SigningCall}
    (hs : acc.signingCall message = .ok s) {pin : String} {e : Error}
    (h : s.pinData pin = .error e) : ¬ IsUnsupported e := by
  rcases signingCall_cases hs with ⟨-, -, rfl⟩ | ⟨-, -, rfl⟩ | ⟨-, rfl⟩
  · cases h
  · cases h
  · exact Piv.pinPadded_served h

theorem command_served {acc : Account} {message : Bytes} {s : SigningCall}
    (hs : acc.signingCall message = .ok s) {e : Error} (h : s.command = .error e) :
    ¬ IsUnsupported e := by
  rcases signingCall_cases hs with ⟨-, -, rfl⟩ | ⟨-, -, rfl⟩ | ⟨-, rfl⟩
  · exact @buildApdu_served Apdu.cla _ _ _ (some message) (some 0x00) e h
  · exact @buildApdu_served Apdu.cla _ _ _ (some message) (some 0x00) e h
  · cases h

theorem keyReading_served {acc : Account} {r : KeyReading} (hr : acc.keyReading = .ok r) :
    Never IsUnsupported r.run :=
  Never.bind (transmit_served r.command r.bufLen) fun _ => Never.ofExcept fun _ => key_served hr

theorem signingCall_served {acc : Account} {message : Bytes} {s : SigningCall}
    (hs : acc.signingCall message = .ok s) (pin : Option String) :
    Never IsUnsupported (s.run pin) :=
  Never.bind (resolve_served pin s.prompt) fun _ =>
    Never.bind (Never.ofExcept fun _ => pinData_served hs) fun _ =>
    Never.bind (send_served _ _ _ _ _ _ _) fun _ =>
    Never.bind (Never.ofExcept fun _ => command_served hs) fun _ =>
    Never.bind (transmit_served _ _) fun _ =>
    Never.ofExcept fun _ he hkind => signature_never hs he hkind.refusal

/-- A slot of the applet and, for PIV, the one curve that it signs with. -/
theorem supported_of_slotOk {acc : Account} (hslot : acc.applet.slotOk acc.slot)
    (hcurve : acc.applet = .piv → acc.curve = .ed25519) : Supported acc := by
  have hcheck := check_ok hslot hcurve
  have hread : Never IsUnsupported (getPubkey acc) := by
    obtain ⟨r, hr⟩ := exists_keyReading hslot
    rw [getPubkey_eq, hr]
    exact session_served hcheck (keyReading_served hr)
  have hsign : ∀ message pin, Never IsUnsupported (signDispatch acc message pin) := by
    intro message pin
    obtain ⟨s, hs⟩ := exists_signingCall hslot message
    rw [signDispatch_eq, hs]
    exact session_served hcheck (signingCall_served hs pin)
  exact ⟨notUnsupported_of_never hread, fun message =>
    notUnsupported_of_never (hsign message none), fun message pin =>
    notUnsupported_of_never (hsign message (some pin))⟩

end YubiWallet
