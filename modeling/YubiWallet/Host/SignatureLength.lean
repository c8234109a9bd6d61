import YubiWallet.Host.CurveGuard
import YubiWallet.OpenpgpCommands
import YubiWallet.Templates

/-! The length of the signature that `sign_ed25519` hands on, against any card. -/
namespace YubiWallet.Host
open Interaction Outcome

/-- The value of the signature in a successful response: the data of an OpenPGP response,
or the value of `82` in the template `7C` of a PIV response. -/
def GivesSignature (applet : Applet) (x : Except String Bytes) (v : Bytes) : Prop :=
  ∃ d, Carries x d ∧ match applet with
    | .openPgp => v = d
    | .piv => ∃ inner, Ber.Locates Piv.tagDynamicAuth inner d ∧
        Ber.Locates Piv.tagResponse v inner

def signatureJson (sig : Bytes) : Value := .obj [("signature", .str (Hex.encode sig))]

/-- A signature that the card gives the account has 64 bytes. -/
def AnswersSixtyFour (acc : Account) (t : Trace) : Prop :=
  ∀ c x v, (c, x) ∈ exchanges t → isSigning c → GivesSignature acc.applet x v → v.length = 64

/-- A success carries the digits of 64 bytes, and a signature of another length in the
card's answer is an error. -/
structure SixtyFourBytes (C : Crates) (params : Value) (result : MethodResult) (t : Trace) :
    Prop where
  success : ∀ v, result = .ok v → ∃ sig : BytesN 64, v = signatureJson sig.val
  refusal : ∀ acc message, ed25519Args C params = .ok (acc, message) →
    ∀ c x v, (c, x) ∈ exchanges t → isSigning c → GivesSignature acc.applet x v →
      v.length ≠ 64 → ∃ e, result = .error e

theorem avoids_transmit {command : Bytes} (h : isSigning command = false) (bufLen : Nat) :
    Avoids exchange? (isSigning ·) (.transmit command bufLen) := by
  intro x c a hobs hsig
  obtain ⟨rfl, -⟩ := Prod.mk.inj (Option.some.inj hobs)
  rw [h] at hsig
  cases hsig

theorem avoids_of_readsCard {op : Op} (h : ReadsCard op) :
    Avoids exchange? (isSigning ·) op := by
  intro x c a hobs
  have hcommand : c ∈ commands [⟨op, x⟩] :=
    List.mem_filterMap.mpr ⟨_, List.mem_cons_self, by rw [command?, hobs]; rfl⟩
  have hquiet := not_isSigning_of_readsCard (List.forall_mem_singleton.mpr h) c hcommand
  intro hsig
  rw [hquiet] at hsig
  cases hsig

theorem avoids_of_asksPin {op : Op} (h : AsksPin op) : Avoids exchange? (isSigning ·) op := by
  intro x c a hobs
  cases op with
  | transmit command bufLen => cases h
  | _ => cases hobs

theorem verify_avoids (reference : UInt8) (data : Bytes) :
    Prog.Only (Avoids exchange? (isSigning ·))
      (Apdu.send Apdu.cla Apdu.insVerify 0x00 reference (some data) none 512).run := by
  apply Apdu.only_send
  intro c hc
  apply avoids_transmit
  rw [isSigning, hc]
  decide

theorem transmit_settles (command : Bytes) (bufLen : Nat) :
    Settles exchange? (isSigning ·) (fun _ x d => Carries x d)
      (Apdu.transmit command bufLen) := by
  unfold Settles
  rw [Apdu.always_transmit]
  intro y c x hmem _ d hd
  obtain ⟨-, rfl⟩ := Prod.mk.inj (List.mem_singleton.mp hmem)
  exact (Apdu.decodeResponse_eq_ok_iff x d).mpr hd

theorem parseSignatureResponse_ok_iff_locates (d v : Bytes) :
    Piv.parseSignatureResponse d = .ok v ↔
      ∃ inner, Ber.Locates Piv.tagDynamicAuth inner d ∧ Ber.Locates Piv.tagResponse v inner := by
  rw [Piv.parseSignatureResponse, bind_eq_ok_iff]
  simp only [Piv.readTlv_ok_iff_locates]

/-- What the card gives as the signature is what the call reads. -/
theorem givesSignature_iff {acc : Account} {message : Bytes} {s : SigningCall}
    (hs : acc.signingCall message = .ok s) (x : Except String Bytes) (v : Bytes) :
    GivesSignature acc.applet x v ↔ ∃ d, Carries x d ∧ s.signature d = .ok v := by
  unfold GivesSignature
  have hdata : ∀ d : Bytes, v = d ↔ (Except.ok d : Except Error Bytes) = .ok v := fun d => by
    rw [Except.ok.injEq, eq_comm]
  rcases signingCall_cases hs with ⟨happlet, -, rfl⟩ | ⟨happlet, -, rfl⟩ | ⟨happlet, rfl⟩ <;>
    rw [happlet]
  · exact exists_congr fun d => and_congr_right fun _ => hdata d
  · exact exists_congr fun d => and_congr_right fun _ => hdata d
  · exact exists_congr fun d => and_congr_right fun _ =>
      (parseSignatureResponse_ok_iff_locates d v).symm

/-- Behind SELECT and VERIFY, the signing command is the one that settles the result. -/
theorem signWithPin_settles (acc : Account) (message : Bytes) (pin : String) :
    Settles exchange? (isSigning ·) (fun _ x v => GivesSignature acc.applet x v)
      (signWithPin acc message pin) := by
  rw [signWithPin, signDispatch_eq]
  have hconnect : Prog.Only (Avoids exchange? (isSigning ·)) Apdu.connect.run :=
    Apdu.only_connect (avoids_of_readsCard trivial)
  have hselect := (select_readsCard acc.applet).mono fun _ => avoids_of_readsCard
  refine Settles.ofExcept_bind fun _ _ => Settles.bind hconnect fun _ =>
    Settles.bind hselect fun _ => Settles.ofExcept_bind fun s hs => ?_
  refine Settles.bind (Prog.Only.pure _) fun userPin => Settles.ofExcept_bind fun data _ =>
    Settles.bind (verify_avoids s.reference data) fun _ => Settles.ofExcept_bind fun c _ => ?_
  exact ((transmit_settles c s.bufLen).ofExcept s.signature).mono fun _ x v hv =>
    (givesSignature_iff hs x v).mp hv

/-- A success of `sign_with_pin` is the signature in the answer to a signing command. -/
theorem gives_of_reads {acc : Account} {message : Bytes} {pin : String} {c : Bytes}
    {x : Except String Bytes} {v : Bytes} (h : Reads acc message pin c x v) :
    isSigning c ∧ GivesSignature acc.applet x v := by
  obtain ⟨p, d, hplan, -, rfl, hx, hread⟩ := h
  unfold GivesSignature
  rcases plan_cases hplan with ⟨happlet, rfl | rfl⟩ | ⟨happlet, -, rfl⟩ <;> rw [happlet]
  · exact ⟨rfl, d, hx, (Option.some.inj hread).symm⟩
  · exact ⟨rfl, d, hx, (Option.some.inj hread).symm⟩
  · have hparsed := (Piv.parseSignatureResponse_eq_ok_iff d v).mpr hread
    exact ⟨rfl, d, hx, (parseSignatureResponse_ok_iff_locates d v).mp hparsed⟩

/-- The card gives the account of a request the signature that `v` carries. -/
def HandsOn (C : Crates) (params : Value) (x : Except String Bytes) (v : Value) : Prop :=
  ∃ acc message sig, ed25519Args C params = .ok (acc, message) ∧
    GivesSignature acc.applet x sig ∧ v = signatureJson sig

theorem signEd25519_settles (C : Crates) (params : Value) :
    Settles exchange? (isSigning ·) (fun _ x v => HandsOn C params x v)
      (signEd25519 C params) := by
  apply Settles.ofExcept_bind
  intro args hargs
  obtain ⟨acc, message⟩ := args
  have hpin : Prog.Only (Avoids exchange? (isSigning ·)) hostPin.run :=
    Action.only_mapErr (readPin_only.mono fun _ => avoids_of_asksPin) _
  apply Settles.bind hpin
  intro pin
  have hcard := ((signWithPin_settles acc message pin).mapErr cardErr).ofExcept
    fun sig => .ok (signatureJson sig)
  refine hcard.mono fun c x v hv => ?_
  obtain ⟨acc', message', sig, hargs', hsig, rfl⟩ := hv
  obtain ⟨rfl, -⟩ : acc = acc' ∧ message = message' := by simpa [hargs] using hargs'
  exact ⟨sig, hsig, rfl⟩

theorem signEd25519_handsOn (C : Crates) (params : Value) :
    Prog.Always (signEd25519 C params).run fun t r => ∀ v, r = .ok v →
      ∃ c x, (c, x) ∈ exchanges t ∧ isSigning c ∧ HandsOn C params x v := by
  refine Action.always_ofExcept_bind_of (fun _ _ _ h => nomatch h) fun args hargs => ?_
  obtain ⟨acc, message⟩ := args
  refine Action.always_bind_of hostPin_silent (fun _ _ _ _ h => nomatch h) fun t pin _ => ?_
  refine Action.always_mapErr_bind_of (signWithPin_fromLast acc message pin)
    (fun _ _ _ _ h => nomatch h) fun t' sig hr => ?_
  intro v hv
  obtain ⟨u, c, x, hu, hreads⟩ := hr sig rfl
  obtain ⟨hsigning, hgives⟩ := gives_of_reads hreads
  refine ⟨c, x, ?_, hsigning, acc, message, sig, hargs, hgives, (Except.ok.inj hv).symm⟩
  change exchanges t' = _ at hu
  rw [List.append_nil, exchanges_append, hu]
  simp

/-- `sign_ed25519` succeeds exactly with what the card gives as the signature. -/
theorem signEd25519_ok_iff (C : Crates) (params : Value) :
    Prog.Always (signEd25519 C params).run fun t r => ∀ v, r = .ok v ↔
      ∃ c x, (c, x) ∈ exchanges t ∧ isSigning c ∧ HandsOn C params x v := by
  have hboth := Prog.Always.and (signEd25519_handsOn C params) (signEd25519_settles C params)
  refine hboth.mono fun t r hr v => ?_
  constructor
  · exact hr.1 v
  · intro h
    obtain ⟨c, x, hmem, hsigning, hv⟩ := h
    exact hr.2 c x hmem hsigning v hv

theorem signatureJson_length {sig sig' : Bytes} (h : signatureJson sig = signatureJson sig') :
    sig.length = sig'.length := by
  have hhex : Hex.encode sig = Hex.encode sig' := by simpa [signatureJson] using h
  have hlen := congrArg String.length hhex
  rw [Hex.encode_length, Hex.encode_length] at hlen
  omega

/-- `sign_ed25519` hands on 64 bytes exactly where the card gives no signature of another
length: there is no check of its own. -/
theorem signEd25519_sixtyFourBytes_iff (C : Crates) (params : Value) (env : Env) (h : Trace) :
    let out := Prog.run env (signEd25519 C params).run h
    SixtyFourBytes C params out.1 out.2 ↔
      ∀ acc message, ed25519Args C params = .ok (acc, message) → AnswersSixtyFour acc out.2 := by
  intro out
  have hok := (signEd25519_ok_iff C params).run env h
  constructor
  · intro hlength acc message hargs c x sig hmem hsigning hgives
    have hresult := (hok (signatureJson sig)).mpr
      ⟨c, x, hmem, hsigning, acc, message, sig, hargs, hgives, rfl⟩
    obtain ⟨sig', hsig'⟩ := hlength.success _ hresult
    exact (signatureJson_length hsig').trans sig'.property
  · intro hanswers
    constructor
    · intro v hv
      obtain ⟨c, x, hmem, hsigning, acc, message, sig, hargs, hgives, rfl⟩ := (hok v).mp hv
      exact ⟨⟨sig, hanswers acc message hargs c x sig hmem hsigning hgives⟩, rfl⟩
    · intro acc message hargs c x sig hmem hsigning hgives hlength
      exact absurd (hanswers acc message hargs c x sig hmem hsigning hgives) hlength

/-- A card whose answers to the signing commands are cut off: three bytes, or a template
with an empty signature. -/
def shortEnv : Env := fun h op =>
  match op with
  | .transmit command _ =>
    if command.getD 1 0 = Apdu.insPso then Except.ok [0x01, 0x02, 0x03, 0x90, 0x00]
    else if command.getD 1 0 = Apdu.insGeneralAuthenticate then
      Except.ok [0x7C, 0x02, 0x82, 0x00, 0x90, 0x00]
    else Apdu.success
  | other => sampleEnv h other

def messageFor (account : String) : Value :=
  .obj [("account_id", .str account), ("message", .str "00")]

theorem signEd25519_short :
    ((Prog.run shortEnv (signEd25519 sampleCrates (messageFor "openpgp:sig:ed25519")).run []).1 =
        .ok (signatureJson [0x01, 0x02, 0x03]) ∧
      (Prog.run shortEnv (signEd25519 sampleCrates (messageFor "piv:9a:ed25519")).run []).1 =
        .ok (signatureJson [])) ∧
    ¬ ∀ C params env h,
      let out := Prog.run env (signEd25519 C params).run h
      SixtyFourBytes C params out.1 out.2 := by
  have hopenpgp : (Prog.run shortEnv
      (signEd25519 sampleCrates (messageFor "openpgp:sig:ed25519")).run []).1 =
        .ok (signatureJson [0x01, 0x02, 0x03]) := rfl
  have hpiv : (Prog.run shortEnv
      (signEd25519 sampleCrates (messageFor "piv:9a:ed25519")).run []).1 =
        .ok (signatureJson []) := by
    refine ((signEd25519_ok_iff _ _).run shortEnv [] _).mpr
      ⟨Piv.generalAuthenticateCommand PivSlot.auth [0x00],
        Except.ok [0x7C, 0x02, 0x82, 0x00, 0x90, 0x00], .tail _ (.tail _ (.head _)), rfl, ?_⟩
    refine ⟨⟨.piv, PivSlot.auth, .ed25519⟩, [0x00], [], by decide, ?_, rfl⟩
    refine ⟨[0x7C, 0x02, 0x82, 0x00], rfl, [0x82, 0x00], ?_, ?_⟩
    · apply (Ber.find_eq_some_iff _ _ _).mp
      exact find_berLen Piv.tagDynamicAuth (v := [0x82, 0x00]) (by decide)
    · apply (Ber.find_eq_some_iff _ _ _).mp
      exact find_berLen Piv.tagResponse (v := []) (by decide)
  refine ⟨⟨hopenpgp, hpiv⟩, fun hall => ?_⟩
  obtain ⟨sig, hsig⟩ := (hall sampleCrates (messageFor "openpgp:sig:ed25519") shortEnv []).success
    _ hopenpgp
  have hlength : 3 = sig.val.length := signatureJson_length hsig
  rw [sig.property] at hlength
  cases hlength

end YubiWallet.Host
