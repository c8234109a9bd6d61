import YubiWallet.Lib.Refusal
import YubiWallet.OpenpgpCommands
import YubiWallet.Templates

/-! Requests that the library itself refuses, and what they cost on the card. -/
namespace YubiWallet
open Interaction

/-- Errors that are decided from the arguments of the call. -/
def LibraryRefusal : Error → Prop
  | .unsupported _ | .dataTooLong _ => True
  | .parse m => m = "PIV PIN must be at most 8 characters"
  | _ => False

/-- No VERIFY was sent, so that no counter or state of the PIN that only VERIFY changes
has changed. -/
def CostsNoAttempt (t : Trace) : Prop :=
  (∀ c ∈ commands t, isVerify c = false) ∧
  ∀ (σ : Type) (next : σ → Bytes × Except String Bytes → σ),
    (∀ s c x, isVerify c = false → next s (c, x) = s) →
    ∀ s, (exchanges t).foldl next s = s

def NotVerify : Op → Prop
  | .transmit c _ => isVerify c = false
  | _ => True

theorem commands_notVerify {t : Trace} (h : ∀ e ∈ t, NotVerify e.op) :
    ∀ c ∈ commands t, isVerify c = false := by
  intro c hc
  obtain ⟨e, he, bufLen, hop⟩ := mem_commands.mp hc
  have hquiet := h e he
  rw [hop] at hquiet
  exact hquiet

/-- A run without VERIFY leaves everything as it is that only VERIFY changes. -/
theorem costsNoAttempt_of_notVerify {t : Trace} (h : ∀ e ∈ t, NotVerify e.op) :
    CostsNoAttempt t := by
  refine ⟨commands_notVerify h, ?_⟩
  intro σ next hnext s
  induction t with
  | nil => rfl
  | cons e t ih =>
    obtain ⟨he, ht⟩ := List.forall_mem_cons.mp h
    cases hx : exchange? e with
    | none =>
      have hskip : exchanges (e :: t) = exchanges t := List.filterMap_cons_none hx
      rw [hskip]
      exact ih ht
    | some p =>
      obtain ⟨c, x⟩ := p
      have hcons : exchanges (e :: t) = (c, x) :: exchanges t := List.filterMap_cons_some hx
      have hquiet : isVerify c = false := by
        apply commands_notVerify (t := [e]) (List.forall_mem_singleton.mpr he)
        rw [commands, List.filterMap_cons_some (by rw [command?, hx]; rfl)]
        exact List.mem_cons_self
      rw [hcons, List.foldl_cons, hnext s c x hquiet]
      exact ih ht

theorem decodeResponse_never {x : Except String Bytes} {e : Error}
    (h : Apdu.decodeResponse x = .error e) : ¬ LibraryRefusal e := by
  cases x with
  | error m =>
    obtain rfl := Except.error.inj h
    exact id
  | ok resp =>
    simp only [Apdu.decodeResponse] at h
    split at h
    · obtain rfl := Except.error.inj h
      exact id
    · split at h
      · cases h
      · obtain rfl := Except.error.inj h
        exact id

theorem transmit_never (command : Bytes) (bufLen : Nat) :
    Never LibraryRefusal (Apdu.transmit command bufLen) := by
  unfold Never
  rw [Apdu.always_transmit]
  intro x e he
  exact decodeResponse_never he

theorem send_never {cla ins p1 p2 : UInt8} {data : Bytes} (le : Option UInt8)
    (h : data.length ≤ 255) (bufLen : Nat) :
    Never LibraryRefusal (Apdu.send cla ins p1 p2 (some data) le bufLen) := by
  apply Never.bind
  · apply Never.ofExcept
    intro e he
    simp only [Apdu.buildApdu, if_neg (by omega : ¬ data.length > 255)] at he
    cases he
  · intro command
    exact transmit_never command bufLen

theorem head?_append (s t : String) {c : Char} (h : s.toList.head? = some c) :
    (s ++ t).toList.head? = some c := by
  rw [String.toList_append, List.head?_append, h]
  rfl

/-- The texts of the reader begin otherwise than the one about the PIN. -/
theorem tlvFailure_never (f : Piv.TlvFailure) : ¬ LibraryRefusal (.parse f.text) := by
  intro h
  have htext : f.text = "PIV PIN must be at most 8 characters" := h
  have hhead : f.text.toList.head? = some 'P' := by
    rw [htext]
    rfl
  have hfirst : f.text.toList.head? = some 'T' ∨ f.text.toList.head? = some 'b' := by
    cases f with
    | truncated => exact Or.inl rfl
    | badLength first => exact Or.inr (head?_append "bad BER length byte " _ (by decide))
    | overrun t =>
      exact Or.inl (head?_append ("TLV " ++ fmtHash04x t) " overruns buffer"
        (head?_append "TLV " _ (by decide)))
    | notFound tag =>
      exact Or.inl (head?_append ("TLV tag " ++ fmtHash04x tag) " not found"
        (head?_append "TLV tag " _ (by decide)))
  rw [hhead] at hfirst
  exact absurd hfirst (by decide)

theorem parseSignatureResponse_never {resp : Bytes} {e : Error}
    (h : Piv.parseSignatureResponse resp = .error e) : ¬ LibraryRefusal e := by
  cases Outcome.bind_eq_error_iff.mp h with
  | inl houter =>
    obtain ⟨f, rfl⟩ := Piv.readTlv_error houter
    exact tlvFailure_never f
  | inr hrest =>
    obtain ⟨dynamic, -, hinner⟩ := hrest
    obtain ⟨f, rfl⟩ := Piv.readTlv_error hinner
    exact tlvFailure_never f

/-- The OpenPGP applet discovers that the message is too long when VERIFY is done. -/
def LateRefusal (acc : Account) (message : Bytes) (pin : String) : Prop :=
  acc.applet = .openPgp ∧ acc.applet.slotOk acc.slot ∧ (asBytes pin).length ≤ 255 ∧
    255 < message.length

theorem signature_never {acc : Account} {message : Bytes} {s : SigningCall}
    (hs : acc.signingCall message = .ok s) {resp : Bytes} {e : Error}
    (h : s.signature resp = .error e) : ¬ LibraryRefusal e := by
  rcases signingCall_cases hs with ⟨-, -, rfl⟩ | ⟨-, -, rfl⟩ | ⟨-, rfl⟩
  · cases h
  · cases h
  · exact parseSignatureResponse_never h

theorem buildApdu_fits {ins p1 p2 : UInt8} {message : Bytes} {e : Error}
    (h : Apdu.buildApdu Apdu.cla ins p1 p2 (some message) (some 0x00) = .error e) :
    255 < message.length := by
  by_contra hfits
  rw [Apdu.buildApdu, if_neg hfits] at h
  cases h

/-- Behind VERIFY, only a signing command that does not fit is refused. -/
theorem command_never {acc : Account} {message : Bytes} {pin : String} {s : SigningCall}
    (hs : acc.signingCall message = .ok s) (h : ¬ LateRefusal acc message pin) {data : Bytes}
    (hdata : s.pinData pin = .ok data) (hlen : data.length ≤ 255) {e : Error} :
    s.command ≠ .error e := by
  intro he
  refine h ?_
  rcases signingCall_cases hs with ⟨happlet, hslot, rfl⟩ | ⟨happlet, hslot, rfl⟩ | ⟨-, rfl⟩
  · obtain rfl := Except.ok.inj hdata
    rw [LateRefusal, happlet]
    exact ⟨rfl, Or.inl hslot, hlen, buildApdu_fits he⟩
  · obtain rfl := Except.ok.inj hdata
    rw [LateRefusal, happlet]
    exact ⟨rfl, Or.inr hslot, hlen, buildApdu_fits he⟩
  · cases he

theorem signingCall_early {acc : Account} {message : Bytes} {pin : String} {s : SigningCall}
    (hs : acc.signingCall message = .ok s) (h : ¬ LateRefusal acc message pin) :
    Early LibraryRefusal NotVerify (s.run (some pin)) := by
  change Early LibraryRefusal NotVerify (Action.ofExcept (s.pinData pin) >>= fun data =>
    Apdu.send Apdu.cla Apdu.insVerify 0x00 s.reference (some data) none 512 >>= fun _ =>
      Action.ofExcept s.command >>= fun c => Apdu.transmit c s.bufLen >>= fun resp =>
        Action.ofExcept (s.signature resp))
  apply Early.ofExcept_bind
  intro data hdata
  by_cases hlen : data.length ≤ 255
  · -- from here on, what fails is the card's answer
    apply Early.of_never
    apply Never.bind (send_never none hlen 512)
    intro _
    apply Never.bind
    · apply Never.ofExcept
      intro e he
      exact absurd he (command_never hs h hdata hlen)
    · intro c
      apply Never.bind (transmit_never c s.bufLen)
      intro resp
      exact Never.ofExcept fun e he => signature_never hs he
  · rw [Apdu.send_long none (by omega) 512]
    exact Early.throw _

theorem signWithPin_early {acc : Account} {message : Bytes} {pin : String}
    (h : ¬ LateRefusal acc message pin) :
    Early LibraryRefusal NotVerify (signWithPin acc message pin) := by
  rw [signWithPin, signDispatch_eq]
  have hselect : Prog.Only NotVerify acc.applet.select.run :=
    only_select (by cases acc.applet <;> rfl)
  apply Early.ofExcept_bind
  intro _ _
  apply Early.bind_only (Apdu.only_connect trivial)
  intro _
  apply Early.bind_only hselect
  intro _
  apply Early.ofExcept_bind
  intro s hs
  exact signingCall_early hs h

/-- The calls whose refusals cost no attempt on any card: all but those to the OpenPGP
applet with a PIN that fits a command and a message that does not. -/
theorem signWithPin_refusal_iff (acc : Account) (message : Bytes) (pin : String) :
    (∀ (env : Env) (h : Trace) (e : Error),
      (Prog.run env (signWithPin acc message pin).run h).1 = .error e → LibraryRefusal e →
      CostsNoAttempt (Prog.run env (signWithPin acc message pin).run h).2) ↔
      ¬ LateRefusal acc message pin := by
  constructor
  · intro hall hlate
    obtain ⟨happlet, hslot, hpin, hlong⟩ := hlate
    rw [happlet] at hslot
    have halways : Prog.Always (signWithPin acc message pin).run fun t r =>
        ∀ e, r = .error e → LibraryRefusal e → CostsNoAttempt t := by
      rw [← Prog.forall_run_iff ans_nonempty]
      intro env h e he hrefusal
      exact hall env h e he hrefusal
    have hsign : signWithPin acc message pin = Openpgp.sign acc message (some pin) := by
      unfold signWithPin signDispatch
      rw [happlet]
    rw [hsign] at halways
    obtain ⟨t, r, hgives, -, hverify, -, hrefused⟩ :=
      @Openpgp.gives_sign acc hslot message (some pin) (.ok "") pin rfl hpin
    obtain ⟨p2, hmem⟩ := hverify
    have hcosts := (halways.of_gives hgives _ (hrefused hlong) trivial).1 _ hmem
    cases hcosts
  · intro hnot env h e he hrefusal
    apply costsNoAttempt_of_notVerify
    exact (signWithPin_early hnot).run env h e he hrefusal

/-- 256 bytes for the OpenPGP applet: the PIN is verified before the refusal. -/
theorem signWithPin_long_message :
    let out := Prog.run Openpgp.agreeing (signWithPin ⟨.openPgp, OpenpgpSlot.sig, .ed25519⟩
      (List.replicate 256 0x00) "123456").run []
    out.1 = .error (.dataTooLong 256) ∧
      [0x00, 0x20, 0x00, 0x81, 0x06, 0x31, 0x32, 0x33, 0x34, 0x35, 0x36] ∈ commands out.2 ∧
      ¬ CostsNoAttempt out.2 := by
  intro out
  have hsent : [0x00, 0x20, 0x00, 0x81, 0x06, 0x31, 0x32, 0x33, 0x34, 0x35, 0x36] ∈
      commands out.2 := by decide +kernel
  refine ⟨by decide +kernel, hsent, fun h => ?_⟩
  have hquiet := h.1 _ hsent
  cases hquiet

end YubiWallet
