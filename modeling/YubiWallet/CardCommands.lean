import YubiWallet.CommandOrder

/-! All that the library ever says to a card: seven kinds of commands, none of which
changes what the card holds. -/
namespace YubiWallet
open Interaction
open Apdu (shortCommand)

abbrev ShortData := { d : Bytes // d.length ≤ 255 }

abbrev SlotOf (applet : Applet) := { slot : UInt8 // applet.slotOk slot }

inductive CardCommand where
  | select (applet : Applet)
  | readPublicKey (slot : SlotOf .openPgp)
  | readCertificate (slot : SlotOf .piv)
  | verifyPw1 (slot : SlotOf .openPgp) (pin : ShortData)
  | verifyPiv (padded : BytesN 8)
  | signOpenpgp (slot : SlotOf .openPgp) (message : ShortData)
  | signPiv (slot : SlotOf .piv) (message : Bytes)

namespace CardCommand

theorem certificateTag_isSome (slot : SlotOf .piv) :
    (Piv.slotObjectTag slot.val).toOption.isSome := by
  rw [Piv.slotObjectTag_isSome]
  exact slot.property

def certificateTag (slot : SlotOf .piv) : BytesN 3 :=
  (Piv.slotObjectTag slot.val).toOption.get (certificateTag_isSome slot)

def encode : CardCommand → Bytes
  | select applet => selectCommand applet
  | readPublicKey slot =>
    Openpgp.getPublicKeyCommand (if slot.val = OpenpgpSlot.sig then 0xB6 else 0xA4)
  | readCertificate slot => Piv.getDataCommand (certificateTag slot).val
  | verifyPw1 slot pin =>
    shortCommand [0x00, 0x20, 0x00, if slot.val = OpenpgpSlot.sig then 0x81 else 0x82] pin.val []
  | verifyPiv padded => shortCommand [0x00, 0x20, 0x00, 0x80] padded.val []
  | signOpenpgp slot message =>
    shortCommand (if slot.val = OpenpgpSlot.sig then [0x00, 0x2A, 0x9E, 0x9A] else [0x00, 0x88, 0x00, 0x00])
      message.val [0x00]
  | signPiv slot message => Piv.generalAuthenticateCommand slot.val message

end CardCommand

/-- The headers of what the library says. GET PUBLIC KEY and key generation are one
instruction, told apart by P1: any other P1 than 81 generates a key. -/
def readsOrSigns (ins p1 : UInt8) : Bool :=
  ins = Apdu.insGetPublicKey && p1 = 0x81 ||
    ins ∈ [Apdu.insSelect, Apdu.insVerify, Apdu.insPso, Apdu.insInternalAuthenticate,
      Apdu.insGeneralAuthenticate, Apdu.insGetData]

/-- Everything else: key generation, changes and resets of PINs, writing of data objects, the
life cycle of an application. -/
def MayChange (command : Bytes) : Prop :=
  readsOrSigns (command.getD 1 0) (command.getD 2 0) = false

theorem CardCommand.not_mayChange (cmd : CardCommand) : ¬ MayChange cmd.encode := by
  have hheader : ∀ ins p1 : UInt8, readsOrSigns ins p1 = true → readsOrSigns ins p1 ≠ false :=
    fun ins p1 h => by rw [h]; decide
  cases cmd with
  | select applet =>
    cases applet with
    | openPgp => exact hheader 0xA4 0x04 rfl
    | piv => exact hheader 0xA4 0x04 rfl
  | readPublicKey slot => exact hheader 0x47 0x81 rfl
  | readCertificate slot => exact hheader 0xCB 0x3F rfl
  | verifyPw1 slot pin => exact hheader 0x20 0x00 rfl
  | verifyPiv padded => exact hheader 0x20 0x00 rfl
  | signOpenpgp slot message =>
    by_cases hsig : slot.val = OpenpgpSlot.sig
    · simp only [encode, if_pos hsig]
      exact hheader 0x2A 0x9E rfl
    · simp only [encode, if_neg hsig]
      exact hheader 0x88 0x00 rfl
  | signPiv slot message => exact hheader 0x87 0xE0 rfl

/-- Transmissions are commands of the vocabulary. -/
def Speaks (op : Op) : Prop :=
  ∀ command bufLen, op = .transmit command bufLen → ∃ cmd : CardCommand, command = cmd.encode

theorem speaks_transmit (cmd : CardCommand) (bufLen : Nat) : Speaks (.transmit cmd.encode bufLen) := by
  intro command bufLen' h
  obtain ⟨rfl, -⟩ := Op.transmit.inj h
  exact ⟨cmd, rfl⟩

theorem speaks_of_readsPin {op : Op} (h : op.readsPin = true) : Speaks op := by
  intro command bufLen hop
  rw [hop] at h
  cases h

theorem speaks_connect : Speaks .connect := fun _ _ h => nomatch h

theorem speaks_select (applet : Applet) : Speaks (.transmit (selectCommand applet) 512) :=
  speaks_transmit (.select applet) 512

theorem select_speaks (applet : Applet) : Prog.Only Speaks applet.select.run :=
  only_select (speaks_select applet)

theorem speaks_readPublicKey {slot crt : UInt8} (h : Openpgp.crtTag slot = .ok crt) :
    Speaks (.transmit (Openpgp.getPublicKeyCommand crt) 512) := by
  cases (Openpgp.crtTag_eq_ok_iff slot crt).mp h with
  | inl hsig =>
    rw [hsig.2]
    exact speaks_transmit (.readPublicKey ⟨OpenpgpSlot.sig, Or.inl rfl⟩) 512
  | inr haut =>
    rw [haut.2]
    exact speaks_transmit (.readPublicKey ⟨OpenpgpSlot.aut, Or.inr rfl⟩) 512

theorem certificateTag_of {slot : UInt8} {tag : BytesN 3} (h : Piv.slotObjectTag slot = .ok tag) :
    ∃ s : SlotOf .piv, CardCommand.certificateTag s = tag := by
  have hvalid : PivSlot.isValid slot = true := by
    rw [← Piv.slotObjectTag_isSome, h]
    rfl
  refine ⟨⟨slot, hvalid⟩, ?_⟩
  simp only [CardCommand.certificateTag, h, Except.toOption, Option.get_some]

theorem speaks_readCertificate {slot : UInt8} {tag : BytesN 3}
    (h : Piv.slotObjectTag slot = .ok tag) :
    Speaks (.transmit (Piv.getDataCommand tag.val) 4096) := by
  obtain ⟨s, rfl⟩ := certificateTag_of h
  exact speaks_transmit (.readCertificate s) 4096

theorem detectAccount_speaks (slot : UInt8) : Prog.Only Speaks (Openpgp.detectAccount slot).run := by
  refine Action.only_bind (Action.only_bind (Apdu.only_connect speaks_connect) fun _ =>
    Action.only_bind (select_speaks .openPgp) fun _ =>
    Action.only_ofExcept_bind _ fun crt hcrt => ?_) fun _ => Action.only_ofExcept _
  exact Apdu.only_transmit (speaks_readPublicKey hcrt)

theorem listAccounts_speaks : Prog.Only Speaks Piv.listAccounts.run := by
  refine Action.only_bind (Apdu.only_connect speaks_connect) fun _ =>
    Action.only_bind (select_speaks .piv) fun _ => Action.only_lift <|
    Prog.Only.mapM (fun slot => Prog.Only.bind ?_ fun _ => Prog.Only.pure _) _
  refine Action.only_ofExcept_bind _ fun tag htag => Action.only_bind ?_ fun _ =>
    Action.only_ofExcept _
  exact Apdu.only_transmit (speaks_readCertificate htag)

theorem getPubkey_speaks (acc : Account) : Prog.Only Speaks (getPubkey acc).run := by
  refine only_getPubkey speaks_connect (speaks_select _) fun r _ hr => ?_
  rcases keyReading_cases hr with ⟨-, crt, hcrt, rfl⟩ | ⟨-, tag, htag, rfl⟩
  · exact speaks_readPublicKey hcrt
  · exact speaks_readCertificate htag

theorem resolve_speaks (pin : Option String) (message : String) :
    Prog.Only Speaks (Pin.resolve pin message).run :=
  Pin.only_resolve (fun _ => speaks_of_readsPin rfl) (speaks_of_readsPin rfl) pin message

/-- The PIN and the message are what the commands carry, whatever they are. -/
theorem signDispatch_speaks (acc : Account) (message : Bytes) (pin : Option String) :
    Prog.Only Speaks (signDispatch acc message pin).run := by
  refine only_signDispatch speaks_connect (speaks_select _) (resolve_speaks pin)
    (fun s userPin data hs hdata hlen => ?_) fun s c hcheck hs hc => ?_
  · rcases signingCall_cases hs with ⟨-, -, rfl⟩ | ⟨-, -, rfl⟩ | ⟨-, rfl⟩
    · exact speaks_transmit (.verifyPw1 ⟨OpenpgpSlot.sig, Or.inl rfl⟩ ⟨data, hlen⟩) 512
    · exact speaks_transmit (.verifyPw1 ⟨OpenpgpSlot.aut, Or.inr rfl⟩ ⟨data, hlen⟩) 512
    · exact speaks_transmit (.verifyPiv ⟨data, Piv.pinPadded_length hdata⟩) 512
  · rcases signingCall_cases hs with ⟨-, -, rfl⟩ | ⟨-, -, rfl⟩ | ⟨happlet, rfl⟩
    · obtain ⟨hlen, rfl⟩ := Openpgp.signingCall_command hc
      exact speaks_transmit (.signOpenpgp ⟨OpenpgpSlot.sig, Or.inl rfl⟩ ⟨message, hlen⟩) 512
    · obtain ⟨hlen, rfl⟩ := Openpgp.signingCall_command hc
      exact speaks_transmit (.signOpenpgp ⟨OpenpgpSlot.aut, Or.inr rfl⟩ ⟨message, hlen⟩) 512
    · obtain rfl := Except.ok.inj hc
      exact speaks_transmit (.signPiv ⟨acc.slot, (check_piv happlet hcheck).2⟩ message) 4096

end YubiWallet
