import YubiWallet.CardCommands
import YubiWallet.Lib.Discipline

/-! What a command needs of the card: the applet that it is meant for must be selected, and
behind VERIFY stand the commands that sign. Every function of the library sees to it itself. -/
namespace YubiWallet
open Interaction
open Apdu (shortCommand)

/-- What is open on a card: an applet, and the PIN that was last verified since its SELECT. -/
structure Opened where
  applet : Applet
  verified : Option UInt8
deriving DecidableEq

/-- The applet that a command is meant for, and the PIN that it signs with. -/
def needs (command : Bytes) : Option Opened :=
  let ins := command.getD 1 0
  if ins = Apdu.insVerify then
    if command.getD 3 0 = Piv.p2PivPin then some ⟨.piv, none⟩ else some ⟨.openPgp, none⟩
  else if ins = Apdu.insGetPublicKey then some ⟨.openPgp, none⟩
  else if ins = Apdu.insPso then some ⟨.openPgp, some Openpgp.p2Pw1Sign⟩
  else if ins = Apdu.insInternalAuthenticate then some ⟨.openPgp, some Openpgp.p2Pw1Other⟩
  else if ins = Apdu.insGetData then some ⟨.piv, none⟩
  else if ins = Apdu.insGeneralAuthenticate then some ⟨.piv, some Piv.p2PivPin⟩
  else none

def Opened.Offers (o : Opened) (need : Opened) : Prop :=
  o.applet = need.applet ∧ ∀ reference, need.verified = some reference → o.verified = some reference

def Opened.verify (reference : Option UInt8) (o : Opened) : Opened := ⟨o.applet, reference⟩

/-- A SELECT that fails leaves the applet selected, a VERIFY that fails takes the PIN back. -/
def afterExchange (s : Option Opened) (e : Bytes × Except String Bytes) : Option Opened :=
  match Apdu.decodeResponse e.2 with
  | .ok _ =>
    if e.1 = selectCommand .openPgp then some ⟨.openPgp, none⟩
    else if e.1 = selectCommand .piv then some ⟨.piv, none⟩
    else if isVerify e.1 then s.map (Opened.verify (some (e.1.getD 3 0)))
    else s
  | .error _ => if isVerify e.1 then s.map (Opened.verify none) else s

def cardProtocol : Protocol (Option Opened) Bytes (Except String Bytes) where
  Allows s command := (∃ applet, command = selectCommand applet) ∨
    ∃ o need, s = some o ∧ needs command = some need ∧ o.Offers need
  next := afterExchange

/-- From any state to any state, for actions of the library. -/
abbrev CardLeads {α : Type} (s : Option Opened) (p : CardM α) (s' : Option Opened) : Prop :=
  cardProtocol.Leads exchange? s p s'

abbrev KeepsProtocol {α : Type} (p : Prog α) : Prop := cardProtocol.Everywhere exchange? p

theorem afterExchange_select (s : Option Opened) (applet : Applet) {x : Except String Bytes}
    {d : Bytes} (hx : Apdu.decodeResponse x = .ok d) :
    afterExchange s (selectCommand applet, x) = some ⟨applet, none⟩ := by
  unfold afterExchange
  rw [hx]
  cases applet with
  | openPgp => exact if_pos rfl
  | piv =>
    have hne : selectCommand .piv ≠ selectCommand .openPgp := by decide
    exact (if_neg hne).trans (if_pos rfl)

theorem ne_selectCommand {command : Bytes} (hins : command.getD 1 0 ≠ Apdu.insSelect)
    (applet : Applet) : command ≠ selectCommand applet := by
  rintro rfl
  cases applet <;> exact hins rfl

/-- All other commands leave what is open as it is, whatever the answer is. -/
theorem afterExchange_other (s : Option Opened) {command : Bytes} (x : Except String Bytes)
    (hselect : command.getD 1 0 ≠ Apdu.insSelect) (hverify : command.getD 1 0 ≠ Apdu.insVerify) :
    afterExchange s (command, x) = s := by
  have hno : isVerify command = false := decide_eq_false hverify
  unfold afterExchange
  cases Apdu.decodeResponse x with
  | ok d => simp only [if_neg (ne_selectCommand hselect _), hno, Bool.false_eq_true, if_false]
  | error e => simp only [hno, Bool.false_eq_true, if_false]

theorem allows_select (s : Option Opened) (applet : Applet) :
    cardProtocol.Allows s (selectCommand applet) := Or.inl ⟨applet, rfl⟩

theorem allows_of_needs {o need : Opened} {command : Bytes} (hneeds : needs command = some need)
    (h : o.Offers need) : cardProtocol.Allows (some o) command := Or.inr ⟨o, need, rfl, hneeds, h⟩

/-- Operations without the card. -/
def Offline : Op → Prop
  | .transmit _ _ => False
  | _ => True

theorem exchange_offline (op : Op) (x : op.Ans) (h : Offline op) : exchange? ⟨op, x⟩ = none := by
  cases op with
  | transmit command bufLen => cases h
  | _ => rfl

theorem leads_offline {α : Type} {s : Option Opened} {p : CardM α} (hp : Prog.Only Offline p.run) :
    CardLeads s p s :=
  .steady hp fun op x e hop he => by
    rw [exchange_offline op x hop] at he
    cases he

theorem leads_transmit {s s' : Option Opened} {command : Bytes} (bufLen : Nat)
    (hallows : cardProtocol.Allows s command)
    (hnext : ∀ x d, Apdu.decodeResponse x = .ok d → afterExchange s (command, x) = s') :
    CardLeads s (Apdu.transmit command bufLen) s' := by
  unfold CardLeads Protocol.Leads
  rw [Apdu.always_transmit]
  exact fun x => ⟨⟨hallows, trivial⟩, fun d hd => hnext x d hd⟩

theorem leads_send {s s' : Option Opened} {cla ins p1 p2 : UInt8} {data : Bytes}
    {le : Option UInt8} (bufLen : Nat)
    (h : data.length ≤ 255 → CardLeads s
      (Apdu.transmit (shortCommand [cla, ins, p1, p2] data le.toList) bufLen) s') :
    CardLeads s (Apdu.send cla ins p1 p2 (some data) le bufLen) s' :=
  .ofExcept_bind _ fun c hc => by
    obtain ⟨hlen, rfl⟩ := Apdu.buildApdu_some hc
    exact h hlen

theorem leads_connect (s : Option Opened) : CardLeads s Apdu.connect s :=
  leads_offline (Apdu.only_connect trivial)

theorem leads_select (s : Option Opened) (applet : Applet) :
    CardLeads s applet.select (some ⟨applet, none⟩) := by
  have htransmit : CardLeads s (Apdu.transmit (selectCommand applet) 512) (some ⟨applet, none⟩) :=
    leads_transmit 512 (allows_select s applet) fun _ _ hx => afterExchange_select s applet hx
  cases applet with
  | openPgp => exact (leads_send 512 fun _ => htransmit).bind fun _ => .pure ()
  | piv => exact (leads_send 512 fun _ => htransmit).bind fun _ => .pure ()

/-- A command that needs no PIN, or the one that is verified. -/
theorem leads_use {o need : Opened} {command : Bytes} (bufLen : Nat)
    (hneeds : needs command = some need) (hoffers : o.Offers need)
    (hother : command.getD 1 0 ≠ Apdu.insSelect ∧ command.getD 1 0 ≠ Apdu.insVerify) :
    CardLeads (some o) (Apdu.transmit command bufLen) (some o) :=
  leads_transmit bufLen (allows_of_needs hneeds hoffers) fun x _ _ =>
    afterExchange_other _ x hother.1 hother.2

theorem offers_applet (applet : Applet) (verified : Option UInt8) :
    Opened.Offers ⟨applet, verified⟩ ⟨applet, none⟩ := ⟨rfl, fun _ h => nomatch h⟩

/-- A call selects the applet of its account first. -/
theorem session_keeps {α : Type} {acc : Account} {body : CardM α} {s' : Option Opened}
    (hbody : CardLeads (some ⟨acc.applet, none⟩) body s') :
    KeepsProtocol (acc.session body).run :=
  Protocol.Everywhere.of_leads fun s => .ofExcept_bind _ fun _ _ => (leads_connect s).bind fun _ =>
    (leads_select s acc.applet).bind fun _ => hbody

theorem needs_keyReading {acc : Account} {r : KeyReading} (h : acc.keyReading = .ok r) :
    needs r.command = some ⟨acc.applet, none⟩ := by
  rcases keyReading_cases h with ⟨happlet, crt, -, rfl⟩ | ⟨happlet, tag, -, rfl⟩ <;>
    rw [happlet] <;> rfl

theorem getPubkey_keeps (acc : Account) : KeepsProtocol (getPubkey acc).run := by
  rw [getPubkey_eq]
  exact session_keeps (.ofExcept_bind _ fun r hr =>
    (leads_use r.bufLen (needs_keyReading hr) (offers_applet _ _) (keyReading_other hr)).bind
      fun _ => .ofExcept _)

theorem detectAccount_keeps (slot : UInt8) : KeepsProtocol (Openpgp.detectAccount slot).run := by
  have hother : Apdu.insGetPublicKey ≠ Apdu.insSelect ∧ Apdu.insGetPublicKey ≠ Apdu.insVerify := by
    decide
  have hraw : KeepsProtocol (Openpgp.getPubkeyRaw slot).run :=
    Protocol.Everywhere.of_leads fun s => (leads_connect s).bind fun _ =>
      (leads_select s .openPgp).bind fun _ => .ofExcept_bind _ fun _ _ =>
      leads_use 512 rfl (offers_applet .openPgp none) hother
  exact hraw.bind_action fun _ => .pure _

theorem listAccounts_keeps : KeepsProtocol Piv.listAccounts.run := by
  -- GET DATA may fail for a slot, and the state is the same behind it
  have hsteady : Prog.Only (fun op => ∀ x e, exchange? ⟨op, x⟩ = some e →
      cardProtocol.Allows (some ⟨.piv, none⟩) e.1 ∧
        cardProtocol.next (some ⟨.piv, none⟩) e = some ⟨.piv, none⟩)
      (PivSlot.all.mapM Piv.slotInfo) := by
    refine Prog.Only.mapM (fun slot => Prog.Only.bind ?_ fun _ => Prog.Only.pure _) _
    refine Action.only_ofExcept_bind _ fun tag _ => Action.only_bind (Apdu.only_transmit ?_)
      fun _ => Action.only_ofExcept _
    intro x e he
    obtain rfl := Option.some.inj he
    exact ⟨allows_of_needs rfl (offers_applet .piv none),
      afterExchange_other _ x (show Apdu.insGetData ≠ Apdu.insSelect by decide)
        (show Apdu.insGetData ≠ Apdu.insVerify by decide)⟩
  refine Protocol.Everywhere.of_leads fun s => (leads_connect s).bind fun _ =>
    (leads_select s .piv).bind fun _ => .steady (Action.only_lift hsteady) fun op x e hop he => ?_
  exact hop x e he

end YubiWallet
