import YubiWallet.Calls
import YubiWallet.Lib.Outcome

/-! A card whose contents do not change: what it answers depends on the command and on
the application selected in the running session, on nothing else. -/
namespace YubiWallet
open Interaction Outcome
open Apdu (shortCommand)

def isSelect (command : Bytes) : Bool := command.getD 1 0 = Apdu.insSelect

def selectAid (aid : Bytes) : Bytes := shortCommand [0x00, 0xA4, 0x04, 0x00] aid []

/-- A connection begins without a selection. -/
def selectStep (s : Option Bytes) (e : Event Op Op.Ans) : Option Bytes :=
  match e.op with
  | .connect => none
  | .transmit command _ => if isSelect command then some command else s
  | _ => s

/-- The last SELECT of the running session. -/
def selected (h : Trace) : Option Bytes := h.foldl selectStep none

theorem selected_append (h t : Trace) : selected (h ++ t) = t.foldl selectStep (selected h) :=
  List.foldl_append

/-- A command other than SELECT. -/
def Keeps (op : Op) : Prop := ∃ command bufLen, op = .transmit command bufLen ∧
  isSelect command = false

theorem selected_append_of_keeps (h : Trace) {t : Trace} (ht : ∀ e ∈ t, Keeps e.op) :
    selected (h ++ t) = selected h := by
  rw [selected_append]
  generalize selected h = s
  induction t with
  | nil => rfl
  | cons e t ih =>
    obtain ⟨command, bufLen, hop, hselect⟩ := ht e List.mem_cons_self
    have hstep : selectStep s e = s := by
      simp [selectStep, hop, hselect]
    rw [List.foldl_cons, hstep]
    exact ih fun e' he' => ht e' (List.mem_cons_of_mem e he')

structure StaticCard where
  connection : Connection
  answer : Option Bytes → Bytes → Nat → Except String Bytes

namespace StaticCard

/-- The card that `env` answers for, in all sessions. Everything else is arbitrary. -/
structure Holds (card : StaticCard) (env : Env) : Prop where
  connects : ∀ h, env h .connect = card.connection
  answers : ∀ h command bufLen,
    env h (.transmit command bufLen) = card.answer (selected h) command bufLen

/-- What opening a session with an application comes to. -/
def session (card : StaticCard) (aid : Bytes) : Except Error Unit := do
  Apdu.connectionResult card.connection
  let _ ← Apdu.decodeResponse (card.answer none (selectAid aid) 512)
  pure ()

/-- The answer to GET PUBLIC KEY for a slot. -/
def publicKey (card : StaticCard) (slot : UInt8) : Except Error Bytes := do
  let crt ← Openpgp.crtTag slot
  Apdu.decodeResponse
    (card.answer (some (selectAid Openpgp.aid)) (Openpgp.getPublicKeyCommand crt) 512)

def certificateKey (card : StaticCard) (slot : UInt8) : Except Error (BytesN 32) := do
  let tag ← Piv.slotObjectTag slot
  let resp ← Apdu.decodeResponse
    (card.answer (some (selectAid Piv.aid)) (Piv.getDataCommand tag.val) 4096)
  Piv.readCertificateKey resp

/-- Whatever happens behind `connect` and SELECT happens in a session of the
application. -/
theorem run_session {card : StaticCard} {env : Env} (hcard : card.Holds env) {α : Type}
    {aid : Bytes} (haid : aid.length ≤ 255) (body : CardM α) (h : Trace) :
    ∃ h', selected h' = some (selectAid aid) ∧
      (Prog.run env (Apdu.connect >>= fun _ =>
        (Apdu.send Apdu.cla Apdu.insSelect 0x04 0x00 (some aid) none 512 >>= fun _ => pure ()) >>=
          fun _ => body : CardM α).run h).1 =
        card.session aid >>= fun _ => (Prog.run env body.run h').1 := by
  let connected : Trace := [⟨.connect, card.connection⟩]
  have hconnect : Prog.run env Apdu.connect.run h =
      (Apdu.connectionResult card.connection, connected) := by
    rw [Apdu.run_connect, hcard.connects]
  have hnone : selected (h ++ connected) = none := by
    rw [selected_append]
    rfl
  have hselect : Prog.run env (Apdu.send Apdu.cla Apdu.insSelect 0x04 0x00 (some aid) none
      512).run (h ++ connected) =
      (Apdu.decodeResponse (card.answer none (selectAid aid) 512),
        [⟨.transmit (selectAid aid) 512, card.answer none (selectAid aid) 512⟩]) := by
    have hanswer := hcard.answers (h ++ connected) (selectAid aid) 512
    rw [hnone] at hanswer
    rw [← hanswer]
    exact Apdu.run_send env haid 512 (h ++ connected)
  refine ⟨h ++ connected ++
    [⟨.transmit (selectAid aid) 512, card.answer none (selectAid aid) 512⟩], ?_, ?_⟩
  · rw [selected_append]
    rfl
  · unfold session
    cases hconn : Apdu.connectionResult card.connection with
    | error e =>
      rw [hconn] at hconnect
      rw [Action.run_bind_error hconnect]
      rfl
    | ok u =>
      rw [hconn] at hconnect
      rw [Action.run_bind_ok hconnect]
      cases hresp : Apdu.decodeResponse (card.answer none (selectAid aid) 512) with
      | error e =>
        rw [hresp] at hselect
        rw [Action.run_bind_error (Action.run_bind_error hselect)]
        rfl
      | ok d =>
        rw [hresp] at hselect
        have hdone := Action.run_bind_ok (f := fun _ => (pure () : CardM Unit)) hselect
        rw [Action.run_bind_ok hdone]
        simp only [Prog.run_pure, ExceptT.run_pure, List.append_nil]
        rfl

theorem run_getPubkeyRaw {card : StaticCard} {env : Env} (hcard : card.Holds env)
    (slot : UInt8) (h : Trace) :
    (Prog.run env (Openpgp.getPubkeyRaw slot).run h).1 =
      card.session Openpgp.aid >>= fun _ => card.publicKey slot := by
  obtain ⟨h', hsel, hrun⟩ := run_session hcard (by decide : Openpgp.aid.length ≤ 255)
    (Openpgp.getPubkeyRawOn slot) h
  refine hrun.trans ?_
  rw [Openpgp.getPubkeyRawOn, Action.run_ofExcept_bind]
  simp only [Apdu.run_transmit, hcard.answers, hsel]
  rfl

theorem run_detectAccount {card : StaticCard} {env : Env} (hcard : card.Holds env)
    (slot : UInt8) (h : Trace) :
    (Prog.run env (Openpgp.detectAccount slot).run h).1 =
      card.session Openpgp.aid >>= fun _ => card.publicKey slot >>= Openpgp.classify slot := by
  rw [Openpgp.detectAccount, Action.run_bind_ofExcept, run_getPubkeyRaw hcard, bind_assoc]

theorem run_fetchEd25519Pubkey {card : StaticCard} {env : Env} (hcard : card.Holds env)
    (slot : UInt8) {h : Trace} (hsel : selected h = some (selectAid Piv.aid)) :
    (Prog.run env (Piv.fetchEd25519Pubkey slot).run h).1 = card.certificateKey slot := by
  rw [Piv.fetchEd25519Pubkey, Action.run_ofExcept_bind]
  simp only [Action.run_bind_ofExcept, Apdu.run_transmit, hcard.answers, hsel]
  rfl

/-- GET DATA leaves the selection as it is. -/
theorem selected_slotInfo (env : Env) (slot : UInt8) (h : Trace) :
    selected (h ++ (Prog.run env (Piv.slotInfo slot) h).2) = selected h := by
  have honly : Prog.Only Keeps (Piv.slotInfo slot) := by
    refine Prog.Only.bind (Action.only_ofExcept_bind _ fun tag _ => ?_) fun _ => Prog.Only.pure _
    exact Action.only_bind (Apdu.only_transmit ⟨_, _, rfl, rfl⟩) fun _ => Action.only_ofExcept _
  exact selected_append_of_keeps h (Prog.Always.run honly env h)

theorem run_mapM_slotInfo {card : StaticCard} {env : Env} (hcard : card.Holds env)
    (slots : List UInt8) {h : Trace} (hsel : selected h = some (selectAid Piv.aid)) :
    (Prog.run env (slots.mapM Piv.slotInfo) h).1 =
      slots.map fun slot => ⟨slot, (card.certificateKey slot).toOption⟩ := by
  induction slots generalizing h with
  | nil => rfl
  | cons slot slots ih =>
    have hinfo : (Prog.run env (Piv.slotInfo slot) h).1 =
        ⟨slot, (card.certificateKey slot).toOption⟩ := by
      rw [Piv.slotInfo, Prog.run_bind, run_fetchEd25519Pubkey hcard slot hsel]
      rfl
    have hrest := ih (h := h ++ (Prog.run env (Piv.slotInfo slot) h).2)
      ((selected_slotInfo env slot h).trans hsel)
    rw [List.mapM_cons, Prog.run_bind, Prog.run_bind, Prog.run_pure, hinfo, hrest]
    rfl

theorem run_listAccounts {card : StaticCard} {env : Env} (hcard : card.Holds env) (h : Trace) :
    (Prog.run env Piv.listAccounts.run h).1 =
      card.session Piv.aid >>= fun _ => .ok (PivSlot.all.map fun slot =>
        ⟨slot, (card.certificateKey slot).toOption⟩) := by
  obtain ⟨h', hsel, hrun⟩ := run_session hcard (by decide : Piv.aid.length ≤ 255)
    (liftM (PivSlot.all.mapM Piv.slotInfo)) h
  refine hrun.trans ?_
  rw [Action.run_lift, run_mapM_slotInfo hcard _ hsel]

/-- The key of an account, read from the card. -/
def accountKey (card : StaticCard) (acc : Account) : Except Error Bytes :=
  match acc.applet with
  | .openPgp =>
    card.session Openpgp.aid >>= fun _ => card.publicKey acc.slot >>=
      Openpgp.readPubkey acc.curve
  | .piv => do
    Piv.ensureEd25519 acc
    Piv.ensureSlot acc.slot
    card.session Piv.aid
    let k ← card.certificateKey acc.slot
    pure k.val

theorem run_getPubkey {card : StaticCard} {env : Env} (hcard : card.Holds env)
    (acc : Account) (h : Trace) :
    (Prog.run env (getPubkey acc).run h).1 = card.accountKey acc := by
  unfold getPubkey accountKey
  cases acc.applet with
  | openPgp =>
    rw [Openpgp.getPubkey, Action.run_bind_ofExcept, run_getPubkeyRaw hcard, bind_assoc]
  | piv =>
    rw [Piv.getPubkey, Action.run_ofExcept_bind]
    refine bind_congr fun _ => ?_
    rw [Action.run_ofExcept_bind]
    refine bind_congr fun _ => ?_
    obtain ⟨h', hsel, hrun⟩ := run_session hcard (by decide : Piv.aid.length ≤ 255)
      (Piv.fetchEd25519Pubkey acc.slot >>= fun k => Action.ofExcept (.ok k.val)) h
    refine hrun.trans ?_
    rw [Action.run_bind_ofExcept, run_fetchEd25519Pubkey hcard _ hsel]
    rfl

/-- An environment around the card, with an empty terminal. -/
def env (card : StaticCard) : Env := fun h op =>
  match op with
  | .connect => card.connection
  | .transmit command bufLen => card.answer (selected h) command bufLen
  | .print _ => Except.ok ()
  | .readLine => Except.ok ""
  | .envVar _ => none
  | .writeTty _ => ()
  | .openTty => Except.ok ()
  | .readTty => Except.ok ""
  | .writeOut _ => ()
  | .flushOut => ()

theorem holds_env (card : StaticCard) : card.Holds card.env where
  connects := fun _ => rfl
  answers := fun _ _ _ => rfl

end StaticCard
end YubiWallet
