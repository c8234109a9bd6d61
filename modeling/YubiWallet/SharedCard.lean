import YubiWallet.CardPrograms
import YubiWallet.Lib.Sharing

/-! Several programs at one card. Each opens it in shared mode, so their commands reach it in
any order, and what one of them selects stays selected for the others. -/
namespace YubiWallet
open Interaction Transition

section Together
variable {ι : Type} [DecidableEq ι]

/-- What the commands of a trace leave open. -/
def openedBy (t : Trace) : Option Opened := cardProtocol.after none (exchanges t)

/-- The applet of the last SELECT that was answered well. -/
def appletAfter (t : Trace) : Option Applet := (openedBy t).map Opened.applet

/-- The applet that a SELECT selects when it is answered well. -/
def selectedApplet (ex : Bytes × Except String Bytes) : Option Applet :=
  match Apdu.decodeResponse ex.2 with
  | .error _ => none
  | .ok _ =>
    if ex.1 = selectCommand .openPgp then some .openPgp
    else if ex.1 = selectCommand .piv then some .piv
    else none

def selects? (e : Event Op Op.Ans) : Option Applet := (exchange? e).bind selectedApplet

/-- Since its own SELECT of the applet, another program has selected another applet. -/
def Interrupted (u : List (ι × Event Op Op.Ans)) (i : ι) (applet : Applet) : Prop :=
  ∃ u₁ j e u₂ other, u = u₁ ++ (j, e) :: u₂ ∧ j ≠ i ∧ appletAfter (own i u₁) = some applet ∧
    selects? e = some other ∧ other ≠ applet ∧ ∀ e' ∈ own i u₂, selects? e' = none

/-- Until the program selects again, it stays interrupted. -/
theorem Interrupted.snoc {u : List (ι × Event Op Op.Ans)} {i : ι} {applet : Applet}
    (h : Interrupted u i applet) {l : ι × Event Op Op.Ans}
    (hnone : ∀ e ∈ own i [l], selects? e = none) : Interrupted (u ++ [l]) i applet := by
  obtain ⟨u₁, j, e, u₂, other, rfl, hj, hown, hother, hne, hsince⟩ := h
  refine ⟨u₁, j, e, u₂ ++ [l], other, by simp, hj, hown, hother, hne, ?_⟩
  rw [own_append]
  exact List.forall_mem_append.mpr ⟨hsince, hnone⟩

/-- One reads an OpenPGP key; the other signs with a PIV key, and its SELECT comes in between. -/
def mixedPrograms : Bool → CardProgram
  | false => .getPubkey ⟨.openPgp, OpenpgpSlot.sig, .ed25519⟩
  | true => .sign ⟨.piv, PivSlot.auth, .ed25519⟩ [0x00] (some "123456")

def mixedStart : List (Bool × Event Op Op.Ans) := [
  (false, ⟨.connect, Connection.card⟩),
  (false, ⟨.transmit (selectCommand .openPgp) 512, Except.ok [0x90, 0x00]⟩),
  (true, ⟨.connect, Connection.card⟩),
  (true, ⟨.transmit (selectCommand .piv) 512, Except.ok [0x90, 0x00]⟩)]

def mixedRead : Bytes := Openpgp.getPublicKeyCommand 0xB6

def mixedVerify : Bytes := (pivPlan PivSlot.auth [0x00] "123456").verify

def mixedRun : List (Bool × Event Op Op.Ans) :=
  mixedStart ++ [(false, ⟨.transmit mixedRead 512, Except.ok [0x6D, 0x00]⟩)]

theorem mixed_run : ∃ rest next, Run Turn (fun i => (mixedPrograms i).prog) mixedRun rest ∧
    rest true = .ask (.transmit mixedVerify 512) next := by
  have hstart : Run Turn (fun i => (mixedPrograms i).prog) [] (fun i => (mixedPrograms i).prog) :=
    Run.nil _
  have hfirst := (hstart.snoc (Turn.act false rfl Connection.card)).snoc
    (Turn.act false rfl (Except.ok [0x90, 0x00]))
  have hsecond := (hfirst.snoc (Turn.act true rfl Connection.card)).snoc
    (Turn.act true rfl (Except.ok [0x90, 0x00]))
  have hlast := hsecond.snoc (Turn.act false rfl (Except.ok [0x6D, 0x00]))
  exact ⟨_, _, hlast, rfl⟩

/-- And together they cost a PIN no more tries than there were requests to sign with its
applet. Without such a request nobody touches the counter. -/
theorem shared_retries [Fintype ι] (programs : ι → CardProgram) {rest : ι → Prog Unit}
    {ls : List (ι × Event Op Op.Ans)} (hrun : Run Turn (fun i => (programs i).prog) ls rest)
    (applet : Applet) (c : Host.RetryCounter) :
    let after := Host.retriesAfter applet c (ls.map Prod.snd)
    let requests := ∑ i, (programs i).signRequests applet
    c.left ≤ after.left + requests ∧ (after = c ∨ 0 < requests) := by
  have hattempts := countP_le_sum ans_nonempty hrun fun i => (programs i).prog_attempts applet
  have hcount : (ls.map Prod.snd).countP (Host.presents applet) =
      ls.countP fun l => Host.presents applet l.2 := List.countP_map
  rw [← hcount] at hattempts
  constructor
  · exact (Host.retriesAfter_left applet c _).trans (Nat.add_le_add_left hattempts _)
  · by_cases hnone : ∑ i, (programs i).signRequests applet = 0
    · rw [hnone, Nat.le_zero] at hattempts
      exact Or.inl (Host.retriesAfter_of_none applet c hattempts)
    · exact Or.inr (Nat.pos_of_ne_zero hnone)

/-- The PIN is presented, and it is wrong. -/
def refusedRun : List (Bool × Event Op Op.Ans) :=
  mixedRun ++ [(true, ⟨.transmit mixedVerify 512, Except.ok [0x63, 0xC2]⟩)]

theorem refused_run : ∃ rest, Run Turn (fun i => (mixedPrograms i).prog) refusedRun rest := by
  obtain ⟨rest, next, hrun, hnext⟩ := mixed_run
  exact ⟨_, hrun.snoc (Turn.act true hnext (Except.ok [0x63, 0xC2]))⟩

theorem shared_retries_mixed :
    let after := Host.retriesAfter .piv ⟨3, 3, le_refl 3⟩ (refusedRun.map Prod.snd)
    let requests := ∑ i, (mixedPrograms i).signRequests .piv
    (∃ rest, Run Turn (fun i => (mixedPrograms i).prog) refusedRun rest) ∧
      requests = 1 ∧ after.left = 2 ∧ 3 ≤ after.left + requests ∧
      (after = ⟨3, 3, le_refl 3⟩ ∨ 0 < requests) := by
  obtain ⟨rest, hrun⟩ := refused_run
  exact ⟨⟨rest, hrun⟩, by decide, by decide,
    shared_retries mixedPrograms hrun .piv ⟨3, 3, le_refl 3⟩⟩

end Together

end YubiWallet
