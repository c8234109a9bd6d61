import YubiWallet.CardProtocol
import YubiWallet.Cli.Listing
import YubiWallet.Host.Session

/-! The programs that use the card: each keeps to the protocol, and presents a PIN no more often
than it is asked to sign. -/
namespace YubiWallet
open Interaction

namespace Host

end Host

def NoVerify (op : Op) : Prop :=
  ∀ command bufLen, op = .transmit command bufLen → isVerify command = false

/-- The program keeps to the protocol and presents no PIN. -/
structure OnlyReads {α : Type} (p : Prog α) : Prop where
  keeps : KeepsProtocol p
  noVerify : Prog.Only NoVerify p

namespace OnlyReads
variable {ε α β : Type}

theorem offline {p : Prog α} (hp : Prog.Only Offline p) : OnlyReads p where
  keeps := .silent hp exchange_offline
  noVerify := hp.mono fun op hop command bufLen h => by
    rw [h] at hop
    cases hop

theorem card {p : Prog α} (hkeeps : KeepsProtocol p) (hreads : Prog.Only ReadsCard p) :
    OnlyReads p where
  keeps := hkeeps
  noVerify := hreads.mono fun op hop command bufLen h => by
    rw [h] at hop
    change command.getD 1 0 ∈ _ at hop
    simp only [List.mem_cons, List.not_mem_nil, or_false] at hop
    unfold isVerify
    rcases hop with hop | hop | hop <;> rw [hop] <;> decide

theorem map {p : Prog α} (hp : OnlyReads p) (f : α → β) : OnlyReads (f <$> p) :=
  ⟨hp.keeps.map f, hp.noVerify.map f⟩

theorem bind {p : Action Op Op.Ans ε α} {f : α → Action Op Op.Ans ε β} (hp : OnlyReads p.run)
    (hf : ∀ a, OnlyReads (f a).run) : OnlyReads (p >>= f).run :=
  ⟨hp.keeps.bind_action fun a => (hf a).keeps, Action.only_bind hp.noVerify fun a => (hf a).noVerify⟩

end OnlyReads

namespace Cli

theorem println_onlyReads (line : String) : OnlyReads (println line).run :=
  .offline (printLine_only (fun _ => trivial) _ line)

theorem orFail_onlyReads {α : Type} (r : Except String α) : OnlyReads (orFail r).run :=
  .offline (orFail_only r)

theorem listSlot_onlyReads (C : Crates) (name : String) (slot : UInt8) :
    OnlyReads (listSlot C name slot).run := by
  refine (println_onlyReads _).bind fun _ => OnlyReads.bind
    ((OnlyReads.card (detectAccount_keeps slot) (detectAccount_readsCard slot)).map _) fun r => ?_
  cases r with
  | ok found => exact (orFail_onlyReads _).bind fun _ => println_onlyReads _
  | error e => exact println_onlyReads _

theorem listPivSlots_onlyReads (infos : List Piv.SlotInfo) (found : Nat) :
    OnlyReads (listPivSlots infos found).run := by
  induction infos generalizing found with
  | nil => exact .offline (Prog.Only.pure _)
  | cons info infos ih =>
    unfold listPivSlots
    cases info.ed25519Pubkey with
    | none => exact ih found
    | some pk => exact (println_onlyReads _).bind fun _ => ih (found + 1)

theorem list_onlyReads (C : Crates) : OnlyReads (list C).run := by
  unfold list
  refine (listSlot_onlyReads C _ _).bind fun _ => (listSlot_onlyReads C _ _).bind fun _ =>
    (println_onlyReads _).bind fun _ => OnlyReads.bind
    ((OnlyReads.card listAccounts_keeps listAccounts_readsCard).map _) fun infos =>
    (listPivSlots_onlyReads infos 0).bind fun found => ?_
  split
  · exact println_onlyReads _
  · exact .offline (Prog.Only.pure _)

theorem address_onlyReads (C : Crates) (args : AccountArgs) : OnlyReads (address C args).run := by
  unfold address
  generalize args.toAccount = parsed
  exact (orFail_onlyReads _).bind fun acc => OnlyReads.bind
    ((OnlyReads.card (getPubkey_keeps acc) (getPubkey_readsCard acc)).map _) fun _ =>
    (println_onlyReads _).bind fun _ => (orFail_onlyReads _).bind fun _ => println_onlyReads _

theorem keyOrLine_offline (sshKey : Option String) : Prog.Only Offline (keyOrLine sshKey).run := by
  cases sshKey with
  | some key => exact Prog.Only.pure _
  | none =>
    refine Action.only_bind (Action.only_lift (Prog.Only.perform trivial)) fun x => ?_
    cases x with
    | error e => exact Action.only_throw _
    | ok line =>
      simp only
      split
      · exact Action.only_throw _
      · exact Prog.Only.pure _

theorem sshToSolana_onlyReads (C : Crates) (sshKey : Option String) :
    OnlyReads (sshToSolana C sshKey).run := by
  unfold sshToSolana
  generalize sshEd25519ToSolana C.base64Error = convert
  exact (OnlyReads.offline (keyOrLine_offline sshKey)).bind fun _ =>
    (orFail_onlyReads _).bind fun _ => println_onlyReads _

theorem run_onlyReads (C : Crates) (command : Command) : OnlyReads (run C command).run := by
  cases command with
  | list => exact list_onlyReads C
  | address args => exact address_onlyReads C args
  | sshToSolana sshKey => exact sshToSolana_onlyReads C sshKey

end Cli

/-- The programs that use the card: the host with the bytes of its session, the command line,
and callers of the library, with a PIN or without one. -/
inductive CardProgram where
  | host (C : Host.Crates) (stdin : Bytes)
  | cli (C : Cli.Crates) (command : Cli.Command)
  | getPubkey (acc : Account)
  | sign (acc : Account) (message : Bytes) (pin : Option String)

namespace CardProgram

def prog : CardProgram → Prog Unit
  | host C stdin => Host.main (Host.handle C) stdin
  | cli C command => (fun _ => ()) <$> (Cli.run C command).run
  | getPubkey acc => (fun _ => ()) <$> (YubiWallet.getPubkey acc).run
  | sign acc message pin => (fun _ => ()) <$> (signDispatch acc message pin).run

/-- How often the program is asked to sign with a key of the applet. -/
def signRequests (applet : Applet) : CardProgram → Nat
  | host C stdin => Host.signRequests C applet stdin
  | cli _ _ | getPubkey _ => 0
  | sign acc _ _ => Host.ownAttempts applet acc

end CardProgram

theorem attempts_of_noVerify {α : Type} {p : Prog α} (applet : Applet)
    (hp : Prog.Only NoVerify p) : AtMost (Host.presents applet) 0 p :=
  AtMost.of_only hp fun _ he => Host.presents_false_of he

theorem CardProgram.prog_attempts (applet : Applet) (p : CardProgram) :
    AtMost (Host.presents applet) (p.signRequests applet) p.prog := by
  cases p with
  | host C stdin => exact Host.session_attempts applet C stdin
  | cli C command => exact attempts_of_noVerify applet ((Cli.run_onlyReads C command).map _).noVerify
  | getPubkey acc =>
    exact attempts_of_noVerify applet
      ((OnlyReads.card (getPubkey_keeps acc) (getPubkey_readsCard acc)).map _).noVerify
  | sign acc message pin => exact AtMost.map (Host.signDispatch_attempts applet acc message pin) _

end YubiWallet
