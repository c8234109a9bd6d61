import YubiWallet.Lib.Interaction
import YubiWallet.Error

/-! The outside world of the library and of the host: PC/SC, the terminal, the
environment variables and the standard output. Every answer is arbitrary. -/
namespace YubiWallet
open Interaction

/-- `Context::establish`, `list_readers` and `connect`. -/
inductive Connection where
  | card
  | noReaders
  | failed (e : String)
deriving DecidableEq, Repr

inductive Op where
  | connect
  | transmit (command : Bytes) (bufLen : Nat)
  | print (message : String)
  | readLine
  | envVar (name : String)
  | writeTty (text : String)
  | openTty
  | readTty
  | writeOut (bytes : Bytes)
  | flushOut
deriving DecidableEq, Repr

/-- A response that does not fit the buffer is an error of PC/SC, so it is an answer
like any other error. -/
def Op.Ans : Op → Type
  | .connect => Connection
  | .transmit _ _ => Except String Bytes
  | .print _ => Except String Unit
  | .readLine => Except String String
  | .envVar _ => Option String
  | .writeTty _ => Unit
  | .openTty => Except String Unit
  | .readTty => Except String String
  | .writeOut _ => Unit
  | .flushOut => Unit

abbrev Trace := Interaction.Trace Op Op.Ans
abbrev Env := Interaction.Env Op Op.Ans
abbrev Prog := Interaction.Prog Op Op.Ans

/-- The library's functions that talk to the card. -/
abbrev CardM := Interaction.Action Op Op.Ans Error

def perform (op : Op) : Prog op.Ans := Interaction.Prog.perform op

theorem gives_perform (op : Op) (x : op.Ans) : Prog.Gives (perform op) [⟨op, x⟩] x :=
  Interaction.Prog.Gives.perform op x

/-- `println!`: a panic when the text cannot be written. -/
def printLine {ε : Type} (panic : String → ε) (line : String) : Action Op Op.Ans ε Unit := do
  match ← perform (.print (line ++ "\n")) with
  | .ok () => pure ()
  | .error e => throw (panic e)

theorem printLine_only {ε : Type} {P : Op → Prop} (hprint : ∀ text, P (.print text))
    (panic : String → ε) (line : String) : Prog.Only P (printLine panic line).run := by
  refine Action.only_bind (Action.only_lift (Prog.Only.perform (hprint _))) fun x => ?_
  cases x with
  | ok u => exact Prog.Only.pure _
  | error e => exact Action.only_throw _

/-- A line that was printed is the only event. -/
theorem printLine_always {ε : Type} (panic : String → ε) (line : String) :
    Prog.Always (printLine panic line).run fun t r =>
      ∀ u, r = .ok u → t = [⟨.print (line ++ "\n"), Except.ok ()⟩] := by
  refine (Action.always_bind _ _ _).mpr ?_
  refine (Action.always_lift (perform (.print (line ++ "\n"))) _).mpr fun x => ?_
  cases x with
  | ok u => exact fun _ _ => rfl
  | error e => exact fun _ h => nomatch h

/-- The command and the answer of a transmission. -/
def exchange? : Event Op Op.Ans → Option (Bytes × Except String Bytes)
  | ⟨.transmit command _, x⟩ => some (command, x)
  | _ => none

def exchanges (t : Trace) : List (Bytes × Except String Bytes) := t.filterMap exchange?

theorem exchanges_append (t t' : Trace) : exchanges (t ++ t') = exchanges t ++ exchanges t' :=
  List.filterMap_append

def command? (e : Event Op Op.Ans) : Option Bytes := (exchange? e).map Prod.fst

def commands (t : Trace) : List Bytes := t.filterMap command?

theorem commands_append (t t' : Trace) : commands (t ++ t') = commands t ++ commands t' :=
  List.filterMap_append

theorem mem_commands {t : Trace} {c : Bytes} :
    c ∈ commands t ↔ ∃ e ∈ t, ∃ bufLen, e.op = .transmit c bufLen := by
  rw [commands, List.mem_filterMap]
  refine exists_congr fun e => and_congr_right fun _ => ?_
  obtain ⟨op, x⟩ := e
  cases op <;> simp [command?, exchange?]

theorem ans_nonempty (op : Op) : Nonempty op.Ans := by
  cases op with
  | connect => exact ⟨Connection.card⟩
  | transmit _ _ => exact ⟨Except.ok []⟩
  | print _ => exact ⟨Except.ok ()⟩
  | readLine => exact ⟨Except.ok ""⟩
  | envVar _ => exact ⟨none⟩
  | writeTty _ => exact ⟨()⟩
  | openTty => exact ⟨Except.ok ()⟩
  | readTty => exact ⟨Except.ok ""⟩
  | writeOut _ => exact ⟨()⟩
  | flushOut => exact ⟨()⟩

/-- Operations that ask for a PIN, on whatever channel. -/
def Op.readsPin : Op → Bool
  | .print _ | .readLine | .envVar _ | .writeTty _ | .openTty | .readTty => true
  | _ => false

/-- Operations that write to the standard output. -/
def Op.writesStdout : Op → Bool
  | .print _ | .writeOut _ | .flushOut => true
  | _ => false

namespace Pin

/-- Prompt on the terminal and read a line from the standard input. -/
def prompt (message : String) : CardM String := do
  match ← perform (.print message) with
  | .error e => throw (.io e)
  | .ok () =>
    match ← perform .readLine with
    | .error e => throw (.io e)
    | .ok line => pure (trim line)

def resolve (pin : Option String) (message : String) : CardM String :=
  match pin with
  | some p => pure p
  | none => prompt message

theorem only_resolve {P : Op → Prop} (hprint : ∀ m, P (.print m)) (hline : P .readLine)
    (pin : Option String) (message : String) : Prog.Only P (resolve pin message).run := by
  cases pin with
  | some p => exact Prog.Only.pure _
  | none =>
    refine Action.only_bind (Action.only_lift (Prog.Only.perform (hprint message))) fun x => ?_
    cases x with
    | error e => exact Action.only_throw _
    | ok u =>
      refine Action.only_bind (Action.only_lift (Prog.Only.perform hline)) fun y => ?_
      cases y with
      | error e => exact Action.only_throw _
      | ok line => exact Prog.Only.pure _

theorem gives_resolve_some (p message : String) :
    Prog.Gives (resolve (some p) message).run [] (.ok p) := Action.gives_pure p

theorem gives_resolve_none (message line : String) :
    Prog.Gives (resolve none message).run
      [⟨.print message, Except.ok ()⟩, ⟨.readLine, Except.ok line⟩] (.ok (trim line)) := by
  refine Action.gives_bind (Action.gives_lift (gives_perform (.print message) (Except.ok ()))) ?_
  exact Action.gives_bind (Action.gives_lift (gives_perform .readLine (Except.ok line)))
    (Action.gives_pure (trim line))

end Pin
end YubiWallet
