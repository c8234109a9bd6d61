import YubiWallet.Host.Soundness

/-! What the programs for the single chains share: they read the key of an account, build a
message, and have the card sign it. Everything that goes wrong is a panic. -/
namespace YubiWallet.Chains
open Interaction

inductive Panic where
  | index
  | expect (what : String)
  | stdout (e : String)
deriving DecidableEq

abbrev MainM := Action Op Op.Ans Panic

/-- `args[i]` -/
def argument (args : List String) (i : Nat) : Except Panic String :=
  match args[i]? with
  | some a => .ok a
  | none => .error .index

/-- `expect` and `unwrap`, on a result or an option. -/
def expect {ε α : Type} (what : String) (r : Except ε α) : Except Panic α :=
  r.mapError fun _ => .expect what

def expectSome {α : Type} (what : String) : Option α → Except Panic α
  | some a => .ok a
  | none => .error (.expect what)

theorem expectSome_eq_ok_iff {α : Type} {what : String} {o : Option α} {a : α} :
    expectSome what o = .ok a ↔ o = some a := by
  cases o <;> simp [expectSome]

def expectCard {α : Type} (what : String) (p : CardM α) : MainM α :=
  Action.mapErr (fun _ => .expect what) p

def println (line : String) : MainM Unit := printLine .stdout line

/-- One decimal digit, with the overflow check. -/
def pushDigit (bound n : Nat) (c : Char) : Option Nat :=
  if '0' ≤ c ∧ c ≤ '9' ∧ n * 10 + (c.toNat - '0'.toNat) < bound then
    some (n * 10 + (c.toNat - '0'.toNat))
  else none

/-- `str::parse` for unsigned integers below `bound`: a leading plus sign is allowed. -/
def parseUnsigned (bound : Nat) (s : String) : Option Nat :=
  let digits := match s.toList with
    | '+' :: ds => ds
    | ds => ds
  if digits = [] then none else digits.foldlM (pushDigit bound) 0

/-- The last command reads the public key `pk` of the account. -/
def ReadsKey (acc : Account) (pk : Bytes) (ex : List (Bytes × Except String Bytes)) : Prop :=
  ∃ u c x, ex = u ++ [(c, x)] ∧ Host.ReadsPubkey acc c x pk

/-- The last command has the card sign `message`, and its answer gives `sig`. -/
def Signs (acc : Account) (message sig : Bytes) (ex : List (Bytes × Except String Bytes)) : Prop :=
  ∃ u c x pin, ex = u ++ [(c, x)] ∧ Reads acc message pin c x sig

/-- First the key is read, then the message is signed. -/
def ReadsThenSigns (acc : Account) (pk message sig : Bytes)
    (ex : List (Bytes × Except String Bytes)) : Prop :=
  ∃ first second, ex = first ++ second ∧ ReadsKey acc pk first ∧ Signs acc message sig second

/-- A signature comes from the last command, whatever the error is made into. -/
theorem sign_mapErr {ε : Type} (acc : Account) (message : Bytes) (f : Error → ε) :
    Prog.Always (Action.mapErr f (sign acc message)).run fun t r =>
      ∀ sig, r = .ok sig → Signs acc message sig (exchanges t) := by
  rw [Action.always_mapErr]
  refine Prog.Always.mono (signDispatch_fromLast acc message none "") fun t r hr sig hsig => ?_
  obtain ⟨u, c, x, hu, hreads⟩ := hr sig (Outcome.mapError_eq_ok_iff.mp hsig)
  exact ⟨u, c, x, "", hu, hreads⟩

theorem getPubkey_mapErr {ε : Type} (acc : Account) (f : Error → ε) :
    Prog.Always (Action.mapErr f (getPubkey acc)).run fun t r =>
      ∀ pk, r = .ok pk → ReadsKey acc pk (exchanges t) := by
  rw [Action.always_mapErr]
  refine Prog.Always.mono (Host.getPubkey_fromLast acc) fun t r hr pk hpk => ?_
  obtain ⟨u, c, x, hu, hreads⟩ := hr pk (Outcome.mapError_eq_ok_iff.mp hpk)
  exact ⟨u, c, x, hu, hreads⟩

theorem sign_always (acc : Account) (message : Bytes) (what : String) :
    Prog.Always (expectCard what (sign acc message)).run fun t r =>
      ∀ sig, r = .ok sig → Signs acc message sig (exchanges t) := sign_mapErr acc message _

theorem getPubkey_always (acc : Account) (what : String) :
    Prog.Always (expectCard what (getPubkey acc)).run fun t r =>
      ∀ pk, r = .ok pk → ReadsKey acc pk (exchanges t) := getPubkey_mapErr acc _

/-- The certificate of a PIV slot, with little more in it than the key. -/
def sampleObject : Bytes :=
  [0x53, 46, 0x70, 44] ++ Piv.ed25519SpkiPrefix ++ List.replicate 32 0x11 ++ [0x90, 0x00]

def pivSample : Env := fun _ op =>
  match op with
  | .connect => Connection.card
  | .transmit command _ =>
    if command.getD 1 0 = 0xCB then Except.ok sampleObject
    else if command.getD 1 0 = 0x87 then
      Except.ok ([0x7C, 66, 0x82, 64] ++ List.replicate 64 0x22 ++ [0x90, 0x00])
    else Except.ok [0x90, 0x00]
  | .print _ => Except.ok ()
  | .readLine => Except.ok "123456\n"
  | .envVar _ => none
  | .writeTty _ => ()
  | .openTty => Except.ok ()
  | .readTty => Except.ok ""
  | .writeOut _ => ()
  | .flushOut => ()

end YubiWallet.Chains
