import YubiWallet.Host.Session
import YubiWallet.Host.Soundness
import YubiWallet.Lib.Secrecy

/-! The PIN and the extension. Of the PIN that the host reads, its standard output shows
nothing: the session could have gone the same way with any other PIN. -/
namespace YubiWallet.Host
open Interaction
open Apdu (shortCommand)

/-- A PIN that can be set in the environment as well as typed. -/
structure TypedPin where
  text : String
  ne_empty : text ≠ ""
  trimmed : trim text = text
  short : (asBytes text).length ≤ 8

def pinRead : Event Op Op.Ans → Option String
  | ⟨.envVar _, x⟩ => Option.filter (fun p => !p.isEmpty) x
  | ⟨.readTty, x⟩ => (Except.toOption x).map trim
  | _ => none

/-- A command without the data of VERIFY. -/
def redactCommand (command : Bytes) : Bytes :=
  if isVerify command then command.take 4 else command

/-- An event without the PIN. What the card answers stays, and so does whether a PIN was
set. -/
def redact : Event Op Op.Ans → Event Op Op.Ans
  | ⟨.transmit command bufLen, x⟩ => ⟨.transmit (redactCommand command) bufLen, x⟩
  | ⟨.envVar name, x⟩ => ⟨.envVar name, Option.map (fun p => if p.isEmpty then "" else "*") x⟩
  | ⟨.readTty, x⟩ => ⟨.readTty, Except.map (fun _ => "*") x⟩
  | e => e

/-- The PINs that are read are of the length that PIV has; in the counterpart they are all
`pin`. -/
def extension (pin : TypedPin) : Observer Op Op.Ans (Event Op Op.Ans) where
  view := redact
  actual e := ∀ p, pinRead e = some p → (asBytes p).length ≤ 8
  replaced e := ∀ p, pinRead e = some p → p = pin.text

variable {pin : TypedPin}

/-- Operations that read no PIN. -/
def Impersonal (op : Op) : Prop := ∀ x, pinRead ⟨op, x⟩ = none

theorem mimics_of_impersonal {α : Type} {p : Prog α} (h : Prog.Only Impersonal p) :
    Mimics (extension pin) Eq p p := by
  refine Mimics.refl_of_only h fun e he p hp => ?_
  rw [he e.ans] at hp
  cases hp

theorem impersonal_of_usesCard {op : Op} (h : UsesCard op) : Impersonal op := by
  cases op with
  | connect => exact fun _ => rfl
  | transmit command bufLen => exact fun _ => rfl
  | _ => cases h

theorem impersonal_of_readsCard {op : Op} (h : ReadsCard op) : Impersonal op :=
  impersonal_of_usesCard h.usesCard

theorem transmit_mimics {c c' : Bytes} (h : redactCommand c' = redactCommand c) (bufLen : Nat) :
    Mimics (extension pin) Eq (Apdu.transmit c bufLen).run (Apdu.transmit c' bufLen).run := by
  intro t r hr _
  obtain ⟨x, u, rfl, rfl, rfl⟩ := hr
  refine ⟨[⟨.transmit c' bufLen, x⟩], _, Apdu.gives_transmit c' bufLen x, ?_, ?_, rfl⟩
  · intro e he p hp
    rw [List.mem_singleton.mp he] at hp
    cases hp
  · change [(⟨.transmit (redactCommand c') bufLen, x⟩ : Event Op Op.Ans)] =
      [⟨.transmit (redactCommand c) bufLen, x⟩]
    rw [h]

/-- Of VERIFY only the header shows. -/
theorem verify_mimics (reference : UInt8) {d d' : Bytes} (hd : d.length ≤ 255)
    (hd' : d'.length ≤ 255) :
    Mimics (extension pin) Eq
      (Apdu.send Apdu.cla Apdu.insVerify 0x00 reference (some d) none 512).run
      (Apdu.send Apdu.cla Apdu.insVerify 0x00 reference (some d') none 512).run := by
  have hredact : ∀ d : Bytes, redactCommand (shortCommand [Apdu.cla, Apdu.insVerify, 0x00, reference]
      d []) = [Apdu.cla, Apdu.insVerify, 0x00, reference] := fun d => rfl
  rw [Apdu.send_short none hd, Apdu.send_short none hd']
  exact transmit_mimics ((hredact d').trans (hredact d).symm) 512

theorem signingCall_mimics {acc : Account} {message : Bytes} {s : SigningCall}
    (hs : acc.signingCall message = .ok s) {p : String} (hp : (asBytes p).length ≤ 8) :
    Mimics (extension pin) Eq (s.run (some p)).run (s.run (some pin.text)).run := by
  obtain ⟨data, hdata, hlen⟩ := pinData_short hs hp
  obtain ⟨data', hdata', hlen'⟩ := pinData_short hs pin.short
  rw [SigningCall.run_given hdata, SigningCall.run_given hdata']
  refine Mimics.bind_same (verify_mimics s.reference hlen hlen') fun _ => mimics_of_impersonal ?_
  refine Action.only_bind (Action.only_ofExcept _) fun c => Action.only_bind ?_ fun _ =>
    Action.only_ofExcept _
  exact Apdu.only_transmit fun _ => rfl

theorem signWithPin_mimics (acc : Account) (message : Bytes) {p : String}
    (hp : (asBytes p).length ≤ 8) :
    Mimics (extension pin) Eq (signWithPin acc message p).run
      (signWithPin acc message pin.text).run := by
  have hconnect : Mimics (extension pin) Eq Apdu.connect.run Apdu.connect.run :=
    mimics_of_impersonal (Apdu.only_connect fun _ => rfl)
  have hselect : Mimics (extension pin) Eq acc.applet.select.run acc.applet.select.run :=
    mimics_of_impersonal ((select_readsCard acc.applet).mono fun _ => impersonal_of_readsCard)
  rw [signWithPin, signWithPin, signDispatch_eq, signDispatch_eq]
  refine Mimics.bind_same (Mimics.pure rfl) fun _ => Mimics.bind_same hconnect fun _ =>
    Mimics.bind_same hselect fun _ => ?_
  cases hs : acc.signingCall message with
  | error e => exact Mimics.pure rfl
  | ok s => exact signingCall_mimics hs hp

/-- A PIN that was read, and the one in its place. -/
def Replaces (pin : TypedPin) (p p' : String) : Prop := (asBytes p).length ≤ 8 ∧ p' = pin.text

/-- A line from the terminal, and the same with the other PIN. -/
def ReplacesLine (pin : TypedPin) (x x' : Op.Ans .readTty) : Prop :=
  Both (Replaces pin) (Except.map trim x) (Except.map trim x')

theorem readLine_mimics : Mimics (extension pin) (ReplacesLine pin) (perform .readTty)
    (perform .readTty) := by
  refine Mimics.perform fun x hactual => ?_
  cases x with
  | error e => exact ⟨Except.error e, fun p hp => (by cases hp), rfl, rfl⟩
  | ok line =>
    refine ⟨Except.ok pin.text, fun p hp => ?_, rfl, hactual _ rfl, pin.trimmed⟩
    rw [← Option.some.inj hp, pin.trimmed]

theorem readTtyPin_mimics : Mimics (extension pin) (Both (Replaces pin)) readTtyPin readTtyPin := by
  have hplain : ∀ op, Impersonal op → Mimics (extension pin) Eq (perform op) (perform op) :=
    fun op hop => mimics_of_impersonal (Prog.Only.perform hop)
  refine Mimics.bind (hplain _ fun _ => rfl) fun _ _ _ => Mimics.bind (hplain _ fun _ => rfl) ?_
  intro x x' hx
  obtain rfl : x = x' := hx
  cases x with
  | error e => exact Mimics.pure rfl
  | ok u =>
    refine readLine_mimics.bind fun y y' hy => ?_
    cases y with
    | ok line =>
      cases y' with
      | ok line' => exact Mimics.pure hy
      | error e' => exact hy.elim
    | error e =>
      cases y' with
      | ok line' => exact hy.elim
      | error e' => exact Mimics.pure hy

/-- A variable that is not set or empty, and the same again; or one that is set, and the same
with the other PIN. -/
def ReplacesVariable (pin : TypedPin) {name : String} (x x' : Op.Ans (.envVar name)) : Prop :=
  x = none ∧ x' = none ∨ ∃ p p', x = some p ∧ x' = some p' ∧
    (p = "" ∧ p' = "" ∨ p ≠ "" ∧ p' ≠ "" ∧ Replaces pin p p')

theorem envVar_mimics (name : String) : Mimics (extension pin) (ReplacesVariable pin)
    (perform (.envVar name)) (perform (.envVar name)) := by
  refine Mimics.perform fun x hactual => ?_
  cases x with
  | none => exact ⟨none, fun p hp => (by cases hp), rfl, Or.inl ⟨rfl, rfl⟩⟩
  | some p =>
    by_cases hempty : p = ""
    · refine ⟨some p, fun q hq => ?_, rfl, Or.inr ⟨p, p, rfl, rfl, Or.inl ⟨hempty, hempty⟩⟩⟩
      simp [pinRead, hempty] at hq
    · have hread : ∀ q, q ≠ "" → pinRead ⟨.envVar name, some q⟩ = some q := fun q hq => by
        simp [pinRead, hq]
      refine ⟨some pin.text, fun q hq => ?_, ?_, Or.inr ⟨p, pin.text, rfl, rfl,
        Or.inr ⟨hempty, pin.ne_empty, hactual p (hread p hempty), rfl⟩⟩⟩
      · rw [hread _ pin.ne_empty] at hq
        exact (Option.some.inj hq).symm
      · simp [extension, redact, hempty, pin.ne_empty]

theorem readPin_mimics : Mimics (extension pin) (Both (Replaces pin)) readPin readPin := by
  refine (envVar_mimics "YUBIWALLET_PIN").bind fun x x' hx => ?_
  rcases hx with ⟨rfl, rfl⟩ | ⟨p, p', rfl, rfl, ⟨hp, hp'⟩ | ⟨hp, hp', hreplaces⟩⟩
  · exact readTtyPin_mimics
  · rw [hp, hp']
    exact readTtyPin_mimics
  · simp only [String.isEmpty_iff, hp, hp', if_false]
    exact Mimics.pure hreplaces

/-- Behind the PIN, two actions that look alike for the PIN and its replacement. -/
theorem hostPin_mimics {α : Type} {f : String → HostM α}
    (hf : ∀ p, (asBytes p).length ≤ 8 → Mimics (extension pin) Eq (f p).run (f pin.text).run) :
    Mimics (extension pin) Eq (hostPin >>= f).run (hostPin >>= f).run := by
  have hpin : Mimics (extension pin) (Both (Replaces pin)) hostPin.run hostPin.run := by
    refine Mimics.map readPin_mimics fun r r' hr => ?_
    cases r with
    | ok p =>
      cases r' with
      | ok p' => exact hr
      | error e' => exact hr.elim
    | error e =>
      cases r' with
      | ok p' => exact hr.elim
      | error e' => exact congrArg _ hr
  rw [← both_eq]
  refine hpin.bind_action fun p p' hp => ?_
  rw [both_eq, hp.2]
  exact hf p hp.1

theorem signThen_mimics {α : Type} (acc : Account) (message : Bytes)
    (g : Bytes → Except (String × String) α) :
    Mimics (extension pin) Eq
      (hostPin >>= fun p => Action.mapErr cardErr (signWithPin acc message p) >>= fun sig =>
        Action.ofExcept (g sig) : HostM α).run
      (hostPin >>= fun p => Action.mapErr cardErr (signWithPin acc message p) >>= fun sig =>
        Action.ofExcept (g sig) : HostM α).run := by
  refine hostPin_mimics fun p hp => Mimics.bind_same ?_ fun sig => Mimics.pure rfl
  exact (signWithPin_mimics acc message hp).map fun r r' hr => congrArg _ hr

theorem dispatch_mimics (C : Crates) (method : String) (params : Value) :
    Mimics (extension pin) Eq (dispatch C method params).run (dispatch C method params).run := by
  have hlist : Prog.Only Impersonal (listAccounts C) :=
    (listAccounts_readsCard C).mono fun _ => impersonal_of_readsCard
  unfold dispatch
  split
  · exact Mimics.pure rfl
  · exact mimics_of_impersonal
      (Action.only_bind (Action.only_lift hlist) fun _ => Prog.Only.pure _)
  · exact mimics_of_impersonal
      (Action.only_bind (Action.only_lift hlist) fun _ => Prog.Only.pure _)
  · refine Mimics.bind_same (Mimics.pure rfl) fun args => Mimics.bind_same ?_ fun pubkey =>
      signThen_mimics args.1 args.2.val (finishSecp256k1 C pubkey args.2)
    exact mimics_of_impersonal (Action.only_mapErr
      ((getPubkey_readsCard args.1).mono fun _ => impersonal_of_readsCard) _)
  · exact Mimics.bind_same (Mimics.pure rfl) fun args =>
      signThen_mimics args.1 args.2 fun sig => .ok _
  · exact Mimics.pure rfl

theorem handle_mimics (C : Crates) (msg : Bytes) :
    Mimics (extension pin) Eq (handle C msg) (handle C msg) := by
  refine Mimics.map (R := Eq) ?_ fun r r' hr => congrArg _ hr
  cases C.serde.fromSlice msg with
  | error e => exact Mimics.pure rfl
  | ok req =>
    exact (dispatch_mimics C req.method req.params).map fun r r' hr => congrArg _ hr

theorem main_mimics (C : Crates) (stdin : Bytes) :
    Mimics (extension pin) Eq (main (handle C) stdin) (main (handle C) stdin) := by
  rw [main_eq_serve]
  refine Mimics.map (R := Eq) (Mimics.mapM (fun msg => ?_) _) fun _ _ _ => rfl
  refine (handle_mimics C msg).bind fun resp resp' hresp => ?_
  rw [hresp]
  exact mimics_of_impersonal <| (writeMessage_only (fun _ _ => rfl) (fun _ => rfl) _).bind
    fun _ => Prog.Only.pure _

theorem written_eq_of_redact {t t' : Trace} (h : t'.map redact = t.map redact) :
    written t' = written t := by
  have hredact : ∀ t : Trace, written (t.map redact) = written t := by
    intro t
    rw [written, written, List.flatMap_map]
    refine congrArg (List.flatMap · t) (funext fun e => ?_)
    obtain ⟨op, x⟩ := e
    cases op <;> rfl
  rw [← hredact t', h, hredact t]

/-- What the extension sees of a session is what it would have seen with any other PIN: some
outside world leads to the same session, except that `pin` is the PIN that is read there. -/
theorem session_hidesPin (C : Crates) (stdin : Bytes) (env : Env) (h : Trace) (pin : TypedPin)
    (hpins : ∀ e ∈ (Prog.run env (main (handle C) stdin) h).2, ∀ p, pinRead e = some p →
      (asBytes p).length ≤ 8) :
    ∃ env' : Env,
      (∀ e ∈ (Prog.run env' (main (handle C) stdin) h).2, ∀ p, pinRead e = some p →
        p = pin.text) ∧
      (Prog.run env' (main (handle C) stdin) h).2.map redact =
        (Prog.run env (main (handle C) stdin) h).2.map redact ∧
      written (Prog.run env' (main (handle C) stdin) h).2 =
        written (Prog.run env (main (handle C) stdin) h).2 := by
  obtain ⟨env', hreplaced, hview, -⟩ := (main_mimics C stdin).run ans_nonempty env h hpins
  exact ⟨env', hreplaced, hview, written_eq_of_redact hview⟩

def signText : String :=
  "\x7b\"id\":1,\"method\":\"sign_ed25519\",\"params\":\x7b\"account_id\":\"piv:9a:ed25519\",\"message\":\"00\"\x7d\x7d"

def signParams : Value :=
  .obj [("account_id", .str "piv:9a:ed25519"), ("message", .str "00")]

def signParamsText : String :=
  "\x7b\"account_id\":\"piv:9a:ed25519\",\"message\":\"00\"\x7d"

def signTexts : Texts where
  messages := [(signText, [("\"id\"", "1"), ("\"method\"", "\"sign_ed25519\""),
    ("\"params\"", signParamsText)])]
  numbers := [("1", 1)]
  strings := [("\"sign_ed25519\"", "sign_ed25519")]
  values := [(signParamsText, signParams)]

def signCrates : Crates :=
  { sampleCrates with serde := signTexts.serde (fun _ => "") errorPrinter }

def otherPin : TypedPin := ⟨"654321", by decide, by decide, by decide⟩

def signSession (env : Env) : Trace :=
  (Prog.run env (main (handle signCrates) (Framing.frame (asBytes signText))) []).2

theorem signSession_verify : [0x00, 0x20, 0x00, 0x80] ∈
    (exchanges ((signSession sampleEnv).map redact)).map Prod.fst := by
  decide +kernel

theorem session_hidesPin_sample : ∃ env' : Env,
    (∀ e ∈ signSession env', ∀ p, pinRead e = some p → p = "654321") ∧
    [0x00, 0x20, 0x00, 0x80] ∈ (exchanges ((signSession env').map redact)).map Prod.fst ∧
    (signSession env').map redact = (signSession sampleEnv).map redact ∧
    written (signSession env') = written (signSession sampleEnv) := by
  obtain ⟨env', hpin, hview, hwritten⟩ := session_hidesPin signCrates
    (Framing.frame (asBytes signText)) sampleEnv [] otherPin fun e he p hp => by
      obtain ⟨h', hans⟩ := Prog.run_answers _ _ _ e he
      obtain ⟨op, x⟩ := e
      obtain rfl : x = sampleEnv h' op := hans
      cases op with
      | envVar name =>
        obtain rfl : "123456" = p := Option.some.inj hp
        decide
      | readTty =>
        obtain rfl : "" = p := Option.some.inj hp
        decide
      | _ => cases hp
  have hsession : (signSession env').map redact = (signSession sampleEnv).map redact := hview
  refine ⟨env', hpin, ?_, hsession, hwritten⟩
  rw [hsession]
  exact signSession_verify

end YubiWallet.Host
