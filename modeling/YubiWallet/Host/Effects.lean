import YubiWallet.Host.Methods
import YubiWallet.Lib.Outcome

/-! What the host has done when it reports an error: a malformed request touches neither
the card nor the PIN, and without a PIN nothing is verified or signed. -/
namespace YubiWallet.Host
open Interaction Outcome

/-- VERIFY and the three signing commands. -/
def needsPin (command : Bytes) : Bool :=
  command.getD 1 0 ∈ [Apdu.insVerify, Apdu.insPso, Apdu.insInternalAuthenticate,
    Apdu.insGeneralAuthenticate]

def Harmless (op : Op) : Prop := ∀ command bufLen, op = .transmit command bufLen →
  needsPin command = false

/-- Reading a public key needs no PIN. -/
theorem harmless_of_readsCard {op : Op} (h : ReadsCard op) : Harmless op := by
  rintro command bufLen rfl
  change command.getD 1 0 ∈ _ at h
  unfold needsPin
  simp only [List.mem_cons, List.not_mem_nil, or_false] at h
  rcases h with h | h | h <;> rw [h] <;> decide

/-- Codes of requests that are refused for what they ask. -/
def refusalCodes : List String := ["BAD_REQUEST", "UNKNOWN_ACCOUNT", "UNSUPPORTED_METHOD"]

/-- An error with a refusal code comes before every operation, a missing PIN before every
command that needs it. -/
def Guarded (t : Trace) (result : MethodResult) : Prop :=
  ∀ code message, result = .error (code, message) →
    (code ∈ refusalCodes → t = []) ∧
    (code = "PIN_FAILED" → ∀ command ∈ commands t, needsPin command = false)

theorem Guarded.ok (t : Trace) (v : Value) : Guarded t (.ok v) := by
  intro code message h
  simp at h

theorem Guarded.card {t : Trace} {e : String × String} (h : e.1 = "CARD_ERROR") :
    Guarded t (.error e) := by
  intro c m hc
  obtain rfl : e = (c, m) := Except.error.inj hc
  obtain rfl : c = "CARD_ERROR" := h
  exact ⟨fun hmem => absurd hmem (by decide), fun heq => absurd heq (by decide)⟩

theorem Guarded.refused {e : String × String} (h : e.1 ∈ refusalCodes) :
    Guarded [] (.error e) := by
  intro c m hc
  obtain rfl : e = (c, m) := Except.error.inj hc
  exact ⟨fun _ => rfl, fun _ command hcommand => by simp [commands] at hcommand⟩

theorem Guarded.pinFailed {t : Trace} (h : ∀ e ∈ t, Harmless e.op) (message : String) :
    Guarded t (.error ("PIN_FAILED", message)) := by
  intro c m hc
  obtain ⟨rfl, rfl⟩ : "PIN_FAILED" = c ∧ message = m := by simpa using hc
  refine ⟨fun hmem => absurd hmem (by decide), fun _ command hcommand => ?_⟩
  obtain ⟨e, he, bufLen, hop⟩ := mem_commands.mp hcommand
  exact h e he command bufLen hop

theorem paramStr_error {params : Value} {key : String} {e : String × String}
    (h : paramStr params key = .error e) : e.1 = "BAD_REQUEST" := by
  unfold paramStr at h
  split at h
  · simp at h
  · obtain rfl := Except.error.inj h
    rfl

theorem parseAccount_error {id : String} {e : String × String}
    (h : parseAccount id = .error e) : e.1 = "UNKNOWN_ACCOUNT" := by
  unfold parseAccount at h
  split at h
  · simp only [bind_eq_error_iff, mapError_eq_error_iff] at h
    rcases h with ⟨_, _, rfl⟩ | ⟨_, _, ⟨_, _, rfl⟩ | ⟨_, _, ⟨_, _, rfl⟩ | ⟨_, _, h⟩⟩⟩
    · rfl
    · rfl
    · rfl
    · cases h
  · obtain rfl := Except.error.inj h
    rfl

theorem paramHex_error {C : Crates} {params : Value} {key : String} {e : String × String}
    (h : paramHex C params key = .error e) : e.1 = "BAD_REQUEST" := by
  simp only [paramHex, bind_eq_error_iff, mapError_eq_error_iff] at h
  rcases h with h | ⟨_, _, _, _, rfl⟩
  · exact paramStr_error h
  · rfl

theorem secp256k1Args_error {C : Crates} {params : Value} {e : String × String}
    (h : secp256k1Args C params = .error e) : e.1 ∈ refusalCodes := by
  simp only [secp256k1Args, bind_eq_error_iff] at h
  rcases h with h | ⟨_, _, h | ⟨_, _, h | ⟨_, _, h⟩⟩⟩
  · rw [paramStr_error h]
    decide
  · rw [parseAccount_error h]
    decide
  · rw [paramHex_error h]
    decide
  · split at h
    · cases h
    · obtain rfl := Except.error.inj h
      decide

theorem ed25519Args_error {C : Crates} {params : Value} {e : String × String}
    (h : ed25519Args C params = .error e) : e.1 ∈ refusalCodes := by
  simp only [ed25519Args, bind_eq_error_iff] at h
  rcases h with h | ⟨_, _, h | ⟨_, _, h | ⟨_, _, h⟩⟩⟩
  · rw [paramStr_error h]
    decide
  · rw [parseAccount_error h]
    decide
  · rw [paramHex_error h]
    decide
  · cases h

theorem finishSecp256k1_error {C : Crates} {pubkey rsVec : Bytes} {hash : BytesN 32}
    {e : String × String} (h : finishSecp256k1 C pubkey hash rsVec = .error e) :
    e.1 = "CARD_ERROR" := by
  unfold finishSecp256k1 at h
  split at h
  · obtain rfl := Except.error.inj h
    rfl
  · rename_i rs _
    cases hsig : Eth.ethereumSignature C.k256 pubkey hash rs 0 with
    | ok sig =>
      rw [hsig] at h
      cases h
    | error x =>
      rw [hsig] at h
      obtain rfl : cardErr x = e := Except.error.inj h
      rfl

/-- Behind harmless operations only, the PIN is asked for; what comes after it reports
errors of the card alone. -/
theorem hostPin_guarded {t : Trace} (ht : ∀ e ∈ t, Harmless e.op) {f : String → HostM Value}
    (hf : ∀ pin, Prog.Always (f pin).run fun _ r => ∀ e, r = .error e → e.1 = "CARD_ERROR") :
    Prog.Always (hostPin >>= f).run fun t' r => Guarded (t ++ t') r := by
  have hpin : Prog.Only Harmless readPin := readPin_only.mono fun op hop command bufLen h => by
    rw [h] at hop
    cases hop
  rw [Action.always_bind, hostPin, Action.always_mapErr]
  refine Prog.Always.mono hpin fun t' r ht' => ?_
  have hboth : ∀ e ∈ t ++ t', Harmless e.op := fun e he =>
    (List.mem_append.mp he).elim (ht e) (ht' e)
  cases r with
  | error m => exact Guarded.pinFailed hboth m
  | ok pin =>
    refine (hf pin).mono fun t'' r' hr' => ?_
    cases r' with
    | ok v => exact Guarded.ok _ v
    | error e => exact Guarded.card (hr' e rfl)

/-- Once the card is asked to sign, errors are errors of the card. -/
theorem signWithPin_finish (acc : Account) (message : Bytes) (pin : String)
    (g : Bytes → Except (String × String) Value)
    (hg : ∀ sig e, g sig = .error e → e.1 = "CARD_ERROR") :
    Prog.Always (Action.mapErr cardErr (signWithPin acc message pin) >>=
        fun sig => Action.ofExcept (g sig) : HostM Value).run
      fun _ r => ∀ e, r = .error e → e.1 = "CARD_ERROR" := by
  have hany : Prog.Always (signWithPin acc message pin).run fun _ _ => True :=
    Prog.Always.of_forall _ fun _ _ => trivial
  refine Action.always_mapErr_bind_of hany (fun t x _ e he => ?_) fun t sig _ => ?_
  · obtain rfl : cardErr x = e := Except.error.inj he
    rfl
  · exact fun e he => hg sig e he

theorem signSecp256k1_guarded (C : Crates) (params : Value) :
    Prog.Always (signSecp256k1 C params).run Guarded := by
  refine Action.always_ofExcept_bind_of
    (fun e hargs => Guarded.refused (secp256k1Args_error hargs)) fun args _ => ?_
  obtain ⟨acc, hash⟩ := args
  refine Action.always_mapErr_bind_of (getPubkey_readsCard acc)
    (fun t e _ => Guarded.card rfl) fun t pubkey ht => ?_
  exact hostPin_guarded (fun e he => harmless_of_readsCard (ht e he)) fun pin =>
    signWithPin_finish acc hash.val pin _ fun _ _ => finishSecp256k1_error

theorem signEd25519_guarded (C : Crates) (params : Value) :
    Prog.Always (signEd25519 C params).run Guarded := by
  refine Action.always_ofExcept_bind_of
    (fun e hargs => Guarded.refused (ed25519Args_error hargs)) fun args _ => ?_
  obtain ⟨acc, message⟩ := args
  exact hostPin_guarded (t := []) (by simp) fun pin =>
    signWithPin_finish acc message pin (fun sig => .ok _) fun _ _ h => by cases h

theorem dispatch_guarded (C : Crates) (method : String) (params : Value) :
    Prog.Always (dispatch C method params).run Guarded := by
  unfold dispatch
  split
  · exact Guarded.ok _ _
  · rw [Action.always_bind, Action.always_lift]
    exact Prog.Always.of_forall _ fun t accounts => Guarded.ok _ _
  · rw [Action.always_bind, Action.always_lift]
    exact Prog.Always.of_forall _ fun t accounts => Guarded.ok _ _
  · exact signSecp256k1_guarded C params
  · exact signEd25519_guarded C params
  · exact Guarded.refused (by simp [refusalCodes])

theorem response_error {id : UInt64} {result : MethodResult} {err : ErrObj}
    (h : (response id result).error = some err) : result = .error (err.code, err.message) := by
  cases result with
  | ok v => cases h
  | error e =>
    obtain rfl := Option.some.inj h
    rfl

theorem respond_guarded (C : Crates) (req : Except String Req) :
    Prog.Always (respond C req) fun t resp => ∀ err, resp.error = some err →
      (err.code ∈ refusalCodes → t = []) ∧
      (err.code = "PIN_FAILED" → ∀ command ∈ commands t, needsPin command = false) := by
  cases req with
  | error e =>
    intro err herr
    exact Guarded.refused (e := ("BAD_REQUEST", e)) (by simp [refusalCodes]) _ _
      (response_error herr)
  | ok req =>
    change Prog.Always (response req.id <$> (dispatch C req.method req.params).run) _
    rw [Prog.always_map]
    exact (dispatch_guarded C req.method req.params).mono fun t r hr err herr =>
      hr _ _ (response_error herr)

/-- A message that is answered with a refusal has reached neither the card nor the PIN;
one that is answered with PIN_FAILED, no command that needs the PIN. -/
theorem handle_effects (C : Crates) (msg : Bytes) (env : Env) (h : Trace) :
    let out := Prog.run env (respond C (C.serde.fromSlice msg)) h
    Prog.run env (handle C msg) h = (C.serde.toVec out.1, out.2) ∧
    ∀ err, out.1.error = some err →
      (err.code ∈ refusalCodes →
        commands out.2 = [] ∧ ∀ e ∈ out.2, e.op.readsPin = false) ∧
      (err.code = "PIN_FAILED" → ∀ command ∈ commands out.2, needsPin command = false) := by
  refine ⟨Prog.run_map env _ C.serde.toVec h, fun err herr => ?_⟩
  obtain ⟨hrefused, hpin⟩ := (respond_guarded C (C.serde.fromSlice msg)).run env h err herr
  refine ⟨fun hcode => ?_, hpin⟩
  rw [hrefused hcode]
  exact ⟨rfl, by simp⟩

end YubiWallet.Host
