import YubiWallet.CardProtocol
import YubiWallet.Host.Loop
import YubiWallet.Lib.Counting

/-! Whole sessions of the host: what the card hears, and what a session costs in PIN
attempts, whatever stands in the messages and whatever the card answers. -/
namespace YubiWallet.Host
open Interaction

theorem hostPin_speaks : Prog.Only Speaks hostPin.run := by
  refine Action.only_mapErr (p := ExceptT.mk readPin) (readPin_only.mono fun op hop => ?_) _
  intro command bufLen h
  rw [h] at hop
  cases hop

theorem signWithPin_speaks (acc : Account) (message : Bytes) (pin : String) :
    Prog.Only Speaks (Action.mapErr cardErr (signWithPin acc message pin) : HostM Bytes).run :=
  Action.only_mapErr (signDispatch_speaks acc message (some pin)) _

theorem hostListAccounts_speaks (C : Crates) : Prog.Only Speaks (listAccounts C) := by
  have hentries : ∀ name slot, Prog.Only Speaks (openpgpEntries C name slot) :=
    fun name slot => (detectAccount_speaks slot).bind fun r => by
      cases r <;> exact Prog.Only.pure _
  exact (hentries _ _).bind fun _ => (hentries _ _).bind fun _ =>
    listAccounts_speaks.bind fun r => by cases r <;> exact Prog.Only.pure _

theorem dispatch_speaks (C : Crates) (method : String) (params : Value) :
    Prog.Only Speaks (dispatch C method params).run := by
  unfold dispatch
  split
  · exact Prog.Only.pure _
  · exact Action.only_bind (Action.only_lift (hostListAccounts_speaks C)) fun _ => Prog.Only.pure _
  · exact Action.only_bind (Action.only_lift (hostListAccounts_speaks C)) fun _ => Prog.Only.pure _
  · exact Action.only_bind (Action.only_ofExcept _) fun args => Action.only_bind
      (Action.only_mapErr (getPubkey_speaks args.1) _) fun _ => Action.only_bind hostPin_speaks
      fun _ => Action.only_bind (signWithPin_speaks _ _ _) fun _ => Action.only_ofExcept _
  · exact Action.only_bind (Action.only_ofExcept _) fun args => Action.only_bind hostPin_speaks
      fun _ => Action.only_bind (signWithPin_speaks _ _ _) fun _ => Prog.Only.pure _
  · exact Action.only_throw _

theorem handle_speaks (C : Crates) (msg : Bytes) : Prog.Only Speaks (handle C msg) := by
  refine Prog.Only.map ?_ _
  cases C.serde.fromSlice msg with
  | error e => exact Prog.Only.pure _
  | ok req => exact (dispatch_speaks C req.method req.params).map _

theorem writeMessage_only {P : Op → Prop} (hwrite : ∀ b, P (.writeOut b)) (hflush : P .flushOut)
    (bytes : Bytes) : Prog.Only P (writeMessage bytes) :=
  (Prog.Only.perform (hwrite _)).bind fun _ => (Prog.Only.perform (hwrite _)).bind fun _ =>
    Prog.Only.perform hflush

/-- What one message keeps to, the session keeps to. -/
theorem main_only {P : Op → Prop} (hwrite : ∀ b, P (.writeOut b)) (hflush : P .flushOut)
    {handle : Bytes → Prog Bytes} (hhandle : ∀ m, Prog.Only P (handle m)) (stdin : Bytes) :
    Prog.Only P (main handle stdin) := by
  rw [main_eq_serve]
  refine Prog.Only.map (Prog.Only.mapM (fun msg => ?_) _) _
  exact (hhandle msg).bind fun resp => (writeMessage_only hwrite hflush resp).bind fun _ =>
    Prog.Only.pure _

/-- In no session does the card hear anything but the seven kinds of commands, so nothing on
it is changed. -/
theorem session_commands (C : Crates) (stdin : Bytes) (env : Env) (h : Trace) :
    ∀ command ∈ commands (Prog.run env (main (handle C) stdin) h).2,
      (∃ cmd : CardCommand, command = cmd.encode) ∧ ¬ MayChange command := by
  have hspeaks : Prog.Only Speaks (main (handle C) stdin) :=
    main_only (fun _ _ _ hop => nomatch hop) (fun _ _ hop => nomatch hop) (handle_speaks C) stdin
  intro command hcommand
  obtain ⟨e, he, bufLen, hop⟩ := mem_commands.mp hcommand
  obtain ⟨cmd, rfl⟩ := hspeaks.run env h e he command bufLen hop
  exact ⟨⟨cmd, rfl⟩, cmd.not_mayChange⟩

def statusText : String := "\x7b\"id\":1,\"method\":\"get_status\"\x7d"

def statusTexts : Texts where
  messages := [(statusText, [("\"id\"", "1"), ("\"method\"", "\"get_status\"")])]
  numbers := [("1", 1)]
  strings := [("\"get_status\"", "get_status")]
  values := []

def statusCrates : Crates :=
  { emptyObjectCrates with serde := statusTexts.serde (fun _ => "") errorPrinter }

/-- The card has none of the applets. -/
def emptyCard : Env := fun h op =>
  match op with
  | .connect => Connection.card
  | .transmit _ _ => Except.ok [0x6A, 0x82]
  | op => bareWorld h op

theorem session_commands_status :
    (∃ cmd : CardCommand, CardCommand.encode (.select .piv) = cmd.encode) ∧
      ¬ MayChange (CardCommand.encode (.select .piv)) :=
  session_commands statusCrates (Framing.frame (asBytes statusText)) emptyCard [] _ (by decide +kernel)

/-- The references of VERIFY that stand for the PIN of an applet. -/
def pinReferences : Applet → List UInt8
  | .openPgp => [Openpgp.p2Pw1Sign, Openpgp.p2Pw1Other]
  | .piv => [Piv.p2PivPin]

def verifies (applet : Applet) (command : Bytes) : Bool :=
  isVerify command && command.getD 3 0 ∈ pinReferences applet

/-- A PIN of the applet is presented to the card. -/
def presents (applet : Applet) (e : Event Op Op.Ans) : Bool :=
  (command? e).any (verifies applet)

theorem presents_false_of {applet : Applet} {op : Op} {x : op.Ans}
    (h : ∀ command bufLen, op = .transmit command bufLen → isVerify command = false) :
    presents applet ⟨op, x⟩ = false := by
  cases op with
  | transmit command bufLen =>
    change (isVerify command && _) = false
    rw [h command bufLen rfl, Bool.false_and]
  | _ => rfl

theorem presents_of_readsCard {applet : Applet} {e : Event Op Op.Ans} (h : ReadsCard e.op) :
    presents applet e = false := by
  apply presents_false_of
  intro command bufLen hop
  rw [hop] at h
  change command.getD 1 0 ∈ _ at h
  simp only [List.mem_cons, List.not_mem_nil, or_false] at h
  unfold isVerify
  rcases h with h | h | h <;> rw [h] <;> decide

theorem presents_of_asksPin {applet : Applet} {e : Event Op Op.Ans} (h : AsksPin e.op) :
    presents applet e = false := by
  apply presents_false_of
  intro command bufLen hop
  rw [hop] at h
  cases h

/-- A signing call may present one PIN, of its own applet. -/
def ownAttempts (applet : Applet) (acc : Account) : Nat := if acc.applet = applet then 1 else 0

theorem applet_of_reference {a b : Applet} {r : UInt8} (ha : r ∈ pinReferences a)
    (hb : r ∈ pinReferences b) : a = b := by
  have hall : ∀ r ∈ pinReferences .openPgp, r ∉ pinReferences .piv := by
    simp [pinReferences, Openpgp.p2Pw1Sign, Openpgp.p2Pw1Other, Piv.p2PivPin]
  cases a with
  | openPgp =>
    cases b with
    | openPgp => rfl
    | piv => exact absurd hb (hall r ha)
  | piv =>
    cases b with
    | openPgp => exact absurd ha (hall r hb)
    | piv => rfl

theorem attempts_offline {α : Type} {p : CardM α} (applet : Applet)
    (hp : Prog.Only Offline p.run) : AtMost (presents applet) 0 p.run :=
  AtMost.of_only hp fun e he => presents_false_of fun _ _ hop => by
    rw [hop] at he
    cases he

theorem attempts_transmit {command : Bytes} {bufLen : Nat} (applet : Applet)
    (hins : command.getD 1 0 ≠ Apdu.insVerify) :
    AtMost (presents applet) 0 (Apdu.transmit command bufLen).run :=
  AtMost.of_only (Apdu.only_transmit (P := fun op => op = .transmit command bufLen) rfl)
    fun e he => presents_false_of fun _ _ hop => by
      obtain ⟨rfl, -⟩ := Op.transmit.inj (he.symm.trans hop)
      exact decide_eq_false hins

/-- One VERIFY is one attempt, of the applet that its reference belongs to. -/
theorem attempts_verify {reference : UInt8} {data : Bytes} {bufLen : Nat} (applet : Applet)
    {ours : Applet} (hours : reference ∈ pinReferences ours) :
    AtMost (presents applet) (if ours = applet then 1 else 0)
      (Apdu.send Apdu.cla Apdu.insVerify 0x00 reference (some data) none bufLen).run := by
  refine AtMost.ofExcept_bind fun c hc => ?_
  obtain ⟨-, rfl⟩ := Apdu.buildApdu_some hc
  unfold AtMost
  rw [Apdu.always_transmit]
  intro x
  have hpresents : presents applet ⟨.transmit (Apdu.shortCommand
      [Apdu.cla, Apdu.insVerify, 0x00, reference] data (Option.toList none)) bufLen, x⟩ =
      decide (reference ∈ pinReferences applet) := rfl
  rw [List.countP_singleton, hpresents]
  by_cases happlet : ours = applet
  · rw [if_pos happlet]
    split <;> decide
  · have hother : reference ∉ pinReferences applet :=
      fun h => happlet (applet_of_reference hours h)
    rw [if_neg happlet, decide_eq_false hother]
    exact le_refl _

theorem reference_mem {acc : Account} {message : Bytes} {s : SigningCall}
    (h : acc.signingCall message = .ok s) : s.reference ∈ pinReferences acc.applet := by
  rcases signingCall_cases h with ⟨happlet, -, rfl⟩ | ⟨happlet, -, rfl⟩ | ⟨happlet, rfl⟩
  · rw [happlet]
    exact (by decide : Openpgp.p2Pw1Sign ∈ pinReferences .openPgp)
  · rw [happlet]
    exact (by decide : Openpgp.p2Pw1Other ∈ pinReferences .openPgp)
  · rw [happlet]
    exact (by decide : Piv.p2PivPin ∈ pinReferences .piv)

theorem signDispatch_attempts (applet : Applet) (acc : Account) (message : Bytes)
    (pin : Option String) :
    AtMost (presents applet) (ownAttempts applet acc)
      (signDispatch acc message pin).run := by
  have hconnect : AtMost (presents applet) 0 Apdu.connect.run :=
    attempts_offline applet (Apdu.only_connect trivial)
  have hselect : AtMost (presents applet) 0 acc.applet.select.run :=
    AtMost.of_only (select_readsCard acc.applet) fun _ => presents_of_readsCard
  have hresolve : ∀ prompt, AtMost (presents applet) 0 (Pin.resolve pin prompt).run := fun prompt =>
    attempts_offline applet (Pin.only_resolve (fun _ => trivial) trivial pin prompt)
  have hzero : ∀ n, 0 + (0 + (0 + (n + 0))) ≤ n := fun n => by omega
  rw [signDispatch_eq]
  refine AtMost.mono ?_ (hzero _)
  refine AtMost.ofExcept_bind fun _ _ => AtMost.bind_action hconnect fun _ =>
    AtMost.bind_action hselect fun _ => AtMost.ofExcept_bind fun s hs =>
    AtMost.bind_action (hresolve s.prompt) fun _ => AtMost.ofExcept_bind fun _ _ =>
    AtMost.bind_action (attempts_verify applet (reference_mem hs)) fun _ =>
    AtMost.ofExcept_bind fun c hc => ?_
  have hins : c.getD 1 0 ≠ Apdu.insVerify := fun h => by
    have hmem := signingCall_ins hs hc
    rw [h] at hmem
    exact absurd hmem (by decide)
  exact AtMost.bind_action (n := 0) (attempts_transmit applet hins) fun _ => AtMost.pure _

/-- The account whose key a request asks to sign with. -/
def signer (C : Crates) (req : Req) : Option Account :=
  match req.method with
  | "sign_secp256k1" => (secp256k1Args C req.params).toOption.map Prod.fst
  | "sign_ed25519" => (ed25519Args C req.params).toOption.map Prod.fst
  | _ => none

/-- The message is a request to sign with a key of the applet. -/
def asksToSign (C : Crates) (applet : Applet) (msg : Bytes) : Bool :=
  match C.serde.fromSlice msg with
  | .ok req => (signer C req).any fun acc => acc.applet = applet
  | .error _ => false

theorem hostPin_attempts (applet : Applet) : AtMost (presents applet) 0 hostPin.run :=
  AtMost.mapErr (p := ExceptT.mk readPin)
    (AtMost.of_only readPin_only fun _ => presents_of_asksPin) _

/-- Behind its PIN prompt, a request makes the attempts of its own account. -/
theorem pinThenSign_attempts (applet : Applet) (acc : Account) (message : Bytes)
    (g : Bytes → Except (String × String) Value) :
    AtMost (presents applet) (ownAttempts applet acc) (hostPin >>= fun pin =>
      Action.mapErr cardErr (signWithPin acc message pin) >>= fun sig =>
        Action.ofExcept (g sig) : HostM Value).run := by
  have hsign : ∀ pin, AtMost (presents applet) (ownAttempts applet acc + 0)
      (Action.mapErr cardErr (signWithPin acc message pin) >>= fun sig =>
        Action.ofExcept (g sig) : HostM Value).run := fun pin =>
    AtMost.bind_action (AtMost.mapErr
      (signDispatch_attempts applet acc message (some pin)) _)
      fun _ => AtMost.pure _
  exact (AtMost.bind_action (hostPin_attempts applet) hsign).mono (by omega)

theorem signSecp256k1_attempts (applet : Applet) (C : Crates) (params : Value) :
    AtMost (presents applet)
      (((secp256k1Args C params).toOption.map Prod.fst).elim 0 (ownAttempts applet))
      (signSecp256k1 C params).run := by
  refine AtMost.ofExcept_bind fun args hargs => ?_
  rw [hargs]
  have hkey : AtMost (presents applet) 0
      (Action.mapErr cardErr (getPubkey args.1) : HostM Bytes).run :=
    AtMost.mapErr (AtMost.of_only (getPubkey_readsCard args.1) fun _ => presents_of_readsCard) _
  exact (AtMost.bind_action hkey fun pubkey =>
    pinThenSign_attempts applet args.1 args.2.val (finishSecp256k1 C pubkey args.2)).mono
      (Nat.zero_add _).le

theorem signEd25519_attempts (applet : Applet) (C : Crates) (params : Value) :
    AtMost (presents applet)
      (((ed25519Args C params).toOption.map Prod.fst).elim 0 (ownAttempts applet))
      (signEd25519 C params).run := by
  refine AtMost.ofExcept_bind fun args hargs => ?_
  rw [hargs]
  exact pinThenSign_attempts applet args.1 args.2 fun sig => .ok _

theorem dispatch_attempts (applet : Applet) (C : Crates) (req : Req) :
    AtMost (presents applet) ((signer C req).elim 0 (ownAttempts applet))
      (dispatch C req.method req.params).run := by
  have hlist : AtMost (presents applet) 0 (liftM (listAccounts C) : HostM (List Value)).run :=
    AtMost.map (AtMost.of_only (listAccounts_readsCard C) fun _ => presents_of_readsCard) _
  have hpublic : ∀ {p : HostM Value}, AtMost (presents applet) 0 p.run →
      AtMost (presents applet) ((signer C req).elim 0 (ownAttempts applet)) p.run :=
    fun hp => hp.mono (Nat.zero_le _)
  unfold dispatch
  split
  · exact hpublic (AtMost.pure _)
  · exact hpublic (AtMost.bind_action (n := 0) hlist fun _ => AtMost.pure _)
  · exact hpublic (AtMost.bind_action (n := 0) hlist fun _ => AtMost.pure _)
  · rename_i hmethod
    have hsigner : signer C req = (secp256k1Args C req.params).toOption.map Prod.fst := by
      simp only [signer, hmethod]
    rw [hsigner]
    exact signSecp256k1_attempts applet C req.params
  · rename_i hmethod
    have hsigner : signer C req = (ed25519Args C req.params).toOption.map Prod.fst := by
      simp only [signer, hmethod]
    rw [hsigner]
    exact signEd25519_attempts applet C req.params
  · exact hpublic (AtMost.pure _)

theorem handle_attempts (applet : Applet) (C : Crates) (msg : Bytes) :
    AtMost (presents applet) (if asksToSign C applet msg then 1 else 0) (handle C msg) := by
  refine AtMost.map ?_ _
  unfold asksToSign
  cases C.serde.fromSlice msg with
  | error e => exact AtMost.pure _
  | ok req =>
    refine AtMost.map ((dispatch_attempts applet C req).mono ?_) _
    cases hsigner : signer C req with
    | none => exact Nat.zero_le _
    | some acc => simp [hsigner, ownAttempts]

/-- The requests to sign with a key of the applet. -/
def signRequests (C : Crates) (applet : Applet) (stdin : Bytes) : Nat :=
  (readMessages stdin).countP (asksToSign C applet)

theorem session_attempts (applet : Applet) (C : Crates) (stdin : Bytes) :
    AtMost (presents applet) (signRequests C applet stdin) (main (handle C) stdin) := by
  have hwrite : ∀ bytes, AtMost (presents applet) 0 (writeMessage bytes) := fun bytes =>
    AtMost.of_only (writeMessage_only (P := fun op => op.writesStdout = true)
      (fun _ => rfl) rfl bytes) fun e he => presents_false_of fun _ _ hop => by
        rw [hop] at he
        cases he
  have hserve : ∀ msg, AtMost (presents applet) (if asksToSign C applet msg then 1 else 0)
      (handle C msg >>= fun resp => writeMessage resp >>= fun _ => pure resp) := fun msg =>
    (handle_attempts applet C msg).bind fun resp =>
      (hwrite resp).bind (n := 0) fun _ => AtMost.pure _
  have hsum : ∀ msgs : List Bytes,
      (msgs.map fun msg => if asksToSign C applet msg then 1 else 0).sum =
        msgs.countP (asksToSign C applet) := by
    intro msgs
    induction msgs with
    | nil => rfl
    | cons msg msgs ih =>
      rw [List.map_cons, List.sum_cons, ih, List.countP_cons, Nat.add_comm]
  rw [main_eq_serve, signRequests, ← hsum]
  exact AtMost.map (AtMost.mapM hserve (readMessages stdin)) _

structure RetryCounter where
  limit : Nat
  left : Nat
  left_le : left ≤ limit

namespace RetryCounter

/-- The right PIN restores the counter. -/
def accept (c : RetryCounter) : RetryCounter := ⟨c.limit, c.limit, le_refl _⟩

/-- A wrong PIN costs one try. -/
def reject (c : RetryCounter) : RetryCounter :=
  ⟨c.limit, c.left - 1, (Nat.sub_le _ _).trans c.left_le⟩

end RetryCounter

def answeredWell (e : Event Op Op.Ans) : Bool :=
  (exchange? e).any fun ex => (Apdu.decodeResponse ex.2).toOption.isSome

/-- What an event does to the counter of an applet: only a VERIFY for its PIN counts, and it
counts as wrong whatever the answer is that is not `90 00`. -/
def retryStep (applet : Applet) (c : RetryCounter) (e : Event Op Op.Ans) : RetryCounter :=
  if presents applet e then (if answeredWell e then c.accept else c.reject) else c

def retriesAfter (applet : Applet) (c : RetryCounter) (t : Trace) : RetryCounter :=
  t.foldl (retryStep applet) c

theorem retryStep_left (applet : Applet) (c : RetryCounter) (e : Event Op Op.Ans) :
    c.left ≤ (retryStep applet c e).left + if presents applet e then 1 else 0 := by
  unfold retryStep
  split
  · split
    · exact c.left_le.trans (Nat.le_add_right _ _)
    · change c.left ≤ c.left - 1 + 1
      omega
  · exact le_refl _

/-- Along a run, the counter falls by the number of attempts at most. -/
theorem retriesAfter_left (applet : Applet) (c : RetryCounter) (t : Trace) :
    c.left ≤ (retriesAfter applet c t).left + t.countP (presents applet) := by
  induction t generalizing c with
  | nil => exact le_refl _
  | cons e t ih =>
    have hstep := retryStep_left applet c e
    have hrest := ih (retryStep applet c e)
    rw [List.countP_cons]
    change c.left ≤ (retriesAfter applet (retryStep applet c e) t).left + _
    omega

theorem retriesAfter_of_none (applet : Applet) (c : RetryCounter) {t : Trace}
    (h : t.countP (presents applet) = 0) : retriesAfter applet c t = c := by
  induction t generalizing c with
  | nil => rfl
  | cons e t ih =>
    rw [List.countP_eq_zero] at h
    have he : retryStep applet c e = c := if_neg (h e List.mem_cons_self)
    change retriesAfter applet (retryStep applet c e) t = c
    rw [he]
    exact ih c (List.countP_eq_zero.mpr fun e' he' => h e' (List.mem_cons_of_mem e he'))

/-- A session costs one try for each request to sign at most, and without such a request the
counter stays as it is. -/
theorem session_retries (C : Crates) (stdin : Bytes) (env : Env) (h : Trace) (applet : Applet)
    (c : RetryCounter) :
    let after := retriesAfter applet c (Prog.run env (main (handle C) stdin) h).2
    c.left ≤ after.left + signRequests C applet stdin ∧
      (after = c ∨ 0 < signRequests C applet stdin) := by
  have hattempts := (session_attempts applet C stdin).run env h
  have hleft := retriesAfter_left applet c (Prog.run env (main (handle C) stdin) h).2
  constructor
  · exact hleft.trans (Nat.add_le_add_left hattempts _)
  · by_cases hnone : signRequests C applet stdin = 0
    · rw [hnone, Nat.le_zero] at hattempts
      exact Or.inl (retriesAfter_of_none applet c hattempts)
    · exact Or.inr (by omega)

end YubiWallet.Host
