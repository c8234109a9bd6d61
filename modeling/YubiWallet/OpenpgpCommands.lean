import YubiWallet.Courses
import YubiWallet.Lib.Iso7816

/-! The two commands of an OpenPGP signing call that carry data of the caller, as the
card parses them. -/
namespace YubiWallet.Openpgp
open Interaction
open Apdu (shortCommand)

/-- Both slots sign in the same way. -/
def verifyThenSign (ins p1 p2 reference : UInt8) (prompt : String) (message : Bytes)
    (pin : Option String) : CardM Bytes := do
  let userPin ← Pin.resolve pin prompt
  let _ ← Apdu.send Apdu.cla Apdu.insVerify 0x00 reference (some (asBytes userPin)) none 512
  Apdu.send Apdu.cla ins p1 p2 (some message) (some 0x00) 512

def signingInstructions : List UInt8 := [Apdu.insPso, Apdu.insInternalAuthenticate]

theorem sign_supported {slot : UInt8} (h : slot = OpenpgpSlot.sig ∨ slot = OpenpgpSlot.aut) :
    ∃ ins p1 p2 reference prompt, ins ∈ signingInstructions ∧
      ∀ (acc : Account) (message : Bytes) (pin : Option String), acc.slot = slot →
        sign acc message pin = Apdu.connect >>= fun _ => select >>= fun _ =>
          verifyThenSign ins p1 p2 reference prompt message pin := by
  cases h with
  | inl hsig =>
    refine ⟨_, p1Sign, p2ComputeSignature, p2Pw1Sign, "Enter User PIN (PW1/PIN2): ",
      List.mem_cons_self, ?_⟩
    intro acc message pin hslot
    rw [sign, if_pos (hslot.trans hsig)]
    rfl
  | inr haut =>
    refine ⟨_, 0x00, 0x00, p2Pw1Other, "Enter User PIN (PW1): ",
      List.mem_cons_of_mem _ List.mem_cons_self, ?_⟩
    intro acc message pin hslot
    have hsig : ¬ acc.slot = OpenpgpSlot.sig := by
      rw [hslot, haut]
      decide
    rw [sign, if_neg hsig, if_pos (hslot.trans haut)]
    rfl

theorem sign_unsupported {acc : Account}
    (h : ¬ (acc.slot = OpenpgpSlot.sig ∨ acc.slot = OpenpgpSlot.aut)) (message : Bytes)
    (pin : Option String) :
    ∃ m, sign acc message pin = Apdu.connect >>= fun _ => select >>= fun _ =>
      throw (.unsupported m) := by
  refine ⟨s!"OpenPGP slot {fmtHash04x acc.slot}: only SIG and AUT are supported", ?_⟩
  rw [sign, if_neg fun hsig => h (Or.inl hsig), if_neg fun haut => h (Or.inr haut)]

/-- The caller's PIN, or else the line that the user types. -/
def givenPin (pin : Option String) (typed : Except String String) : Option String :=
  match pin, typed with
  | some p, _ => some p
  | none, .ok line => some (trim line)
  | none, .error _ => none

def line? : Event Op Op.Ans → Option (Except String String)
  | ⟨.readLine, x⟩ => some x
  | _ => none

/-- The user types nothing else. -/
def Types (typed : Except String String) (e : Event Op Op.Ans) : Prop :=
  ∀ x, line? e = some x → x = typed

theorem types_exists (typed : Except String String) (op : Op) : ∃ x, Types typed ⟨op, x⟩ := by
  obtain ⟨x⟩ := ans_nonempty op
  cases op with
  | readLine =>
    refine ⟨typed, fun y hy => ?_⟩
    exact (Option.some.inj hy).symm
  | _ => exact ⟨x, fun y hy => by cases hy⟩

/-- VERIFY parses as a short command with the bytes of the PIN, and the signing command
as one with the message, whose expected length is 0 for 256. -/
def Presents (given : Option String) (message : Bytes) (t : Trace) : Prop :=
  ∀ c ∈ commands t,
    (c.getD 1 0 = Apdu.insVerify → ∃ p p2, given = some p ∧
      Iso7816.decode c = some (.short, ⟨0x00, 0x20, 0x00, p2, some (asBytes p), none⟩)) ∧
    (c.getD 1 0 ∈ signingInstructions → ∃ p1 p2,
      Iso7816.decode c = some (.short, ⟨0x00, c.getD 1 0, p1, p2, some message, some 0⟩))

/-- The slot cannot sign, or there is no PIN, or none that fits a command, or neither the
PIN nor the message is empty. -/
def PresentsWhen (slot : UInt8) (given : Option String) (message : Bytes) : Prop :=
  slot = OpenpgpSlot.sig ∨ slot = OpenpgpSlot.aut →
    ∀ p, given = some p → 255 < (asBytes p).length ∨ p ≠ "" ∧ message ≠ []

theorem asBytes_eq_nil_iff (p : String) : asBytes p = [] ↔ p = "" := by
  unfold asBytes
  rw [List.flatMap_eq_nil_iff, ← String.toList_eq_nil_iff]
  constructor
  · intro h
    cases hp : p.toList with
    | nil => rfl
    | cons c cs =>
      have hc : String.utf8EncodeChar c = [] := h c (by rw [hp]; exact List.mem_cons_self)
      have hpos := c.utf8Size_pos
      rw [← String.length_utf8EncodeChar, hc] at hpos
      exact absurd hpos (by decide)
  · intro h c hc
    rw [h] at hc
    cases hc

/-- While the user types nothing else, every command sent satisfies `Q`. -/
def Sends (typed : Except String String) (Q : Bytes → Prop) {α : Type} (p : CardM α) : Prop :=
  Prog.Always p.run fun t _ => (∀ e ∈ t, Types typed e) → ∀ c ∈ commands t, Q c

theorem Sends.mono {typed : Except String String} {Q R : Bytes → Prop} {α : Type} {p : CardM α}
    (hp : Sends typed Q p) (h : ∀ c, Q c → R c) : Sends typed R p :=
  Prog.Always.mono hp fun _ _ ht htypes c hc => h c (ht htypes c hc)

theorem Sends.of_only {typed : Except String String} {Q : Bytes → Prop} {α : Type} {p : CardM α}
    (hp : Prog.Only (fun op => ∀ c bufLen, op = .transmit c bufLen → Q c) p.run) :
    Sends typed Q p := by
  refine Prog.Always.mono hp fun t _ ht _ c hc => ?_
  obtain ⟨e, he, bufLen, hop⟩ := mem_commands.mp hc
  exact ht e he c bufLen hop

theorem Sends.bind {typed : Except String String} {Q : Bytes → Prop} {α β : Type} {p : CardM α}
    {f : α → CardM β} (hp : Sends typed Q p) (hf : ∀ a, Sends typed Q (f a)) :
    Sends typed Q (p >>= f) := by
  apply Action.always_bind_of hp
  · intro t e h
    exact h
  · intro t a h
    refine Prog.Always.mono (hf a) fun t' _ ht' htypes c hc => ?_
    obtain ⟨htypesL, htypesR⟩ := List.forall_mem_append.mp htypes
    rw [commands_append] at hc
    cases List.mem_append.mp hc with
    | inl hleft => exact h htypesL c hleft
    | inr hright => exact ht' htypesR c hright

theorem Sends.send {typed : Except String String} {Q : Bytes → Prop} {cla ins p1 p2 : UInt8}
    {data : Bytes} {le : Option UInt8} {bufLen : Nat}
    (h : data.length ≤ 255 → Q (shortCommand [cla, ins, p1, p2] data le.toList)) :
    Sends typed Q (Apdu.send cla ins p1 p2 (some data) le bufLen) := by
  apply Sends.of_only
  apply Apdu.only_send_short
  intro hlen c bufLen' hop
  rw [← (Op.transmit.inj hop).1]
  exact h hlen

/-- Connecting and SELECT come before everything else. -/
theorem Sends.opened {typed : Except String String} {Q : Bytes → Prop} {α : Type} {p : CardM α}
    (hselect : Q (selectCommand .openPgp)) (hp : Sends typed Q p) :
    Sends typed Q (Apdu.connect >>= fun _ => select >>= fun _ => p) := by
  have hconnect : Sends typed Q Apdu.connect :=
    Sends.of_only (Apdu.only_connect fun _ _ h => nomatch h)
  have hselected : Sends typed Q select :=
    (Sends.send fun _ => hselect).bind fun _ => Sends.of_only (Prog.Only.pure _)
  exact hconnect.bind fun _ => hselected.bind fun _ => hp

/-- The PIN comes from the caller or the user, and nothing is sent for it. -/
theorem resolve_given (pin : Option String) (typed : Except String String) (prompt : String) :
    Prog.Always (Pin.resolve pin prompt).run fun t r => commands t = [] ∧
      ((∀ e ∈ t, Types typed e) → ∀ p, r = .ok p → givenPin pin typed = some p) := by
  cases pin with
  | some p =>
    refine ⟨rfl, fun _ p' hp => ?_⟩
    rw [← Except.ok.inj hp]
    rfl
  | none =>
    intro x
    cases x with
    | error e => exact ⟨rfl, fun _ p hp => nomatch hp⟩
    | ok u =>
      intro y
      cases y with
      | error e => exact ⟨rfl, fun _ p hp => nomatch hp⟩
      | ok line =>
        refine ⟨rfl, fun htypes p hp => ?_⟩
        have hline := htypes ⟨.readLine, Except.ok line⟩ (by simp) (.ok line) rfl
        rw [← hline, ← Except.ok.inj hp]
        rfl

theorem Sends.resolve_bind {pin : Option String} {typed : Except String String} {prompt : String}
    {Q : Bytes → Prop} {α : Type} {f : String → CardM α}
    (hf : ∀ p, givenPin pin typed = some p → Sends typed Q (f p)) :
    Sends typed Q (Pin.resolve pin prompt >>= f) := by
  apply Action.always_bind_of (resolve_given pin typed prompt)
  · intro t e h _ c hc
    rw [h.1] at hc
    cases hc
  · intro t p h
    by_cases htypes : ∀ e ∈ t, Types typed e
    · refine Prog.Always.mono (hf p (h.2 htypes p rfl)) fun t' _ ht' htypes' c hc => ?_
      obtain ⟨-, hrest⟩ := List.forall_mem_append.mp htypes'
      rw [commands_append] at hc
      cases List.mem_append.mp hc with
      | inl hbefore =>
        change c ∈ commands t at hbefore
        rw [h.1] at hbefore
        cases hbefore
      | inr hbehind => exact ht' hrest c hbehind
    · refine Prog.Always.of_forall _ fun t' _ htypes' => ?_
      exact absurd (List.forall_mem_append.mp htypes').1 htypes

theorem verifyThenSign_sends (ins p1 p2 reference : UInt8) (prompt : String) (message : Bytes)
    (pin : Option String) (typed : Except String String) :
    Sends typed (fun c => ∃ p, givenPin pin typed = some p ∧ (asBytes p).length ≤ 255 ∧
      (c = shortCommand [0x00, 0x20, 0x00, reference] (asBytes p) [] ∨
        message.length ≤ 255 ∧ c = shortCommand [0x00, ins, p1, p2] message [0x00]))
      (verifyThenSign ins p1 p2 reference prompt message pin) := by
  apply Sends.resolve_bind
  intro p hgiven
  by_cases hlen : (asBytes p).length ≤ 255
  · apply Sends.bind
    · apply Sends.send
      intro _
      exact ⟨p, hgiven, hlen, Or.inl rfl⟩
    · intro _
      apply Sends.send
      intro hmessage
      exact ⟨p, hgiven, hlen, Or.inr ⟨hmessage, rfl⟩⟩
  · rw [Apdu.send_long none (by omega) 512]
    exact Sends.of_only (Action.only_throw _)

/-- The commands of a call: SELECT, and then the two that carry data. -/
theorem sign_sends (acc : Account) (message : Bytes) (pin : Option String)
    (typed : Except String String) :
    Sends typed (fun c => c = selectCommand .openPgp ∨
      ∃ p, (acc.slot = OpenpgpSlot.sig ∨ acc.slot = OpenpgpSlot.aut) ∧
        givenPin pin typed = some p ∧ (asBytes p).length ≤ 255 ∧
        ((∃ p2, c = shortCommand [0x00, 0x20, 0x00, p2] (asBytes p) []) ∨
          message.length ≤ 255 ∧ ∃ ins p1 p2, ins ∈ signingInstructions ∧
            c = shortCommand [0x00, ins, p1, p2] message [0x00])) (sign acc message pin) := by
  by_cases hslot : acc.slot = OpenpgpSlot.sig ∨ acc.slot = OpenpgpSlot.aut
  · obtain ⟨ins, p1, p2, reference, prompt, hins, hsign⟩ := sign_supported hslot
    rw [hsign acc message pin rfl]
    apply Sends.opened (Or.inl rfl)
    apply Sends.mono (verifyThenSign_sends ins p1 p2 reference prompt message pin typed)
    intro c hc
    obtain ⟨p, hgiven, hlen, hcase⟩ := hc
    refine Or.inr ⟨p, hslot, hgiven, hlen, ?_⟩
    cases hcase with
    | inl hverify => exact Or.inl ⟨reference, hverify⟩
    | inr hsigned => exact Or.inr ⟨hsigned.1, ins, p1, p2, hins, hsigned.2⟩
  · obtain ⟨m, hsign⟩ := sign_unsupported hslot message pin
    rw [hsign]
    exact Sends.opened (Or.inl rfl) (Sends.of_only (Action.only_throw _))

theorem decode_verify {p : String} (hne : p ≠ "") (hlen : (asBytes p).length ≤ 255) (p2 : UInt8) :
    Iso7816.decode (shortCommand [0x00, 0x20, 0x00, p2] (asBytes p) []) =
      some (.short, ⟨0x00, 0x20, 0x00, p2, some (asBytes p), none⟩) := by
  have hdata : asBytes p ≠ [] := fun h => hne ((asBytes_eq_nil_iff p).mp h)
  rw [shortCommand, List.append_nil]
  exact Iso7816.decode_short_data 0x00 0x20 0x00 p2 hdata hlen

theorem decode_signing {message : Bytes} (hne : message ≠ []) (hlen : message.length ≤ 255)
    (ins p1 p2 : UInt8) :
    Iso7816.decode (shortCommand [0x00, ins, p1, p2] message [0x00]) =
      some (.short, ⟨0x00, ins, p1, p2, some message, some 0⟩) := by
  rw [shortCommand, List.append_assoc]
  exact Iso7816.decode_short_data_le 0x00 ins p1 p2 0x00 hne hlen

/-- With data for both commands, both present it. -/
theorem sign_presents {acc : Account} {message : Bytes} {pin : Option String}
    {typed : Except String String} (h : PresentsWhen acc.slot (givenPin pin typed) message) :
    Prog.Always (sign acc message pin).run fun t _ => (∀ e ∈ t, Types typed e) →
      Presents (givenPin pin typed) message t := by
  refine Prog.Always.mono (sign_sends acc message pin typed) fun t _ ht htypes c hc => ?_
  cases ht htypes c hc with
  | inl hselect =>
    rw [hselect]
    exact ⟨fun hins => absurd hins (by decide), fun hins => absurd hins (by decide)⟩
  | inr hdata =>
    obtain ⟨p, hslot, hgiven, hlen, hcase⟩ := hdata
    obtain ⟨hp, hmessage⟩ := (h hslot p hgiven).resolve_left (by omega)
    cases hcase with
    | inl hverify =>
      obtain ⟨p2, rfl⟩ := hverify
      exact ⟨fun _ => ⟨p, p2, hgiven, decode_verify hp hlen p2⟩,
        fun hins => absurd hins (by change (0x20 : UInt8) ∉ _; decide)⟩
    | inr hsigned =>
      obtain ⟨hfit, ins, p1, p2, hins, rfl⟩ := hsigned
      constructor
      · intro heq
        change ins = Apdu.insVerify at heq
        rw [heq] at hins
        exact absurd hins (by decide)
      · intro _
        exact ⟨p1, p2, decode_signing hmessage hfit ins p1 p2⟩

theorem gives_given {pin : Option String} {typed : Except String String} {p : String}
    (h : givenPin pin typed = some p) (prompt : String) :
    ∃ t, Prog.Gives (Pin.resolve pin prompt).run t (.ok p) ∧ ∀ e ∈ t, Types typed e := by
  cases pin with
  | some p' =>
    obtain rfl : p' = p := Option.some.inj h
    exact ⟨[], Pin.gives_resolve_some p' prompt, fun e he => nomatch he⟩
  | none =>
    cases typed with
    | error e => cases h
    | ok line =>
      obtain rfl : trim line = p := Option.some.inj h
      refine ⟨_, Pin.gives_resolve_none prompt line, ?_⟩
      refine List.forall_mem_cons.mpr
        ⟨fun x hx => (nomatch hx), List.forall_mem_singleton.mpr fun x hx => ?_⟩
      exact (Option.some.inj hx).symm

theorem types_transmit (typed : Except String String) (c : Bytes) (bufLen : Nat)
    (x : Except String Bytes) : Types typed ⟨.transmit c bufLen, x⟩ := fun _ h => nomatch h

theorem types_opened (typed : Except String String) : ∀ e ∈ opened .openPgp, Types typed e :=
  List.forall_mem_cons.mpr
    ⟨fun _ hx => (nomatch hx), List.forall_mem_singleton.mpr (types_transmit typed _ _ _)⟩

/-- The signing command is sent, or a message that does not fit is refused. -/
theorem gives_signing (ins p1 p2 : UInt8) (message : Bytes) (typed : Except String String) :
    ∃ t r, Prog.Gives (Apdu.send Apdu.cla ins p1 p2 (some message) (some 0x00) 512).run t r ∧
      (∀ e ∈ t, Types typed e) ∧
      (message.length ≤ 255 → shortCommand [0x00, ins, p1, p2] message [0x00] ∈ commands t) ∧
      (255 < message.length → r = .error (.dataTooLong message.length)) := by
  by_cases hmessage : message.length ≤ 255
  · refine ⟨_, _, Apdu.gives_send_success hmessage 512, ?_, ?_, ?_⟩
    · exact List.forall_mem_singleton.mpr (types_transmit typed _ _ _)
    · intro _
      exact List.mem_cons_self
    · intro hlong
      omega
  · refine ⟨[], .error (.dataTooLong message.length), ?_, ?_, ?_, ?_⟩
    · rw [Apdu.send_long (some 0x00) (by omega) 512]
      exact ⟨rfl, rfl⟩
    · intro e he
      cases he
    · intro hfits
      exact absurd hfits hmessage
    · intro _
      rfl

/-- With a PIN that fits, VERIFY is sent; then the signing command, or the refusal of a
message that does not fit. -/
theorem gives_sign {acc : Account} (hslot : acc.slot = OpenpgpSlot.sig ∨ acc.slot = OpenpgpSlot.aut)
    (message : Bytes) {pin : Option String} {typed : Except String String} {p : String}
    (hgiven : givenPin pin typed = some p) (hlen : (asBytes p).length ≤ 255) :
    ∃ t r, Prog.Gives (sign acc message pin).run t r ∧ (∀ e ∈ t, Types typed e) ∧
      (∃ p2, shortCommand [0x00, 0x20, 0x00, p2] (asBytes p) [] ∈ commands t) ∧
      (message.length ≤ 255 → ∃ ins p1 p2, ins ∈ signingInstructions ∧
        shortCommand [0x00, ins, p1, p2] message [0x00] ∈ commands t) ∧
      (255 < message.length → r = .error (.dataTooLong message.length)) := by
  obtain ⟨ins, p1, p2, reference, prompt, hins, hsign⟩ := sign_supported hslot
  obtain ⟨t, hresolve, htypes⟩ := gives_given hgiven prompt
  obtain ⟨t', r, hsigned, htypes', hsent, hrefused⟩ := gives_signing ins p1 p2 message typed
  have hverify : Prog.Gives (Apdu.send Apdu.cla Apdu.insVerify 0x00 reference (some (asBytes p))
      none 512).run _ (.ok []) := Apdu.gives_send_success hlen 512
  have hbody : Prog.Gives (verifyThenSign ins p1 p2 reference prompt message pin).run _ r :=
    Action.gives_bind hresolve (Action.gives_bind hverify hsigned)
  rw [hsign acc message pin rfl]
  refine ⟨_, r, gives_opened .openPgp hbody, ?_, ⟨reference, ?_⟩, ?_, hrefused⟩
  · exact List.forall_mem_append.mpr ⟨types_opened typed, List.forall_mem_append.mpr ⟨htypes,
      List.forall_mem_cons.mpr ⟨types_transmit typed _ _ _, htypes'⟩⟩⟩
  · rw [commands_append, commands_append, commands_append]
    exact List.mem_append_right _ (List.mem_append_right _ (List.mem_append_left _
      List.mem_cons_self))
  · intro hfits
    refine ⟨ins, p1, p2, hins, ?_⟩
    rw [commands_append, commands_append, commands_append]
    exact List.mem_append_right _ (List.mem_append_right _ (List.mem_append_right _
      (hsent hfits)))

/-- The calls that present their data to every card: what the user types is given, and
the condition says which PINs and messages those are. -/
theorem sign_presents_iff (acc : Account) (message : Bytes) (pin : Option String)
    (typed : Except String String) :
    (∀ env : Env, (∀ h op, Types typed ⟨op, env h op⟩) →
      ∀ h, Presents (givenPin pin typed) message (Prog.run env (sign acc message pin).run h).2) ↔
      PresentsWhen acc.slot (givenPin pin typed) message := by
  rw [@Prog.forall_run_iff_always _ _ _ (Types typed) (types_exists typed)
    (sign acc message pin).run fun t _ => Presents (givenPin pin typed) message t]
  constructor
  · intro hall hslot p hgiven
    by_cases hlen : (asBytes p).length ≤ 255
    · obtain ⟨t, r, hgives, htypes, hverify, hsigned, -⟩ := gives_sign hslot message hgiven hlen
      have hpresents := hall.of_gives hgives htypes
      right
      constructor
      · -- an empty PIN makes VERIFY a command without data
        intro hempty
        subst hempty
        obtain ⟨p2, hmem⟩ := hverify
        obtain ⟨p', p2', -, hdecode⟩ := (hpresents _ hmem).1 rfl
        cases hdecode.symm.trans (Iso7816.decode_short_empty 0x00 0x20 0x00 p2)
      · intro hempty
        subst hempty
        obtain ⟨ins, p1, p2, hins, hmem⟩ := hsigned (by simp)
        obtain ⟨p1', p2', hdecode⟩ := (hpresents _ hmem).2 hins
        cases hdecode.symm.trans (Iso7816.decode_short_empty_le 0x00 ins p1 p2 0x00)
    · exact Or.inl (by omega)
  · intro hwhen
    exact sign_presents hwhen

/-- A card and a terminal that agree to everything. -/
def agreeing : Env := fun _ op =>
  match op with
  | .connect => Connection.card
  | .transmit _ _ => Apdu.success
  | .print _ => Except.ok ()
  | .readLine => Except.ok ""
  | .envVar _ => none
  | .writeTty _ => ()
  | .openTty => Except.ok ()
  | .readTty => Except.ok ""
  | .writeOut _ => ()
  | .flushOut => ()

/-- The empty PIN is sent as the VERIFY that asks whether the PIN was verified before. -/
theorem sign_empty_pin :
    let t := (Prog.run agreeing
      (sign ⟨.openPgp, OpenpgpSlot.sig, .ed25519⟩ [0x68, 0x69] (some "")).run []).2
    [0x00, 0x20, 0x00, 0x81, 0x00] ∈ commands t ∧
      Iso7816.decode [0x00, 0x20, 0x00, 0x81, 0x00] =
        some (.short, ⟨0x00, 0x20, 0x00, 0x81, none, some 0⟩) ∧
      ¬ Presents (some "") [0x68, 0x69] t := by
  intro t
  have hsent : [0x00, 0x20, 0x00, 0x81, 0x00] ∈ commands t := by decide
  have hquery := Iso7816.decode_short_empty 0x00 0x20 0x00 0x81
  refine ⟨hsent, hquery, fun h => ?_⟩
  obtain ⟨p, p2, -, hdecode⟩ := (h _ hsent).1 rfl
  cases hdecode.symm.trans hquery

end YubiWallet.Openpgp
