import YubiWallet.CommandOrder
import YubiWallet.Lib.Iso7816
import Mathlib.Tactic.SplitIfs

/-! The GENERAL AUTHENTICATE command that the PIV applet signs with, as its receiver
parses it. -/
namespace YubiWallet.Piv
open Interaction Endian

/-- The command is an extended case-4 command to sign `message` with the Ed25519 key in
`slot`. -/
def SignsExactly (slot : UInt8) (message command : Bytes) : Prop :=
  ∃ data inner,
    Iso7816.decode command =
      some (.extended, ⟨0x00, 0x87, 0xE0, slot, some data, some 0⟩) ∧
    Ber.readElements data = some [(0x7C, inner)] ∧
    Ber.readElements inner = some [(0x82, []), (0x81, message)]

theorem shiftRight_eight (n : Nat) : n >>> 8 = n / 256 := Nat.shiftRight_eq_div_pow n 8

theorem shiftRight_sixteen (n : Nat) : n >>> 16 = n / 256 / 256 := by
  rw [Nat.shiftRight_eq_div_pow, Nat.div_div_eq_div_mul]

/-- Each of the four forms of `ber_len` is read back; the longest holds three bytes. -/
theorem readLength_berLen {n : Nat} (h : n < 2 ^ 24) (rest : Bytes) :
    Ber.readLength (berLen n ++ rest) = some (n, rest) := by
  unfold berLen
  rw [shiftRight_eight, shiftRight_sixteen]
  split
  · exact Ber.readLength_short (by omega) rest
  · split
    · exact Ber.readLength_long (k := 1) (by omega) (by omega) (by omega) rest
    · split
      · exact Ber.readLength_long (k := 2) (by omega) (by omega) (by omega) rest
      · exact Ber.readLength_long (k := 3) (by omega) (by omega) (by omega) rest

theorem berLen_length (n : Nat) :
    (berLen n).length = if n < 0x80 then 1 else if n ≤ 0xFF then 2 else if n ≤ 0xFFFF then 3
      else 4 := by
  unfold berLen
  split_ifs <;> rfl

/-- An element whose length `ber_len` writes is read back. -/
theorem readElement_berLen (tag : UInt8) {v : Bytes} (h : v.length < 2 ^ 24) (rest : Bytes) :
    Ber.readElement ([tag] ++ berLen v.length ++ v ++ rest) = some ((tag, v), rest) := by
  have hread := readLength_berLen h (v ++ rest)
  simpa using Ber.readElement_append tag rest hread

theorem readElements_data {message : Bytes} (h : message.length < 2 ^ 24 - 7) :
    Ber.readElements (buildGeneralAuthenticateData message) =
      some [(0x7C, generalAuthenticateTemplate message)] := by
  have hlen : (generalAuthenticateTemplate message).length < 2 ^ 24 := by
    simp only [generalAuthenticateTemplate, List.length_append, berLen_length,
      List.length_cons, List.length_nil]
    split_ifs <;> omega
  have hread := readElement_berLen tagDynamicAuth hlen []
  rw [List.append_nil] at hread
  rw [buildGeneralAuthenticateData, Ber.readElements_of_readElement hread, Ber.readElements_nil]
  rfl

theorem readElements_template {message : Bytes} (h : message.length < 2 ^ 24) :
    Ber.readElements (generalAuthenticateTemplate message) =
      some [(0x82, []), (0x81, message)] := by
  have hfirst : Ber.readElement (generalAuthenticateTemplate message) =
      some ((0x82, []), [tagChallenge] ++ berLen message.length ++ message ++ []) := by
    simp [generalAuthenticateTemplate, Ber.readElement, Ber.readLength, tagResponse]
  rw [Ber.readElements_of_readElement hfirst,
    Ber.readElements_of_readElement (readElement_berLen tagChallenge h []),
    Ber.readElements_nil]
  rfl

theorem data_length_le_iff (message : Bytes) :
    (buildGeneralAuthenticateData message).length ≤ 65535 ↔ message.length ≤ 65525 := by
  simp only [buildGeneralAuthenticateData, generalAuthenticateTemplate, List.length_append,
    berLen_length, List.length_cons, List.length_nil]
  split_ifs <;> omega

/-- The two length bytes of the extended builder keep the length modulo 65536. -/
theorem beNat_lc (n : Nat) :
    beNat [UInt8.ofNat (n >>> 8), UInt8.ofNat (n &&& 0xFF)] = n % 65536 := by
  have hlow : n &&& 0xFF = n % 2 ^ 8 := Nat.and_two_pow_sub_one_eq_mod n 8
  simp only [beNat, List.foldl_cons, List.foldl_nil, UInt8.toNat_ofNat', shiftRight_eight, hlow]
  omega

/-- The command asks for a signature of the message exactly while the length of its data
fits two bytes; beyond that the receiver finds bytes left over. -/
theorem generalAuthenticateCommand_iff (slot : UInt8) (message : Bytes) :
    SignsExactly slot message (generalAuthenticateCommand slot message) ↔
      message.length ≤ 65525 := by
  let data := buildGeneralAuthenticateData message
  let lc : Bytes := [UInt8.ofNat (data.length >>> 8), UInt8.ofNat (data.length &&& 0xFF)]
  have hcommand : generalAuthenticateCommand slot message =
      0x00 :: 0x87 :: 0xE0 :: slot :: 0 :: (lc ++ data ++ [0, 0]) := rfl
  have hlc : beNat lc = data.length % 65536 := beNat_lc data.length
  rw [← data_length_le_iff]
  constructor
  · rintro ⟨_, _, hdecode, -, -⟩
    by_contra hlong
    have hover : beNat lc + 2 < data.length := by
      change ¬ data.length ≤ 65535 at hlong
      omega
    have hnone : Iso7816.decode (0x00 :: 0x87 :: 0xE0 :: slot :: 0 :: (lc ++ data ++ [0, 0])) =
        none := Iso7816.decode_extended_short_lc 0x00 0x87 0xE0 slot rfl rfl hover
    rw [hcommand, hnone] at hdecode
    simp at hdecode
  · intro hfits
    have hmessage := (data_length_le_iff message).mp hfits
    change data.length ≤ 65535 at hfits
    refine ⟨data, generalAuthenticateTemplate message, ?_, readElements_data (by omega),
      readElements_template (by omega)⟩
    rw [hcommand]
    exact Iso7816.decode_extended 0x00 0x87 0xE0 slot rfl rfl (by simp [data,
      buildGeneralAuthenticateData]) (by omega)

def isGeneralAuthenticate (command : Bytes) : Bool :=
  command.getD 1 0 = Apdu.insGeneralAuthenticate

/-- The account can sign, and the caller's PIN fits the eight bytes of a PIV PIN. -/
def Accepted (acc : Account) (pin : Option String) : Prop :=
  acc.curve = .ed25519 ∧ PivSlot.isValid acc.slot = true ∧
    ∀ p, pin = some p → (asBytes p).length ≤ 8

/-- What `sign` keeps to: each GENERAL AUTHENTICATE command belongs to an accepted call
and is the one for its slot and message. -/
def Proper (acc : Account) (message : Bytes) (pin : Option String) (op : Op) : Prop :=
  ∀ command bufLen, op = .transmit command bufLen → isGeneralAuthenticate command →
    command = generalAuthenticateCommand acc.slot message ∧ Accepted acc pin

theorem proper_of_ins {acc : Account} {message : Bytes} {pin : Option String} {ins : UInt8}
    (hins : ins ≠ Apdu.insGeneralAuthenticate) (c : Bytes) (n : Nat) (hc : c.getD 1 0 = ins) :
    Proper acc message pin (.transmit c n) := by
  intro command bufLen hop hga
  obtain ⟨rfl, rfl⟩ : c = command ∧ n = bufLen := by simpa using hop
  simp only [isGeneralAuthenticate, hc, decide_eq_true_eq] at hga
  exact absurd hga hins

theorem sign_only (acc : Account) (message : Bytes) (pin : Option String) :
    Prog.Only (Proper acc message pin) (sign acc message pin).run := by
  have hselect : Prog.Only (Proper acc message pin) select.run :=
    Action.only_bind (Apdu.only_send fun c hc => proper_of_ins (by decide) c _ hc)
      fun _ => Prog.Only.pure _
  have hresolve : Prog.Only (Proper acc message pin)
      (Pin.resolve pin "Enter PIV PIN: ").run :=
    Pin.only_resolve (fun m command bufLen hop => by simp at hop)
      (fun command bufLen hop => by simp at hop) pin _
  unfold sign
  refine Action.only_ofExcept_bind _ fun _ hcurve => Action.only_ofExcept_bind _ fun _ hslot =>
    Action.only_bind (Apdu.only_connect fun command bufLen hop => by simp at hop) fun _ =>
    Action.only_bind hselect fun _ => ?_
  -- a PIN that the caller gave is the one that was padded
  have htail : ∀ pinStr, (∀ p, pin = some p → pinStr = p) →
      Prog.Only (Proper acc message pin) (do
        let padded ← Action.ofExcept (pinPadded pinStr)
        let _ ← Apdu.send Apdu.cla Apdu.insVerify 0x00 p2PivPin (some padded) none 512
        let resp ← Apdu.transmit (generalAuthenticateCommand acc.slot message) 4096
        Action.ofExcept (parseSignatureResponse resp) : CardM Bytes).run := by
    intro pinStr hpin
    refine Action.only_ofExcept_bind _ fun padded hpad => Action.only_bind
      (Apdu.only_send fun c hc => proper_of_ins (by decide) c _ hc) fun _ =>
      Action.only_bind (Apdu.only_transmit ?_) fun _ => Action.only_ofExcept _
    intro command bufLen hop _
    obtain ⟨rfl, -⟩ : _ = command ∧ _ = bufLen := by simpa using hop
    refine ⟨rfl, ensureEd25519_ok hcurve, ensureSlot_ok hslot, fun p hp => ?_⟩
    rw [← hpin p hp]
    exact (pinPadded_ok hpad).1
  cases pin with
  | some p => exact htail p fun q hq => Option.some.inj hq
  | none => exact Action.only_bind hresolve fun pinStr => htail pinStr fun q hq => by simp at hq

theorem gives_select :
    Prog.Gives select.run [⟨.transmit (selectCommand .piv) 512, Apdu.success⟩] (.ok ()) :=
  Action.gives_bind (Apdu.gives_send_success (by decide) 512) (Action.gives_pure ())

theorem gives_resolve {pin : Option String} (hpin : ∀ p, pin = some p → (asBytes p).length ≤ 8)
    (message : String) :
    ∃ t p, Prog.Gives (Pin.resolve pin message).run t (.ok p) ∧ (asBytes p).length ≤ 8 := by
  cases pin with
  | some p => exact ⟨_, p, Pin.gives_resolve_some p message, hpin p rfl⟩
  | none => exact ⟨_, _, Pin.gives_resolve_none message "", by decide⟩

/-- The course of an accepted call with the PIN `p`, found by the events `t`, when the
card answers everything with `90 00` up to the signing command. -/
def course (slot : UInt8) (message : Bytes) (t : Trace) (p : String)
    (answer : Except String Bytes) : Trace :=
  [⟨.connect, Connection.card⟩, ⟨.transmit (selectCommand .piv) 512, Apdu.success⟩] ++ t ++
    [⟨.transmit (pivPlan slot message p).verify 512, Apdu.success⟩,
      ⟨.transmit (generalAuthenticateCommand slot message) 4096, answer⟩]

theorem gives_sign {acc : Account} {pin : Option String} (hacc : Accepted acc pin)
    (message : Bytes) {t : Trace} {p : String}
    (hresolve : Prog.Gives (Pin.resolve pin "Enter PIV PIN: ").run t (.ok p))
    (hlen : (asBytes p).length ≤ 8) (answer : Except String Bytes) :
    Prog.Gives (sign acc message pin).run (course acc.slot message t p answer)
      (Apdu.decodeResponse answer >>= parseSignatureResponse) := by
  obtain ⟨hcurve, hslot, -⟩ := hacc
  have hensure := ensureEd25519_of hcurve
  have hensure' := ensureSlot_of hslot
  have hpad : pinPadded p =
      .ok (asBytes p ++ List.replicate (8 - (asBytes p).length) 0xFF) := if_neg (by omega)
  have hfit : (asBytes p ++ List.replicate (8 - (asBytes p).length) 0xFF).length ≤ 255 := by
    simp only [List.length_append, List.length_replicate]
    omega
  have hverify : Prog.Gives (Apdu.send Apdu.cla Apdu.insVerify 0x00 p2PivPin (some
      (asBytes p ++ List.replicate (8 - (asBytes p).length) 0xFF)) none 512).run
      [⟨.transmit (pivPlan acc.slot message p).verify 512, Apdu.success⟩] (.ok []) :=
    Apdu.gives_send_success hfit 512
  have hsigned : Prog.Gives (Apdu.transmit (generalAuthenticateCommand acc.slot message) 4096
      >>= fun resp => Action.ofExcept (parseSignatureResponse resp)).run
      [⟨.transmit (generalAuthenticateCommand acc.slot message) 4096, answer⟩]
      (Apdu.decodeResponse answer >>= parseSignatureResponse) :=
    Action.gives_bind_ofExcept (Apdu.gives_transmit _ 4096 answer) parseSignatureResponse
  have hcourse : Prog.Gives (sign acc message pin).run
      ([⟨.connect, Connection.card⟩] ++ ([⟨.transmit (selectCommand .piv) 512, Apdu.success⟩] ++
        (t ++ ([⟨.transmit (pivPlan acc.slot message p).verify 512, Apdu.success⟩] ++
          [⟨.transmit (generalAuthenticateCommand acc.slot message) 4096, answer⟩]))))
      (Apdu.decodeResponse answer >>= parseSignatureResponse) :=
    Action.gives_ofExcept_bind hensure <| Action.gives_ofExcept_bind hensure' <|
      Action.gives_bind (Apdu.gives_connect .card) <| Action.gives_bind gives_select <|
      Action.gives_bind hresolve <| Action.gives_ofExcept_bind hpad <|
      Action.gives_bind hverify hsigned
  simpa [course] using hcourse

/-- Every GENERAL AUTHENTICATE command of a run asks for a signature of the message. -/
def AsksExactly (slot : UInt8) (message : Bytes) (t : Trace) : Prop :=
  ∀ command ∈ commands t, isGeneralAuthenticate command → SignsExactly slot message command

/-- A call that asks every card to sign exactly the message builds the right command, if
it is accepted at all. -/
theorem signsExactly_of_forall {acc : Account} {message : Bytes} {pin : Option String}
    (hacc : Accepted acc pin)
    (hall : ∀ env h, AsksExactly acc.slot message (Prog.run env (sign acc message pin).run h).2) :
    SignsExactly acc.slot message (generalAuthenticateCommand acc.slot message) := by
  rw [Prog.forall_run_iff ans_nonempty _ fun t _ => AsksExactly acc.slot message t] at hall
  obtain ⟨t, p, hresolve, hlen⟩ := gives_resolve hacc.2.2 "Enter PIV PIN: "
  refine hall.of_gives (gives_sign hacc message hresolve hlen Apdu.success) _ ?_ rfl
  exact mem_commands.mpr ⟨_, List.mem_append_right _ (List.mem_cons_of_mem _ List.mem_cons_self),
    4096, rfl⟩

/-- The calls that ask every card to sign exactly the message are those that send no
GENERAL AUTHENTICATE command, and those with a message of at most 65525 bytes. -/
theorem sign_asksExactly_iff (acc : Account) (message : Bytes) (pin : Option String) :
    (∀ env h, AsksExactly acc.slot message (Prog.run env (sign acc message pin).run h).2) ↔
      ¬ Accepted acc pin ∨ message.length ≤ 65525 := by
  constructor
  · intro hall
    by_cases hacc : Accepted acc pin
    · exact Or.inr ((generalAuthenticateCommand_iff acc.slot message).mp
        (signsExactly_of_forall hacc hall))
    · exact Or.inl hacc
  · intro hcond env h
    refine Prog.Always.run (p := (sign acc message pin).run)
      (Q := fun t _ => AsksExactly acc.slot message t) ?_ env h
    refine Prog.Always.mono (sign_only acc message pin) fun t _ ht command hmem hga => ?_
    obtain ⟨e, he, bufLen, hop⟩ := mem_commands.mp hmem
    obtain ⟨rfl, hacc⟩ := ht e he command bufLen hop hga
    have hlen : message.length ≤ 65525 := hcond.resolve_left (not_not.mpr hacc)
    exact (generalAuthenticateCommand_iff acc.slot message).mpr hlen

/-- One byte more: the length field of the command counts modulo 65536. -/
theorem sign_long_message :
    ¬ ∀ env h, AsksExactly PivSlot.auth (List.replicate 65526 0x00)
      (Prog.run env (sign ⟨.piv, PivSlot.auth, .ed25519⟩ (List.replicate 65526 0x00)
        (some "123456")).run h).2 := by
  intro hall
  have hacc : Accepted ⟨.piv, PivSlot.auth, .ed25519⟩ (some "123456") := by
    refine ⟨rfl, by decide, fun p hp => ?_⟩
    obtain rfl : "123456" = p := Option.some.inj hp
    decide
  have hlen := (generalAuthenticateCommand_iff _ _).mp (signsExactly_of_forall hacc hall)
  rw [List.length_replicate] at hlen
  omega

end YubiWallet.Piv
