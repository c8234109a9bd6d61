import YubiWallet.Calls

/-! The commands of one signing call: SELECT, VERIFY and the signing command, in this
order, whatever the card answers. -/
namespace YubiWallet
open Interaction Endian
open Apdu (shortCommand)

/-- The response ends in `90 00`. -/
def Answered (x : Except String Bytes) : Prop := ∃ d, x = .ok (d ++ [0x90, 0x00])

theorem decodeResponse_answered {x : Except String Bytes} {d : Bytes}
    (h : Apdu.decodeResponse x = .ok d) : Answered x :=
  ⟨d, (Apdu.decodeResponse_eq_ok_iff x d).mp h⟩

/-- The three commands of a signing call, and the reading of the last response. -/
structure Plan where
  select : Bytes
  verify : Bytes
  sign : Bytes
  read : Bytes → Option Bytes

/-- PSO:CDS goes with the PIN in mode 81. -/
def sigPlan (message : Bytes) (pin : String) : Plan where
  select := selectCommand .openPgp
  verify := shortCommand [0x00, 0x20, 0x00, 0x81] (asBytes pin) []
  sign := shortCommand [0x00, 0x2A, 0x9E, 0x9A] message [0x00]
  read := some

/-- INTERNAL AUTHENTICATE goes with the PIN in mode 82. -/
def autPlan (message : Bytes) (pin : String) : Plan where
  select := selectCommand .openPgp
  verify := shortCommand [0x00, 0x20, 0x00, 0x82] (asBytes pin) []
  sign := shortCommand [0x00, 0x88, 0x00, 0x00] message [0x00]
  read := some

/-- The message as the challenge of a dynamic authentication template that asks for the
response. -/
def challengeTemplate (message : Bytes) : Bytes :=
  let inner := [0x82, 0x00, 0x81] ++ Piv.berLen message.length ++ message
  [0x7C] ++ Piv.berLen inner.length ++ inner

/-- GENERAL AUTHENTICATE goes with the PIV PIN, padded to eight bytes. It is an extended
command, whose length field has two bytes. -/
def pivPlan (slot : UInt8) (message : Bytes) (pin : String) : Plan where
  select := selectCommand .piv
  verify := shortCommand [0x00, 0x20, 0x00, 0x80]
    (asBytes pin ++ List.replicate (8 - (asBytes pin).length) 0xFF) []
  sign := [0x00, 0x87, 0xE0, slot, 0x00] ++ beBytes 2 (challengeTemplate message).length ++
    challengeTemplate message ++ [0x00, 0x00]
  read := fun d => (Ber.find Piv.tagDynamicAuth d).bind (Ber.find Piv.tagResponse)

/-- The length field of the extended builder. -/
theorem lc_eq (n : Nat) :
    [UInt8.ofNat (n >>> 8), UInt8.ofNat (n &&& 0xFF)] = beBytes 2 n := by
  have hhigh : n >>> 8 = n / 256 := Nat.shiftRight_eq_div_pow n 8
  have hlow : n &&& 0xFF = n % 2 ^ 8 := Nat.and_two_pow_sub_one_eq_mod n 8
  have hlast : UInt8.ofNat (n &&& 0xFF) = UInt8.ofNat n := by
    rw [hlow]
    exact UInt8.toNat_inj.mp (by simp)
  rw [hhigh, hlast]
  rfl

theorem generalAuthenticateCommand_eq (slot : UInt8) (message : Bytes) (pin : String) :
    Piv.generalAuthenticateCommand slot message = (pivPlan slot message pin).sign := by
  rw [Piv.generalAuthenticateCommand, Apdu.buildApduExt, lc_eq]
  rfl

def plan (acc : Account) (message : Bytes) (pin : String) : Option Plan :=
  match acc.applet with
  | .openPgp =>
    if acc.slot = OpenpgpSlot.sig then some (sigPlan message pin)
    else if acc.slot = OpenpgpSlot.aut then some (autPlan message pin)
    else none
  | .piv =>
    if PivSlot.isValid acc.slot ∧ acc.curve = .ed25519 then
      some (pivPlan acc.slot message pin)
    else none

theorem plan_cases {acc : Account} {message : Bytes} {pin : String} {p : Plan}
    (h : plan acc message pin = some p) :
    (acc.applet = .openPgp ∧ (p = sigPlan message pin ∨ p = autPlan message pin)) ∨
    (acc.applet = .piv ∧ acc.curve = .ed25519 ∧ p = pivPlan acc.slot message pin) := by
  unfold plan at h
  cases happlet : acc.applet with
  | openPgp =>
    rw [happlet] at h
    dsimp only at h
    split at h
    · exact Or.inl ⟨rfl, Or.inl (Option.some.inj h).symm⟩
    · split at h
      · exact Or.inl ⟨rfl, Or.inr (Option.some.inj h).symm⟩
      · cases h
  | piv =>
    rw [happlet] at h
    dsimp only at h
    split at h
    · rename_i hcond
      exact Or.inr ⟨rfl, hcond.2, (Option.some.inj h).symm⟩
    · cases h

theorem plan_select {acc : Account} {message : Bytes} {pin : String} {p : Plan}
    (h : plan acc message pin = some p) : p.select = selectCommand acc.applet := by
  rcases plan_cases h with ⟨happlet, rfl | rfl⟩ | ⟨happlet, -, rfl⟩ <;> rw [happlet] <;> rfl

/-- The plan of a PIV account, as `sign` checks it. -/
theorem plan_piv {acc : Account} {message : Bytes} {pin : String} {p : Plan}
    (happlet : acc.applet = .piv) (h : plan acc message pin = some p) :
    acc.curve = .ed25519 ∧ p = pivPlan acc.slot message pin := by
  cases plan_cases h with
  | inl hopenpgp => simp [happlet] at hopenpgp
  | inr hpiv => exact hpiv.2

/-- The plan names the commands of the call, and how its signature is read. -/
structure Plan.Describes (p : Plan) (acc : Account) (message : Bytes) (pin : String)
    (s : SigningCall) : Prop where
  select : p.select = selectCommand acc.applet
  verify : ∀ data, s.pinData pin = .ok data →
    p.verify = shortCommand [0x00, 0x20, 0x00, s.reference] data []
  sign : ∀ c, s.command = .ok c → c = p.sign
  fits : ∀ c, s.command = .ok c → acc.applet = .openPgp → message.length ≤ 255
  read : ∀ d sig, s.signature d = .ok sig → p.read d = some sig

theorem Openpgp.describes {acc : Account} (happlet : acc.applet = .openPgp) (prompt pin : String)
    (reference ins p1 p2 : UInt8) (message : Bytes) :
    Plan.Describes ⟨selectCommand .openPgp, shortCommand [0x00, 0x20, 0x00, reference] (asBytes pin) [],
      shortCommand [0x00, ins, p1, p2] message [0x00], some⟩ acc message pin
      (signingCall prompt reference ins p1 p2 message) where
  select := by rw [happlet]
  verify := fun data hdata => by rw [← Except.ok.inj hdata]; rfl
  sign := fun _ hc => (signingCall_command hc).2
  fits := fun _ hc _ => (signingCall_command hc).1
  read := fun _ _ hsig => congrArg some (Except.ok.inj hsig)

theorem Piv.describes {acc : Account} (happlet : acc.applet = .piv) (message : Bytes)
    (pin : String) :
    (pivPlan acc.slot message pin).Describes acc message pin (signingCall acc.slot message) where
  select := by rw [happlet]; rfl
  verify := fun data hdata => by
    obtain ⟨-, rfl⟩ := pinPadded_ok hdata
    rfl
  sign := fun _ hc =>
    (Except.ok.inj hc).symm.trans (generalAuthenticateCommand_eq acc.slot message pin)
  fits := fun _ _ h => by simp [happlet] at h
  read := fun d sig hsig => (parseSignatureResponse_eq_ok_iff d sig).mp hsig

/-- An account that passes the check and has a signing call has a plan. -/
theorem plan_of_signing {acc : Account} {message : Bytes} {s : SigningCall} (pin : String)
    (hcheck : acc.check = .ok ()) (hs : acc.signingCall message = .ok s) :
    ∃ p, plan acc message pin = some p ∧ p.Describes acc message pin s := by
  rcases signingCall_cases hs with ⟨happlet, hsig, rfl⟩ | ⟨happlet, haut, rfl⟩ | ⟨happlet, rfl⟩
  · exact ⟨sigPlan message pin, by simp only [plan, happlet, if_pos hsig],
      Openpgp.describes happlet _ pin _ _ _ _ message⟩
  · have hsig : acc.slot ≠ OpenpgpSlot.sig := by rw [haut]; decide
    exact ⟨autPlan message pin, by simp only [plan, happlet, if_neg hsig, if_pos haut],
      Openpgp.describes happlet _ pin _ _ _ _ message⟩
  · obtain ⟨hcurve, hslot⟩ := check_piv happlet hcheck
    have hcond := And.intro hslot hcurve
    exact ⟨pivPlan acc.slot message pin, by simp only [plan, happlet, if_pos hcond],
      Piv.describes happlet message pin⟩

/-- The commands that an account allows: its plan, or the first step where it has none. -/
def allowed (acc : Account) (message : Bytes) (pin : String) : List Bytes :=
  match plan acc message pin with
  | some p => [p.select, p.verify, p.sign]
  | none => [selectCommand acc.applet]

theorem allowed_cons (acc : Account) (message : Bytes) (pin : String) :
    ∃ rest, allowed acc message pin = selectCommand acc.applet :: rest := by
  unfold allowed
  cases hplan : plan acc message pin with
  | none => exact ⟨[], rfl⟩
  | some p => exact ⟨[p.verify, p.sign], by rw [← plan_select hplan]⟩

theorem transmit_staged (command : Bytes) (bufLen : Nat) :
    Staged exchange? Answered (Apdu.transmit command bufLen) [command] := by
  unfold Staged
  rw [Apdu.always_transmit]
  intro x
  exact Follows.single (a := x) command fun hbad d hd => hbad (decodeResponse_answered hd)

/-- The response is the data `d` behind which `90 00` stands. -/
def Carries (x : Except String Bytes) (d : Bytes) : Prop := x = .ok (d ++ [0x90, 0x00])

theorem transmit_fromLast (command : Bytes) (bufLen : Nat) :
    FromLast exchange? (fun c x d => c = command ∧ Carries x d)
      (Apdu.transmit command bufLen) := by
  unfold FromLast
  rw [Apdu.always_transmit]
  exact fun x d hd =>
    ⟨[], command, x, rfl, rfl, (Apdu.decodeResponse_eq_ok_iff x d).mp hd⟩

theorem send_staged (cla ins p1 p2 : UInt8) (data : Bytes) (le : Option UInt8) (bufLen : Nat) :
    Staged exchange? Answered (Apdu.send cla ins p1 p2 (some data) le bufLen)
      [shortCommand [cla, ins, p1, p2] data le.toList] := by
  refine Staged.ofExcept_bind _ fun c hc => ?_
  obtain ⟨-, rfl⟩ := Apdu.buildApdu_some hc
  exact transmit_staged _ bufLen

theorem connect_staged : Staged exchange? Answered Apdu.connect [] := by
  refine Staged.silent ?_
  rw [Apdu.always_connect]
  exact fun _ => rfl

theorem ofExcept_staged {α : Type} (x : Except Error α) :
    Staged exchange? Answered (Action.ofExcept x) [] :=
  Staged.silent (by simp [observed])

theorem select_staged (applet : Applet) :
    Staged exchange? Answered applet.select [selectCommand applet] := by
  cases applet with
  | openPgp =>
    exact (send_staged Apdu.cla Apdu.insSelect 0x04 0x00 Openpgp.aid none 512).bind
      fun _ => ofExcept_staged (.ok ())
  | piv =>
    exact (send_staged Apdu.cla Apdu.insSelect 0x04 0x00 Piv.aid none 512).bind
      fun _ => ofExcept_staged (.ok ())

/-- SELECT is the first command of every call. -/
theorem session_staged {α : Type} {acc : Account} {body : CardM α} {rest : List Bytes}
    (hbody : acc.check = .ok () → Staged exchange? Answered body rest) :
    Staged exchange? Answered (acc.session body) (selectCommand acc.applet :: rest) :=
  Staged.ofExcept_bind _ fun _ hcheck => connect_staged.bind fun _ =>
    (select_staged acc.applet).bind fun _ => hbody hcheck

theorem signingCall_staged {acc : Account} {message : Bytes} {pin : String} {p : Plan}
    {s : SigningCall} (h : p.Describes acc message pin s) :
    Staged exchange? Answered (s.run (some pin)) [p.verify, p.sign] := by
  refine Staged.ofExcept_bind (s.pinData pin) fun data hdata => ?_
  rw [h.verify data hdata]
  refine (send_staged Apdu.cla Apdu.insVerify 0x00 s.reference data none 512).bind fun _ =>
    Staged.ofExcept_bind _ fun c hc => ?_
  rw [← h.sign c hc]
  exact (transmit_staged c s.bufLen).bind fun _ => ofExcept_staged _

/-- What the last command of a signing call and its answer must be for the call to give
`sig`. Where the command is a short one, the message fits it. -/
def Reads (acc : Account) (message : Bytes) (pin : String) (c : Bytes)
    (x : Except String Bytes) (sig : Bytes) : Prop :=
  ∃ p d, plan acc message pin = some p ∧ (acc.applet = .openPgp → message.length ≤ 255) ∧
    c = p.sign ∧ Carries x d ∧ p.read d = some sig

def isVerify (command : Bytes) : Bool := command.getD 1 0 = Apdu.insVerify

/-- The exchanges `ex` of a signing call in order, with its result: each command but the
first follows an answer that ended in `90 00`, and a success is read off the last of
three such answers. -/
structure InOrder (acc : Account) (message : Bytes) (pin : String)
    (ex : List (Bytes × Except String Bytes)) (result : Except Error Bytes) : Prop where
  order : ex.map Prod.fst <+: allowed acc message pin
  answered : ∀ u c x v, ex = u ++ (c, x) :: v → v ≠ [] → Answered x
  oneVerify : (ex.map Prod.fst).countP isVerify ≤ 1
  success : ∀ sig, result = .ok sig → ∃ p a b d, plan acc message pin = some p ∧
    ex = [(p.select, .ok (a ++ [0x90, 0x00])), (p.verify, .ok (b ++ [0x90, 0x00])),
      (p.sign, .ok (d ++ [0x90, 0x00]))] ∧ p.read d = some sig

theorem plan_isVerify {acc : Account} {message : Bytes} {pin : String} {p : Plan}
    (h : plan acc message pin = some p) :
    isVerify p.select = false ∧ isVerify p.sign = false := by
  rcases plan_cases h with ⟨-, rfl | rfl⟩ | ⟨-, -, rfl⟩ <;> exact ⟨rfl, rfl⟩

theorem allowed_countP (acc : Account) (message : Bytes) (pin : String) :
    (allowed acc message pin).countP isVerify ≤ 1 := by
  unfold allowed
  cases hplan : plan acc message pin with
  | none => exact List.countP_le_length
  | some p =>
    obtain ⟨hselect, hsign⟩ := plan_isVerify hplan
    by_cases hverify : isVerify p.verify <;> simp [hselect, hsign, hverify]

/-- A success comes from three answered commands and the data of the last one. -/
theorem success_of_follows {p : Plan} {ex : List (Bytes × Except String Bytes)} {sig : Bytes}
    (hf : Follows Answered [p.select, p.verify, p.sign] ex (.ok sig : Except Error Bytes))
    {u : List (Bytes × Except String Bytes)} {c d : Bytes} {x : Except String Bytes}
    (hu : ex = u ++ [(c, x)]) (hx : Carries x d) :
    ∃ a b, ex = [(p.select, .ok (a ++ [0x90, 0x00])), (p.verify, .ok (b ++ [0x90, 0x00])),
      (p.sign, .ok (d ++ [0x90, 0x00]))] := by
  have hmap := hf.complete sig rfl
  obtain ⟨⟨c₁, x₁⟩, ⟨c₂, x₂⟩, ⟨c₃, x₃⟩, rfl⟩ : ∃ e₁ e₂ e₃, ex = [e₁, e₂, e₃] :=
    List.length_eq_three.mp (by simpa using congrArg List.length hmap)
  obtain ⟨rfl, rfl, rfl⟩ : c₁ = p.select ∧ c₂ = p.verify ∧ c₃ = p.sign := by simpa using hmap
  obtain ⟨a, rfl⟩ := hf.good_of_ok (p.select, x₁) (by simp)
  obtain ⟨b, rfl⟩ := hf.good_of_ok (p.verify, x₂) (by simp)
  have hsplit : [(p.select, Except.ok (a ++ [0x90, 0x00])), (p.verify, .ok (b ++ [0x90, 0x00]))] ++
      [(p.sign, x₃)] = u ++ [(c, x)] := hu
  obtain ⟨-, hend⟩ := List.append_inj' hsplit rfl
  obtain ⟨-, rfl⟩ : p.sign = c ∧ x₃ = x := by simpa using hend
  exact ⟨a, b, by rw [hx]⟩

theorem inOrder_of_follows {acc : Account} {message : Bytes} {pin : String}
    {ex : List (Bytes × Except String Bytes)} {result : Except Error Bytes}
    (hf : Follows Answered (allowed acc message pin) ex result)
    (hok : ∀ sig, result = .ok sig → ∃ u c x, ex = u ++ [(c, x)] ∧
      Reads acc message pin c x sig) :
    InOrder acc message pin ex result where
  order := hf.order
  answered := fun u c x v hex hv => hf.good_of_next hex hv
  oneVerify := hf.order.sublist.countP_le.trans (allowed_countP acc message pin)
  success := by
    rintro sig rfl
    obtain ⟨u, c, x, hu, p, d, hplan, -, -, hx, hread⟩ := hok sig rfl
    rw [allowed, hplan] at hf
    obtain ⟨a, b, hex⟩ := success_of_follows hf hu hx
    exact ⟨p, a, b, d, hplan, hex, hread⟩

theorem signWithPin_staged (acc : Account) (message : Bytes) (pin : String) :
    Staged exchange? Answered (signWithPin acc message pin) (allowed acc message pin) := by
  obtain ⟨rest, hrest⟩ := allowed_cons acc message pin
  rw [signWithPin, signDispatch_eq, hrest]
  refine session_staged fun hcheck => Staged.ofExcept_bind _ fun s hs => ?_
  obtain ⟨p, hplan, hp⟩ := plan_of_signing pin hcheck hs
  obtain rfl : [p.verify, p.sign] = rest := by
    rw [allowed, hplan] at hrest
    exact (List.cons.inj hrest).2
  exact signingCall_staged hp

/-- The signature comes from the last command, wherever the PIN comes from. -/
theorem signDispatch_fromLast (acc : Account) (message : Bytes) (given : Option String)
    (pin : String) :
    FromLast exchange? (Reads acc message pin) (signDispatch acc message given) := by
  rw [signDispatch_eq]
  refine FromLast.ofExcept_bind _ fun _ hcheck => FromLast.bind _ fun _ => FromLast.bind _ fun _ =>
    FromLast.ofExcept_bind _ fun s hs => ?_
  obtain ⟨p, hplan, hp⟩ := plan_of_signing pin hcheck hs
  refine FromLast.bind _ fun _ => FromLast.bind _ fun _ => FromLast.bind _ fun _ =>
    FromLast.ofExcept_bind _ fun c hc => ?_
  refine ((transmit_fromLast c s.bufLen).ofExcept s.signature).mono fun c' x sig hx => ?_
  obtain ⟨d, ⟨rfl, hd⟩, hsig⟩ := hx
  exact ⟨p, d, hplan, hp.fits _ hc, hp.sign _ hc, hd, hp.read d sig hsig⟩

theorem signWithPin_fromLast (acc : Account) (message : Bytes) (pin : String) :
    FromLast exchange? (Reads acc message pin) (signWithPin acc message pin) :=
  signDispatch_fromLast acc message (some pin) pin

/-- Command order of one signing call, against any card. -/
theorem signWithPin_inOrder (env : Env) (h : Trace) (acc : Account) (message : Bytes)
    (pin : String) :
    let out := Prog.run env (signWithPin acc message pin).run h
    InOrder acc message pin (exchanges out.2) out.1 := by
  have hstaged := (signWithPin_staged acc message pin).run env h
  have hlast := (signWithPin_fromLast acc message pin).run env h
  exact inOrder_of_follows hstaged hlast

end YubiWallet
