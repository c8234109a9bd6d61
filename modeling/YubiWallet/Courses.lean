import YubiWallet.GeneralAuthenticate

/-! A course of each call of the library on which the card agrees to everything but perhaps the
last command. -/
namespace YubiWallet
open Interaction

theorem gives_select (applet : Applet) :
    Prog.Gives applet.select.run [⟨.transmit (selectCommand applet) 512, Apdu.success⟩]
      (.ok ()) := by
  cases applet with
  | openPgp =>
    exact Action.gives_bind (Apdu.gives_send_success (by decide) 512) (Action.gives_pure ())
  | piv => exact Piv.gives_select

/-- A session with an application, opened without trouble. -/
def opened (applet : Applet) : Trace :=
  [⟨.connect, Connection.card⟩, ⟨.transmit (selectCommand applet) 512, Apdu.success⟩]

theorem gives_opened (applet : Applet) {α : Type} {body : CardM α} {t : Trace}
    {r : Except Error α} (hbody : Prog.Gives body.run t r) :
    Prog.Gives (Apdu.connect >>= fun _ => applet.select >>= fun _ => body).run
      (opened applet ++ t) r := by
  change Prog.Gives _ ([⟨.connect, Connection.card⟩] ++
    ([⟨.transmit (selectCommand applet) 512, Apdu.success⟩] ++ t)) r
  exact Action.gives_bind (Apdu.gives_connect .card) (Action.gives_bind (gives_select applet) hbody)

theorem gives_session {acc : Account} (hcheck : acc.check = .ok ()) {α : Type} {body : CardM α}
    {t : Trace} {r : Except Error α} (hbody : Prog.Gives body.run t r) :
    Prog.Gives (acc.session body).run (opened acc.applet ++ t) r :=
  Action.gives_ofExcept_bind hcheck (gives_opened acc.applet hbody)

def keyRead (command : Bytes) (bufLen : Nat) (d : Bytes) : Trace :=
  [⟨.transmit command bufLen, Except.ok (d ++ [0x90, 0x00])⟩]

theorem gives_getPubkey {acc : Account} {reading : KeyReading} {d pk : Bytes}
    (hcheck : acc.check = .ok ()) (hreading : acc.keyReading = .ok reading)
    (hpk : reading.key d = .ok pk) :
    Prog.Gives (getPubkey acc).run
      (opened acc.applet ++ keyRead reading.command reading.bufLen d) (.ok pk) := by
  have hanswer : Apdu.decodeResponse (.ok (d ++ [0x90, 0x00])) = .ok d :=
    (Apdu.decodeResponse_eq_ok_iff _ _).mpr rfl
  have hread : Prog.Gives (Apdu.transmit reading.command reading.bufLen).run
      (keyRead reading.command reading.bufLen d) (.ok d) := by
    rw [← hanswer]
    exact Apdu.gives_transmit _ reading.bufLen _
  rw [getPubkey_eq, ← hpk]
  exact gives_session hcheck (Action.gives_ofExcept_bind hreading
    (Action.gives_bind_ofExcept hread reading.key))

/-- VERIFY is answered well, and the signing command with `x`. -/
def signed (verify command : Bytes) (bufLen : Nat) (x : Except String Bytes) : Trace :=
  [⟨.transmit verify 512, Apdu.success⟩, ⟨.transmit command bufLen, x⟩]

theorem gives_signWithPin {acc : Account} {message data c : Bytes} {s : SigningCall}
    {pin : String} (hcheck : acc.check = .ok ()) (hs : acc.signingCall message = .ok s)
    (hdata : s.pinData pin = .ok data) (hlen : data.length ≤ 255) (hc : s.command = .ok c)
    (x : Except String Bytes) :
    Prog.Gives (signWithPin acc message pin).run
      (opened acc.applet ++
        signed (Apdu.shortCommand [0x00, 0x20, 0x00, s.reference] data []) c s.bufLen x)
      (Apdu.decodeResponse x >>= s.signature) := by
  have hverify : Prog.Gives (Apdu.send Apdu.cla Apdu.insVerify 0x00 s.reference (some data)
      none 512).run [⟨.transmit (Apdu.shortCommand [0x00, 0x20, 0x00, s.reference] data []) 512,
        Apdu.success⟩] (.ok []) := Apdu.gives_send_success hlen 512
  have hsigned := Action.gives_bind_ofExcept (Apdu.gives_transmit c s.bufLen x) s.signature
  have hbody : Prog.Gives (s.run (some pin)).run
      (signed (Apdu.shortCommand [0x00, 0x20, 0x00, s.reference] data []) c s.bufLen x)
      (Apdu.decodeResponse x >>= s.signature) := by
    rw [SigningCall.run_given hdata]
    exact Action.gives_bind hverify (Action.gives_ofExcept_bind hc hsigned)
  rw [signWithPin, signDispatch_eq]
  exact gives_session hcheck (Action.gives_ofExcept_bind hs hbody)

end YubiWallet
