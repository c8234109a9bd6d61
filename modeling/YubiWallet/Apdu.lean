import YubiWallet.World

/-! APDU construction and the PC/SC transport. -/
namespace YubiWallet.Apdu
open Interaction

def cla : UInt8 := 0x00
def insSelect : UInt8 := 0xA4
def insVerify : UInt8 := 0x20
def insPso : UInt8 := 0x2A
def insInternalAuthenticate : UInt8 := 0x88
def insGetPublicKey : UInt8 := 0x47
def insGeneralAuthenticate : UInt8 := 0x87
def insGetData : UInt8 := 0xCB

def buildApdu (cla ins p1 p2 : UInt8) (data : Option Bytes) (le : Option UInt8) :
    Except Error Bytes :=
  match data with
  | some d =>
    if d.length > 255 then .error (.dataTooLong d.length)
    else .ok ([cla, ins, p1, p2] ++ [UInt8.ofNat d.length] ++ d ++ le.toList)
  | none => .ok ([cla, ins, p1, p2] ++ (if le.isNone then [0x00] else []) ++ le.toList)

def leBytesExt : Option UInt16 → Bytes
  | some le => [(le >>> 8).toUInt8, (le &&& 0xFF).toUInt8]
  | none => []

/-- The length of `data` is cut to two bytes, whatever it is. -/
def buildApduExt (cla ins p1 p2 : UInt8) (data : Bytes) (le : Option UInt16) : Bytes :=
  [cla, ins, p1, p2] ++
    [0x00, UInt8.ofNat (data.length >>> 8), UInt8.ofNat (data.length &&& 0xFF)] ++
    data ++ leBytesExt le

def connectionResult : Connection → Except Error Unit
  | .card => .ok ()
  | .noReaders => .error .noReaders
  | .failed e => .error (.pcsc e)

def connect : CardM Unit := do
  let x ← perform .connect
  Action.ofExcept (connectionResult x)

/-- The two bytes at the end of a response. -/
def statusWord (resp : Bytes) : UInt16 :=
  (resp.getD (resp.length - 2) 0).toUInt16 <<< 8 ||| (resp.getD (resp.length - 1) 0).toUInt16

/-- The response data without the status word, which must be `0x9000`. -/
def decodeResponse : Except String Bytes → Except Error Bytes
  | .error e => .error (.pcsc e)
  | .ok resp =>
    if resp.length < 2 then .error .shortResponse
    else if statusWord resp = 0x9000 then .ok (resp.take (resp.length - 2))
    else .error (.card (statusWord resp) (statusWordMessage (statusWord resp)))

def transmit (command : Bytes) (bufLen : Nat) : CardM Bytes := do
  let resp ← perform (.transmit command bufLen)
  Action.ofExcept (decodeResponse resp)

def send (cla ins p1 p2 : UInt8) (data : Option Bytes) (le : Option UInt8) (bufLen : Nat) :
    CardM Bytes := do
  let cmd ← Action.ofExcept (buildApdu cla ins p1 p2 data le)
  transmit cmd bufLen

theorem statusWord_append (d : Bytes) (a b : UInt8) :
    (statusWord (d ++ [a, b])).toNat = a.toNat * 256 + b.toNat := by
  have ha := a.toNat_lt
  have hb := b.toNat_lt
  have hword : statusWord (d ++ [a, b]) = a.toUInt16 <<< 8 ||| b.toUInt16 := by
    simp [statusWord]
  have hs : (a.toNat <<< 8) % 2 ^ 16 = a.toNat <<< 8 := by
    rw [Nat.shiftLeft_eq]
    omega
  rw [hword, UInt16.toNat_or, UInt16.toNat_shiftLeft, UInt8.toNat_toUInt16,
    UInt8.toNat_toUInt16]
  change (a.toNat <<< 8) % 2 ^ 16 ||| b.toNat = _
  rw [hs, ← Nat.shiftLeft_add_eq_or_of_lt (by simpa using hb), Nat.shiftLeft_eq]

theorem statusWord_success_iff (d : Bytes) (a b : UInt8) :
    statusWord (d ++ [a, b]) = 0x9000 ↔ a = 0x90 ∧ b = 0x00 := by
  have ha := a.toNat_lt
  have hb := b.toNat_lt
  rw [← UInt16.toNat_inj, statusWord_append, ← UInt8.toNat_inj, ← UInt8.toNat_inj]
  change a.toNat * 256 + b.toNat = 0x9000 ↔ a.toNat = 0x90 ∧ b.toNat = 0
  omega

/-- A transmission succeeds exactly on a response that ends in `90 00`. -/
theorem decodeResponse_eq_ok_iff (x : Except String Bytes) (d : Bytes) :
    decodeResponse x = .ok d ↔ x = .ok (d ++ [0x90, 0x00]) := by
  cases x with
  | error e => simp [decodeResponse]
  | ok resp =>
    by_cases hlen : resp.length < 2
    · have hne : resp ≠ d ++ [0x90, 0x00] := by
        rintro rfl
        simp at hlen
      simp [decodeResponse, hlen, hne]
    · obtain ⟨a, b, hab⟩ := List.length_eq_two.mp
        (by rw [List.length_drop]; omega : (resp.drop (resp.length - 2)).length = 2)
      obtain ⟨init, rfl⟩ : ∃ init, resp = init ++ [a, b] :=
        ⟨resp.take (resp.length - 2), by rw [← hab, List.take_append_drop]⟩
      have htake : (init ++ [a, b]).take ((init ++ [a, b]).length - 2) = init := by simp
      simp only [decodeResponse, if_neg hlen, statusWord_success_iff, htake]
      by_cases h : a = 0x90 ∧ b = 0x00
      · obtain ⟨rfl, rfl⟩ := h
        simp
      · rw [if_neg h]
        constructor
        · intro hbad
          simp at hbad
        · intro hresp
          obtain ⟨-, hend⟩ := List.append_inj' (Except.ok.inj hresp) rfl
          exact absurd (by simpa using hend) h

@[simp] theorem always_transmit (command : Bytes) (bufLen : Nat)
    (Q : Trace → Except Error Bytes → Prop) :
    Prog.Always (transmit command bufLen).run Q ↔
      ∀ x, Q [⟨.transmit command bufLen, x⟩] (decodeResponse x) := Iff.rfl

@[simp] theorem always_connect (Q : Trace → Except Error Unit → Prop) :
    Prog.Always connect.run Q ↔ ∀ x, Q [⟨.connect, x⟩] (connectionResult x) := Iff.rfl

theorem run_connect (env : Env) (h : Trace) :
    Prog.run env connect.run h =
      (connectionResult (env h .connect), [⟨.connect, env h .connect⟩]) := rfl

theorem run_transmit (env : Env) (command : Bytes) (bufLen : Nat) (h : Trace) :
    Prog.run env (transmit command bufLen).run h =
      (decodeResponse (env h (.transmit command bufLen)),
        [⟨.transmit command bufLen, env h (.transmit command bufLen)⟩]) := rfl

/-- A short command: header, length byte, data and what follows the data. -/
def shortCommand (header data tail : Bytes) : Bytes :=
  header ++ [UInt8.ofNat data.length] ++ data ++ tail

/-- Whenever the short builder succeeds, it builds the short command. -/
theorem buildApdu_some {cla ins p1 p2 : UInt8} {data : Bytes} {le : Option UInt8} {c : Bytes}
    (h : buildApdu cla ins p1 p2 (some data) le = .ok c) :
    data.length ≤ 255 ∧ c = shortCommand [cla, ins, p1, p2] data le.toList := by
  simp only [buildApdu] at h
  split at h
  · simp at h
  · rename_i hlen
    exact ⟨by omega, (Except.ok.inj h).symm⟩

/-- The instruction stands in the second byte of every command. -/
theorem buildApdu_ins {cla ins p1 p2 : UInt8} {data : Option Bytes} {le : Option UInt8}
    {c : Bytes} (h : buildApdu cla ins p1 p2 data le = .ok c) : c.getD 1 0 = ins := by
  cases data with
  | some d =>
    obtain ⟨-, rfl⟩ := buildApdu_some h
    rfl
  | none =>
    obtain rfl := Except.ok.inj h
    rfl

theorem run_send (env : Env) {cla ins p1 p2 : UInt8} {data : Bytes} {le : Option UInt8}
    (hdata : data.length ≤ 255) (bufLen : Nat) (h : Trace) :
    let op := Op.transmit (shortCommand [cla, ins, p1, p2] data le.toList) bufLen
    Prog.run env (send cla ins p1 p2 (some data) le bufLen).run h =
      (decodeResponse (env h op), [⟨op, env h op⟩]) := by
  have hbuild : buildApdu cla ins p1 p2 (some data) le =
      .ok (shortCommand [cla, ins, p1, p2] data le.toList) := if_neg (by omega)
  unfold send
  rw [hbuild]
  exact run_transmit env _ bufLen h

theorem send_short {cla ins p1 p2 : UInt8} {data : Bytes} (le : Option UInt8)
    (h : data.length ≤ 255) (bufLen : Nat) :
    send cla ins p1 p2 (some data) le bufLen =
      transmit (shortCommand [cla, ins, p1, p2] data le.toList) bufLen := by
  have hbuild : buildApdu cla ins p1 p2 (some data) le =
      .ok (shortCommand [cla, ins, p1, p2] data le.toList) := if_neg (by omega)
  unfold send
  rw [hbuild]
  rfl

theorem send_long {cla ins p1 p2 : UInt8} {data : Bytes} (le : Option UInt8)
    (h : 255 < data.length) (bufLen : Nat) :
    send cla ins p1 p2 (some data) le bufLen = throw (.dataTooLong data.length) := by
  have hbuild : buildApdu cla ins p1 p2 (some data) le = .error (.dataTooLong data.length) :=
    if_pos h
  unfold send
  rw [hbuild]
  rfl

theorem gives_connect (x : Connection) :
    Prog.Gives connect.run [⟨.connect, x⟩] (connectionResult x) :=
  Action.gives_bind (Action.gives_lift (gives_perform .connect x))
    (Action.gives_ofExcept (connectionResult x))

theorem gives_transmit (command : Bytes) (bufLen : Nat) (x : Except String Bytes) :
    Prog.Gives (transmit command bufLen).run [⟨.transmit command bufLen, x⟩]
      (decodeResponse x) :=
  Action.gives_bind (Action.gives_lift (gives_perform (.transmit command bufLen) x))
    (Action.gives_ofExcept (decodeResponse x))

theorem gives_send {cla ins p1 p2 : UInt8} {data : Bytes} {le : Option UInt8}
    (hdata : data.length ≤ 255) (bufLen : Nat) (x : Except String Bytes) :
    Prog.Gives (send cla ins p1 p2 (some data) le bufLen).run
      [⟨.transmit (shortCommand [cla, ins, p1, p2] data le.toList) bufLen, x⟩]
      (decodeResponse x) :=
  Action.gives_ofExcept_bind (if_neg (by omega)) (gives_transmit _ bufLen x)

/-- An answer without data. -/
def success : Except String Bytes := .ok [0x90, 0x00]

theorem gives_send_success {cla ins p1 p2 : UInt8} {data : Bytes} {le : Option UInt8}
    (hdata : data.length ≤ 255) (bufLen : Nat) :
    Prog.Gives (send cla ins p1 p2 (some data) le bufLen).run
      [⟨.transmit (shortCommand [cla, ins, p1, p2] data le.toList) bufLen, success⟩] (.ok []) :=
  gives_send hdata bufLen success

theorem only_connect {P : Op → Prop} (h : P .connect) : Prog.Only P connect.run :=
  Action.only_bind (Action.only_lift (Prog.Only.perform h)) fun _ => Action.only_ofExcept _

theorem only_transmit {P : Op → Prop} {command : Bytes} {bufLen : Nat}
    (h : P (.transmit command bufLen)) : Prog.Only P (transmit command bufLen).run :=
  Action.only_bind (Action.only_lift (Prog.Only.perform h)) fun _ => Action.only_ofExcept _

theorem only_send {P : Op → Prop} {cla ins p1 p2 : UInt8} {data : Option Bytes}
    {le : Option UInt8} {bufLen : Nat}
    (h : ∀ c, c.getD 1 0 = ins → P (.transmit c bufLen)) :
    Prog.Only P (send cla ins p1 p2 data le bufLen).run :=
  Action.only_ofExcept_bind _ fun c hc => only_transmit (h c (buildApdu_ins hc))

theorem only_send_short {P : Op → Prop} {cla ins p1 p2 : UInt8} {data : Bytes}
    {le : Option UInt8} {bufLen : Nat}
    (h : data.length ≤ 255 → P (.transmit (shortCommand [cla, ins, p1, p2] data le.toList) bufLen)) :
    Prog.Only P (send cla ins p1 p2 (some data) le bufLen).run :=
  Action.only_ofExcept_bind _ fun c hc => by
    obtain ⟨hlen, rfl⟩ := buildApdu_some hc
    exact only_transmit (h hlen)

end YubiWallet.Apdu
