import YubiWallet.Host.Methods
import YubiWallet.Lib.Framing

/-! The loop of the host over its standard input and output. -/
namespace YubiWallet.Host
open Interaction Endian
open Framing (frame unframe Incomplete)

/-- Exactly `n` bytes, or nothing when the input ends before. -/
def readExact (n : Nat) (input : Bytes) : Option (Bytes × Bytes) :=
  if n ≤ input.length then some (input.take n, input.drop n) else none

def readMessage (input : Bytes) : Option (Bytes × Bytes) := do
  let (len, input) ← readExact 4 input
  readExact (leNat len) input

/-- The length is cut to 32 bits. -/
def writeMessage (bytes : Bytes) : Prog Unit := do
  perform (.writeOut (leBytes 4 bytes.length))
  perform (.writeOut bytes)
  perform .flushOut

theorem readMessage_eq_unframe (input : Bytes) : readMessage input = unframe input := by
  simp only [readMessage, readExact, unframe]
  by_cases h4 : input.length < 4
  · rw [if_neg (by omega), if_pos h4]
    rfl
  · rw [if_pos (by omega), if_neg h4]
    simp only [bind, Option.bind]
    split
    · rw [if_neg (by omega)]
    · rw [if_pos (by omega)]

theorem readMessage_rest {input m rest : Bytes} (h : readMessage input = some (m, rest)) :
    rest.length < input.length := by
  rw [readMessage_eq_unframe] at h
  exact Framing.unframe_rest h

/-- `main`, with the bytes that the standard input holds until its end. -/
def main (handle : Bytes → Prog Bytes) (stdin : Bytes) : Prog Unit :=
  match h : readMessage stdin with
  | some (msg, rest) => do
    let resp ← handle msg
    writeMessage resp
    have : rest.length < stdin.length := readMessage_rest h
    main handle rest
  | none => pure ()
termination_by stdin.length

/-- The messages that `read_message` splits a stream into, until it finds none. -/
def readMessages (input : Bytes) : List Bytes :=
  match h : readMessage input with
  | some (msg, rest) =>
    have : rest.length < input.length := readMessage_rest h
    msg :: readMessages rest
  | none => []
termination_by input.length

theorem readMessages_eq_unframeAll (input : Bytes) :
    readMessages input = Framing.unframeAll input := by
  induction hn : input.length using Nat.strong_induction_on generalizing input with
  | _ n ih =>
    rw [readMessages]
    split
    · rename_i msg rest h
      rw [readMessage_eq_unframe] at h
      rw [Framing.unframeAll_cons h, ih rest.length (hn ▸ Framing.unframe_rest h) rest rfl]
    · rename_i h
      rw [readMessage_eq_unframe, Framing.unframe_eq_none_iff] at h
      rw [Framing.unframeAll_incomplete h]

/-- Each message is handed to `handle`, its response is written, and the responses are
returned for the record. -/
def serve (handle : Bytes → Prog Bytes) (msgs : List Bytes) : Prog (List Bytes) :=
  msgs.mapM fun msg => do
    let resp ← handle msg
    writeMessage resp
    pure resp

/-- The loop serves the messages of its input in order and stops behind the last one. -/
theorem main_eq_serve (handle : Bytes → Prog Bytes) (stdin : Bytes) :
    main handle stdin = (fun _ => ()) <$> serve handle (readMessages stdin) := by
  induction hn : stdin.length using Nat.strong_induction_on generalizing stdin with
  | _ n ih =>
    rw [main, readMessages]
    split
    · rename_i msg rest h
      rw [ih rest.length (hn ▸ readMessage_rest h) rest rfl]
      simp [serve, List.mapM_cons]
    · simp [serve]

def stdoutBytes : Op → Bytes
  | .print message => asBytes message
  | .writeOut bytes => bytes
  | _ => []

/-- The bytes of the standard output. -/
def written (t : Trace) : Bytes := t.flatMap fun e => stdoutBytes e.op

def Quiet (op : Op) : Prop := op.writesStdout = false

theorem written_of_quiet {t : Trace} (h : ∀ e ∈ t, Quiet e.op) : written t = [] := by
  refine List.flatMap_eq_nil_iff.mpr fun e he => ?_
  have hquiet := h e he
  obtain ⟨op, x⟩ := e
  cases op <;> first | rfl | cases hquiet

theorem writeMessage_written (bytes : Bytes) :
    Prog.Always (writeMessage bytes) fun t _ => written t = frame bytes := by
  intro x y z
  change written [⟨.writeOut (leBytes 4 bytes.length), x⟩, ⟨.writeOut bytes, y⟩,
    ⟨.flushOut, z⟩] = frame bytes
  simp [written, stdoutBytes, frame]

theorem written_append (t t' : Trace) : written (t ++ t') = written t ++ written t' :=
  List.flatMap_append

theorem serve_cons (handle : Bytes → Prog Bytes) (msg : Bytes) (msgs : List Bytes) :
    serve handle (msg :: msgs) =
      handle msg >>= fun resp => writeMessage resp >>= fun _ =>
        serve handle msgs >>= fun resps => pure (resp :: resps) := by
  simp [serve, List.mapM_cons]

/-- A handler that keeps off the standard output leaves it to the frames of its
responses. -/
theorem serve_written {handle : Bytes → Prog Bytes} (hquiet : ∀ m, Prog.Only Quiet (handle m))
    (msgs : List Bytes) : Prog.Always (serve handle msgs) fun t resps =>
      resps.length = msgs.length ∧ written t = resps.flatMap frame := by
  induction msgs with
  | nil => exact ⟨rfl, rfl⟩
  | cons msg msgs ih =>
    rw [serve_cons, Prog.always_bind]
    refine Prog.Always.mono (hquiet msg) fun t resp ht => ?_
    rw [Prog.always_bind]
    refine (writeMessage_written resp).mono fun t' _ ht' => ?_
    rw [Prog.always_bind]
    refine ih.mono fun t'' resps hresps => ?_
    refine ⟨by simp [hresps.1], ?_⟩
    rw [List.append_nil, written_append, written_append, written_of_quiet ht, ht', hresps.2]
    rfl

theorem handle_quiet (C : Crates) (msg : Bytes) : Prog.Only Quiet (handle C msg) := by
  have hmethod : ∀ method params, Prog.Only Quiet (dispatch C method params).run :=
    fun method params => (dispatch_only C method params).mono fun op h => by
      cases op <;> first | rfl | exact h.elim False.elim False.elim
  unfold handle
  cases C.serde.fromSlice msg with
  | error e => exact (Prog.Only.pure _).map _
  | ok req => exact ((hmethod req.method req.params).map _).map _

/-- On the frames of `msgs` and an incomplete frame behind them, the loop hands exactly
`msgs` to `handle`, writes exactly the frames of the responses and stops; a reader of
the frames finds exactly these responses. -/
theorem main_frames (C : Crates) (msgs : List Bytes) (t : Bytes)
    (hmsgs : ∀ m ∈ msgs, m.length < 2 ^ 32) (ht : Incomplete t) (env : Env) (h : Trace) :
    let out := Prog.run env (serve (handle C) msgs) h
    Prog.run env (main (handle C) (msgs.flatMap frame ++ t)) h = ((), out.2) ∧
    out.1.length = msgs.length ∧ written out.2 = out.1.flatMap frame ∧
    ((∀ r ∈ out.1, r.length < 2 ^ 32) → readMessages (written out.2) = out.1) := by
  have hread : readMessages (msgs.flatMap frame ++ t) = msgs := by
    rw [readMessages_eq_unframeAll, Framing.unframeAll_frames msgs hmsgs ht]
  obtain ⟨hlen, hwritten⟩ := (serve_written (handle_quiet C) msgs).run env h
  refine ⟨?_, hlen, hwritten, fun hresps => ?_⟩
  · rw [main_eq_serve, hread, Prog.run_map]
  · rw [hwritten, readMessages_eq_unframeAll]
    simpa using Framing.unframeAll_frames _ hresps (t := []) (by decide)

def emptyObject : String := "\x7b\x7d"
def pingText : String := "\x7b\"id\":1,\"method\":\"ping\"\x7d"

/-- The printer, for responses without a result. -/
def errorPrinter (resp : Resp) : Bytes :=
  asBytes <| match resp.error with
    | some err => "\x7b\"id\":" ++ toString resp.id ++ ",\"error\":\x7b\"code\":\"" ++ err.code ++
        "\",\"message\":\"" ++ err.message ++ "\"\x7d\x7d"
    | none => "\x7b\"id\":" ++ toString resp.id ++ "\x7d"

def emptyObjectTexts : Texts where
  messages := [(emptyObject, []), (pingText, [("\"id\"", "1"), ("\"method\"", "\"ping\"")])]
  numbers := [("1", 1)]
  strings := [("\"ping\"", "ping")]
  values := []

def emptyObjectCrates : Crates where
  keccak256 _ := .fill 32 0
  k256 := ⟨Unit, fun _ => .error "signature error", fun _ _ _ => .error "signature error",
    "signature error"⟩
  serde := emptyObjectTexts.serde (fun _ => "missing field `id` at line 1 column 2") errorPrinter
  hexErrorText _ := "Odd number of digits"

/-- No reader, no terminal, no PIN in the environment. -/
def bareWorld : Env := fun _ op =>
  match op with
  | .connect => Connection.noReaders
  | .transmit _ _ => Except.error "no reader"
  | .print _ => Except.ok ()
  | .readLine => Except.ok ""
  | .envVar _ => none
  | .writeTty _ => ()
  | .openTty => Except.error "no terminal"
  | .readTty => Except.error "no terminal"
  | .writeOut _ => ()
  | .flushOut => ()

theorem main_frames_emptyObject :
    let msgs := [asBytes emptyObject, asBytes pingText]
    let out := Prog.run bareWorld (serve (handle emptyObjectCrates) msgs) []
    Prog.run bareWorld (main (handle emptyObjectCrates)
      (msgs.flatMap frame ++ [0x05, 0x00, 0x00])) [] = ((), out.2) ∧
    out.1.length = 2 ∧ written out.2 = out.1.flatMap frame ∧
    ((∀ r ∈ out.1, r.length < 2 ^ 32) → readMessages (written out.2) = out.1) :=
  main_frames emptyObjectCrates [asBytes emptyObject, asBytes pingText] [0x05, 0x00, 0x00]
    (by decide) (by decide) bareWorld []

end YubiWallet.Host
