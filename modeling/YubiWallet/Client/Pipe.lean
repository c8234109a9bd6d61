import YubiWallet.Client.Matching
import YubiWallet.Host.Loop

/-! The extension and the host process, joined by the two byte streams of native messaging.
Frames are read in the order in which they were written, which the messages of `System` need
not be. -/
namespace YubiWallet.Client
open Interaction Transition
open Framing (frame)
open Host (Crates Resp respond handle serve main readMessage written)

/-- The texts that the browser makes of requests, and what it reads in the host's texts. -/
structure Browser where
  stringify : Request → Bytes
  parse : Bytes → Option Response

/-- `stdin` holds the bytes that the host has not read yet, `stdout` those that the browser
has not. For the record: the requests of all calls, the bytes that were read, all that the
host did, and the responses that it has computed. -/
structure Pipe where
  client : HostClient
  stdin : Bytes
  stdout : Bytes
  calls : List Request
  consumed : Bytes
  history : Trace
  answers : List Resp

inductive PipeLabel where
  | call (method : String) (params : Option JsValue)
  | serve
  | deliver
  | disconnect (lastError : Option String)

namespace Pipe

def init : Pipe := ⟨.new, [], [], [], [], [], []⟩

def afterCall (B : Browser) (p : Pipe) (method : String) (params : Option JsValue) : Pipe :=
  let (client, req) := p.client.call method params none
  { p with
    client
    calls := p.calls ++ [req]
    stdin := p.stdin ++ frame (B.stringify req) }

/-- One turn of the host's loop. -/
def afterServe (C : Crates) (env : Env) (p : Pipe) (msg rest : Bytes) : Pipe :=
  let turn := (Prog.run env (serve (handle C) [msg]) p.history).2
  { p with
    stdin := rest
    stdout := p.stdout ++ written turn
    consumed := p.consumed ++ frame msg
    history := p.history ++ turn
    answers := p.answers ++
      [(Prog.run env (respond C (C.serde.fromSlice msg)) p.history).1] }

end Pipe

inductive PipeStep (B : Browser) (C : Crates) (env : Env) : Pipe → PipeLabel → Pipe → Prop
  | call (p : Pipe) (method : String) (params : Option JsValue) :
      PipeStep B C env p (.call method params) (p.afterCall B method params)
  | serve {p : Pipe} {msg rest : Bytes} (hread : readMessage p.stdin = some (msg, rest)) :
      PipeStep B C env p .serve (p.afterServe C env msg rest)
  | deliver {p : Pipe} {msg rest : Bytes} {resp : Response}
      (hread : readMessage p.stdout = some (msg, rest)) (hparse : B.parse msg = some resp) :
      PipeStep B C env p .deliver { p with client := p.client.onMessage resp, stdout := rest }
  | disconnect (p : Pipe) (lastError : Option String) :
      PipeStep B C env p (.disconnect lastError)
        { p with client := p.client.onDisconnect lastError }

/-- Both sides read in the texts what was meant, and the texts are short enough for their
lengths to be sent. -/
structure Pipe.Agrees (B : Browser) (C : Crates) (p : Pipe) : Prop where
  requests : ∀ req ∈ p.calls, (B.stringify req).length < 2 ^ 32 ∧ req.Understood B.stringify C
  responses : ∀ resp ∈ p.answers, (C.serde.toVec resp).length < 2 ^ 32 ∧
    B.parse (C.serde.toVec resp) = some (.ofResp resp)

/-- Nothing is unsaid, so what both sides agree upon at the end they agreed upon before. -/
theorem PipeStep.agrees_back {B : Browser} {C : Crates} {env : Env} {p q : Pipe} {l : PipeLabel}
    (h : PipeStep B C env p l q) (hq : q.Agrees B C) : p.Agrees B C := by
  cases h with
  | call method params =>
    exact ⟨fun req hreq => hq.requests req (List.mem_append_left _ hreq), hq.responses⟩
  | serve hread =>
    exact ⟨hq.requests, fun resp hresp => hq.responses resp (List.mem_append_left _ hresp)⟩
  | deliver hread hparse => exact ⟨hq.requests, hq.responses⟩
  | disconnect lastError => exact ⟨hq.requests, hq.responses⟩

theorem serve_one (C : Crates) (env : Env) (msg : Bytes) (h : Trace) :
    (Prog.run env (serve (handle C) [msg]) h).1 =
      [C.serde.toVec (Prog.run env (respond C (C.serde.fromSlice msg)) h).1] := by
  rw [Host.serve_cons, Prog.run_bind]
  simp only [serve, List.mapM_nil, Prog.run_bind, pure_bind, Prog.run_pure]
  rw [handle, Prog.run_map]

/-- A turn on top of the turns before. -/
theorem serve_snoc {C : Crates} {env : Env} {msgs resps : List Bytes} {h : Trace}
    (hbefore : Prog.run env (serve (handle C) msgs) [] = (resps, h)) (msg : Bytes) :
    Prog.run env (serve (handle C) (msgs ++ [msg])) [] =
      (resps ++ [C.serde.toVec (Prog.run env (respond C (C.serde.fromSlice msg)) h).1],
        h ++ (Prog.run env (serve (handle C) [msg]) h).2) := by
  have happ : serve (handle C) (msgs ++ [msg]) =
      serve (handle C) msgs >>= fun resps => serve (handle C) [msg] >>= fun more =>
        pure (resps ++ more) := List.mapM_append
  rw [happ, Prog.run_bind, hbefore, Prog.run_bind, serve_one]
  simp

theorem written_turn (C : Crates) (env : Env) (msg : Bytes) (h : Trace) :
    written (Prog.run env (serve (handle C) [msg]) h).2 =
      frame (C.serde.toVec (Prog.run env (respond C (C.serde.fromSlice msg)) h).1) := by
  have hwritten := ((Host.serve_written (Host.handle_quiet C) [msg]).run env h).2
  rw [serve_one] at hwritten
  exact hwritten.trans (List.append_nil _)

theorem readMessage_frame {msg : Bytes} (hmsg : msg.length < 2 ^ 32) (rest : Bytes) :
    readMessage (frame msg ++ rest) = some (msg, rest) := by
  rw [Host.readMessage_eq_unframe, Framing.unframe_frame hmsg]

def requestBytes (B : Browser) (reqs : List Request) : Bytes :=
  reqs.flatMap fun req => frame (B.stringify req)

def responseBytes (C : Crates) (resps : List Resp) : Bytes :=
  resps.flatMap fun resp => frame (C.serde.toVec resp)

theorem requestBytes_cons (B : Browser) (req : Request) (reqs : List Request) :
    requestBytes B (req :: reqs) = frame (B.stringify req) ++ requestBytes B reqs :=
  List.flatMap_cons

theorem requestBytes_concat (B : Browser) (reqs : List Request) (req : Request) :
    requestBytes B (reqs ++ [req]) = requestBytes B reqs ++ frame (B.stringify req) := by
  rw [requestBytes, List.flatMap_append, List.flatMap_singleton]
  rfl

theorem responseBytes_cons (C : Crates) (resp : Resp) (resps : List Resp) :
    responseBytes C (resp :: resps) = frame (C.serde.toVec resp) ++ responseBytes C resps :=
  List.flatMap_cons

theorem responseBytes_concat (C : Crates) (resps : List Resp) (resp : Resp) :
    responseBytes C (resps ++ [resp]) = responseBytes C resps ++ frame (C.serde.toVec resp) := by
  rw [responseBytes, List.flatMap_append, List.flatMap_singleton]
  rfl

/-- The state of the system that the pipe is in: its messages in flight stand in the two
streams, oldest first. -/
structure Refines (B : Browser) (C : Crates) (env : Env) (p : Pipe) (s : System) : Prop where
  client : s.client = p.client
  calls : s.calls = p.calls
  order : s.computed.map Prod.fst ++ s.requests = p.calls
  answers : s.computed.map Prod.snd = p.answers
  stdin : p.stdin = requestBytes B s.requests
  stdout : ∃ delivered waiting, p.answers = delivered ++ waiting ∧
    s.responses = waiting.map .ofResp ∧ p.stdout = responseBytes C waiting
  consumed : p.consumed = requestBytes B (s.computed.map Prod.fst)
  process : Prog.run env (serve (handle C) (s.computed.map fun x => B.stringify x.1)) [] =
    (p.answers.map C.serde.toVec, p.history)

namespace Refines
variable {B : Browser} {C : Crates} {env : Env} {p : Pipe} {s : System}

theorem init : Refines B C env .init .init where
  client := rfl
  calls := rfl
  order := rfl
  answers := rfl
  stdin := rfl
  stdout := ⟨[], [], rfl, rfl, rfl⟩
  consumed := rfl
  process := rfl

theorem afterCall (h : Refines B C env p s) (method : String) (params : Option JsValue) :
    Refines B C env (p.afterCall B method params) (s.afterCall method params) where
  client := by simp only [System.afterCall, Pipe.afterCall, h.client]
  calls := by simp only [System.afterCall, Pipe.afterCall, h.client, h.calls]
  order := by
    simp only [System.afterCall, Pipe.afterCall, h.client, ← List.append_assoc, h.order]
  answers := h.answers
  stdin := by
    simp only [System.afterCall, Pipe.afterCall, h.client, h.stdin, requestBytes_concat]
  stdout := h.stdout
  consumed := h.consumed
  process := h.process

/-- What the host reads next is the oldest request. -/
theorem serve (h : Refines B C env p s) {msg rest : Bytes}
    (hread : readMessage p.stdin = some (msg, rest))
    (hagree : (p.afterServe C env msg rest).Agrees B C) :
    ∃ l t, Step B.stringify C s l t ∧ Refines B C env (p.afterServe C env msg rest) t := by
  cases hrequests : s.requests with
  | nil =>
    rw [h.stdin, hrequests] at hread
    cases hread
  | cons req post =>
    have hmem : req ∈ p.calls := by
      rw [← h.order, hrequests]
      exact List.mem_append_right _ List.mem_cons_self
    have hshort := (hagree.requests req hmem).1
    have hstdin : p.stdin = frame (B.stringify req) ++ requestBytes B post := by
      rw [h.stdin, hrequests, requestBytes_cons]
    rw [hstdin, readMessage_frame hshort] at hread
    obtain ⟨rfl, rfl⟩ := Prod.mk.inj (Option.some.inj hread)
    let resp := (Prog.run env (respond C (C.serde.fromSlice (B.stringify req))) p.history).1
    have hresp : HostComputes C (C.serde.fromSlice (B.stringify req)) resp :=
      ⟨env, p.history, rfl⟩
    refine ⟨_, _, @Step.handle B.stringify C s [] post req resp hrequests hresp, ?_⟩
    obtain ⟨delivered, waiting, hanswers, hresponses, hstdout⟩ := h.stdout
    exact {
      client := h.client
      calls := h.calls
      order := by
        have horder := h.order
        rw [hrequests] at horder
        rw [List.map_append, List.append_assoc]
        exact horder
      answers := by
        rw [List.map_append, h.answers]
        rfl
      stdin := rfl
      stdout := by
        refine ⟨delivered, waiting ++ [resp], ?_, ?_, ?_⟩
        · rw [← List.append_assoc, ← hanswers]
          rfl
        · rw [List.map_append, hresponses]
          rfl
        · rw [responseBytes_concat, ← hstdout, ← written_turn]
          rfl
      consumed := by
        rw [List.map_append, List.map_singleton, requestBytes_concat, ← h.consumed]
        rfl
      process := by
        rw [List.map_append, List.map_singleton, serve_snoc h.process]
        change _ = ((p.answers ++ [resp]).map C.serde.toVec, _)
        rw [List.map_append]
        rfl
    }

/-- What the browser reads next is the oldest response. -/
theorem next_response (h : Refines B C env p s) {msg rest : Bytes} {resp : Response}
    (hread : readMessage p.stdout = some (msg, rest)) (hparse : B.parse msg = some resp)
    (hagree : p.Agrees B C) :
    ∃ delivered r waiting, p.answers = delivered ++ r :: waiting ∧
      s.responses = .ofResp r :: waiting.map .ofResp ∧ rest = responseBytes C waiting ∧
      resp = .ofResp r := by
  obtain ⟨delivered, waiting, hanswers, hresponses, hstdout⟩ := h.stdout
  cases waiting with
  | nil =>
    rw [hstdout] at hread
    cases hread
  | cons r waiting =>
    have hmem : r ∈ p.answers := by
      rw [hanswers]
      exact List.mem_append_right _ List.mem_cons_self
    obtain ⟨hshort, htext⟩ := hagree.responses r hmem
    rw [hstdout, responseBytes_cons, readMessage_frame hshort] at hread
    obtain ⟨rfl, rfl⟩ := Prod.mk.inj (Option.some.inj hread)
    obtain rfl : .ofResp r = resp := Option.some.inj (htext.symm.trans hparse)
    exact ⟨delivered, r, waiting, hanswers, hresponses, rfl, rfl⟩

theorem deliver (h : Refines B C env p s) {msg rest : Bytes} {resp : Response}
    (hread : readMessage p.stdout = some (msg, rest)) (hparse : B.parse msg = some resp)
    (hagree : p.Agrees B C) :
    ∃ l t, Step B.stringify C s l t ∧
      Refines B C env { p with client := p.client.onMessage resp, stdout := rest } t := by
  obtain ⟨delivered, r, waiting, hanswers, hresponses, rfl, rfl⟩ :=
    h.next_response hread hparse hagree
  refine ⟨_, _, @Step.deliver B.stringify C s [] (waiting.map .ofResp) (.ofResp r) hresponses, ?_⟩
  exact {
    client := by rw [h.client]
    calls := h.calls
    order := h.order
    answers := h.answers
    stdin := h.stdin
    stdout := ⟨delivered ++ [r], waiting, by rw [hanswers]; simp, rfl, rfl⟩
    consumed := h.consumed
    process := h.process
  }

theorem disconnect (h : Refines B C env p s) (lastError : Option String) :
    Refines B C env { p with client := p.client.onDisconnect lastError }
      { s with client := s.client.onDisconnect lastError } :=
  { h with client := by rw [h.client] }

theorem step {q : Pipe} {l : PipeLabel} (h : Refines B C env p s)
    (hstep : PipeStep B C env p l q) (hagree : q.Agrees B C) :
    ∃ l' t, Step B.stringify C s l' t ∧ Refines B C env q t := by
  cases hstep with
  | call method params =>
    exact ⟨_, _, .call s method params, h.afterCall method params⟩
  | serve hread => exact h.serve hread hagree
  | deliver hread hparse => exact h.deliver hread hparse ⟨hagree.requests, hagree.responses⟩
  | disconnect lastError => exact ⟨_, _, .disconnect s lastError, h.disconnect lastError⟩

end Refines
end YubiWallet.Client
