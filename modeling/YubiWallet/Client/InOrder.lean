import YubiWallet.Client.Pipe

/-! Over the byte streams, the promises of the calls are settled in the order of the calls. -/
namespace YubiWallet.Client
open Interaction Transition
open Framing (frame)
open Host (Crates Resp Texts handle serve main respond readMessage readMessages)

namespace HostClient

/-- The settled promises are older than those that wait, and each was settled before the
younger ones. `pending` has the youngest first. -/
structure InOrder (c : HostClient) : Prop where
  settled : c.settledPromises.Pairwise (· < ·)
  older : ∀ p ∈ c.settledPromises, ∀ q, c.Waiting q → p < q
  entries : (c.pending.entries.map Sigma.snd).Pairwise (· > ·)

namespace InOrder
variable {c : HostClient}

theorem new : HostClient.new.InOrder where
  settled := List.Pairwise.nil
  older p h := by cases h
  entries := List.Pairwise.nil

theorem waiting_iff_mem (c : HostClient) (p : Nat) :
    c.Waiting p ↔ p ∈ c.pending.entries.map Sigma.snd := by
  rw [waiting_iff_mem_entries, List.map_reverse, List.mem_reverse]

/-- The promise of a call is younger than all others. -/
theorem call (h : c.InOrder) (hacc : c.Accounted) (hfresh : c.nextId ∉ c.pending)
    (method : String) (params : Option JsValue) : (c.call method params none).1.InOrder := by
  have hentries : (c.call method params none).1.pending.entries.map Sigma.snd =
      c.promises :: c.pending.entries.map Sigma.snd := by
    change (c.pending.insert c.nextId c.promises).entries.map Sigma.snd = _
    rw [AList.entries_insert_of_notMem hfresh, List.map_cons]
  have hsettled : (c.call method params none).1.settledPromises = c.settledPromises := by
    simp [settledPromises, HostClient.call]
  refine ⟨hsettled ▸ h.settled, fun p hp q hq => ?_, ?_⟩
  · rw [hsettled] at hp
    rw [waiting_iff_mem, hentries] at hq
    cases List.mem_cons.mp hq with
    | inl hq =>
      rw [hq]
      exact hacc.settled_lt p hp
    | inr hq =>
      exact h.older p hp q ((waiting_iff_mem c q).mpr hq)
  · rw [hentries]
    refine List.Pairwise.cons (fun q hq => ?_) h.entries
    exact ((hacc.waiting_iff q).mp ((waiting_iff_mem c q).mpr hq)).1

/-- A response may settle the oldest of the promises that wait. -/
theorem onMessage (h : c.InOrder) (hacc : c.Accounted) {resp : Response}
    (hfirst : ∀ p, c.pending.lookup resp.id = some p → ∀ q, c.Waiting q → p ≤ q) :
    (c.onMessage resp).InOrder := by
  cases hp : c.pending.lookup resp.id with
  | none => rwa [onMessage_of_not_pending (AList.lookup_eq_none.mp hp)]
  | some p =>
    have hsettled : (c.onMessage resp).settledPromises = c.settledPromises ++ [p] := by
      simp [settledPromises, onMessage_of_lookup hp]
    refine ⟨?_, fun q hq q' hq' => ?_, ?_⟩
    · rw [hsettled]
      refine List.pairwise_append.mpr ⟨h.settled, List.pairwise_singleton _ _, ?_⟩
      intro q hq q' hq'
      obtain rfl := List.mem_singleton.mp hq'
      exact h.older q hq q' ⟨resp.id, hp⟩
    · obtain ⟨id, hid⟩ := hq'
      obtain ⟨hne, hid⟩ := (lookup_onMessage c resp id q').mp hid
      rw [hsettled] at hq
      cases List.mem_append.mp hq with
      | inl hq =>
        exact h.older q hq q' ⟨id, hid⟩
      | inr hq =>
        obtain rfl := List.mem_singleton.mp hq
        refine lt_of_le_of_ne (hfirst q hp q' ⟨id, hid⟩) ?_
        rintro rfl
        exact hne (hacc.oneId _ _ _ hid hp)
    · rw [onMessage_of_lookup hp]
      exact h.entries.sublist ((List.kerase_sublist _ _).map _)

/-- At the end of the connection the promises that wait are rejected, the oldest first. -/
theorem onDisconnect (h : c.InOrder) (lastError : Option String) :
    (c.onDisconnect lastError).InOrder where
  settled := by
    rw [settledPromises_onDisconnect, List.map_reverse]
    refine List.pairwise_append.mpr ⟨h.settled, List.pairwise_reverse.mpr h.entries, ?_⟩
    intro p hp q hq
    exact h.older p hp q ((waiting_iff_mem c q).mpr (List.mem_reverse.mp hq))
  older p hp q hq := absurd hq (waiting_onDisconnect c lastError q)
  entries := List.Pairwise.nil

end InOrder
end HostClient

namespace Refines
variable {B : Browser} {C : Crates} {env : Env} {p : Pipe} {s : System}

theorem calls_of_computed (h : Refines B C env p s) {k : Nat} {x : Request × Resp}
    (hx : s.computed[k]? = some x) : s.calls[k]? = some x.1 := by
  have hk : k < (s.computed.map Prod.fst).length := by
    rw [List.length_map]
    exact (List.getElem?_eq_some_iff.mp hx).1
  rw [h.calls, ← h.order, List.getElem?_append_left hk, List.getElem?_map, hx]
  rfl

theorem calls_of_requests (h : Refines B C env p s) {k : Nat} {req : Request}
    (hreq : s.requests[k]? = some req) : s.calls[s.computed.length + k]? = some req := by
  rw [h.calls, ← h.order, List.getElem?_append_right (by simp), List.length_map,
    Nat.add_sub_cancel_left, hreq]

theorem computed_of_answers (h : Refines B C env p s) {k : Nat} {resp : Resp}
    (hresp : p.answers[k]? = some resp) :
    ∃ req, s.computed[k]? = some (req, resp) := by
  rw [← h.answers, List.getElem?_map, Option.map_eq_some_iff] at hresp
  obtain ⟨⟨req, resp'⟩, hx, rfl⟩ := hresp
  exact ⟨req, hx⟩

theorem answer_id (h : Refines B C env p s) (hinv : Inv B.stringify C s)
    (hread : s.Readable B.stringify C) {k : Nat} {resp : Resp}
    (hresp : p.answers[k]? = some resp) : (Response.ofResp resp).id = k + 1 := by
  obtain ⟨req, hx⟩ := h.computed_of_answers hresp
  have hcall := h.calls_of_computed hx
  have hid := hinv.call_id k req hcall
  have hlt := (List.getElem?_eq_some_iff.mp hcall).1
  have hcount := hread.few
  have hunderstood := hread.understood req (List.mem_of_getElem? hcall)
  have hcomputes := (hinv.computed _ (List.mem_of_getElem? hx)).2
  have hresp := (hcomputes.id_of_posted hunderstood.notMistaken).resolve_right
    fun hzero => hzero.2 hunderstood
  change resp.id.toNat = k + 1
  have hsize : UInt64.size = 2 ^ 64 := rfl
  rw [hresp, UInt64.toNat_ofNat_of_lt' (by omega), hid]

/-- What is in flight belongs to calls behind those whose responses were delivered. -/
theorem delivered_lt (h : Refines B C env p s) (hinv : Inv B.stringify C s)
    (hread : s.Readable B.stringify C) {delivered waiting : List Resp}
    (hanswers : p.answers = delivered ++ waiting)
    (hresponses : s.responses = waiting.map .ofResp) :
    ∀ id ∈ s.traffic, delivered.length < id := by
  have hlen : s.computed.length = delivered.length + waiting.length := by
    rw [← List.length_append, ← hanswers, ← h.answers, List.length_map]
  intro id hid
  cases List.mem_append.mp hid with
  | inl hid =>
    obtain ⟨req, hreq, rfl⟩ := List.mem_map.mp hid
    obtain ⟨k, hk⟩ := List.mem_iff_getElem?.mp hreq
    rw [hinv.call_id _ req (h.calls_of_requests hk)]
    omega
  | inr hid =>
    rw [hresponses, List.map_map] at hid
    obtain ⟨resp, hresp, rfl⟩ := List.mem_map.mp hid
    obtain ⟨k, hk⟩ := List.mem_iff_getElem?.mp hresp
    have hk' : p.answers[delivered.length + k]? = some resp := by
      rw [hanswers, List.getElem?_append_right (by omega), Nat.add_sub_cancel_left, hk]
    rw [Function.comp_apply, h.answer_id hinv hread hk']
    omega

/-- The oldest response belongs to the oldest promise that waits, or to none. -/
theorem first_waits (h : Refines B C env p s) (hinv : Inv B.stringify C s)
    (hread : s.Readable B.stringify C) {delivered waiting : List Resp} {r : Resp}
    (hanswers : p.answers = delivered ++ r :: waiting)
    (hresponses : s.responses = .ofResp r :: waiting.map .ofResp) {k : Nat}
    (hk : s.client.pending.lookup (Response.ofResp r).id = some k) :
    ∀ q, s.client.Waiting q → k ≤ q := by
  have hid : (Response.ofResp r).id = delivered.length + 1 :=
    h.answer_id hinv hread (by rw [hanswers, List.getElem?_append_right (by omega)]; simp)
  have hk' := hinv.pending_id _ k hk
  intro q hq
  obtain ⟨id, hlookup⟩ := hq
  have hq' := hinv.pending_id id q hlookup
  have htraffic : id ∈ s.traffic := by
    rw [← List.count_pos_iff,
      hinv.inFlight hread.understood id ((s.client.mem_pending_iff id).mpr ⟨q, hlookup⟩)]
    decide
  have hlt := h.delivered_lt hinv hread hanswers hresponses id htraffic
  omega

end Refines

/-- A run within which both sides agree and JavaScript can count the calls. -/
def Pipe.Good (B : Browser) (C : Crates) (p : Pipe) : Prop :=
  p.Agrees B C ∧ p.calls.length < 2 ^ 53

theorem PipeStep.good_back {B : Browser} {C : Crates} {env : Env} {p q : Pipe} {l : PipeLabel}
    (h : PipeStep B C env p l q) (hq : q.Good B C) : p.Good B C := by
  refine ⟨h.agrees_back hq.1, lt_of_le_of_lt ?_ hq.2⟩
  cases h with
  | call method params =>
    change p.calls.length ≤ (p.calls ++ [_]).length
    rw [List.length_append]
    exact Nat.le_add_right _ _
  | _ => exact le_refl _

theorem Refines.readable {B : Browser} {C : Crates} {env : Env} {p : Pipe} {s : System}
    (h : Refines B C env p s) (hp : p.Good B C) : s.Readable B.stringify C where
  few := h.calls ▸ hp.2
  understood req hreq := (hp.1.requests req (h.calls ▸ hreq)).2

/-- The pipe is in a state of the system that keeps the invariant, and its client settles in
order. -/
structure Ordered (B : Browser) (C : Crates) (env : Env) (p : Pipe) (s : System) : Prop where
  refines : Refines B C env p s
  inv : Inv B.stringify C s
  inOrder : p.client.InOrder

namespace Ordered
variable {B : Browser} {C : Crates} {env : Env} {p q : Pipe} {s : System}

theorem init : Ordered B C env .init .init := ⟨Refines.init, Inv.init, HostClient.InOrder.new⟩

theorem inOrder_step {l : PipeLabel} (h : Ordered B C env p s) (hstep : PipeStep B C env p l q)
    (hp : p.Good B C) : q.client.InOrder := by
  have hacc : p.client.Accounted := h.refines.client ▸ h.inv.accounted
  cases hstep with
  | call method params =>
    have hfresh : p.client.nextId ∉ p.client.pending := by
      rw [← h.refines.client]
      exact fun hid => lt_irrefl _ (h.inv.pending_lt hid).2
    exact h.inOrder.call hacc hfresh method params
  | serve hread => exact h.inOrder
  | deliver hread hparse =>
    obtain ⟨delivered, r, waiting, hanswers, hresponses, -, rfl⟩ :=
      h.refines.next_response hread hparse hp.1
    have hread := h.refines.readable hp
    refine h.inOrder.onMessage hacc fun k hk => ?_
    rw [← h.refines.client] at hk ⊢
    exact h.refines.first_waits h.inv hread hanswers hresponses hk
  | disconnect lastError => exact h.inOrder.onDisconnect lastError

theorem step {l : PipeLabel} (h : Ordered B C env p s) (hstep : PipeStep B C env p l q)
    (hq : q.Good B C) : ∃ l' t, Step B.stringify C s l' t ∧ Ordered B C env q t := by
  obtain ⟨l', t, hstep', ht⟩ := h.refines.step hstep hq.1
  have hinv := Inv.step (fun _ => h.inv) hstep' (ht.readable hq).regular
  exact ⟨l', t, hstep', ht, hinv, h.inOrder_step hstep (hstep.good_back hq)⟩

/-- Every run of the pipe is one of the system. -/
theorem run {ls : List PipeLabel} (hrun : Run (PipeStep B C env) .init ls p) (hp : p.Good B C) :
    ∃ ls' s, Run (Step B.stringify C) .init ls' s ∧ Ordered B C env p s := by
  have hwithin : Run (fun p l q => PipeStep B C env p l q ∧ q.Good B C) .init ls p :=
    Run.within (fun _ _ _ hstep hq => hstep.good_back hq) hrun hp
  refine hwithin.simulate ?_ init
  intro p l q s h hstep
  obtain ⟨l', t, hstep', ht⟩ := h.step hstep.1 hstep.2
  exact ⟨[l'], t, (Run.nil s).snoc hstep', ht⟩

/-- The outcome of a promise comes from the response with its number. -/
theorem outcomes (h : Ordered B C env p s) (k : Nat) (outcome : Outcome)
    (hk : (k, outcome) ∈ p.client.settled) :
    (∃ resp, p.answers[k]? = some resp ∧ outcome = HostClient.answer (.ofResp resp)) ∨
      ∃ e, outcome = .disconnected e := by
  rw [← h.refines.client] at hk
  refine (h.inv.settled k outcome hk).imp_left fun hans => ?_
  obtain ⟨req, resp, hreq, hcomputed, -, hout⟩ := hans
  obtain ⟨j, hj⟩ := List.mem_iff_getElem?.mp hcomputed
  have hid := h.inv.call_id j req (h.refines.calls_of_computed hj)
  obtain rfl : j = k := by
    rw [h.inv.call_id k req hreq] at hid
    omega
  refine ⟨resp, ?_, hout⟩
  rw [← h.refines.answers, List.getElem?_map, hj]
  rfl

/-- When nothing is in flight, no promise waits. -/
theorem allSettled (h : Ordered B C env p s) (hp : p.Good B C) (hstdin : p.stdin = [])
    (hstdout : p.stdout = []) : ∀ k < p.client.promises, k ∈ p.client.settledPromises := by
  have hframe : ∀ m : Bytes, frame m ≠ [] := fun m hm => by
    have hlen := congrArg List.length hm
    simp [frame] at hlen
  have hrequests : s.requests = [] := by
    have hbytes := h.refines.stdin.symm.trans hstdin
    cases hreq : s.requests with
    | nil => rfl
    | cons req reqs =>
      rw [hreq, requestBytes_cons] at hbytes
      exact absurd (List.append_eq_nil_iff.mp hbytes).1 (hframe _)
  have hresponses : s.responses = [] := by
    obtain ⟨delivered, waiting, -, hresponses, hbytes⟩ := h.refines.stdout
    cases waiting with
    | nil => exact hresponses
    | cons r waiting =>
      rw [hstdout, responseBytes_cons] at hbytes
      exact absurd (List.append_eq_nil_iff.mp hbytes.symm).1 (hframe _)
  intro k hk
  rw [← h.refines.client] at hk ⊢
  by_contra hnew
  obtain ⟨id, hid⟩ := (h.inv.accounted.waiting_iff k).mpr ⟨hk, hnew⟩
  have hcount := h.inv.inFlight (h.refines.readable hp).understood id
    ((s.client.mem_pending_iff id).mpr ⟨k, hid⟩)
  rw [System.traffic, hrequests, hresponses] at hcount
  cases hcount

/-- The host has done what its loop does on the bytes that it has read. -/
theorem process (h : Ordered B C env p s) (hp : p.Good B C) :
    Prog.run env (main (handle C) p.consumed) [] = ((), p.history) := by
  have hshort : ∀ m ∈ s.computed.map (fun x => B.stringify x.1), m.length < 2 ^ 32 := by
    intro m hm
    obtain ⟨x, hx, rfl⟩ := List.mem_map.mp hm
    have hmem : x.1 ∈ p.calls := by
      rw [← h.refines.order]
      exact List.mem_append_left _ (List.mem_map_of_mem hx)
    exact (hp.1.requests _ hmem).1
  have hconsumed : p.consumed = (s.computed.map fun x => B.stringify x.1).flatMap frame := by
    rw [h.refines.consumed, requestBytes, List.flatMap_map, List.flatMap_map]
  have hread : readMessages p.consumed = s.computed.map fun x => B.stringify x.1 := by
    rw [Host.readMessages_eq_unframeAll, hconsumed]
    have hframes := Framing.unframeAll_frames _ hshort (t := []) (by decide)
    rwa [List.append_nil] at hframes
  rw [Host.main_eq_serve, hread, Prog.run_map, h.refines.process]

end Ordered

/-- What a run of the pipe comes to. It is a run of the system with the messages in their
streams, and the process has done what its loop does on the bytes that it has read. The
promises are settled in the order of the calls, each by the response with its number or at the
end of the connection, and none is left when nothing is in flight. -/
structure Session (B : Browser) (C : Crates) (env : Env) (p : Pipe) : Prop where
  system : ∃ s ls, Run (Step B.stringify C) .init ls s ∧ Refines B C env p s
  process : Prog.run env (main (handle C) p.consumed) [] = ((), p.history)
  inOrder : p.client.settledPromises.Pairwise (· < ·)
  outcomes : ∀ k outcome, (k, outcome) ∈ p.client.settled →
    (∃ resp, p.answers[k]? = some resp ∧ outcome = HostClient.answer (.ofResp resp)) ∨
      ∃ e, outcome = .disconnected e
  allSettled : p.stdin = [] → p.stdout = [] →
    ∀ k < p.client.promises, k ∈ p.client.settledPromises

/-- In every run of the extension and the process over their byte streams, however calls, turns
of the host, deliveries and ends of the connection interleave. -/
theorem run_pipe (B : Browser) (C : Crates) (env : Env) {p : Pipe} {ls : List PipeLabel}
    (hrun : Run (PipeStep B C env) .init ls p) (hagree : p.Agrees B C)
    (hcalls : p.calls.length < 2 ^ 53) : Session B C env p := by
  have hgood : p.Good B C := ⟨hagree, hcalls⟩
  obtain ⟨ls', s, hrun', h⟩ := Ordered.run hrun hgood
  exact ⟨⟨s, ls', hrun', h.refines⟩, h.process hgood, h.inOrder.settled, h.outcomes,
    h.allSettled hgood⟩

def pongText : String := "\x7b\"id\":2,\"method\":\"pong\"\x7d"

def pingAnswer : Resp := ⟨1, none, some ⟨"UNSUPPORTED_METHOD", "unknown method: ping"⟩⟩
def pongAnswer : Resp := ⟨2, none, some ⟨"UNSUPPORTED_METHOD", "unknown method: pong"⟩⟩

def pingAnswerText : String :=
  "\x7b\"id\":1,\"error\":\x7b\"code\":\"UNSUPPORTED_METHOD\",\"message\":\"unknown method: ping\"\x7d\x7d"
def pongAnswerText : String :=
  "\x7b\"id\":2,\"error\":\x7b\"code\":\"UNSUPPORTED_METHOD\",\"message\":\"unknown method: pong\"\x7d\x7d"

def pingTexts : Texts where
  messages := [(Host.pingText, [("\"id\"", "1"), ("\"method\"", "\"ping\"")]),
    (pongText, [("\"id\"", "2"), ("\"method\"", "\"pong\"")])]
  numbers := [("1", 1), ("2", 2)]
  strings := [("\"ping\"", "ping"), ("\"pong\"", "pong")]
  values := []

def pingCrates : Crates :=
  { Host.emptyObjectCrates with serde := pingTexts.serde (fun _ => "") Host.errorPrinter }

def pingBrowser : Browser where
  stringify := sampleStringify
  parse := Texts.find [(pingAnswerText, .ofResp pingAnswer), (pongAnswerText, .ofResp pongAnswer)]

def ping : Request := ⟨1, "ping", none⟩
def pong : Request := ⟨2, "pong", none⟩

theorem ping_text : sampleStringify ping = asBytes Host.pingText := by
  have hid : toString ping.id = "1" := by decide
  rw [sampleStringify, hid]
  simp [ping, Host.pingText]

theorem pong_text : sampleStringify pong = asBytes pongText := by
  have hid : toString pong.id = "2" := by decide
  rw [sampleStringify, hid]
  simp [pong, pongText]

theorem ping_fromSlice :
    pingCrates.serde.fromSlice (asBytes Host.pingText) = .ok ⟨1, "ping", .null⟩ := by
  rw [pingCrates, @Texts.fromSlice_method _ _ _ _ "1" "\"ping\"" 1 "ping"] <;>
    simp [pingTexts, Texts.serde, Texts.names]

theorem pong_fromSlice :
    pingCrates.serde.fromSlice (asBytes pongText) = .ok ⟨2, "pong", .null⟩ := by
  rw [pingCrates, @Texts.fromSlice_method _ _ _ _ "2" "\"pong\"" 2 "pong"] <;>
    simp [pingTexts, Texts.serde, Texts.names, Host.pingText, pongText]

theorem ping_toVec : pingCrates.serde.toVec pingAnswer = asBytes pingAnswerText := by
  have hid : toString pingAnswer.id = "1" := by decide
  change Host.errorPrinter pingAnswer = _
  rw [Host.errorPrinter, hid]
  simp [pingAnswer, pingAnswerText]

theorem pong_toVec : pingCrates.serde.toVec pongAnswer = asBytes pongAnswerText := by
  have hid : toString pongAnswer.id = "2" := by decide
  change Host.errorPrinter pongAnswer = _
  rw [Host.errorPrinter, hid]
  simp [pongAnswer, pongAnswerText]

theorem ping_respond (h : Trace) : (Prog.run Host.bareWorld
    (respond pingCrates (pingCrates.serde.fromSlice (asBytes Host.pingText))) h).1 = pingAnswer := by
  rw [ping_fromSlice]
  rfl

theorem pong_respond (h : Trace) : (Prog.run Host.bareWorld
    (respond pingCrates (pingCrates.serde.fromSlice (asBytes pongText))) h).1 = pongAnswer := by
  rw [pong_fromSlice]
  rfl

/-- Both requests are written before the first turn of the host. -/
def called : Pipe := (Pipe.init.afterCall pingBrowser "ping" none).afterCall pingBrowser "pong" none

def served : Pipe :=
  called.afterServe pingCrates Host.bareWorld (asBytes Host.pingText) (frame (asBytes pongText))

def servedBoth : Pipe := served.afterServe pingCrates Host.bareWorld (asBytes pongText) []

theorem called_stdin : called.stdin = frame (asBytes Host.pingText) ++ frame (asBytes pongText) := by
  change [] ++ frame (sampleStringify ping) ++ frame (sampleStringify pong) = _
  rw [ping_text, pong_text, List.nil_append]

theorem servedBoth_answers : servedBoth.answers = [pingAnswer, pongAnswer] := by
  simp only [servedBoth, served, Pipe.afterServe, ping_respond, pong_respond]
  rfl

theorem servedBoth_stdout :
    servedBoth.stdout = frame (asBytes pingAnswerText) ++ frame (asBytes pongAnswerText) := by
  simp only [servedBoth, served, Pipe.afterServe, written_turn, ping_respond, pong_respond,
    ping_toVec, pong_toVec]
  rfl

theorem ping_understood : ping.Understood pingBrowser.stringify pingCrates :=
  ⟨⟨1, "ping", .null⟩, rfl, (congrArg pingCrates.serde.fromSlice ping_text).trans ping_fromSlice⟩

theorem pong_understood : pong.Understood pingBrowser.stringify pingCrates :=
  ⟨⟨2, "pong", .null⟩, rfl, (congrArg pingCrates.serde.fromSlice pong_text).trans pong_fromSlice⟩

theorem ping_agrees {p : Pipe} (hcalls : p.calls = [ping, pong])
    (hanswers : p.answers = [pingAnswer, pongAnswer]) : p.Agrees pingBrowser pingCrates where
  requests req hreq := by
    simp only [hcalls, List.mem_cons, List.not_mem_nil, or_false] at hreq
    rcases hreq with rfl | rfl
    · exact ⟨(congrArg List.length ping_text).trans_lt (by decide), ping_understood⟩
    · exact ⟨(congrArg List.length pong_text).trans_lt (by decide), pong_understood⟩
  responses resp hresp := by
    simp only [hanswers, List.mem_cons, List.not_mem_nil, or_false] at hresp
    rcases hresp with rfl | rfl
    · rw [ping_toVec]
      exact ⟨by decide, by simp [pingBrowser]⟩
    · rw [pong_toVec]
      exact ⟨by decide, by simp [pingBrowser, pingAnswerText, pongAnswerText]⟩

theorem run_pipe_ping :
    ∃ p ls, Run (PipeStep pingBrowser pingCrates Host.bareWorld) .init ls p ∧
      p.client.settledPromises = [0, 1] ∧ Session pingBrowser pingCrates Host.bareWorld p := by
  have hstart : Run (PipeStep pingBrowser pingCrates Host.bareWorld) .init [] .init := Run.nil _
  have hcalled := (hstart.snoc (PipeStep.call _ "ping" none)).snoc (PipeStep.call _ "pong" none)
  have hserved := hcalled.snoc (@PipeStep.serve _ _ _ called (asBytes Host.pingText)
    (frame (asBytes pongText)) (by rw [called_stdin, readMessage_frame (by decide)]))
  have hboth := hserved.snoc (@PipeStep.serve _ _ _ served (asBytes pongText) []
    (by exact readMessage_frame (by decide) []))
  have hping := hboth.snoc (@PipeStep.deliver _ _ _ servedBoth (asBytes pingAnswerText)
    (frame (asBytes pongAnswerText)) (.ofResp pingAnswer)
    (by rw [servedBoth_stdout, readMessage_frame (by decide)]) (by simp [pingBrowser]))
  have hrun := hping.snoc (@PipeStep.deliver _ _ _ _ (asBytes pongAnswerText) []
    (.ofResp pongAnswer) (by exact readMessage_frame (by decide) [])
    (by simp [pingBrowser, pingAnswerText, pongAnswerText]))
  exact ⟨_, _, hrun, rfl, run_pipe pingBrowser pingCrates Host.bareWorld hrun
    (ping_agrees rfl servedBoth_answers) (by decide)⟩

end YubiWallet.Client
