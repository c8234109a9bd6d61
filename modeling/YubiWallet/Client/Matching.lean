import YubiWallet.Client.HostClient
import YubiWallet.Host.Loop
import YubiWallet.Host.Soundness
import YubiWallet.Lib.Transition
import Mathlib.Data.List.Count
import Mathlib.Tactic.SplitIfs

/-! The client, the host and the messages between them: every promise is settled with the
host's answer to its own request, in whatever order the messages are handled, as long as the
host understands what is posted. -/
namespace YubiWallet.Client
open Interaction Transition
open Host (Value ErrObj Crates Req Resp respond response)

/-- The response as the client reads it. -/
def Response.ofResp (resp : Resp) : Response := ⟨resp.id.toNat, resp.result, resp.error⟩

/-- The response is one that the host can compute for the frame, with some card and some
terminal. -/
def HostComputes (C : Crates) (frame : Except String Req) (resp : Resp) : Prop :=
  ∃ env h, resp = (Prog.run env (respond C frame) h).1

/-- The host echoes the id of a request; a frame that it cannot read has id 0. -/
theorem HostComputes.id_eq {C : Crates} {frame : Except String Req} {resp : Resp}
    (h : HostComputes C frame resp) :
    resp.id = match frame with | .ok req => req.id | .error _ => 0 := by
  obtain ⟨env, t, rfl⟩ := h
  cases frame with
  | ok req => simp [respond, Prog.run_map]
  | error e => simp [respond]

/-- The host reads the posted text as the request that was meant. -/
def Request.Understood (stringify : Request → Bytes) (C : Crates) (req : Request) : Prop :=
  ∃ r, req.toReq = some r ∧ C.serde.fromSlice (stringify req) = .ok r

/-- The host reads no other request in the posted text. -/
def Request.NotMistaken (stringify : Request → Bytes) (C : Crates) (req : Request) : Prop :=
  ∀ r, C.serde.fromSlice (stringify req) = .ok r → req.toReq = some r

theorem Request.Understood.notMistaken {stringify : Request → Bytes} {C : Crates} {req : Request}
    (h : req.Understood stringify C) : req.NotMistaken stringify C := by
  obtain ⟨r, hreq, hslice⟩ := h
  intro r' hslice'
  rw [hreq, Except.ok.inj (hslice.symm.trans hslice')]

theorem Request.id_of_toReq {req : Request} {r : Req} (h : req.toReq = some r) :
    r.id = UInt64.ofNat req.id := by
  obtain ⟨params, -, rfl⟩ := Option.map_eq_some_iff.mp h
  rfl

/-- The response has the id of the request, or the id 0 when the host cannot read the text. -/
theorem HostComputes.id_of_posted {stringify : Request → Bytes} {C : Crates} {req : Request}
    {resp : Resp} (hread : req.NotMistaken stringify C)
    (h : HostComputes C (C.serde.fromSlice (stringify req)) resp) :
    resp.id = UInt64.ofNat req.id ∨ resp.id = 0 ∧ ¬ req.Understood stringify C := by
  cases hslice : C.serde.fromSlice (stringify req) with
  | ok r =>
    rw [hslice] at h
    exact Or.inl (h.id_eq.trans (Request.id_of_toReq (hread r hslice)))
  | error e =>
    rw [hslice] at h
    refine Or.inr ⟨h.id_eq, ?_⟩
    rintro ⟨r, -, hr⟩
    rw [hslice] at hr
    cases hr

/-- A client with its host. `calls` are the requests of all calls, `computed` what the host
has computed, both in order. -/
structure System where
  client : HostClient
  calls : List Request
  requests : List Request
  responses : List Response
  computed : List (Request × Resp)

inductive Label where
  | call (method : String) (params : Option JsValue)
  | handle (req : Request) (resp : Resp)
  | unreadable (error : String) (resp : Resp)
  | deliver (resp : Response)
  | disconnect (lastError : Option String)

namespace System

def init : System := ⟨.new, [], [], [], []⟩

def afterCall (s : System) (method : String) (params : Option JsValue) : System :=
  let (client, req) := s.client.call method params none
  { s with client, calls := s.calls ++ [req], requests := s.requests ++ [req] }

/-- The ids of the messages in flight, in both directions. -/
def traffic (s : System) : List Nat := s.requests.map Request.id ++ s.responses.map Response.id

end System

/-- Messages are handled and delivered in any order. The host gets the texts of requests,
which `stringify` makes; one that it cannot read is used up as well. A frame that nobody
posted may come in between. -/
inductive Step (stringify : Request → Bytes) (C : Crates) : System → Label → System → Prop
  | call (s : System) (method : String) (params : Option JsValue) :
      Step stringify C s (.call method params) (s.afterCall method params)
  | handle {s : System} {pre post : List Request} {req : Request} {resp : Resp}
      (hreq : s.requests = pre ++ req :: post)
      (hresp : HostComputes C (C.serde.fromSlice (stringify req)) resp) :
      Step stringify C s (.handle req resp)
        { s with
          requests := pre ++ post
          responses := s.responses ++ [.ofResp resp]
          computed := s.computed ++ [(req, resp)] }
  | unreadable {s : System} {error : String} {resp : Resp}
      (hresp : HostComputes C (.error error) resp) :
      Step stringify C s (.unreadable error resp)
        { s with responses := s.responses ++ [.ofResp resp] }
  | deliver {s : System} {pre post : List Response} {resp : Response}
      (hresp : s.responses = pre ++ resp :: post) :
      Step stringify C s (.deliver resp)
        { s with client := s.client.onMessage resp, responses := pre ++ post }
  | disconnect (s : System) (lastError : Option String) :
      Step stringify C s (.disconnect lastError)
        { s with client := s.client.onDisconnect lastError }

/-- The promise `p` has the outcome of the response that the host computed for the request
of the call `p`. -/
def System.AnsweredBy (s : System) (p : Nat) (outcome : Outcome) : Prop :=
  ∃ req resp, s.calls[p]? = some req ∧ (req, resp) ∈ s.computed ∧
    (Response.ofResp resp).id = req.id ∧ outcome = HostClient.answer (.ofResp resp)

/-- The ids of the requests that wait for the host or were handled. -/
def System.received (s : System) : List Nat :=
  s.requests.map Request.id ++ s.computed.map fun x => x.1.id

/-- What holds in every state, while JavaScript can count the calls and no request is taken
for another one. -/
structure Inv (stringify : Request → Bytes) (C : Crates) (s : System) : Prop where
  accounted : s.client.Accounted
  nextId_eq : s.client.nextId = s.calls.length + 1
  promises_eq : s.client.promises = s.calls.length
  call_id : ∀ k req, s.calls[k]? = some req → req.id = k + 1
  pending_id : ∀ id p, s.client.pending.lookup id = some p → id = p + 1
  inFlight : (∀ req ∈ s.calls, req.Understood stringify C) →
    ∀ id ∈ s.client.pending, s.traffic.count id = 1
  received : s.received.Nodup
  requests : ∀ req ∈ s.requests, req ∈ s.calls
  computed : ∀ x ∈ s.computed, x.1 ∈ s.calls ∧
    HostComputes C (C.serde.fromSlice (stringify x.1)) x.2
  responses : ∀ resp ∈ s.responses, resp.id ≠ 0 →
    ∃ req r, req.id = resp.id ∧ (req, r) ∈ s.computed ∧ resp = .ofResp r
  settled : ∀ p outcome, (p, outcome) ∈ s.client.settled →
    s.AnsweredBy p outcome ∨ ∃ e, outcome = .disconnected e

/-- JavaScript can count the calls, and the host takes no request for another one. -/
structure System.Regular (stringify : Request → Bytes) (C : Crates) (s : System) : Prop where
  few : s.calls.length < 2 ^ 53
  notMistaken : ∀ req ∈ s.calls, req.NotMistaken stringify C

/-- JavaScript can count the calls, and the host understands them. -/
structure System.Readable (stringify : Request → Bytes) (C : Crates) (s : System) : Prop where
  few : s.calls.length < 2 ^ 53
  understood : ∀ req ∈ s.calls, req.Understood stringify C

theorem System.Readable.regular {stringify : Request → Bytes} {C : Crates} {s : System}
    (h : s.Readable stringify C) : s.Regular stringify C :=
  ⟨h.few, fun req hreq => (h.understood req hreq).notMistaken⟩

/-- An answer stays one while calls and computed responses are only added. -/
theorem System.AnsweredBy.mono {s t : System} {p : Nat} {outcome : Outcome}
    (h : s.AnsweredBy p outcome) (hcalls : s.calls <+: t.calls)
    (hcomputed : s.computed ⊆ t.computed) : t.AnsweredBy p outcome := by
  obtain ⟨req, resp, hreq, hresp, hid, hout⟩ := h
  obtain ⟨later, hlater⟩ := hcalls
  refine ⟨req, resp, ?_, hcomputed hresp, hid, hout⟩
  rw [← hlater, List.getElem?_append_left (List.getElem?_eq_some_iff.mp hreq).1, hreq]

theorem getElem?_snoc {α : Type} {l : List α} {x y : α} {k : Nat}
    (h : (l ++ [x])[k]? = some y) : l[k]? = some y ∨ k = l.length ∧ x = y := by
  rw [List.getElem?_append] at h
  split at h
  · exact Or.inl h
  · obtain ⟨hk, hy⟩ := List.getElem?_eq_some_iff.mp h
    simp only [List.length_cons, List.length_nil] at hk
    exact Or.inr ⟨by omega, by simpa using hy⟩

namespace Inv
variable {stringify : Request → Bytes} {C : Crates} {s : System}

theorem init : Inv stringify C System.init where
  accounted := HostClient.accounted_new
  nextId_eq := rfl
  promises_eq := rfl
  call_id k req h := by simp [System.init] at h
  pending_id id p h := by simp [System.init, HostClient.new] at h
  inFlight _ id h := by simp [System.init, HostClient.new] at h
  received := List.nodup_nil
  requests req h := by simp [System.init] at h
  computed x h := by simp [System.init] at h
  responses resp h := by simp [System.init] at h
  settled p outcome h := by simp [System.init, HostClient.new] at h

theorem id_of_mem (h : Inv stringify C s) {req : Request} (hreq : req ∈ s.calls) :
    0 < req.id ∧ req.id < s.client.nextId := by
  obtain ⟨k, hk⟩ := List.mem_iff_getElem?.mp hreq
  have hlt := (List.getElem?_eq_some_iff.mp hk).1
  rw [h.call_id k req hk, h.nextId_eq]
  omega

theorem pending_lt (h : Inv stringify C s) {id : Nat} (hid : id ∈ s.client.pending) :
    0 < id ∧ id < s.client.nextId := by
  obtain ⟨p, hp⟩ := (s.client.mem_pending_iff id).mp hid
  have hlt := ((h.accounted.waiting_iff p).mp ⟨id, hp⟩).1
  rw [h.promises_eq] at hlt
  rw [h.pending_id id p hp, h.nextId_eq]
  omega

theorem traffic_lt (h : Inv stringify C s) : ∀ id ∈ s.traffic, id < s.client.nextId := by
  intro id hid
  cases List.mem_append.mp hid with
  | inl hid =>
    obtain ⟨req, hreq, rfl⟩ := List.mem_map.mp hid
    exact (h.id_of_mem (h.requests req hreq)).2
  | inr hid =>
    obtain ⟨resp, hresp, rfl⟩ := List.mem_map.mp hid
    by_cases hzero : resp.id = 0
    · rw [hzero, h.nextId_eq]
      omega
    · obtain ⟨req, r, hreq, hcomputed, -⟩ := h.responses resp hresp hzero
      rw [← hreq]
      exact (h.id_of_mem (h.computed _ hcomputed).1).2

theorem received_lt (h : Inv stringify C s) : ∀ id ∈ s.received, id < s.client.nextId := by
  intro id hid
  cases List.mem_append.mp hid with
  | inl hid =>
    obtain ⟨req, hreq, rfl⟩ := List.mem_map.mp hid
    exact (h.id_of_mem (h.requests req hreq)).2
  | inr hid =>
    obtain ⟨x, hx, rfl⟩ := List.mem_map.mp hid
    exact (h.id_of_mem (h.computed x hx).1).2

theorem afterCall (h : Inv stringify C s) (method : String) (params : Option JsValue)
    (hcount : s.calls.length + 1 < 2 ^ 53) :
    Inv stringify C (s.afterCall method params) := by
  have hnext : increment s.client.nextId = s.calls.length + 2 := by
    rw [increment, h.nextId_eq, if_pos hcount]
  have hfresh : s.client.nextId ∉ s.client.pending := fun hid =>
    absurd (h.pending_lt hid).2 (lt_irrefl _)
  let req : Request := ⟨s.client.nextId, method, params⟩
  have hcalls : s.calls ⊆ s.calls ++ [req] := List.subset_append_left _ _
  have htraffic : (s.afterCall method params).traffic.Perm (s.client.nextId :: s.traffic) := by
    change ((s.requests ++ [req]).map Request.id ++ _).Perm _
    rw [List.map_append, List.append_assoc]
    exact List.perm_middle
  have hreceived : (s.afterCall method params).received.Perm (s.client.nextId :: s.received) := by
    change ((s.requests ++ [req]).map Request.id ++ _).Perm _
    rw [List.map_append, List.append_assoc]
    exact List.perm_middle
  exact {
    accounted := h.accounted.call hfresh method params
    nextId_eq := by
      change increment s.client.nextId = (s.calls ++ [req]).length + 1
      rw [hnext, List.length_append]
      rfl
    promises_eq := by
      change s.client.promises + 1 = (s.calls ++ [req]).length
      rw [h.promises_eq, List.length_append]
      rfl
    call_id := by
      intro k req' hk
      rcases getElem?_snoc hk with hk | ⟨rfl, rfl⟩
      · exact h.call_id k req' hk
      · exact h.nextId_eq
    pending_id := by
      intro id p hp
      change (s.client.pending.insert s.client.nextId s.client.promises).lookup id = some p at hp
      by_cases hid : id = s.client.nextId
      · subst hid
        rw [AList.lookup_insert] at hp
        rw [← Option.some.inj hp, h.promises_eq, h.nextId_eq]
      · rw [AList.lookup_insert_ne hid] at hp
        exact h.pending_id id p hp
    inFlight := by
      intro hread id hid
      have hold := h.inFlight fun req' hreq' => hread req' (hcalls hreq')
      rw [htraffic.count_eq]
      rcases (AList.mem_insert _).mp hid with rfl | hid
      · rw [List.count_cons_self, List.count_eq_zero.mpr]
        exact fun hmem => lt_irrefl _ (h.traffic_lt _ hmem)
      · rw [List.count_cons_of_ne (h.pending_lt hid).2.ne', hold id hid]
    received := by
      rw [hreceived.nodup_iff, List.nodup_cons]
      exact ⟨fun hmem => lt_irrefl _ (h.received_lt _ hmem), h.received⟩
    requests := by
      intro req' hreq
      cases List.mem_append.mp hreq with
      | inl hreq =>
        exact hcalls (h.requests req' hreq)
      | inr hreq =>
        exact List.mem_append_right _ hreq
    computed := fun x hx => ⟨hcalls (h.computed x hx).1, (h.computed x hx).2⟩
    responses := h.responses
    settled := by
      intro p outcome hp
      change (p, outcome) ∈ s.client.settled ++ [] at hp
      rw [List.append_nil] at hp
      exact (h.settled p outcome hp).imp_left fun hans =>
        hans.mono (List.prefix_append _ _) (List.Subset.refl _)
  }

/-- Handling a request turns it into its response, under the same id when it is understood. -/
theorem handle (h : Inv stringify C s) (hcount : s.calls.length < 2 ^ 53)
    (hread : ∀ req ∈ s.calls, req.NotMistaken stringify C) {pre post : List Request}
    {req : Request} {resp : Resp} (hreq : s.requests = pre ++ req :: post)
    (hresp : HostComputes C (C.serde.fromSlice (stringify req)) resp) :
    Inv stringify C { s with
      requests := pre ++ post
      responses := s.responses ++ [.ofResp resp]
      computed := s.computed ++ [(req, resp)] } := by
  have hmem : req ∈ s.calls := h.requests req (by rw [hreq]; simp)
  have hsub : pre ++ post ⊆ s.requests := by
    rw [hreq]
    exact ((List.Sublist.refl pre).append (List.sublist_cons_self req post)).subset
  have hid : (Response.ofResp resp).id = req.id ∨
      (Response.ofResp resp).id = 0 ∧ ¬ req.Understood stringify C := by
    have hlt := (h.id_of_mem hmem).2
    rw [h.nextId_eq] at hlt
    have hsize : UInt64.size = 2 ^ 64 := rfl
    refine (hresp.id_of_posted (hread req hmem)).imp (fun hid => ?_) (And.imp_left fun hid => ?_)
    · change resp.id.toNat = req.id
      rw [hid]
      exact UInt64.toNat_ofNat_of_lt' (by omega)
    · change resp.id.toNat = 0
      rw [hid]
      rfl
  have hreceived : ((pre ++ post).map Request.id ++
      (s.computed ++ [(req, resp)]).map fun x => x.1.id).Perm s.received := by
    rw [System.received, hreq]
    simp only [List.map_append, List.map_cons, List.map_nil, List.append_assoc]
    refine List.Perm.append_left _ ?_
    rw [← List.append_assoc]
    exact List.perm_append_singleton _ _
  exact {
    accounted := h.accounted
    nextId_eq := h.nextId_eq
    promises_eq := h.promises_eq
    call_id := h.call_id
    pending_id := h.pending_id
    inFlight := by
      intro hall id hpending
      have hreqId := hid.resolve_right fun hzero => hzero.2 (hall req hmem)
      have htraffic : ((pre ++ post).map Request.id ++
          (s.responses ++ [Response.ofResp resp]).map Response.id).Perm s.traffic := by
        rw [System.traffic, hreq]
        simp only [List.map_append, List.map_cons, List.map_nil, hreqId, List.append_assoc]
        refine List.Perm.append_left _ ?_
        rw [← List.append_assoc]
        exact List.perm_append_singleton _ _
      exact (htraffic.count_eq id).trans (h.inFlight hall id hpending)
    received := hreceived.nodup_iff.mpr h.received
    requests := fun req' hreq' => h.requests req' (hsub hreq')
    computed := by
      intro x hx
      cases List.mem_append.mp hx with
      | inl hx =>
        exact h.computed x hx
      | inr hx =>
        obtain rfl := List.mem_singleton.mp hx
        exact ⟨hmem, hresp⟩
    responses := by
      intro resp' hresp' hzero
      cases List.mem_append.mp hresp' with
      | inl hresp' =>
        obtain ⟨req', r, hreq', hr, hof⟩ := h.responses resp' hresp' hzero
        exact ⟨req', r, hreq', List.mem_append_left _ hr, hof⟩
      | inr hresp' =>
        obtain rfl := List.mem_singleton.mp hresp'
        have hreqId := hid.resolve_right fun hid => hzero hid.1
        exact ⟨req, resp, hreqId.symm, List.mem_append_right _ List.mem_cons_self, rfl⟩
    settled := fun p outcome hp => (h.settled p outcome hp).imp_left fun hans =>
      hans.mono (List.prefix_refl _) (List.subset_append_left _ _)
  }

/-- The response to a frame that the host cannot read has id 0, which no call has. -/
theorem unreadable (h : Inv stringify C s) {error : String} {resp : Resp}
    (hresp : HostComputes C (.error error) resp) :
    Inv stringify C { s with responses := s.responses ++ [.ofResp resp] } := by
  have hid : (Response.ofResp resp).id = 0 := by
    change resp.id.toNat = 0
    rw [hresp.id_eq]
    rfl
  have htraffic : ((s.requests).map Request.id ++
      (s.responses ++ [Response.ofResp resp]).map Response.id).Perm (0 :: s.traffic) := by
    simp only [System.traffic, List.map_append, List.map_cons, List.map_nil, hid]
    rw [← List.append_assoc]
    exact List.perm_append_singleton _ _
  exact {
    accounted := h.accounted
    nextId_eq := h.nextId_eq
    promises_eq := h.promises_eq
    call_id := h.call_id
    pending_id := h.pending_id
    inFlight := by
      intro hread id hpending
      change (s.requests.map Request.id ++ _).count id = 1
      rw [htraffic.count_eq, List.count_cons_of_ne (h.pending_lt hpending).1.ne,
        h.inFlight hread id hpending]
    received := h.received
    requests := h.requests
    computed := h.computed
    responses := by
      intro resp' hresp' hzero
      cases List.mem_append.mp hresp' with
      | inl hresp' =>
        exact h.responses resp' hresp' hzero
      | inr hresp' =>
        obtain rfl := List.mem_singleton.mp hresp'
        exact absurd hid hzero
    settled := h.settled
  }

/-- A response settles the promise of its own request, or none. -/
theorem deliver (h : Inv stringify C s) {pre post : List Response} {resp : Response}
    (hresp : s.responses = pre ++ resp :: post) :
    Inv stringify C
      { s with client := s.client.onMessage resp, responses := pre ++ post } := by
  have htraffic : s.traffic.Perm
      (resp.id :: (s.requests.map Request.id ++ (pre ++ post).map Response.id)) := by
    rw [System.traffic, hresp]
    simp only [List.map_append, List.map_cons]
    rw [← List.append_assoc, ← List.append_assoc]
    exact List.perm_middle
  have hsub : pre ++ post ⊆ s.responses := by
    rw [hresp]
    exact ((List.Sublist.refl pre).append (List.sublist_cons_self resp post)).subset
  exact {
    accounted := h.accounted.onMessage resp
    nextId_eq := by rw [HostClient.nextId_onMessage, h.nextId_eq]
    promises_eq := by rw [HostClient.promises_onMessage, h.promises_eq]
    call_id := h.call_id
    pending_id := fun id p hp =>
      h.pending_id id p ((HostClient.lookup_onMessage s.client resp id p).mp hp).2
    inFlight := by
      intro hread id hpending
      obtain ⟨hid, hold⟩ := (s.client.mem_pending_onMessage resp id).mp hpending
      have hcount := h.inFlight hread id hold
      rwa [htraffic.count_eq, List.count_cons_of_ne hid.symm] at hcount
    received := h.received
    requests := h.requests
    computed := h.computed
    responses := fun resp' hresp' => h.responses resp' (hsub hresp')
    settled := by
      intro p outcome hp
      rcases (HostClient.mem_settled_onMessage s.client resp p outcome).mp hp with
        hp | ⟨hlookup, rfl⟩
      · exact h.settled p outcome hp
      · -- the request of the response has the id of the call `p`
        have hid := h.pending_id resp.id p hlookup
        obtain ⟨req, r, hreq, hcomputed, rfl⟩ :=
          h.responses resp (by rw [hresp]; simp) (by omega)
        obtain ⟨k, hk⟩ := List.mem_iff_getElem?.mp (h.computed _ hcomputed).1
        obtain rfl : k = p := by
          have := h.call_id k req hk
          omega
        exact Or.inl ⟨req, r, hk, hcomputed, hreq.symm, rfl⟩
  }

theorem disconnect (h : Inv stringify C s) (lastError : Option String) :
    Inv stringify C { s with client := s.client.onDisconnect lastError } where
  accounted := h.accounted.onDisconnect lastError
  nextId_eq := h.nextId_eq
  promises_eq := h.promises_eq
  call_id := h.call_id
  pending_id id p hp := by cases hp
  inFlight _ id hid := by cases hid
  received := h.received
  requests := h.requests
  computed := h.computed
  responses := h.responses
  settled := by
    intro p outcome hp
    cases List.mem_append.mp hp with
    | inl hp =>
      exact h.settled p outcome hp
    | inr hp =>
      obtain ⟨e, -, he⟩ := List.mem_map.mp hp
      exact Or.inr ⟨_, (Prod.mk.inj he).2.symm⟩

/-- Calls are only added, and every step keeps the invariant while the calls are regular. -/
theorem step {t : System} {l : Label} (h : s.Regular stringify C → Inv stringify C s)
    (hstep : Step stringify C s l t) : t.Regular stringify C → Inv stringify C t := by
  intro hregular
  cases hstep with
  | call method params =>
    have hlength : (s.afterCall method params).calls.length = s.calls.length + 1 :=
      List.length_append
    have hcount := hregular.few
    rw [hlength] at hcount
    have hbefore : s.Regular stringify C :=
      ⟨by omega, fun req hreq => hregular.notMistaken req (List.mem_append_left _ hreq)⟩
    exact (h hbefore).afterCall method params hcount
  | handle hreq hresp =>
    have hbefore : s.Regular stringify C := ⟨hregular.few, hregular.notMistaken⟩
    exact (h hbefore).handle hregular.few hregular.notMistaken hreq hresp
  | unreadable hresp => exact (h ⟨hregular.few, hregular.notMistaken⟩).unreadable hresp
  | deliver hresp => exact (h ⟨hregular.few, hregular.notMistaken⟩).deliver hresp
  | disconnect lastError => exact (h ⟨hregular.few, hregular.notMistaken⟩).disconnect lastError

theorem run {ls : List Label} (hrun : Run (Step stringify C) .init ls s) :
    s.Regular stringify C → Inv stringify C s :=
  hrun.invariant (fun _ => init) fun _ _ _ h hstep => step h hstep

end Inv

/-- The promises of the calls are matched with the host's answers to the very requests of
these calls, as long as there are messages in flight for those that wait. -/
structure Matched (C : Crates) (s : System) : Prop where
  settledOnce : s.client.settledPromises.Nodup
  /-- The calls have different ids, and the host computes one response to a request. -/
  ids : (s.calls.map Request.id).Nodup ∧ (s.computed.map fun x => x.1.id).Nodup
  computed : ∀ x ∈ s.computed, ∃ r, x.1.toReq = some r ∧ HostComputes C (.ok r) x.2
  resolved : ∀ p result, (p, .resolved result) ∈ s.client.settled →
    ∃ req resp, s.calls[p]? = some req ∧ (req, resp) ∈ s.computed ∧
      resp.error = none ∧ result = resp.result
  rejected : ∀ p error, (p, .rejected error) ∈ s.client.settled →
    ∃ req resp e, s.calls[p]? = some req ∧ (req, resp) ∈ s.computed ∧
      resp.error = some e ∧ error = s!"{e.code}: {e.message}"
  pending : ∀ id ∈ s.client.pending, id < s.client.nextId ∧ s.traffic.count id = 1
  ignored : ∀ resp : Response, resp.id ∉ s.client.pending → s.client.onMessage resp = s.client
  /-- Neither the id 0 nor the id of a settled call is pending. -/
  notPending : 0 ∉ s.client.pending ∧
    ∀ p ∈ s.client.settledPromises, ∀ req, s.calls[p]? = some req → req.id ∉ s.client.pending

theorem Inv.matched {stringify : Request → Bytes} {C : Crates} {s : System}
    (h : Inv stringify C s) (hread : ∀ req ∈ s.calls, req.Understood stringify C) :
    Matched C s where
  settledOnce := h.accounted.settledOnce
  ids := by
    have hids : s.calls.map Request.id = List.range' 1 s.calls.length := by
      refine List.ext_getElem (by simp) fun k hk _ => ?_
      rw [List.length_map] at hk
      rw [List.getElem_map, h.call_id k _ (List.getElem?_eq_getElem hk), List.getElem_range']
      omega
    rw [hids]
    exact ⟨List.nodup_range', (List.nodup_append'.mp h.received).2.1⟩
  computed x hx := by
    obtain ⟨hcall, hcomputes⟩ := h.computed x hx
    obtain ⟨r, hr, hslice⟩ := hread _ hcall
    rw [hslice] at hcomputes
    exact ⟨r, hr, hcomputes⟩
  resolved p result hp := by
    rcases h.settled p _ hp with ⟨req, resp, hreq, hcomputed, -, hans⟩ | ⟨e, he⟩
    · unfold HostClient.answer at hans
      split at hans
      · cases hans
      · rename_i herror
        exact ⟨req, resp, hreq, hcomputed, herror, Outcome.resolved.inj hans⟩
    · cases he
  rejected p error hp := by
    rcases h.settled p _ hp with ⟨req, resp, hreq, hcomputed, -, hans⟩ | ⟨e, he⟩
    · unfold HostClient.answer at hans
      split at hans
      · rename_i e herror
        exact ⟨req, resp, e, hreq, hcomputed, herror, Outcome.rejected.inj hans⟩
      · cases hans
    · cases he
  pending id hid := ⟨(h.pending_lt hid).2, h.inFlight hread id hid⟩
  ignored resp hresp := HostClient.onMessage_of_not_pending hresp
  notPending := by
    refine ⟨fun hzero => lt_irrefl _ (h.pending_lt hzero).1, fun p hp req hreq hid => ?_⟩
    obtain ⟨p', hp'⟩ := (s.client.mem_pending_iff _).mp hid
    obtain rfl : p = p' := by
      have h1 := h.pending_id _ _ hp'
      have h2 := h.call_id p req hreq
      omega
    exact ((h.accounted.waiting_iff p).mp ⟨_, hp'⟩).2 hp

/-- In every run of fewer than 2^53 calls whose posted texts the host understands, whatever the
order of the messages, the card and the terminal. -/
theorem run_matched (stringify : Request → Bytes) (C : Crates) {s : System} {ls : List Label}
    (hrun : Run (Step stringify C) .init ls s) (hcalls : s.calls.length < 2 ^ 53)
    (hread : ∀ req ∈ s.calls, req.Understood stringify C) : Matched C s :=
  (Inv.run hrun (System.Readable.regular ⟨hcalls, hread⟩)).matched hread

def sampleSign : Request := ⟨1, "sign_secp256k1", some (.obj
  [(Utf16.encode "account_id", .str (Utf16.encode "openpgp:sig:secp256k1")),
    (Utf16.encode "prehash", .str (Utf16.encode
      "0x0707070707070707070707070707070707070707070707070707070707070707"))])⟩

/-- The second of two calls, which the host handles first. -/
def sampleInfo : Request := ⟨2, "get_info", none⟩

/-- The text of a string without quotes, backslashes and control characters. Half of a pair of
surrogates is written as an escape. -/
def stringText (text : List UInt16) : String :=
  "\"" ++ (Utf16.decode text).getD (String.join (text.map fun u : UInt16 =>
    "\\u" ++ Hex.encode [(u >>> 8).toUInt8, u.toUInt8])) ++ "\""

/-- An object of strings, which is what the methods of the client pass. -/
def membersText : List (List UInt16 × JsValue) → String
  | [] => ""
  | [(name, .str text)] => stringText name ++ ":" ++ stringText text
  | (name, .str text) :: rest =>
    stringText name ++ ":" ++ stringText text ++ "," ++ membersText rest
  | _ => ""

def sampleStringify (req : Request) : Bytes :=
  asBytes <| "\x7b\"id\":" ++ toString req.id ++ ",\"method\":\"" ++ req.method ++ "\"" ++
    (match req.params with
      | some (.obj members) => ",\"params\":\x7b" ++ membersText members ++ "\x7d"
      | _ => "") ++ "\x7d"

def sampleParamsText : String :=
  "\x7b\"account_id\":\"openpgp:sig:secp256k1\",\"prehash\":\"0x0707070707070707070707070707070707070707070707070707070707070707\"\x7d"

def sampleSignText : String :=
  "\x7b\"id\":1,\"method\":\"sign_secp256k1\",\"params\":\x7b\"account_id\":\"openpgp:sig:secp256k1\",\"prehash\":\"0x0707070707070707070707070707070707070707070707070707070707070707\"\x7d\x7d"

def sampleInfoText : String := "\x7b\"id\":2,\"method\":\"get_info\"\x7d"

/-- Half of a pair of surrogates as the id of an account. -/
def loneSurrogate : Request := ⟨1, "sign_ed25519", some (.obj
  [(Utf16.encode "account_id", .str [0xD800]), (Utf16.encode "message", .str (Utf16.encode "00"))])⟩

def loneSurrogateText : String :=
  "\x7b\"id\":1,\"method\":\"sign_ed25519\",\"params\":\x7b\"account_id\":\"\\ud800\",\"message\":\"00\"\x7d\x7d"

/-- The params with half of a pair of surrogates stand for nothing. -/
def sampleTexts : Host.Texts where
  messages := [
    (sampleSignText, [("\"id\"", "1"), ("\"method\"", "\"sign_secp256k1\""),
      ("\"params\"", sampleParamsText)]),
    (sampleInfoText, [("\"id\"", "2"), ("\"method\"", "\"get_info\"")]),
    (loneSurrogateText, [("\"id\"", "1"), ("\"method\"", "\"sign_ed25519\""),
      ("\"params\"", "\x7b\"account_id\":\"\\ud800\",\"message\":\"00\"\x7d")])]
  numbers := [("1", 1), ("2", 2)]
  strings := [("\"sign_secp256k1\"", "sign_secp256k1"), ("\"get_info\"", "get_info"),
    ("\"sign_ed25519\"", "sign_ed25519")]
  values := [(sampleParamsText, Host.sampleParams)]

def sampleCrates : Crates :=
  { Host.sampleCrates with
    serde := sampleTexts.serde (fun _ => "unexpected end of hex escape at line 1 column 63")
      Host.errorPrinter }

theorem stringText_encode (s : String) : stringText (Utf16.encode s) = "\"" ++ s ++ "\"" := by
  simp [stringText, Utf16.decode_encode]

theorem sampleSign_text : sampleStringify sampleSign = asBytes sampleSignText := by
  have hid : toString sampleSign.id = "1" := by decide
  rw [sampleStringify, hid]
  simp [sampleSign, membersText, stringText_encode, sampleSignText]

theorem sampleInfo_text : sampleStringify sampleInfo = asBytes sampleInfoText := by
  have hid : toString sampleInfo.id = "2" := by decide
  rw [sampleStringify, hid]
  simp [sampleInfo, sampleInfoText]

theorem loneSurrogate_text : sampleStringify loneSurrogate = asBytes loneSurrogateText := by
  have hid : toString loneSurrogate.id = "1" := by decide
  have hescape : stringText [0xD800] = "\"\\ud800\"" := by decide +kernel
  rw [sampleStringify, hid]
  simp [loneSurrogate, membersText, stringText_encode, hescape, loneSurrogateText]

theorem sampleSign_slice : sampleCrates.serde.fromSlice (sampleStringify sampleSign) =
    .ok ⟨1, "sign_secp256k1", Host.sampleParams⟩ := by
  rw [sampleSign_text, sampleCrates, @Host.Texts.fromSlice_params _ _ _ _ "1"
    "\"sign_secp256k1\"" 1 "sign_secp256k1" sampleParamsText] <;>
    simp [sampleTexts, Host.Texts.serde, Host.Texts.names]

theorem sampleInfo_slice : sampleCrates.serde.fromSlice (sampleStringify sampleInfo) =
    .ok ⟨2, "get_info", .null⟩ := by
  rw [sampleInfo_text, sampleCrates, @Host.Texts.fromSlice_method _ _ _ _ "2" "\"get_info\"" 2
    "get_info"] <;>
    simp [sampleTexts, sampleSignText, sampleInfoText, Host.Texts.serde, Host.Texts.names]

theorem loneSurrogate_slice : sampleCrates.serde.fromSlice (sampleStringify loneSurrogate) =
    .error "unexpected end of hex escape at line 1 column 63" := by
  rw [loneSurrogate_text, sampleCrates, @Host.Texts.fromSlice_params _ _ _ _ "1"
    "\"sign_ed25519\"" 1 "sign_ed25519"
    "\x7b\"account_id\":\"\\ud800\",\"message\":\"00\"\x7d"] <;>
    simp [sampleTexts, sampleSignText, sampleInfoText, loneSurrogateText, sampleParamsText,
      Host.Texts.serde, Host.Texts.names]

theorem sampleSign_toReq : sampleSign.toReq = some ⟨1, "sign_secp256k1", Host.sampleParams⟩ := by
  simp [Request.toReq, sampleSign, JsValue.toValue, JsValue.toMembers, Utf16.decode_encode,
    Host.sampleParams]

theorem run_matched_sample : ∃ s ls, Run (Step sampleStringify sampleCrates) .init ls s ∧
    s.client.settledPromises = [1, 0] ∧ Matched sampleCrates s := by
  let answer : Resp := response 1 (.ok Host.sampleAnswer)
  let info : Resp := response 2 (.ok Host.info)
  have hanswer : HostComputes sampleCrates
      (sampleCrates.serde.fromSlice (sampleStringify sampleSign)) answer :=
    ⟨Host.sampleEnv, [], by rw [sampleSign_slice]; rfl⟩
  have hinfo : HostComputes sampleCrates
      (sampleCrates.serde.fromSlice (sampleStringify sampleInfo)) info :=
    ⟨Host.sampleEnv, [], by rw [sampleInfo_slice]; rfl⟩
  have hstart : Run (Step sampleStringify sampleCrates) System.init [] System.init := Run.nil _
  have hsign := hstart.snoc (Step.call _ "sign_secp256k1" sampleSign.params)
  have hcalls := hsign.snoc (Step.call _ "get_info" none)
  have hhandled :=
    (hcalls.snoc (@Step.handle _ _ _ [sampleSign] [] sampleInfo info rfl hinfo)).snoc
      (@Step.handle _ _ _ [] [] sampleSign answer rfl hanswer)
  have hrun := (hhandled.snoc (@Step.deliver _ _ _ [] [.ofResp answer] (.ofResp info) rfl)).snoc
    (@Step.deliver _ _ _ [] [] (.ofResp answer) rfl)
  refine ⟨_, _, hrun, rfl, run_matched sampleStringify sampleCrates hrun (by decide) ?_⟩
  intro req hreq
  change req ∈ [sampleSign, sampleInfo] at hreq
  simp only [List.mem_cons, List.not_mem_nil, or_false] at hreq
  rcases hreq with rfl | rfl
  · exact ⟨_, sampleSign_toReq, sampleSign_slice⟩
  · exact ⟨_, rfl, sampleInfo_slice⟩

/-- The state after `n` calls to which nobody answers. -/
def unanswered : Nat → System
  | 0 => .init
  | n + 1 => (unanswered n).afterCall "get_info" none

theorem unanswered_run (stringify : Request → Bytes) (C : Crates) (n : Nat) :
    ∃ ls, Run (Step stringify C) .init ls (unanswered n) := by
  induction n with
  | zero => exact ⟨[], Run.nil _⟩
  | succ n ih =>
    obtain ⟨ls, hrun⟩ := ih
    exact ⟨_, hrun.snoc (Step.call _ "get_info" none)⟩

theorem unanswered_nextId (n : Nat) :
    (unanswered n).client.nextId = if n < 2 ^ 53 then n + 1 else 2 ^ 53 := by
  induction n with
  | zero => rfl
  | succ n ih =>
    change increment (unanswered n).client.nextId = _
    rw [ih, increment]
    split_ifs <;> omega

theorem not_matched_unanswered (C : Crates) {n : Nat} (hn : 2 ^ 53 ≤ n) :
    ¬ Matched C (unanswered n) := by
  intro hmatched
  obtain ⟨m, rfl⟩ : ∃ m, n = m + 1 := ⟨n - 1, by omega⟩
  have hlast : (unanswered m).client.nextId ∈ (unanswered (m + 1)).client.pending :=
    (AList.mem_insert _).mpr (Or.inl rfl)
  have hlt := (hmatched.pending _ hlast).1
  rw [unanswered_nextId, unanswered_nextId] at hlt
  split_ifs at hlt <;> omega

/-- After one call whose request the host could not read, nothing is in flight for it. -/
def misread : System :=
  let s := System.init.afterCall "sign_ed25519" loneSurrogate.params
  let resp := response 0 (.error ("BAD_REQUEST", "unexpected end of hex escape at line 1 column 63"))
  { s with
    client := s.client.onMessage (.ofResp resp)
    requests := []
    computed := [(loneSurrogate, resp)] }

theorem misread_run : ∃ ls, Run (Step sampleStringify sampleCrates) .init ls misread := by
  let resp := response 0 (.error ("BAD_REQUEST", "unexpected end of hex escape at line 1 column 63"))
  have hresp : HostComputes sampleCrates
      (sampleCrates.serde.fromSlice (sampleStringify loneSurrogate)) resp :=
    ⟨Host.sampleEnv, [], by rw [loneSurrogate_slice]; rfl⟩
  have hstart : Run (Step sampleStringify sampleCrates) System.init [] System.init := Run.nil _
  have hcall := hstart.snoc (Step.call _ "sign_ed25519" loneSurrogate.params)
  have hhandled := hcall.snoc (@Step.handle _ _ _ [] [] loneSurrogate resp rfl hresp)
  exact ⟨_, hhandled.snoc (@Step.deliver _ _ _ [] [] (.ofResp resp) rfl)⟩

theorem not_matched_misread :
    ((∃ ls, Run (Step sampleStringify sampleCrates) .init ls misread) ∧
      ¬ Matched sampleCrates misread) ∧
    (∃ ls, Run (Step sampleStringify sampleCrates) .init ls (unanswered (2 ^ 53))) ∧
      ¬ Matched sampleCrates (unanswered (2 ^ 53)) := by
  refine ⟨⟨misread_run, fun hmatched => ?_⟩, unanswered_run _ _ _,
    not_matched_unanswered _ le_rfl⟩
  have hpending : 1 ∈ misread.client.pending := (AList.mem_insert _).mpr (Or.inl rfl)
  exact absurd (hmatched.pending 1 hpending).2 (by decide)

end YubiWallet.Client
