import YubiWallet.Client.Matching
import YubiWallet.Host.Loop

/-! The id of the response to a message that carries an id but may be no request. -/
namespace YubiWallet.Client
open Interaction
open Host (Crates Req SerdeJson Texts respond handle)
open HostClient (answer)

/-- Whatever the outside world answers, the bytes that the host writes are a response with
the id, and a client's call that waits under the id is settled by it. -/
def EchoesId (C : Crates) (msg : Bytes) (id : UInt64) : Prop :=
  ∀ (env : Env) (h : Trace),
    let resp := (Prog.run env (respond C (C.serde.fromSlice msg)) h).1
    (Prog.run env (handle C msg) h).1 = C.serde.toVec resp ∧ resp.id = id ∧
    ∀ (c : HostClient) (p : Nat), c.pending.lookup id.toNat = some p →
      (p, answer (.ofResp resp)) ∈ (c.onMessage (.ofResp resp)).settled ∧
      id.toNat ∉ (c.onMessage (.ofResp resp)).pending

/-- The members besides the id are those of a request: the names can be read, the one method is
a string, and params, which stand there at most once, are a value. -/
structure HasFields (S : SerdeJson) (members : List (Bytes × Bytes)) : Prop where
  names : S.NamesRead members
  method : ∃ text m, S.fields "method" members = [text] ∧ S.readString text = some m
  params : S.fields "params" members = [] ∨
    ∃ text v, S.fields "params" members = [text] ∧ S.readValue text = some v

/-- A response with the id settles the call that waits under it. -/
theorem settles_of_id {resp : Host.Resp} {id : UInt64} (hid : resp.id = id) {c : HostClient}
    {p : Nat} (hp : c.pending.lookup id.toNat = some p) :
    (p, answer (.ofResp resp)) ∈ (c.onMessage (.ofResp resp)).settled ∧
      id.toNat ∉ (c.onMessage (.ofResp resp)).pending := by
  have hresp : (Response.ofResp resp).id = id.toNat := congrArg UInt64.toNat hid
  constructor
  · rw [HostClient.mem_settled_onMessage, hresp]
    exact Or.inr ⟨hp, rfl⟩
  · rw [HostClient.mem_pending_onMessage, hresp]
    intro h
    exact h.1 rfl

theorem echoesId_iff (C : Crates) (msg : Bytes) (id : UInt64) :
    EchoesId C msg id ↔ ∀ (env : Env) (h : Trace),
      (Prog.run env (respond C (C.serde.fromSlice msg)) h).1.id = id := by
  constructor
  · intro hecho env h
    exact (hecho env h).2.1
  · intro hid env h
    refine ⟨?_, hid env h, fun c p hp => settles_of_id (hid env h) hp⟩
    unfold handle
    rw [Prog.run_map]

section
variable {S : SerdeJson} {members : List (Bytes × Bytes)} {text : Bytes} {id : UInt64}

theorem build_eq_some_iff (hread : S.readU64 text = some id) (method : Bytes)
    (params : List Bytes) (req : Req) :
    S.build text method params = some req ↔
      req.id = id ∧ S.readString method = some req.method ∧
        (params = [] ∧ req.params = .null ∨
          ∃ p, params = [p] ∧ S.readValue p = some req.params) := by
  simp only [SerdeJson.build, hread, Option.bind_eq_bind, Option.bind_some,
    Option.bind_eq_some_iff]
  constructor
  · intro h
    obtain ⟨m, hm, hreq⟩ := h
    split at hreq
    · obtain rfl := Option.some.inj hreq
      exact ⟨rfl, hm, Or.inl ⟨rfl, rfl⟩⟩
    · obtain ⟨v, hv, hreq⟩ := Option.bind_eq_some_iff.mp hreq
      obtain rfl := Option.some.inj hreq
      exact ⟨rfl, hm, Or.inr ⟨_, rfl, hv⟩⟩
    · cases hreq
  · intro h
    obtain ⟨hid, hm, hparams⟩ := h
    refine ⟨req.method, hm, ?_⟩
    obtain ⟨reqId, method', params'⟩ := req
    simp only at hid hparams
    subst hid
    rcases hparams with ⟨rfl, rfl⟩ | ⟨p, rfl, hv⟩
    · rfl
    · simp only [hv, Option.bind_some]
      rfl

/-- An object with the id is read as a request with that id, or not at all. -/
theorem deserialize_id (hid : S.fields "id" members = [text]) (hread : S.readU64 text = some id)
    {req : Req} (h : S.deserialize (.obj members) = some req) : req.id = id := by
  simp only [SerdeJson.deserialize, hid] at h
  split at h
  · split at h
    · rename_i t m ht hm
      obtain rfl : text = t := by simpa using ht
      exact ((build_eq_some_iff hread _ _ _).mp h).1
    · cases h
  · cases h

theorem deserialize_isSome_iff (hid : S.fields "id" members = [text])
    (hread : S.readU64 text = some id) :
    (∃ req, S.deserialize (.obj members) = some req) ↔ HasFields S members := by
  constructor
  · rintro ⟨req, hreq⟩
    simp only [SerdeJson.deserialize, hid] at hreq
    split at hreq
    · rename_i hnames
      split at hreq
      · rename_i t method ht hmethod
        obtain rfl : text = t := by simpa using ht
        obtain ⟨-, hm, hparams⟩ := (build_eq_some_iff hread _ _ _).mp hreq
        refine ⟨hnames, ⟨method, req.method, hmethod, hm⟩, ?_⟩
        rcases hparams with hnone | ⟨p, hp, hv⟩
        · exact Or.inl hnone.1
        · exact Or.inr ⟨p, req.params, hp, hv⟩
      · cases hreq
    · cases hreq
  · rintro ⟨hnames, ⟨method, m, hmethod, hm⟩, hparams⟩
    rw [SerdeJson.deserialize_obj hnames hid hmethod]
    rcases hparams with hnone | ⟨p, v, hp, hv⟩
    · exact ⟨⟨id, m, .null⟩, (build_eq_some_iff hread _ _ _).mpr ⟨rfl, hm, Or.inl ⟨hnone, rfl⟩⟩⟩
    · exact ⟨⟨id, m, v⟩, (build_eq_some_iff hread _ _ _).mpr ⟨rfl, hm, Or.inr ⟨p, hp, hv⟩⟩⟩

end

/-- The id comes back for requests; what is no request is answered with the id 0. -/
theorem respond_echoesId_iff (C : Crates) (msg : Bytes) (members : List (Bytes × Bytes))
    (text : Bytes) (id : UInt64) (hmsg : C.serde.outline msg = some (.obj members))
    (hid : C.serde.fields "id" members = [text]) (hread : C.serde.readU64 text = some id) :
    EchoesId C msg id ↔ id = 0 ∨ HasFields C.serde members := by
  rw [echoesId_iff, ← deserialize_isSome_iff hid hread]
  cases hreq : C.serde.deserialize (.obj members) with
  | some req =>
    have hslice := SerdeJson.fromSlice_of_some hmsg hreq
    refine iff_of_true ?_ (Or.inr ⟨req, rfl⟩)
    intro env h
    have hecho : HostComputes C (.ok req) (Prog.run env (respond C (.ok req)) h).1 := ⟨env, h, rfl⟩
    rw [hslice, hecho.id_eq]
    exact deserialize_id hid hread hreq
  | none =>
    have hslice := SerdeJson.fromSlice_of_none hmsg hreq
    simp only [hslice, reduceCtorEq, exists_false, or_false]
    constructor
    · intro hecho
      exact (hecho Host.sampleEnv []).symm
    · intro hzero env h
      rw [hzero]
      rfl

/-- The number of the unknown member is too large for a value. -/
def hugeMember : String := "\x7b\"id\":7,\"method\":\"ping\",\"x\":1e999\x7d"
def hugeParams : String := "\x7b\"id\":7,\"method\":\"ping\",\"params\":1e999\x7d"
def idOnly : String := "\x7b\"id\":7\x7d"

def idTexts : Texts where
  messages := [
    (hugeMember, [("\"id\"", "7"), ("\"method\"", "\"ping\""), ("\"x\"", "1e999")]),
    (hugeParams, [("\"id\"", "7"), ("\"method\"", "\"ping\""), ("\"params\"", "1e999")]),
    (idOnly, [("\"id\"", "7")])]
  numbers := [("7", 7)]
  strings := [("\"ping\"", "ping"), ("\"x\"", "x")]
  values := []

def idError (msg : Bytes) : String :=
  if msg = asBytes idOnly then "missing field `method` at line 1 column 8"
  else "number out of range at line 1 column 38"

def idCrates : Crates :=
  { Host.sampleCrates with serde := idTexts.serde idError Host.errorPrinter }

theorem respond_echoesId_sample : EchoesId idCrates (asBytes hugeMember) 7 := by
  refine (respond_echoesId_iff idCrates (asBytes hugeMember)
    (Texts.parts [("\"id\"", "7"), ("\"method\"", "\"ping\""), ("\"x\"", "1e999")])
    (asBytes "7") 7 ?_ ?_ ?_).mpr (Or.inr ⟨?_, ⟨asBytes "\"ping\"", "ping", ?_⟩, Or.inl ?_⟩) <;>
    simp [idCrates, idTexts, Texts.serde, Texts.names, Texts.parts, SerdeJson.fields,
      SerdeJson.NamesRead]

theorem idOnly_fields : ¬ HasFields idCrates.serde (Texts.parts [("\"id\"", "7")]) := by
  rintro ⟨-, ⟨text, m, hmethod, -⟩, -⟩
  simp [idCrates, idTexts, Texts.serde, Texts.names, Texts.parts, SerdeJson.fields] at hmethod

theorem hugeParams_fields : ¬ HasFields idCrates.serde (Texts.parts
    [("\"id\"", "7"), ("\"method\"", "\"ping\""), ("\"params\"", "1e999")]) := by
  have hfields : idCrates.serde.fields "params" (Texts.parts
      [("\"id\"", "7"), ("\"method\"", "\"ping\""), ("\"params\"", "1e999")]) =
        [asBytes "1e999"] := by
    simp [idCrates, idTexts, Texts.serde, Texts.names, Texts.parts, SerdeJson.fields]
  rintro ⟨-, -, hnone | ⟨text, v, -, hv⟩⟩
  · rw [hfields] at hnone
    cases hnone
  · cases hv

/-- Without a method, or with params that cannot be read, the response has the id 0. -/
theorem respond_idOnly :
    ¬ EchoesId idCrates (asBytes idOnly) 7 ∧ ¬ EchoesId idCrates (asBytes hugeParams) 7 := by
  constructor
  · rw [respond_echoesId_iff idCrates (asBytes idOnly) (Texts.parts [("\"id\"", "7")])
      (asBytes "7") 7]
    · exact not_or.mpr ⟨by decide, idOnly_fields⟩
    all_goals
      simp [idCrates, idTexts, hugeMember, hugeParams, idOnly, Texts.serde, Texts.names,
        Texts.parts, SerdeJson.fields]
  · rw [respond_echoesId_iff idCrates (asBytes hugeParams) (Texts.parts
      [("\"id\"", "7"), ("\"method\"", "\"ping\""), ("\"params\"", "1e999")]) (asBytes "7") 7]
    · exact not_or.mpr ⟨by decide, hugeParams_fields⟩
    all_goals
      simp [idCrates, idTexts, hugeMember, hugeParams, Texts.serde, Texts.names, Texts.parts,
        SerdeJson.fields]

end YubiWallet.Client
