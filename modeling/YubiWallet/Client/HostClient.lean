import YubiWallet.Host.Json
import YubiWallet.Lib.Utf16
import Mathlib.Data.List.AList

/-! The client of the host in an extension: `HostClient`. -/
namespace YubiWallet.Client
open Host (Value ErrObj Number Req)

/-- A value of JavaScript that can be posted. A string is made of code units, and half of a
pair of surrogates may stand alone in it. A number stands for what is read in its text. -/
inductive JsValue where
  | null
  | bool (b : Bool)
  | num (n : Number)
  | str (text : List UInt16)
  | arr (items : List JsValue)
  | obj (members : List (List UInt16 × JsValue))

mutual

/-- The value for a program whose strings are made of characters. -/
def JsValue.toValue : JsValue → Option Value
  | .null => some .null
  | .bool b => some (.bool b)
  | .num n => some (.num n)
  | .str text => (Utf16.decode text).map .str
  | .arr items => (JsValue.toValues items).map .arr
  | .obj members => (JsValue.toMembers members).map .obj

def JsValue.toValues : List JsValue → Option (List Value)
  | [] => some []
  | v :: vs => do return (← v.toValue) :: (← JsValue.toValues vs)

def JsValue.toMembers : List (List UInt16 × JsValue) → Option (List (String × Value))
  | [] => some []
  | (name, v) :: rest => do
    return (← Utf16.decode name, ← v.toValue) :: (← JsValue.toMembers rest)

end

/-- Adding one to a JavaScript number. From 2^53 on, the sum is rounded back. -/
def increment (n : Nat) : Nat := if n < 2 ^ 53 then n + 1 else n

/-- Params that are `undefined` are not sent. -/
structure Request where
  id : Nat
  method : String
  params : Option JsValue

/-- What the host should read. The default of `params` is null. -/
def Request.toReq (req : Request) : Option Req :=
  (req.params.elim (some .null) JsValue.toValue).map fun params =>
    ⟨UInt64.ofNat req.id, req.method, params⟩

structure Response where
  id : Nat
  result : Option Value
  error : Option ErrObj

/-- How a promise is settled: by a response, or rejected at the end of the connection or
with what `postMessage` throws. -/
inductive Outcome where
  | resolved (result : Option Value)
  | rejected (error : String)
  | disconnected (error : String)
  | threw (error : String)

/-- Promises are numbered in the order of the calls. `settled` records every call of
`resolve` and `reject`. -/
structure HostClient where
  nextId : Nat
  pending : AList fun _ : Nat => Nat
  promises : Nat
  settled : List (Nat × Outcome)

namespace HostClient

def new : HostClient := ⟨1, ∅, 0, []⟩

/-- What a response makes of its promise. -/
def answer (resp : Response) : Outcome :=
  match resp.error with
  | some e => .rejected s!"{e.code}: {e.message}"
  | none => .resolved resp.result

def onMessage (c : HostClient) (resp : Response) : HostClient :=
  match c.pending.lookup resp.id with
  | none => c
  | some p =>
    { c with
      pending := c.pending.erase resp.id
      settled := c.settled ++ [(p, answer resp)] }

/-- `lastError` is the message of `chrome.runtime.lastError`. The newest entry of `pending`
stands first. -/
def onDisconnect (c : HostClient) (lastError : Option String) : HostClient :=
  let err := lastError.getD "native host disconnected"
  { c with
    pending := ∅
    settled := c.settled ++ c.pending.entries.reverse.map fun e => (e.2, .disconnected err) }

/-- `call`, where `thrown` is what `postMessage` throws, if it does. The entry of the
request stays in `pending` either way. -/
def call (c : HostClient) (method : String) (params : Option JsValue) (thrown : Option String) :
    HostClient × Request :=
  let id := c.nextId
  ({ nextId := increment id
     pending := c.pending.insert id c.promises
     promises := c.promises + 1
     settled := c.settled ++ thrown.toList.map fun e => (c.promises, .threw e) },
    ⟨id, method, params⟩)

/-- The promises that were settled, in order. -/
def settledPromises (c : HostClient) : List Nat := c.settled.map Prod.fst

/-- The promise is one of those that `pending` holds. -/
def Waiting (c : HostClient) (p : Nat) : Prop := ∃ id, c.pending.lookup id = some p

/-- `pending` holds each promise that is not settled, under one id, and no other. No
promise is settled twice. -/
structure Accounted (c : HostClient) : Prop where
  waiting_iff : ∀ p, c.Waiting p ↔ p < c.promises ∧ p ∉ c.settledPromises
  oneId : ∀ id id' p, c.pending.lookup id = some p → c.pending.lookup id' = some p → id = id'
  settled_lt : ∀ p ∈ c.settledPromises, p < c.promises
  settledOnce : c.settledPromises.Nodup

theorem accounted_new : new.Accounted where
  waiting_iff p := by simp [Waiting, new]
  oneId id id' p h := by simp [new] at h
  settled_lt p h := by simp [settledPromises, new] at h
  settledOnce := List.nodup_nil

theorem mem_pending_iff (c : HostClient) (id : Nat) :
    id ∈ c.pending ↔ ∃ p, c.pending.lookup id = some p := by
  rw [← AList.lookup_isSome, Option.isSome_iff_exists]

/-- A response whose id is not pending changes nothing. -/
theorem onMessage_of_not_pending {c : HostClient} {resp : Response} (h : resp.id ∉ c.pending) :
    c.onMessage resp = c := by
  rw [onMessage, AList.lookup_eq_none.mpr h]

theorem onMessage_of_lookup {c : HostClient} {resp : Response} {p : Nat}
    (h : c.pending.lookup resp.id = some p) :
    c.onMessage resp =
      { c with
        pending := c.pending.erase resp.id
        settled := c.settled ++ [(p, answer resp)] } := by
  rw [onMessage, h]

@[simp] theorem nextId_onMessage (c : HostClient) (resp : Response) :
    (c.onMessage resp).nextId = c.nextId := by
  unfold onMessage
  split <;> rfl

@[simp] theorem promises_onMessage (c : HostClient) (resp : Response) :
    (c.onMessage resp).promises = c.promises := by
  unfold onMessage
  split <;> rfl

/-- After a message nothing waits under its id, and everything else waits as before. -/
theorem lookup_onMessage (c : HostClient) (resp : Response) (id p : Nat) :
    (c.onMessage resp).pending.lookup id = some p ↔
      id ≠ resp.id ∧ c.pending.lookup id = some p := by
  cases hp : c.pending.lookup resp.id with
  | none =>
    rw [onMessage_of_not_pending (AList.lookup_eq_none.mp hp)]
    refine ⟨fun h => ⟨?_, h⟩, And.right⟩
    rintro rfl
    rw [hp] at h
    cases h
  | some q =>
    rw [onMessage_of_lookup hp]
    by_cases hid : id = resp.id
    · subst hid
      simp [AList.lookup_erase]
    · change (c.pending.erase resp.id).lookup id = some p ↔ _
      rw [AList.lookup_erase_ne hid]
      simp [hid]

theorem mem_pending_onMessage (c : HostClient) (resp : Response) (id : Nat) :
    id ∈ (c.onMessage resp).pending ↔ id ≠ resp.id ∧ id ∈ c.pending := by
  simp only [mem_pending_iff, lookup_onMessage, exists_and_left]

theorem mem_settled_onMessage (c : HostClient) (resp : Response) (p : Nat) (outcome : Outcome) :
    (p, outcome) ∈ (c.onMessage resp).settled ↔
      (p, outcome) ∈ c.settled ∨
        c.pending.lookup resp.id = some p ∧ outcome = answer resp := by
  cases hp : c.pending.lookup resp.id with
  | none => simp [onMessage_of_not_pending (AList.lookup_eq_none.mp hp)]
  | some q => simp [onMessage_of_lookup hp, eq_comm]

theorem waiting_onDisconnect (c : HostClient) (lastError : Option String) (p : Nat) :
    ¬ (c.onDisconnect lastError).Waiting p := by
  simp [Waiting, onDisconnect]

/-- The promises that `onDisconnect` rejects are those that were waiting. -/
theorem settledPromises_onDisconnect (c : HostClient) (lastError : Option String) :
    (c.onDisconnect lastError).settledPromises =
      c.settledPromises ++ c.pending.entries.reverse.map Sigma.snd := by
  simp [settledPromises, onDisconnect, Function.comp_def]

theorem waiting_iff_mem_entries (c : HostClient) (p : Nat) :
    c.Waiting p ↔ p ∈ c.pending.entries.reverse.map Sigma.snd := by
  simp only [Waiting, List.mem_map, List.mem_reverse]
  constructor
  · rintro ⟨id, hid⟩
    exact ⟨⟨id, p⟩, AList.mem_lookup_iff.mp hid, rfl⟩
  · rintro ⟨⟨id, p'⟩, hmem, rfl⟩
    exact ⟨id, AList.mem_lookup_iff.mpr hmem⟩

namespace Accounted
variable {c : HostClient}

/-- A message settles at most the one promise that waits under its id. -/
theorem onMessage (h : c.Accounted) (resp : Response) : (c.onMessage resp).Accounted := by
  cases hp : c.pending.lookup resp.id with
  | none => rwa [onMessage_of_not_pending (AList.lookup_eq_none.mp hp)]
  | some p =>
    have hsettled : (c.onMessage resp).settledPromises = c.settledPromises ++ [p] := by
      simp [settledPromises, onMessage_of_lookup hp]
    obtain ⟨hlt, hnew⟩ := (h.waiting_iff p).mp ⟨resp.id, hp⟩
    refine ⟨fun q => ?_, fun id id' q hid hid' => ?_, fun q hq => ?_, ?_⟩
    · rw [hsettled, promises_onMessage, List.mem_append, List.mem_singleton, not_or]
      simp only [Waiting, lookup_onMessage]
      constructor
      · rintro ⟨id, hid, hq⟩
        obtain ⟨hqlt, hqnew⟩ := (h.waiting_iff q).mp ⟨id, hq⟩
        refine ⟨hqlt, hqnew, ?_⟩
        rintro rfl
        exact hid (h.oneId _ _ _ hq hp)
      · rintro ⟨hqlt, hqnew, hqp⟩
        obtain ⟨id, hq⟩ := (h.waiting_iff q).mpr ⟨hqlt, hqnew⟩
        refine ⟨id, ?_, hq⟩
        rintro rfl
        rw [hp] at hq
        exact hqp (Option.some.inj hq).symm
    · rw [lookup_onMessage] at hid hid'
      exact h.oneId _ _ _ hid.2 hid'.2
    · rw [hsettled] at hq
      rw [promises_onMessage]
      cases List.mem_append.mp hq with
      | inl hq =>
        exact h.settled_lt q hq
      | inr hq =>
        obtain rfl := List.mem_singleton.mp hq
        exact hlt
    · rw [hsettled, List.nodup_append_comm]
      exact List.nodup_cons.mpr ⟨hnew, h.settledOnce⟩

/-- No promise waits under two ids. -/
theorem entries_nodup (h : c.Accounted) : (c.pending.entries.map Sigma.snd).Nodup := by
  refine List.Nodup.map_on ?_ c.pending.nodupKeys.nodup
  rintro ⟨id, p⟩ hmem ⟨id', p'⟩ hmem' (rfl : p = p')
  obtain rfl := h.oneId id id' p (AList.mem_lookup_iff.mpr hmem) (AList.mem_lookup_iff.mpr hmem')
  rfl

/-- The end of the connection settles every promise that waits. -/
theorem onDisconnect (h : c.Accounted) (lastError : Option String) :
    (c.onDisconnect lastError).Accounted where
  waiting_iff p := by
    rw [settledPromises_onDisconnect, List.mem_append, ← waiting_iff_mem_entries, h.waiting_iff]
    refine iff_of_false (waiting_onDisconnect c lastError p) ?_
    rintro ⟨hlt, hnew⟩
    exact hnew (Or.inr ⟨hlt, fun hp => hnew (Or.inl hp)⟩)
  oneId id id' p hp := absurd ⟨id, hp⟩ (waiting_onDisconnect c lastError p)
  settled_lt p hp := by
    rw [settledPromises_onDisconnect, List.mem_append, ← waiting_iff_mem_entries] at hp
    cases hp with
    | inl hp =>
      exact h.settled_lt p hp
    | inr hp =>
      exact ((h.waiting_iff p).mp hp).1
  settledOnce := by
    rw [settledPromises_onDisconnect, List.map_reverse]
    refine List.nodup_append'.mpr ⟨h.settledOnce, List.nodup_reverse.mpr h.entries_nodup, ?_⟩
    intro p hp hwait
    rw [← List.map_reverse, ← waiting_iff_mem_entries, h.waiting_iff] at hwait
    exact hwait.2 hp

/-- A call whose id is not pending, and whose request is posted, waits. -/
theorem call (h : c.Accounted) (hfresh : c.nextId ∉ c.pending) (method : String)
    (params : Option JsValue) : (c.call method params none).1.Accounted := by
  have hlookup : ∀ id p, (c.pending.insert c.nextId c.promises).lookup id = some p ↔
      id = c.nextId ∧ p = c.promises ∨ c.pending.lookup id = some p := by
    intro id p
    by_cases hid : id = c.nextId
    · subst hid
      rw [AList.lookup_insert, AList.lookup_eq_none.mpr hfresh]
      simp [eq_comm]
    · rw [AList.lookup_insert_ne hid]
      simp [hid]
  have hsettled : (c.call method params none).1.settledPromises = c.settledPromises := by
    simp [settledPromises, HostClient.call]
  -- a promise that waits already is older than the new one
  have hold : ∀ id p, c.pending.lookup id = some p → p < c.promises :=
    fun id p hp => ((h.waiting_iff p).mp ⟨id, hp⟩).1
  refine ⟨fun p => ?_, fun id id' p hid hid' => ?_, fun p hp => ?_, ?_⟩
  · rw [hsettled]
    change (∃ id, (c.pending.insert c.nextId c.promises).lookup id = some p) ↔
      p < c.promises + 1 ∧ _
    simp only [hlookup, exists_or, exists_eq_left]
    change p = c.promises ∨ c.Waiting p ↔ _
    rw [h.waiting_iff]
    constructor
    · rintro (rfl | ⟨hlt, hnew⟩)
      · exact ⟨by omega, fun hp => absurd (h.settled_lt _ hp) (by omega)⟩
      · exact ⟨by omega, hnew⟩
    · rintro ⟨hlt, hnew⟩
      by_cases hp : p = c.promises
      · exact Or.inl hp
      · exact Or.inr ⟨by omega, hnew⟩
  · rcases (hlookup id p).mp hid with ⟨rfl, rfl⟩ | hid <;>
      rcases (hlookup id' _).mp hid' with ⟨rfl, hp⟩ | hid'
    · rfl
    · exact absurd (hold _ _ hid') (by omega)
    · subst hp
      exact absurd (hold _ _ hid) (by omega)
    · exact h.oneId _ _ _ hid hid'
  · rw [hsettled] at hp
    have hlt := h.settled_lt p hp
    change p < c.promises + 1
    omega
  · rw [hsettled]
    exact h.settledOnce

end Accounted
end HostClient
end YubiWallet.Client
