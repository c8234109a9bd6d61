import YubiWallet.Client.HostClient
import YubiWallet.Lib.Transition

/-! The client and its end of the port: which promises are left when the port is closed,
from either side. -/
namespace YubiWallet.Client
open Transition

/-- A client with the state of its port. -/
structure Endpoint where
  client : HostClient
  portOpen : Bool

namespace Endpoint

def init : Endpoint := ⟨.new, true⟩

inductive Label where
  | call (method : String) (params : Option JsValue) (thrown : Option String)
  | message (resp : Response)
  | remoteDisconnect (lastError : Option String)
  | disconnect

/-- `postMessage` throws exactly when the port is closed. `onDisconnect` fires for the other
side alone: the client's own `disconnect` closes the port and does nothing else. -/
inductive Step : Endpoint → Label → Endpoint → Prop
  | call {s : Endpoint} (method : String) (params : Option JsValue) {thrown : Option String}
      (hthrown : thrown.isNone = s.portOpen) :
      Step s (.call method params thrown)
        { s with client := (s.client.call method params thrown).1 }
  | message (s : Endpoint) (resp : Response) :
      Step s (.message resp) { s with client := s.client.onMessage resp }
  | remoteDisconnect {s : Endpoint} (hopen : s.portOpen = true) (lastError : Option String) :
      Step s (.remoteDisconnect lastError) ⟨s.client.onDisconnect lastError, false⟩
  | disconnect (s : Endpoint) : Step s .disconnect { s with portOpen := false }

/-- `pending` holds exactly the promises that are not settled, and none once the port is
closed. -/
structure NothingHangs (s : Endpoint) : Prop where
  pending : ∀ p, s.client.Waiting p ↔ p < s.client.promises ∧ p ∉ s.client.settledPromises
  closed : s.portOpen = false →
    s.client.pending = ∅ ∧ ∀ p < s.client.promises, p ∈ s.client.settledPromises

/-- The steps that leave nothing hanging: a call on an open port and with an id that is not
in use, and a local disconnect while nothing waits. -/
def Harmless (s : Endpoint) : Label → Prop
  | .call _ _ _ => s.portOpen = true ∧ s.client.nextId ∉ s.client.pending
  | .disconnect => s.client.pending = ∅
  | .message _ | .remoteDisconnect _ => True

def HarmlessStep (s : Endpoint) (l : Label) (t : Endpoint) : Prop := Step s l t ∧ Harmless s l

structure Inv (s : Endpoint) : Prop where
  accounted : s.client.Accounted
  closed : s.portOpen = false → s.client.pending = ∅

theorem not_waiting_of_empty {c : HostClient} (h : c.pending = ∅) (p : Nat) : ¬ c.Waiting p := by
  rintro ⟨id, hid⟩
  rw [h] at hid
  cases hid

theorem Inv.nothingHangs {s : Endpoint} (h : Inv s) : NothingHangs s where
  pending := h.accounted.waiting_iff
  closed hclosed := by
    refine ⟨h.closed hclosed, fun p hp => ?_⟩
    by_contra hnew
    exact not_waiting_of_empty (h.closed hclosed) p ((h.accounted.waiting_iff p).mpr ⟨hp, hnew⟩)

theorem inv_init : Inv init where
  accounted := HostClient.accounted_new
  closed h := by cases h

theorem onMessage_of_empty {c : HostClient} (h : c.pending = ∅) (resp : Response) :
    c.onMessage resp = c :=
  HostClient.onMessage_of_not_pending (by rw [h]; exact AList.notMem_empty _)

theorem Inv.step {s t : Endpoint} {l : Label} (h : Inv s) (hstep : HarmlessStep s l t) :
    Inv t := by
  obtain ⟨hstep, hharmless⟩ := hstep
  cases hstep with
  | @call method params thrown hthrown =>
    obtain ⟨hopen, hfresh⟩ := hharmless
    obtain rfl : thrown = none := Option.isNone_iff_eq_none.mp (hthrown.trans hopen)
    refine ⟨h.accounted.call hfresh method params, fun hclosed => ?_⟩
    rw [hopen] at hclosed
    cases hclosed
  | message resp =>
    refine ⟨h.accounted.onMessage resp, fun hclosed => ?_⟩
    rw [onMessage_of_empty (h.closed hclosed)]
    exact h.closed hclosed
  | remoteDisconnect hopen lastError => exact ⟨h.accounted.onDisconnect lastError, fun _ => rfl⟩
  | disconnect => exact ⟨h.accounted, fun _ => hharmless⟩

theorem Inv.run {s : Endpoint} {ls : List Label} (hrun : Run HarmlessStep init ls s) : Inv s :=
  hrun.invariant inv_init fun _ _ _ h hstep => h.step hstep

/-- The ids of fewer than 2^53 calls are all different. -/
theorem nextId_not_pending {s : Endpoint} {ls : List Label} (hrun : Run Step init ls s)
    (hcalls : s.client.promises < 2 ^ 53) : s.client.nextId ∉ s.client.pending := by
  have hcount : s.client.promises < 2 ^ 53 →
      s.client.nextId = s.client.promises + 1 ∧
        ∀ id ∈ s.client.pending, id ≤ s.client.promises := by
    refine hrun.invariant (I := fun s => s.client.promises < 2 ^ 53 →
      s.client.nextId = s.client.promises + 1 ∧
        ∀ id ∈ s.client.pending, id ≤ s.client.promises) ?_ ?_
    · exact fun _ => ⟨rfl, fun id hid => absurd hid (AList.notMem_empty id)⟩
    · intro s l t ih hstep hlt
      cases hstep with
      | call method params hthrown =>
        change s.client.promises + 1 < 2 ^ 53 at hlt
        obtain ⟨hnext, hids⟩ := ih (by omega)
        constructor
        · change increment s.client.nextId = s.client.promises + 1 + 1
          rw [increment, hnext, if_pos hlt]
        · intro id hid
          change id ≤ s.client.promises + 1
          rcases (AList.mem_insert _).mp hid with rfl | hid
          · omega
          · have := hids id hid
            omega
      | message resp =>
        rw [HostClient.promises_onMessage] at hlt
        obtain ⟨hnext, hids⟩ := ih hlt
        refine ⟨by simpa using hnext, fun id hid => ?_⟩
        rw [HostClient.promises_onMessage]
        exact hids id ((s.client.mem_pending_onMessage resp id).mp hid).2
      | remoteDisconnect hopen lastError =>
        exact ⟨(ih hlt).1, fun id hid => absurd hid (AList.notMem_empty id)⟩
      | disconnect => exact ih hlt
  obtain ⟨hnext, hids⟩ := hcount hcalls
  intro hpending
  have := hids _ hpending
  omega

/-- The promise of a call on a closed port is rejected, and its entry stays. -/
theorem not_nothingHangs_of_threw {s : Endpoint} (method : String) (params : Option JsValue)
    (error : String) :
    ¬ NothingHangs { s with client := (s.client.call method params (some error)).1 } := by
  intro h
  have hwaiting : (s.client.call method params (some error)).1.Waiting s.client.promises :=
    ⟨s.client.nextId, AList.lookup_insert _⟩
  refine ((h.pending _).mp hwaiting).2 ?_
  simp [HostClient.settledPromises, HostClient.call]

/-- The promise whose id a call takes over is forgotten. -/
theorem not_nothingHangs_of_reused {s : Endpoint} (h : s.client.Accounted)
    (hused : s.client.nextId ∈ s.client.pending) (method : String) (params : Option JsValue) :
    ¬ NothingHangs { s with client := (s.client.call method params none).1 } := by
  intro hhangs
  obtain ⟨p, hp⟩ := (s.client.mem_pending_iff _).mp hused
  obtain ⟨hlt, hnew⟩ := (h.waiting_iff p).mp ⟨_, hp⟩
  have hsettled : (s.client.call method params none).1.settledPromises =
      s.client.settledPromises := by
    simp [HostClient.settledPromises, HostClient.call]
  obtain ⟨id, hid⟩ : (s.client.call method params none).1.Waiting p := by
    refine (hhangs.pending p).mpr ⟨?_, by rwa [hsettled]⟩
    change p < s.client.promises + 1
    omega
  change (s.client.pending.insert s.client.nextId s.client.promises).lookup id = some p at hid
  by_cases hsame : id = s.client.nextId
  · subst hsame
    rw [AList.lookup_insert] at hid
    have := Option.some.inj hid
    omega
  · rw [AList.lookup_insert_ne hsame] at hid
    exact hsame (h.oneId _ _ _ hid hp)

/-- After a run of harmless steps nothing hangs, and it is exactly the harmless steps after
which that stays so. -/
theorem run_nothingHangs {s : Endpoint} {ls : List Label} (hrun : Run HarmlessStep init ls s) :
    NothingHangs s ∧ ∀ l t, Step s l t → (NothingHangs t ↔ Harmless s l) := by
  have hinv := Inv.run hrun
  refine ⟨hinv.nothingHangs, fun l t hstep => ⟨fun hhangs => ?_, fun hharmless => ?_⟩⟩
  · cases hstep with
    | @call method params thrown hthrown =>
      cases thrown with
      | some error => exact absurd hhangs (not_nothingHangs_of_threw method params error)
      | none =>
        refine ⟨hthrown.symm, fun hused => ?_⟩
        exact not_nothingHangs_of_reused hinv.accounted hused method params hhangs
    | message => trivial
    | remoteDisconnect => trivial
    | disconnect => exact (hhangs.closed rfl).1
  · exact (hinv.step ⟨hstep, hharmless⟩).nothingHangs

/-- A call, its response, and a disconnect. -/
theorem run_nothingHangs_sample : ∃ s ls, Run HarmlessStep init ls s ∧ ls.length = 3 ∧
    s.portOpen = false ∧ s.client.promises = 1 ∧
    NothingHangs s ∧ ∀ l t, Step s l t → (NothingHangs t ↔ Harmless s l) := by
  have hcall : HarmlessStep init (.call "get_info" none none) _ :=
    ⟨Step.call "get_info" none rfl, rfl, by decide⟩
  have hmessage (s : Endpoint) (resp : Response) : HarmlessStep s (.message resp) _ :=
    ⟨Step.message s resp, trivial⟩
  have hanswered := ((Run.nil init).snoc hcall).snoc (hmessage _ ⟨1, some .null, none⟩)
  have hrun := hanswered.snoc ⟨Step.disconnect _, show Harmless _ .disconnect from rfl⟩
  exact ⟨_, _, hrun, rfl, rfl, rfl, run_nothingHangs hrun⟩

/-- A disconnect while a call waits, and a call after a disconnect. -/
theorem disconnect_leaves_hanging :
    (∃ s, Run Step init [.call "get_info" none none, .disconnect] s ∧ ¬ NothingHangs s) ∧
    (∃ s, Run Step init [.disconnect, .call "get_info" none (some "disconnected port")] s ∧
      ¬ NothingHangs s) := by
  constructor
  · refine ⟨_, ((Run.nil _).snoc (Step.call "get_info" none rfl)).snoc (Step.disconnect _), ?_⟩
    intro h
    have hempty := (h.closed rfl).1
    exact absurd (congrArg AList.keys hempty) (by decide)
  · refine ⟨_, ((Run.nil _).snoc (Step.disconnect _)).snoc
      (@Step.call _ "get_info" none (some "disconnected port") rfl), ?_⟩
    exact not_nothingHangs_of_threw _ _ _

end Endpoint
end YubiWallet.Client
