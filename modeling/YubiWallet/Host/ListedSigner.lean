import YubiWallet.Host.Listing
import YubiWallet.Host.Soundness
import YubiWallet.Wasm

/-! From the list of accounts to a signature: what `sign_secp256k1` answers under a listed id
recovers to the key, and so to the address, that was listed. -/
namespace YubiWallet.StaticCard
open Interaction

/-- The keys on the card do not change. What it answers to VERIFY and to the signing commands
is arbitrary. -/
structure HoldsKeys (card : StaticCard) (env : Env) : Prop where
  connects : ∀ h, env h .connect = card.connection
  answers : ∀ h command bufLen, ReadsCard (.transmit command bufLen) →
    env h (.transmit command bufLen) = card.answer (selected h) command bufLen

open Classical in
/-- The environment with the card's own answers to all other commands. -/
noncomputable def frozen (card : StaticCard) (env : Env) : Env := fun h op =>
  if ReadsCard op then env h op else card.env h op

theorem holds_frozen {card : StaticCard} {env : Env} (hcard : card.HoldsKeys env) :
    card.Holds (card.frozen env) where
  connects h := by
    rw [frozen, if_pos (by trivial)]
    exact hcard.connects h
  answers h command bufLen := by
    unfold frozen
    split
    · rename_i hreads
      exact hcard.answers h command bufLen hreads
    · rfl

theorem run_frozen (card : StaticCard) (env : Env) {α : Type} {p : Prog α}
    (hp : Prog.Only ReadsCard p) (h : Trace) :
    Prog.run env p h = Prog.run (card.frozen env) p h :=
  hp.run_eq (fun _ _ hop => (if_pos hop).symm) h

theorem run_getPubkey_keys {card : StaticCard} {env : Env} (hcard : card.HoldsKeys env)
    (acc : Account) (h : Trace) : (Prog.run env (getPubkey acc).run h).1 = card.accountKey acc := by
  rw [run_frozen card env (getPubkey_readsCard acc), run_getPubkey (holds_frozen hcard)]

theorem run_listAccounts_keys {card : StaticCard} {env : Env} (hcard : card.HoldsKeys env)
    (C : Host.Crates) (h : Trace) :
    (Prog.run env (Host.listAccounts C) h).1 = card.listed.map (Host.entryJson C) := by
  rw [run_frozen card env (Host.listAccounts_readsCard C),
    run_hostListAccounts (holds_frozen hcard)]

end YubiWallet.StaticCard

namespace YubiWallet.Host
open Interaction Outcome

/-- The address that the WebAssembly bindings make of a listed key. -/
def wasmAddress (C : Crates) (curve : Curve) (pubkeyHex : String) : Except String String :=
  match curve with
  | .ed25519 => Wasm.solanaAddress C.hexErrorText pubkeyHex
  | .secp256k1 => Wasm.ethAddress C.keccak256 C.hexErrorText pubkeyHex

theorem wasmAddress_of_shape (C : Crates) {curve : Curve} {pk : Bytes}
    (h : StaticCard.Shape curve pk) :
    wasmAddress C curve (Hex.encode pk) = .ok (address C curve pk) := by
  have haddr := address_of_shape C h
  cases curve with
  | ed25519 =>
    simp only [wasmAddress, Wasm.solanaAddress, Wasm.unhex_encode]
    exact if_neg (not_not.mpr h)
  | secp256k1 =>
    obtain ⟨a, digits, ha, haddr, -⟩ := haddr
    simp only [wasmAddress, Wasm.ethAddress, Wasm.unhex_encode]
    rw [haddr]
    change (Eth.addressFromPubkey C.keccak256 pk).mapError _ >>= _ = _
    rw [ha]
    rfl

/-- For every account that the host lists, the page makes of its key the address that the host
shows. -/
theorem listed_wasmAddress (C : Crates) {card : StaticCard} {env : Env}
    (hcard : card.HoldsKeys env) (h : Trace) (v : Value)
    (hv : v ∈ (Prog.run env (listAccounts C) h).1) :
    ∃ curve pubkey addr, v.get "curve" = some (.str (curveStr curve)) ∧
      v.get "pubkey" = some (.str pubkey) ∧ v.get "address" = some (.str addr) ∧
      wasmAddress C curve pubkey = .ok addr := by
  rw [StaticCard.run_listAccounts_keys hcard] at hv
  obtain ⟨e, he, rfl⟩ := List.mem_map.mp hv
  obtain ⟨-, -, -, hcurve, haddr, hpubkey⟩ := entryJson_get C e
  have hshape := StaticCard.accountKey_shape (StaticCard.listed_key he).2
  exact ⟨e.1.curve, _, _, hcurve, hpubkey, haddr, wasmAddress_of_shape C hshape⟩

/-- A success of `sign_secp256k1` is sound for the key that was read in the same call. -/
theorem signSecp256k1_run {C : Crates} {params : Value} {env : Env} {h : Trace} {answer : Value}
    (hok : (Prog.run env (signSecp256k1 C params).run h).1 = .ok answer) :
    ∃ acc hash pk rs, secp256k1Args C params = .ok (acc, hash) ∧
      (Prog.run env (getPubkey acc).run h).1 = .ok pk ∧
      SoundAnswer C.k256 hash pk rs answer := by
  unfold signSecp256k1 at hok
  rw [Action.run_ofExcept_bind, bind_eq_ok_iff] at hok
  obtain ⟨⟨acc, hash⟩, hargs, hok⟩ := hok
  obtain ⟨pk, h₁, hkey, hok⟩ := Action.exists_of_run_bind_ok hok
  obtain ⟨pin, h₂, -, hok⟩ := Action.exists_of_run_bind_ok hok
  obtain ⟨rs, h₃, -, hok⟩ := Action.exists_of_run_bind_ok hok
  rw [Action.run_ofExcept] at hok
  have hread : ((Prog.run env (getPubkey acc).run h).1).mapError cardErr = .ok pk := by
    rw [← hkey, Action.mapErr, ExceptT.run_mk, Prog.run_map]
  exact ⟨acc, hash, pk, rs, hargs, mapError_eq_ok_iff.mp hread, finishSecp256k1_sound hok⟩

/-- The account and the prehash that a request names. -/
theorem secp256k1Args_ok {C : Crates} {params : Value} {acc : Account} {hash : BytesN 32}
    (h : secp256k1Args C params = .ok (acc, hash)) :
    (∃ id, (params.get "account_id").bind Value.asStr = some id ∧ parseAccount id = .ok acc) ∧
      paramHex C params "prehash" = .ok hash.val := by
  simp only [secp256k1Args, bind_eq_ok_iff] at h
  obtain ⟨id, hid, acc', hacc, prehash, hhex, h⟩ := h
  split at h
  · rename_i hash' harray
    obtain ⟨rfl, rfl⟩ : acc' = acc ∧ hash' = hash := by simpa [pure, Except.pure] using h
    refine ⟨⟨id, ?_, hacc⟩, ?_⟩
    · unfold paramStr at hid
      split at hid
      · rename_i s hs
        rw [hs, Except.ok.inj hid]
      · cases hid
    · rw [hhex, toArray_eq_some harray]
  · cases h

/-- A signature that was asked for under a listed id recovers to the listed key, and so to
the listed address, however the card answers to VERIFY and to the signing command. -/
theorem signSecp256k1_listed (C : Crates) {card : StaticCard} {env : Env}
    (hcard : card.HoldsKeys env) (h h' : Trace) (v params answer : Value)
    (hv : v ∈ (Prog.run env (listAccounts C) h).1)
    (hid : params.get "account_id" = v.get "id")
    (hok : (Prog.run env (signSecp256k1 C params).run h').1 = .ok answer) :
    ∃ hash pk rs curve, paramHex C params "prehash" = .ok hash.val ∧
      SoundAnswer C.k256 hash pk rs answer ∧
      v.get "curve" = some (.str (curveStr curve)) ∧
      v.get "pubkey" = some (.str (Hex.encode pk)) ∧
      v.get "address" = some (.str (address C curve pk)) := by
  rw [StaticCard.run_listAccounts_keys hcard] at hv
  obtain ⟨e, he, rfl⟩ := List.mem_map.mp hv
  obtain ⟨hslot, hlisted⟩ := StaticCard.listed_key he
  obtain ⟨heid, -, -, hcurve, haddr, hpubkey⟩ := entryJson_get C e
  obtain ⟨acc, hash, pk, rs, hargs, hread, hsound⟩ := signSecp256k1_run hok
  obtain ⟨⟨id, hasked, hacc⟩, hprehash⟩ := secp256k1Args_ok hargs
  have hname : accountId e.1 = id := by
    rw [hid, heid] at hasked
    exact Option.some.inj hasked
  obtain rfl : e.1 = acc := by
    rw [← hname, parseAccount_accountId hslot] at hacc
    exact Except.ok.inj hacc
  obtain rfl : e.2 = pk := by
    rw [StaticCard.run_getPubkey_keys hcard, hlisted] at hread
    exact Except.ok.inj hread
  exact ⟨hash, e.2, rs, e.1.curve, hprehash, hsound, hcurve, hpubkey, haddr⟩

/-- The card of the sample, as one that holds its keys. -/
def sampleCard : StaticCard where
  connection := .card
  answer _ command bufLen := sampleEnv [] (.transmit command bufLen)

theorem sampleCard_holdsKeys : sampleCard.HoldsKeys sampleEnv where
  connects := fun _ => rfl
  answers := fun _ _ _ _ => rfl

def sampleEntry : Value := entryJson sampleCrates (⟨.openPgp, 0x01, .secp256k1⟩, Eth.hardhatKey)

theorem sampleEntry_mem : sampleEntry ∈ (Prog.run sampleEnv (listAccounts sampleCrates) []).1 := by
  rw [StaticCard.run_listAccounts_keys sampleCard_holdsKeys]
  refine List.mem_map_of_mem (List.mem_append_left _ (List.mem_append_left _ ?_))
  decide +kernel

theorem listed_wasmAddress_sample :
    ∃ curve pubkey addr, sampleEntry.get "curve" = some (.str (curveStr curve)) ∧
      sampleEntry.get "pubkey" = some (.str pubkey) ∧
      sampleEntry.get "address" = some (.str addr) ∧
      wasmAddress sampleCrates curve pubkey = .ok addr :=
  listed_wasmAddress sampleCrates sampleCard_holdsKeys [] sampleEntry sampleEntry_mem

set_option maxRecDepth 10000 in
theorem signSecp256k1_listed_sample :
    ∃ hash pk rs curve, paramHex sampleCrates sampleParams "prehash" = .ok hash.val ∧
      SoundAnswer sampleCrates.k256 hash pk rs sampleAnswer ∧
      sampleEntry.get "curve" = some (.str (curveStr curve)) ∧
      sampleEntry.get "pubkey" = some (.str (Hex.encode pk)) ∧
      sampleEntry.get "address" = some (.str (address sampleCrates curve pk)) :=
  signSecp256k1_listed sampleCrates sampleCard_holdsKeys [] [] sampleEntry sampleParams
    sampleAnswer sampleEntry_mem rfl rfl

end YubiWallet.Host
