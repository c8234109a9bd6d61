import YubiWallet.Host.Methods
import YubiWallet.StaticCard
import Mathlib.Data.List.Nodup

/-! The accounts that the host lists, on a card whose contents do not change. -/
namespace YubiWallet.Host
open Interaction Outcome

def appletStr : Applet → String
  | .openPgp => "openpgp"
  | .piv => "piv"

def slotStr : Applet → UInt8 → String
  | .openPgp, slot => if slot = OpenpgpSlot.sig then "sig" else "aut"
  | .piv, slot => fmt02x slot

/-- The id under which an account is listed. -/
def accountId (acc : Account) : String :=
  s!"{appletStr acc.applet}:{slotStr acc.applet acc.slot}:{curveStr acc.curve}"

theorem fromStr_appletStr (applet : Applet) : Applet.fromStr (appletStr applet) = .ok applet := by
  cases applet <;> decide

theorem fromStr_curveStr (curve : Curve) : Curve.fromStr (curveStr curve) = .ok curve := by
  cases curve <;> decide

theorem parseSlot_slotStr {applet : Applet} {slot : UInt8} (h : applet.slotOk slot) :
    parseSlot applet (slotStr applet slot) = .ok slot := by
  cases applet with
  | openPgp =>
    cases h with
    | inl hsig =>
      subst hsig
      decide
    | inr haut =>
      subst haut
      decide
  | piv =>
    have hall : PivSlot.all.all fun slot => parseSlot .piv (fmt02x slot) = .ok slot := by
      decide +kernel
    exact of_decide_eq_true (List.all_eq_true.mp hall slot ((PivSlot.mem_all_iff slot).mpr h))

theorem colon_not_mem_appletStr (applet : Applet) : ':' ∉ (appletStr applet).toList := by
  cases applet <;> decide

theorem colon_not_mem_curveStr (curve : Curve) : ':' ∉ (curveStr curve).toList := by
  cases curve <;> decide

theorem colon_not_mem_slotStr (applet : Applet) (slot : UInt8) :
    ':' ∉ (slotStr applet slot).toList := by
  cases applet with
  | openPgp =>
    change ':' ∉ (if slot = OpenpgpSlot.sig then "sig" else "aut").toList
    split <;> decide
  | piv =>
    have hall : ∀ n : Fin 256, ':' ∉ byteDigits (UInt8.ofNat n) := by decide +kernel
    simpa [slotStr, fmt02x] using hall ⟨slot.toNat, slot.toNat_lt⟩

/-- The parser reads every id back. -/
theorem parseAccount_accountId {acc : Account} (h : acc.applet.slotOk acc.slot) :
    parseAccount (accountId acc) = .ok acc := by
  apply (parseAccount_eq_ok_iff (colon_not_mem_appletStr _) (colon_not_mem_slotStr _ _)
    (colon_not_mem_curveStr _) acc).mpr
  exact ⟨fromStr_appletStr _, parseSlot_slotStr h, fromStr_curveStr _⟩

/-- A listed account with its key. -/
abbrev Entry := Account × Bytes

def entryJson (C : Crates) (e : Entry) : Value :=
  accountJson C (appletStr e.1.applet) (slotStr e.1.applet e.1.slot) e.1.curve e.2

theorem entryJson_get (C : Crates) (e : Entry) :
    (entryJson C e).get "id" = some (.str (accountId e.1)) ∧
    (entryJson C e).get "applet" = some (.str (appletStr e.1.applet)) ∧
    (entryJson C e).get "slot" = some (.str (slotStr e.1.applet e.1.slot)) ∧
    (entryJson C e).get "curve" = some (.str (curveStr e.1.curve)) ∧
    (entryJson C e).get "address" = some (.str (address C e.1.curve e.2)) ∧
    (entryJson C e).get "pubkey" = some (.str (Hex.encode e.2)) :=
  ⟨rfl, rfl, rfl, rfl, rfl, rfl⟩

end YubiWallet.Host

namespace YubiWallet.StaticCard
open Interaction Outcome Host

def openpgpListed (card : StaticCard) (slot : UInt8) : List Entry :=
  match card.session Openpgp.aid >>= fun _ => card.publicKey slot >>= Openpgp.classify slot with
  | .ok (curve, pk) => [(⟨.openPgp, slot, curve⟩, pk)]
  | .error _ => []

def pivListed (card : StaticCard) : List Entry :=
  match card.session Piv.aid with
  | .ok () => PivSlot.all.filterMap fun slot =>
      (card.certificateKey slot).toOption.map fun k => (⟨.piv, slot, .ed25519⟩, k.val)
  | .error _ => []

def listed (card : StaticCard) : List Entry :=
  card.openpgpListed OpenpgpSlot.sig ++ card.openpgpListed OpenpgpSlot.aut ++ card.pivListed

theorem run_openpgpEntries {card : StaticCard} {env : Env} (hcard : card.Holds env)
    (C : Crates) (slot : UInt8) (h : Trace) :
    (Prog.run env (openpgpEntries C (slotStr .openPgp slot) slot) h).1 =
      (card.openpgpListed slot).map (entryJson C) := by
  unfold openpgpEntries openpgpListed
  rw [Prog.run_bind, run_detectAccount hcard]
  cases card.session Openpgp.aid >>= fun _ => card.publicKey slot >>= Openpgp.classify slot with
  | ok found => rfl
  | error e => rfl

theorem pivEntries_eq (card : StaticCard) (C : Crates) (slots : List UInt8) :
    pivEntries C (slots.map fun slot => ⟨slot, (card.certificateKey slot).toOption⟩) =
      (slots.filterMap fun slot => (card.certificateKey slot).toOption.map
        fun k => (⟨.piv, slot, .ed25519⟩, k.val)).map (entryJson C) := by
  rw [pivEntries, List.filterMap_map, List.map_filterMap]
  refine List.filterMap_congr fun slot _ => ?_
  rw [Option.map_map]
  rfl

theorem run_hostListAccounts {card : StaticCard} {env : Env} (hcard : card.Holds env)
    (C : Crates) (h : Trace) :
    (Prog.run env (Host.listAccounts C) h).1 = card.listed.map (entryJson C) := by
  have hsig := run_openpgpEntries hcard C OpenpgpSlot.sig
  have haut := run_openpgpEntries hcard C OpenpgpSlot.aut
  change ∀ h, (Prog.run env (openpgpEntries C "sig" OpenpgpSlot.sig) h).1 = _ at hsig
  change ∀ h, (Prog.run env (openpgpEntries C "aut" OpenpgpSlot.aut) h).1 = _ at haut
  unfold Host.listAccounts listed pivListed
  rw [Prog.run_bind, Prog.run_bind, Prog.run_bind, run_listAccounts hcard, hsig, haut]
  cases card.session Piv.aid with
  | ok u =>
    rw [List.map_append, List.map_append, ← pivEntries_eq]
    rfl
  | error e =>
    rw [List.append_nil, List.map_append]
    rfl

theorem classify_readPubkey {slot : UInt8} {raw pk : Bytes} {curve : Curve}
    (h : Openpgp.classify slot raw = .ok (curve, pk)) : Openpgp.readPubkey curve raw = .ok pk := by
  unfold Openpgp.classify at h
  split at h
  · rename_i k hk
    obtain ⟨rfl, rfl⟩ : Curve.ed25519 = curve ∧ k.val = pk := by simpa using h
    simp [Openpgp.readPubkey, hk, Except.map]
  · split at h
    · rename_i k hk
      obtain ⟨rfl, rfl⟩ : Curve.secp256k1 = curve ∧ k.val = pk := by simpa using h
      simp [Openpgp.readPubkey, hk, Except.map]
    · cases h

theorem openpgpListed_key {card : StaticCard} {slot : UInt8} {e : Entry}
    (h : e ∈ card.openpgpListed slot) :
    e.1.applet = .openPgp ∧ e.1.slot = slot ∧ card.accountKey e.1 = .ok e.2 := by
  unfold openpgpListed at h
  split at h
  · rename_i curve pk hfound
    obtain rfl : e = (⟨.openPgp, slot, curve⟩, pk) := List.mem_singleton.mp h
    simp only [bind_eq_ok_iff] at hfound
    obtain ⟨u, hsession, raw, hraw, hclass⟩ := hfound
    refine ⟨rfl, rfl, ?_⟩
    simp only [accountKey, bind_eq_ok_iff]
    exact ⟨u, hsession, raw, hraw, classify_readPubkey hclass⟩
  · cases h

theorem pivListed_key {card : StaticCard} {e : Entry} (h : e ∈ card.pivListed) :
    e.1.applet = .piv ∧ PivSlot.isValid e.1.slot = true ∧ card.accountKey e.1 = .ok e.2 := by
  unfold pivListed at h
  split at h
  · rename_i hsession
    obtain ⟨slot, hslot, hkey⟩ := List.mem_filterMap.mp h
    obtain ⟨k, hk, rfl⟩ := Option.map_eq_some_iff.mp hkey
    have hvalid := (PivSlot.mem_all_iff slot).mp hslot
    have hcert : card.certificateKey slot = .ok k := by
      cases hc : card.certificateKey slot with
      | error x => simp [hc, Except.toOption] at hk
      | ok k' =>
        obtain rfl : k' = k := by simpa [hc, Except.toOption] using hk
        rfl
    refine ⟨rfl, hvalid, ?_⟩
    simp only [accountKey, Piv.ensureEd25519, Piv.ensureSlot, hvalid, hsession, hcert]
    rfl
  · cases h

theorem listed_key {card : StaticCard} {e : Entry} (h : e ∈ card.listed) :
    e.1.applet.slotOk e.1.slot ∧ card.accountKey e.1 = .ok e.2 := by
  simp only [listed, List.mem_append] at h
  rcases h with (h | h) | h
  · obtain ⟨happlet, hslot, hkey⟩ := openpgpListed_key h
    rw [happlet]
    exact ⟨Or.inl hslot, hkey⟩
  · obtain ⟨happlet, hslot, hkey⟩ := openpgpListed_key h
    rw [happlet]
    exact ⟨Or.inr hslot, hkey⟩
  · obtain ⟨happlet, hvalid, hkey⟩ := pivListed_key h
    rw [happlet]
    exact ⟨hvalid, hkey⟩

def slotOf (e : Entry) : Applet × UInt8 := (e.1.applet, e.1.slot)

theorem openpgpListed_slots (card : StaticCard) (slot : UInt8) :
    ((card.openpgpListed slot).map slotOf).Sublist [(.openPgp, slot)] := by
  unfold openpgpListed
  split
  · exact List.Sublist.refl _
  · exact List.nil_sublist _

theorem filterMap_sublist_map {α β : Type} {f : α → Option β} {g : α → β}
    (h : ∀ a b, f a = some b → b = g a) (as : List α) :
    (as.filterMap f).Sublist (as.map g) := by
  induction as with
  | nil => exact List.Sublist.refl _
  | cons a as ih =>
    cases hf : f a with
    | none =>
      rw [List.filterMap_cons_none hf]
      exact ih.cons _
    | some b =>
      obtain rfl := h a b hf
      rw [List.filterMap_cons_some hf]
      exact ih.cons_cons _

theorem pivListed_slots (card : StaticCard) :
    (card.pivListed.map slotOf).Sublist (PivSlot.all.map fun slot => (.piv, slot)) := by
  unfold pivListed
  split
  · rw [List.map_filterMap]
    refine filterMap_sublist_map (fun slot b hb => ?_) _
    simp only [Option.map_map, Option.map_eq_some_iff] at hb
    obtain ⟨k, -, rfl⟩ := hb
    rfl
  · exact List.nil_sublist _

theorem listed_nodup (card : StaticCard) : (card.listed.map slotOf).Nodup := by
  have hall : ([(Applet.openPgp, OpenpgpSlot.sig)] ++ [(Applet.openPgp, OpenpgpSlot.aut)] ++
      PivSlot.all.map fun slot => (Applet.piv, slot)).Nodup := by decide +kernel
  rw [listed, List.map_append, List.map_append]
  exact (((openpgpListed_slots card _).append (openpgpListed_slots card _)).append
    (pivListed_slots card)).nodup hall

/-- A key has the length of its curve; a point is not compressed. -/
def Shape (curve : Curve) (pk : Bytes) : Prop :=
  match curve with
  | .ed25519 => pk.length = 32
  | .secp256k1 => pk.length = 65 ∧ pk.getD 0 0 = 0x04

theorem accountKey_shape {card : StaticCard} {acc : Account} {pk : Bytes}
    (h : card.accountKey acc = .ok pk) : Shape acc.curve pk := by
  obtain ⟨applet, slot, curve⟩ := acc
  cases applet with
  | openPgp =>
    simp only [accountKey, bind_eq_ok_iff] at h
    obtain ⟨-, -, raw, -, hread⟩ := h
    cases curve with
    | ed25519 =>
      cases hk : Openpgp.extractEd25519Pubkey raw with
      | error e => simp [Openpgp.readPubkey, hk, Except.map] at hread
      | ok k =>
        obtain rfl : k.val = pk := by simpa [Openpgp.readPubkey, hk, Except.map] using hread
        exact k.property
    | secp256k1 =>
      cases hk : Openpgp.extractSecp256k1Pubkey raw with
      | error e => simp [Openpgp.readPubkey, hk, Except.map] at hread
      | ok k =>
        obtain rfl : k.val = pk := by simpa [Openpgp.readPubkey, hk, Except.map] using hread
        exact ⟨k.property, ((Openpgp.extractSecp256k1Pubkey_eq_ok_iff raw k).mp hk).2⟩
  | piv =>
    simp only [accountKey, bind_eq_ok_iff] at h
    obtain ⟨_, hcurve, _, -, _, -, k, -, hk⟩ := h
    obtain rfl : curve = .ed25519 := Piv.ensureEd25519_ok hcurve
    obtain rfl : k.val = pk := Except.ok.inj hk
    exact k.property

end YubiWallet.StaticCard

namespace YubiWallet.Host
open Interaction Outcome

/-- The address that a key is shown under. -/
def AddressOf (C : Crates) (curve : Curve) (pk : Bytes) (addr : String) : Prop :=
  match curve with
  | .ed25519 => pk.length = 32 ∧ addr = Bs58.encode pk ∧ addr ≠ ""
  | .secp256k1 => ∃ a digits, Eth.addressFromPubkey C.keccak256 pk = .ok a ∧
      addr = Eth.addressToHex a ∧ addr = "0x" ++ digits ∧ digits.length = 40 ∧
      ∀ c ∈ digits.toList, (hexDigit c).isSome

theorem address_of_shape (C : Crates) {curve : Curve} {pk : Bytes}
    (h : StaticCard.Shape curve pk) :
    AddressOf C curve pk (address C curve pk) := by
  cases curve with
  | ed25519 =>
    refine ⟨h, rfl, Bs58.encode_ne_empty ?_⟩
    rintro rfl
    cases h
  | secp256k1 =>
    obtain ⟨hlen, hhead⟩ := h
    have hok : ∃ a, Eth.addressFromPubkey C.keccak256 pk = .ok a := by
      unfold Eth.addressFromPubkey
      rw [if_neg (not_or.mpr ⟨not_not.mpr hlen, not_not.mpr hhead⟩)]
      exact ⟨_, rfl⟩
    obtain ⟨a, ha⟩ := hok
    refine ⟨a, Hex.encode a.val, ha, ?_, ?_, ?_, Hex.encode_isHexDigit a.val⟩
    · simp [address, ha]
    · simp [address, ha, Eth.addressToHex]
    · rw [Hex.encode_length, a.property]

/-- What an extension can do with a listed account: its id names the account that was
listed, and the account's key and address are those that were shown. -/
def Usable (C : Crates) (env : Env) (v : Value) : Prop :=
  ∃ id acc pk addr,
    v.get "id" = some (.str id) ∧ parseAccount id = .ok acc ∧
    v.get "applet" = some (.str (appletStr acc.applet)) ∧
    v.get "slot" = some (.str (slotStr acc.applet acc.slot)) ∧
    v.get "curve" = some (.str (curveStr acc.curve)) ∧
    (∀ h, (Prog.run env (getPubkey acc).run h).1 = .ok pk) ∧
    v.get "pubkey" = some (.str (Hex.encode pk)) ∧
    v.get "address" = some (.str addr) ∧ AddressOf C acc.curve pk addr

def slotOfId (id : Option Value) : Option (Applet × UInt8) :=
  match (id.bind Value.asStr).map parseAccount with
  | some (.ok acc) => some (acc.applet, acc.slot)
  | _ => none

/-- On a card that does not change, the listed ids are distinct and every listed account
can be used. -/
theorem listAccounts_usable (C : Crates) {card : StaticCard} {env : Env}
    (hcard : card.Holds env) (h : Trace) :
    let listed := (Prog.run env (listAccounts C) h).1
    (listed.map (Value.get "id")).Nodup ∧ ∀ v ∈ listed, Usable C env v := by
  rw [StaticCard.run_hostListAccounts hcard]
  constructor
  · have hslots : ((card.listed.map (entryJson C)).map (Value.get "id")).map slotOfId =
        (card.listed.map StaticCard.slotOf).map some := by
      simp only [List.map_map]
      refine List.map_congr_left fun e he => ?_
      have hparse := parseAccount_accountId (StaticCard.listed_key he).1
      simp [slotOfId, (entryJson_get C e).1, Value.asStr, hparse, StaticCard.slotOf]
    have hnodup := List.Nodup.map (Option.some_injective _) card.listed_nodup
    rw [← hslots] at hnodup
    exact List.Nodup.of_map _ hnodup
  · intro v hv
    obtain ⟨e, he, rfl⟩ := List.mem_map.mp hv
    obtain ⟨hslot, hkey⟩ := StaticCard.listed_key he
    obtain ⟨hid, happlet, hslotStr, hcurve, haddr, hpk⟩ := entryJson_get C e
    exact ⟨accountId e.1, e.1, e.2, _, hid, parseAccount_accountId hslot, happlet, hslotStr,
      hcurve, fun h' => (StaticCard.run_getPubkey hcard e.1 h').trans hkey, hpk, haddr,
      address_of_shape C (StaticCard.accountKey_shape hkey)⟩

/-- A card with one key, in the signature slot. -/
def hardhatCard : StaticCard where
  connection := .card
  answer s command _ :=
    if isSelect command then Apdu.success
    else if s = some (selectAid Openpgp.aid) ∧ command = Openpgp.getPublicKeyCommand 0xB6 then
      .ok ([0x7F, 0x49, 0x43, 0x86, 0x41] ++ Eth.hardhatKey ++ [0x90, 0x00])
    else .ok [0x6A, 0x88]

def hardhatCrates : Crates where
  keccak256 b :=
    if b = Eth.hardhatKey.drop 1 then
      ⟨Endian.beBytes 32 0xc1ffd3cfee2d9e5cd67643f8f39fd6e51aad88f6f4ce6ab8827279cfffb92266,
        Endian.beBytes_length 32 _⟩
    else .fill 32 0
  k256 := ⟨Unit, fun _ => .error "signature error", fun _ _ _ => .error "signature error",
    "signature error"⟩
  serde := Texts.serde ⟨[], [], [], []⟩ (fun _ => "") fun _ => []
  hexErrorText _ := "Odd number of digits"

def hardhatEntry : Value :=
  entryJson hardhatCrates (⟨.openPgp, OpenpgpSlot.sig, .secp256k1⟩, Eth.hardhatKey)

theorem hardhatEntry_mem :
    hardhatEntry ∈ (Prog.run hardhatCard.env (listAccounts hardhatCrates) []).1 := by
  rw [StaticCard.run_hostListAccounts hardhatCard.holds_env]
  refine List.mem_map_of_mem (List.mem_append_left _ (List.mem_append_left _ ?_))
  decide +kernel

theorem listAccounts_usable_hardhat :
    let listed := (Prog.run hardhatCard.env (listAccounts hardhatCrates) []).1
    hardhatEntry ∈ listed ∧ (listed.map (Value.get "id")).Nodup ∧
      ∀ v ∈ listed, Usable hardhatCrates hardhatCard.env v :=
  ⟨hardhatEntry_mem, listAccounts_usable hardhatCrates hardhatCard.holds_env []⟩

end YubiWallet.Host
