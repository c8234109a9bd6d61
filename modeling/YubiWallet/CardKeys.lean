import YubiWallet.Courses
import YubiWallet.Detection
import YubiWallet.Lib.Outcome

/-! The keys in the slots of a card, and what such a card can take part in. -/
namespace YubiWallet
open Interaction Outcome
open Openpgp (KeyTemplate ed25519Marker)

/-- A key in a slot of the OpenPGP applet. -/
inductive SlotKey where
  | ed25519 (k : BytesN 32)
  | secp256k1 (x y : BytesN 32)

namespace SlotKey

def curve : SlotKey → Curve
  | .ed25519 _ => .ed25519
  | .secp256k1 _ _ => .secp256k1

def response : SlotKey → Bytes
  | .ed25519 k => (KeyTemplate.ed25519 k).response
  | .secp256k1 x y => (KeyTemplate.secp256k1 x y).response

end SlotKey

/-- The keys of a card: one in each OpenPGP slot, Ed25519 or nothing in a PIV slot. A PIV slot
has a certificate object besides, with any bytes or none, whether or not there is a key. -/
structure CardKeys where
  openpgp : UInt8 → SlotKey
  piv : UInt8 → Option (BytesN 32)
  certificate : UInt8 → Option Bytes

namespace CardKeys

/-- The curve of the key in an account's slot. -/
def curveAt (keys : CardKeys) (acc : Account) : Option Curve :=
  match acc.applet with
  | .openPgp => some (keys.openpgp acc.slot).curve
  | .piv => (keys.piv acc.slot).map fun _ => .ed25519

/-- Data `d` behind a successful answer to `c` that the card's keys allow. -/
structure Answers (keys : CardKeys) (c d : Bytes) : Prop where
  publicKey : ∀ slot crt, Openpgp.crtTag slot = .ok crt → c = Openpgp.getPublicKeyCommand crt →
    d = (keys.openpgp slot).response
  certificate : ∀ slot tag, Piv.slotObjectTag slot = .ok tag → c = Piv.getDataCommand tag.val →
    keys.certificate slot = some d
  signature : ∀ slot message, c = Piv.generalAuthenticateCommand slot message →
    keys.piv slot ≠ none

/-- The event is one that a card with these keys can take part in. It may refuse
anything, and everything else is arbitrary. -/
def Consistent (keys : CardKeys) (e : Event Op Op.Ans) : Prop :=
  ∀ c x d, exchange? e = some (c, x) → Carries x d → keys.Answers c d

theorem consistent_exists (keys : CardKeys) (op : Op) :
    ∃ x, keys.Consistent ⟨op, x⟩ := by
  obtain ⟨x⟩ := ans_nonempty op
  cases op with
  | transmit command bufLen =>
    refine ⟨Except.error "refused", ?_⟩
    intro c x d hx hd
    obtain ⟨rfl, rfl⟩ : command = c ∧ Except.error "refused" = x := by simpa [exchange?] using hx
    cases hd
  | _ => exact ⟨x, fun c y d hy _ => by cases hy⟩

theorem answers_of_ins (keys : CardKeys) {c : Bytes} (d : Bytes)
    (hins : c.getD 1 0 ∉ [Apdu.insGetPublicKey, Apdu.insGetData, Apdu.insGeneralAuthenticate]) :
    keys.Answers c d where
  publicKey := by
    rintro slot crt - rfl
    exact absurd List.mem_cons_self hins
  certificate := by
    rintro slot tag - rfl
    exact absurd (List.mem_cons_of_mem _ List.mem_cons_self) hins
  signature := by
    rintro slot message rfl
    exact absurd (by simp [Piv.generalAuthenticateCommand, Apdu.buildApduExt]) hins

end CardKeys

theorem readPubkey_ed25519_iff (raw : Bytes) :
    (∃ pk, Openpgp.readPubkey .ed25519 raw = .ok pk) ↔
      Window.extract ed25519Marker 32 raw ≠ none := by
  rw [ne_eq, ← Openpgp.extractEd25519Pubkey_eq_error_iff]
  cases hx : Openpgp.extractEd25519Pubkey raw with
  | error e => simp [Openpgp.readPubkey, hx, Except.map]
  | ok k => simp [Openpgp.readPubkey, hx, Except.map]

/-- An Ed25519 key is read as one, a point only where it imitates one. -/
theorem readPubkey_ed25519_response (key : SlotKey) :
    (∃ pk, Openpgp.readPubkey .ed25519 key.response = .ok pk) ↔
      ∀ x y, key = .secp256k1 x y → ed25519Marker <:+: x.val := by
  rw [readPubkey_ed25519_iff]
  cases key with
  | ed25519 k => simp [SlotKey.response, Openpgp.extract_ed25519_response]
  | secp256k1 x y =>
    rw [ne_eq, SlotKey.response, Openpgp.extract_point_eq_none_iff, not_not]
    constructor
    · intro h x' y' heq
      obtain ⟨rfl, -⟩ : x = x' ∧ y = y' := by simpa using heq
      exact h
    · exact fun h => h x y rfl

/-- The response of an Ed25519 key is too short to be read as a point. -/
theorem readPubkey_secp256k1_response (k : BytesN 32) (pk : Bytes) :
    Openpgp.readPubkey .secp256k1 (SlotKey.ed25519 k).response ≠ .ok pk := by
  intro h
  cases hk : Openpgp.extractSecp256k1Pubkey (SlotKey.ed25519 k).response with
  | error e => simp [Openpgp.readPubkey, hk, Except.map] at h
  | ok point =>
    obtain ⟨hpoint, -⟩ := (Openpgp.extractSecp256k1Pubkey_eq_ok_iff _ point).mp hk
    obtain ⟨pre, post, hsplit, hlen, -⟩ := (Window.extract_eq_some_iff
      Openpgp.secp256k1Marker_borderless (by decide) 65 _ _).mp hpoint
    have hlong := congrArg List.length hsplit
    simp only [SlotKey.response, KeyTemplate.response, List.length_append, List.length_cons,
      List.length_nil, k.property, hlen] at hlong
    omega

/-- A card without the key that a command asks for. -/
def refused : Except String Bytes := .ok [0x6A, 0x80]

theorem not_carries_refused (d : Bytes) : ¬ Carries refused d := by
  intro h
  have hlast := congrArg List.getLast? (Except.ok.inj h)
  simp at hlast

theorem getDataCommand_inj {tag tag' : BytesN 3}
    (h : Piv.getDataCommand tag.val = Piv.getDataCommand tag'.val) : tag = tag' := by
  have hdata : ∀ tag : BytesN 3, ((Piv.getDataCommand tag.val).drop 9).take 3 = tag.val := by
    intro tag
    simp [Piv.getDataCommand, Apdu.buildApduExt, tag.property]
  refine Subtype.ext ?_
  rw [← hdata tag, h, hdata tag']

namespace CardKeys

theorem consistent_transmit {keys : CardKeys} {c d : Bytes} (h : keys.Answers c d)
    (bufLen : Nat) :
    keys.Consistent ⟨.transmit c bufLen, Except.ok (d ++ [0x90, 0x00])⟩ := by
  intro c' x d' hx hd
  obtain ⟨rfl, rfl⟩ : c = c' ∧ Except.ok (d ++ [0x90, 0x00]) = x := by simpa [exchange?] using hx
  obtain rfl : d = d' := List.append_cancel_right (Except.ok.inj hd)
  exact h

/-- The commands that neither read a key nor use one of the PIV applet. -/
theorem consistent_success (keys : CardKeys) {c : Bytes} (bufLen : Nat)
    (hins : c.getD 1 0 ∉ [Apdu.insGetPublicKey, Apdu.insGetData, Apdu.insGeneralAuthenticate]) :
    keys.Consistent ⟨.transmit c bufLen, Apdu.success⟩ :=
  consistent_transmit (keys.answers_of_ins [] hins) bufLen

theorem consistent_envVar (keys : CardKeys) (name : String) (x : Option String) :
    ∀ e ∈ [(⟨.envVar name, x⟩ : Event Op Op.Ans)], keys.Consistent e := by
  intro e he c y d hx
  obtain rfl := List.mem_singleton.mp he
  cases hx

theorem consistent_opened (keys : CardKeys) (applet : Applet) :
    ∀ e ∈ opened applet, keys.Consistent e := by
  intro e he
  rcases List.mem_cons.mp he with rfl | he
  · intro c x d hx
    cases hx
  · obtain rfl := List.mem_singleton.mp he
    refine keys.consistent_success 512 ?_
    cases applet <;> decide

theorem answers_publicKey (keys : CardKeys) {slot crt : UInt8}
    (h : Openpgp.crtTag slot = .ok crt) :
    keys.Answers (Openpgp.getPublicKeyCommand crt) (keys.openpgp slot).response where
  publicKey := by
    intro slot' crt' h' hc
    obtain rfl : crt = crt' := by simpa [Openpgp.getPublicKeyCommand] using hc
    rw [Openpgp.crtTag_inj h h']
  certificate := by
    intro slot' tag _ hc
    simp [Openpgp.getPublicKeyCommand, Piv.getDataCommand, Apdu.buildApduExt,
      Apdu.insGetPublicKey, Apdu.insGetData] at hc
  signature := by
    intro slot' message hc
    simp [Openpgp.getPublicKeyCommand, Piv.generalAuthenticateCommand, Apdu.buildApduExt,
      Apdu.insGetPublicKey, Apdu.insGeneralAuthenticate] at hc

theorem answers_certificate (keys : CardKeys) {slot : UInt8} {tag : BytesN 3} {object : Bytes}
    (h : Piv.slotObjectTag slot = .ok tag) (hobject : keys.certificate slot = some object) :
    keys.Answers (Piv.getDataCommand tag.val) object where
  publicKey := by
    intro slot' crt _ hc
    simp [Openpgp.getPublicKeyCommand, Piv.getDataCommand, Apdu.buildApduExt,
      Apdu.insGetPublicKey, Apdu.insGetData] at hc
  certificate := by
    intro slot' tag' h' hc
    obtain rfl := getDataCommand_inj hc
    obtain rfl := Piv.slotObjectTag_inj h h'
    exact hobject
  signature := by
    intro slot' message hc
    simp [Piv.getDataCommand, Piv.generalAuthenticateCommand, Apdu.buildApduExt,
      Apdu.insGetData, Apdu.insGeneralAuthenticate] at hc

/-- A refusal carries no data. -/
theorem consistent_refused (keys : CardKeys) (c : Bytes) (bufLen : Nat) :
    keys.Consistent ⟨.transmit c bufLen, refused⟩ := by
  intro c' x d hx hd
  obtain ⟨-, rfl⟩ : c = c' ∧ refused = x := by simpa [exchange?] using hx
  exact absurd hd (not_carries_refused d)

/-- Any card takes part in the course of a signing call, as far as the signing command. -/
theorem consistent_signed (keys : CardKeys) (applet : Applet) (reference : UInt8)
    (data : Bytes) {c : Bytes} {bufLen : Nat} {x : Except String Bytes}
    (hlast : keys.Consistent ⟨.transmit c bufLen, x⟩) :
    ∀ e ∈ opened applet ++
      signed (Apdu.shortCommand [0x00, 0x20, 0x00, reference] data []) c bufLen x,
      keys.Consistent e := by
  refine List.forall_mem_append.mpr ⟨keys.consistent_opened applet, ?_⟩
  refine List.forall_mem_cons.mpr ⟨?_, List.forall_mem_singleton.mpr hlast⟩
  have hins : Apdu.insVerify ∉
      [Apdu.insGetPublicKey, Apdu.insGetData, Apdu.insGeneralAuthenticate] := by decide
  exact keys.consistent_success 512 hins

theorem answers_of_exchange {keys : CardKeys} {t : Trace} {c : Bytes}
    {x : Except String Bytes} {d : Bytes} (ht : ∀ e ∈ t, keys.Consistent e)
    (hmem : (c, x) ∈ exchanges t) (hd : Carries x d) : keys.Answers c d := by
  obtain ⟨e, he, hx⟩ := List.mem_filterMap.mp hmem
  exact ht e he c x d hx hd

end CardKeys
end YubiWallet
