import YubiWallet.Detection
import YubiWallet.Secp256k1

/-! What detection calls a secp256k1 key, and what signing takes for one. -/
namespace YubiWallet
open Secp256k1 (OnCurve)
open Openpgp (ed25519Marker secp256k1Marker classify KeyTemplate)

/-- `VerifyingKey::from_sec1_bytes` on uncompressed points: it accepts those of the curve. -/
def K256.ReadsPoints (k : K256) : Prop :=
  ∀ pk : Bytes, pk.length = 65 → pk.getD 0 0 = 0x04 →
    ((∃ vk, k.fromSec1Bytes pk = .ok vk) ↔ OnCurve pk)

namespace Openpgp

/-- The response has no `86 20` with 32 bytes behind it, and behind its first `86 41`
stands `pk`, an uncompressed point. -/
def HoldsPoint (raw pk : Bytes) : Prop :=
  (¬ ed25519Marker <:+: raw.take (raw.length - 32)) ∧
  (∃ pre post, raw = pre ++ secp256k1Marker ++ pk ++ post ∧ ¬ secp256k1Marker <:+: pre) ∧
  pk.length = 65 ∧ pk.getD 0 0 = 0x04

/-- The secp256k1 key of a response is a point of the curve that signing accepts as a
key, and a point of another curve is not a supported key. -/
structure KnowsCurve (k : K256) (slot : UInt8) (raw : Bytes) : Prop where
  signs : ∀ pk, classify slot raw = .ok (.secp256k1, pk) →
    OnCurve pk ∧ ∃ vk, k.fromSec1Bytes pk = .ok vk
  refuses : ∀ pk, HoldsPoint raw pk → ¬ OnCurve pk →
    classify slot raw = .error (.pubkeyNotFound
      s!"OpenPGP slot {fmtHash04x slot}: not an Ed25519 or secp256k1 key")

/-- Detection looks at the marker, the length and the first byte, and at nothing else. -/
theorem classify_secp256k1_iff_holdsPoint (slot : UInt8) (raw pk : Bytes) :
    classify slot raw = .ok (.secp256k1, pk) ↔ HoldsPoint raw pk := by
  rw [classify_secp256k1_iff, Window.extract_eq_none_iff (by decide),
    Window.extract_eq_some_iff secp256k1Marker_borderless (by decide), HoldsPoint]
  apply and_congr_right
  intro _
  constructor
  · intro h
    obtain ⟨⟨pre, post, hraw, hlen, hpre⟩, hhead⟩ := h
    exact ⟨⟨pre, post, hraw, hpre⟩, hlen, hhead⟩
  · intro h
    obtain ⟨⟨pre, post, hraw, hpre⟩, hlen, hhead⟩ := h
    exact ⟨⟨pre, post, hraw, hlen, hpre⟩, hhead⟩

/-- Detection knows the curve of exactly those responses whose point, if they hold one, is
one of secp256k1. -/
theorem knowsCurve_iff {k : K256} (hk : k.ReadsPoints) (slot : UInt8) (raw : Bytes) :
    KnowsCurve k slot raw ↔ ∀ pk, HoldsPoint raw pk → OnCurve pk := by
  constructor
  · intro h pk hpk
    exact (h.signs pk ((classify_secp256k1_iff_holdsPoint slot raw pk).mpr hpk)).1
  · intro h
    constructor
    · intro pk hclassify
      have hpk := (classify_secp256k1_iff_holdsPoint slot raw pk).mp hclassify
      have hcurve := h pk hpk
      exact ⟨hcurve, (hk pk hpk.2.2.1 hpk.2.2.2).mpr hcurve⟩
    · intro pk hpk hother
      exact absurd (h pk hpk) hother

/-- With a point of another curve as the key, no card's answer becomes a signature. -/
theorem ethereumSignature_of_not_onCurve {k : K256} (hk : k.ReadsPoints) {pk : Bytes}
    (hlen : pk.length = 65) (hhead : pk.getD 0 0 = 0x04) (hother : ¬ OnCurve pk)
    (hash : BytesN 32) (rs : BytesN 64) (chainId : UInt64) :
    ∃ m, Eth.ethereumSignature k pk hash rs chainId = .error (.signature m) := by
  unfold Eth.ethereumSignature
  cases hkey : k.fromSec1Bytes pk with
  | error e => exact ⟨_, rfl⟩
  | ok vk => exact absurd ((hk pk hlen hhead).mp ⟨vk, hkey⟩) hother

/-- The curve check alone. -/
def pointK256 : K256 where
  VerifyingKey := Bytes
  fromSec1Bytes pk :=
    if pk.length = 65 ∧ pk.getD 0 0 = 0x04 ∧ OnCurve pk then .ok pk
    else .error "signature error"
  recoverFromPrehash _ _ _ := .error "signature error"
  signatureError := "signature error"

theorem pointK256_readsPoints : pointK256.ReadsPoints := by
  intro pk hlen hhead
  constructor
  · intro h
    obtain ⟨vk, hvk⟩ := h
    simp only [pointK256] at hvk
    split at hvk
    · rename_i hpk
      exact hpk.2.2
    · cases hvk
  · intro hcurve
    exact ⟨pk, if_pos ⟨hlen, hhead, hcurve⟩⟩

def pointTemplate (x y : Nat) : KeyTemplate :=
  .secp256k1 ⟨Endian.beBytes 32 x, Endian.beBytes_length 32 x⟩
    ⟨Endian.beBytes 32 y, Endian.beBytes_length 32 y⟩

def generatorTemplate : KeyTemplate :=
  pointTemplate 0x79be667ef9dcbbac55a06295ce870b07029bfcdb2dce28d959f2815b16f81798
    0x483ada7726a3c4655da4fbfc0e1108a8fd17b448a68554199c47d08ffb10d4b8

theorem knowsCurve_generator :
    KnowsCurve pointK256 OpenpgpSlot.sig generatorTemplate.response := by
  apply (knowsCurve_iff pointK256_readsPoints OpenpgpSlot.sig generatorTemplate.response).mpr
  intro pk hpk
  have hdetected : classify OpenpgpSlot.sig generatorTemplate.response =
      .ok (.secp256k1, generatorTemplate.response.drop 5) := by decide +kernel
  have hsame := ((classify_secp256k1_iff_holdsPoint OpenpgpSlot.sig _ pk).mpr hpk).symm.trans
    hdetected
  obtain rfl : pk = generatorTemplate.response.drop 5 := by simpa using hsame
  decide +kernel

def p256Template : KeyTemplate :=
  pointTemplate 0x6b17d1f2e12c4247f8bce6e563a440f277037d812deb33a0f4a13945d898c296
    0x4fe342e2fe1a7f9b8ee7eb4a7c0f9e162bce33576b315ececbb6406837bf51f5

def p256Point : Bytes := p256Template.response.drop 5

/-- Detection reports it as a key of secp256k1, an address is made of it, and it signs
nothing. -/
theorem classify_p256 :
    (classify OpenpgpSlot.sig p256Template.response = .ok (.secp256k1, p256Point) ∧
      (∀ keccak256, ∃ a, Eth.addressFromPubkey keccak256 p256Point = .ok a) ∧
      ∀ hash rs chainId, ∃ m,
        Eth.ethereumSignature pointK256 p256Point hash rs chainId = .error (.signature m)) ∧
    ¬ ∀ k : K256, k.ReadsPoints → ∀ slot raw, KnowsCurve k slot raw := by
  have hdetected : classify OpenpgpSlot.sig p256Template.response =
      .ok (.secp256k1, p256Point) := by decide +kernel
  have hother : ¬ OnCurve p256Point := by decide +kernel
  refine ⟨⟨hdetected, ?_, ?_⟩, ?_⟩
  · intro keccak256
    exact ⟨_, if_neg (by decide)⟩
  · intro hash rs chainId
    exact ethereumSignature_of_not_onCurve pointK256_readsPoints (by decide) (by decide) hother
      hash rs chainId
  · intro hall
    exact hother ((hall pointK256 pointK256_readsPoints OpenpgpSlot.sig
      p256Template.response).signs p256Point hdetected).1

end Openpgp
end YubiWallet
