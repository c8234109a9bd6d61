import YubiWallet.Openpgp
import YubiWallet.Lib.Ber

/-! Curve detection against the public-key templates a card can answer with. -/
namespace YubiWallet.Openpgp

/-- The public-key data objects of GET PUBLIC KEY, by key type. -/
inductive KeyTemplate where
  | ed25519 (k : BytesN 32)
  | secp256k1 (x y : BytesN 32)
  | rsa (n e : Bytes)

namespace KeyTemplate

/-- The template `7F49 L { ... }` as it stands in the response. -/
def response : KeyTemplate → Bytes
  | .ed25519 k => [0x7F, 0x49, 0x22, 0x86, 0x20] ++ k.val
  | .secp256k1 x y => [0x7F, 0x49, 0x43, 0x86, 0x41, 0x04] ++ x.val ++ y.val
  | .rsa n e =>
    let body := Ber.encodeElement (0x81, n) ++ Ber.encodeElement (0x82, e)
    [0x7F, 0x49] ++ Ber.encodeLength body.length ++ body

/-- Detection reports the key that the template holds. -/
def Detected (slot : UInt8) (t : KeyTemplate) : Prop :=
  match t with
  | .ed25519 k => classify slot t.response = .ok (.ed25519, k.val)
  | .secp256k1 x y => classify slot t.response = .ok (.secp256k1, 0x04 :: x.val ++ y.val)
  | .rsa _ _ => ∃ e, classify slot t.response = .error e

/-- The key's own bytes do not imitate a marker: `86 20` does not stand in the first
coordinate of a point, nor in an RSA template before its last 32 bytes; and the first
`86 41` of an RSA template is not followed by `04` and 64 more bytes. -/
def Clean (t : KeyTemplate) : Prop :=
  match t with
  | .ed25519 _ => True
  | .secp256k1 x _ => ¬ ed25519Marker <:+: x.val
  | .rsa _ _ =>
    (¬ ed25519Marker <:+: t.response.take (t.response.length - 32)) ∧
    ¬ ∃ pre point post, t.response = pre ++ secp256k1Marker ++ point ++ post ∧
      point.length = 65 ∧ point.getD 0 0 = 0x04 ∧ ¬ secp256k1Marker <:+: pre

end KeyTemplate

/-- What detection makes of a response: the Ed25519 search decides first, and a point is
reported only where that search fails. -/
theorem classify_cases (slot : UInt8) (raw : Bytes) :
    (∃ k, Window.extract ed25519Marker 32 raw = some k ∧
      classify slot raw = .ok (.ed25519, k)) ∨
    (Window.extract ed25519Marker 32 raw = none ∧
      ∃ pk, Window.extract secp256k1Marker 65 raw = some pk ∧ pk.getD 0 0 = 0x04 ∧
        classify slot raw = .ok (.secp256k1, pk)) ∨
    (Window.extract ed25519Marker 32 raw = none ∧
      (¬ ∃ pk, Window.extract secp256k1Marker 65 raw = some pk ∧ pk.getD 0 0 = 0x04) ∧
      ∃ e, classify slot raw = .error e) := by
  cases hed : extractEd25519Pubkey raw with
  | ok k =>
    exact Or.inl ⟨k.val, (extractEd25519Pubkey_eq_ok_iff raw k).mp hed, by simp [classify, hed]⟩
  | error e =>
    have hnone := (extractEd25519Pubkey_eq_error_iff raw).mp ⟨e, hed⟩
    cases hk1 : extractSecp256k1Pubkey raw with
    | ok k =>
      obtain ⟨hpk, hhead⟩ := (extractSecp256k1Pubkey_eq_ok_iff raw k).mp hk1
      exact Or.inr (Or.inl ⟨hnone, k.val, hpk, hhead, by simp [classify, hed, hk1]⟩)
    | error e' =>
      refine Or.inr (Or.inr ⟨hnone, ?_, by simp [classify, hed, hk1]⟩)
      rintro ⟨pk, hpk, hhead⟩
      obtain ⟨_, _, -, hlen, -⟩ := (Window.extract_eq_some_iff secp256k1Marker_borderless
        (by decide) 65 raw pk).mp hpk
      have hok := (extractSecp256k1Pubkey_eq_ok_iff raw ⟨pk, hlen⟩).mpr ⟨hpk, hhead⟩
      simp [hk1] at hok

theorem classify_secp256k1_iff (slot : UInt8) (raw pk : Bytes) :
    classify slot raw = .ok (.secp256k1, pk) ↔
      Window.extract ed25519Marker 32 raw = none ∧
      Window.extract secp256k1Marker 65 raw = some pk ∧ pk.getD 0 0 = 0x04 := by
  rcases classify_cases slot raw with ⟨k, hk, hc⟩ | ⟨hn, q, hq, hhead, hc⟩ | ⟨hn, hno, e, hc⟩
  · simp [hc, hk]
  · rw [hc, hq]
    constructor
    · intro h
      obtain rfl : q = pk := by simpa using h
      exact ⟨hn, rfl, hhead⟩
    · rintro ⟨-, h, -⟩
      obtain rfl : q = pk := Option.some.inj h
      rfl
  · rw [hc]
    constructor
    · intro h
      simp at h
    · rintro ⟨-, hpk, hhead⟩
      exact absurd ⟨pk, hpk, hhead⟩ hno

theorem classify_error_iff (slot : UInt8) (raw : Bytes) :
    (∃ e, classify slot raw = .error e) ↔
      Window.extract ed25519Marker 32 raw = none ∧
      ¬ ∃ pk, Window.extract secp256k1Marker 65 raw = some pk ∧ pk.getD 0 0 = 0x04 := by
  rcases classify_cases slot raw with ⟨k, hk, hc⟩ | ⟨hn, q, hq, hhead, hc⟩ | ⟨hn, hno, e, hc⟩
  · simp [hc, hk]
  · refine ⟨fun ⟨e, he⟩ => by simp [hc] at he, fun ⟨_, hno⟩ => ?_⟩
    exact absurd ⟨q, hq, hhead⟩ hno
  · exact ⟨fun _ => ⟨hn, hno⟩, fun _ => ⟨e, hc⟩⟩

/-- Nothing in front of a key imitates a marker: the search stops right behind it. -/
theorem extract_ed25519_response (k : BytesN 32) :
    Window.extract ed25519Marker 32 (KeyTemplate.ed25519 k).response = some k.val := by
  refine (Window.extract_eq_some_iff ed25519Marker_borderless (by decide) 32 _ _).mpr ?_
  exact ⟨[0x7F, 0x49, 0x22], [], by simp [KeyTemplate.response, ed25519Marker], k.property,
    by decide⟩

theorem extract_secp256k1_response (x y : BytesN 32) :
    Window.extract secp256k1Marker 65 (KeyTemplate.secp256k1 x y).response =
      some (0x04 :: x.val ++ y.val) := by
  refine (Window.extract_eq_some_iff secp256k1Marker_borderless (by decide) 65 _ _).mpr ?_
  refine ⟨[0x7F, 0x49, 0x43], [], by simp [KeyTemplate.response, secp256k1Marker], ?_,
    by decide⟩
  simp [x.property, y.property]

/-- The search for `86 20` in the response of a point sees the header and the first
coordinate; the header has no `86 20`, and no `86` at its end. -/
theorem extract_point_eq_none_iff (x y : BytesN 32) :
    Window.extract ed25519Marker 32 (KeyTemplate.secp256k1 x y).response = none ↔
      ¬ ed25519Marker <:+: x.val := by
  have htake : (KeyTemplate.secp256k1 x y).response.take
      ((KeyTemplate.secp256k1 x y).response.length - 32) =
        [0x7F, 0x49, 0x43, 0x86, 0x41, 0x04] ++ x.val := by
    have hlen : (KeyTemplate.secp256k1 x y).response.length - 32 =
        ([0x7F, 0x49, 0x43, 0x86, 0x41, 0x04] ++ x.val).length := by
      simp [KeyTemplate.response, x.property, y.property]
    rw [hlen]
    exact List.take_append_length
  rw [Window.extract_eq_none_iff (by decide), htake]
  simp [ed25519Marker, List.infix_cons_iff, List.cons_prefix_cons]

/-- Detection reads the template for what it is exactly when the key's bytes do not
imitate a marker. -/
theorem classify_detected_iff (slot : UInt8) (t : KeyTemplate) :
    t.Detected slot ↔ t.Clean := by
  cases t with
  | ed25519 k =>
    rcases classify_cases slot (KeyTemplate.ed25519 k).response with ⟨k', hk, hc⟩ | ⟨hn, -⟩ | ⟨hn, -⟩
    · obtain rfl : k.val = k' := Option.some.inj ((extract_ed25519_response k).symm.trans hk)
      exact iff_of_true hc trivial
    · simp [extract_ed25519_response] at hn
    · simp [extract_ed25519_response] at hn
  | secp256k1 x y =>
    simp only [KeyTemplate.Detected, KeyTemplate.Clean, classify_secp256k1_iff,
      extract_point_eq_none_iff, extract_secp256k1_response]
    simp
  | rsa n e =>
    simp only [KeyTemplate.Detected, KeyTemplate.Clean, classify_error_iff,
      Window.extract_eq_none_iff (by decide : ed25519Marker ≠ []),
      Window.extract_eq_some_iff secp256k1Marker_borderless (by decide)]
    refine and_congr_right fun _ => not_congr ?_
    constructor
    · rintro ⟨pk, ⟨pre, post, h, hlen, hpre⟩, hhead⟩
      exact ⟨pre, pk, post, h, hlen, hhead, hpre⟩
    · rintro ⟨pre, pk, post, h, hlen, hhead, hpre⟩
      exact ⟨pk, ⟨pre, post, h, hlen, hpre⟩, hhead⟩

/-- A point of secp256k1 whose first coordinate begins with `86 20`: the detection
reports 32 bytes from the middle of it as an Ed25519 key. -/
def markedPoint : KeyTemplate :=
  .secp256k1 ⟨0x86 :: 0x20 :: List.replicate 30 0, by decide⟩
    ⟨[146, 152, 173, 247, 171, 35, 34, 194, 142, 38, 207, 47, 227, 58, 68, 143,
      243, 9, 37, 101, 43, 86, 60, 108, 187, 10, 94, 27, 236, 167, 92, 133], by decide⟩

theorem classify_markedPoint :
    classify OpenpgpSlot.sig markedPoint.response =
      .ok (.ed25519, List.replicate 30 0 ++ [146, 152]) ∧
    ¬ markedPoint.Detected OpenpgpSlot.sig := by
  have hread : classify OpenpgpSlot.sig markedPoint.response =
      .ok (.ed25519, List.replicate 30 0 ++ [146, 152]) := by decide +kernel
  refine ⟨hread, fun hdet => ?_⟩
  have hboth := hread.symm.trans hdet
  simp at hboth

end YubiWallet.Openpgp
