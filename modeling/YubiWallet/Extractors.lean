import YubiWallet.Openpgp
import YubiWallet.Piv

/-! The three public-key extractors: each gives the block behind the first marker, or
fails for want of a key. -/
namespace YubiWallet
open Window

/-- The extractor gives the block of the one cut at the marker, if the block has the right
form, and otherwise reports that there is no key. -/
structure ExtractsExactly (marker : Bytes) {len : Nat} (form : Bytes → Prop)
    (extract : Bytes → Except Error (BytesN len)) (b : Bytes) : Prop where
  ok_iff : ∀ k, extract b = .ok k ↔ ∃ c : Cut marker len b, c.block = k.val ∧ form k.val
  otherwise : (∀ k, extract b ≠ .ok k) → ∃ text, extract b = .error (.pubkeyNotFound text)
  unique : ∀ c d : Cut marker len b, c = d

/-- The search of the code finds the cut. -/
theorem extract_iff_cut {marker : Bytes} {len : Nat} (hm : Borderless marker)
    (hne : marker ≠ []) (b : Bytes) (k : BytesN len) :
    Window.extract marker len b = some k.val ↔
      ∃ c : Cut marker len b, c.block = k.val ∧ True := by
  rw [extract_eq_some_iff_cut hm hne]
  simp only [and_true]

theorem pubkeyNotFound_of_not_ok {len : Nat} {r : Except Error (BytesN len)}
    (herr : ∀ e, r = .error e → ∃ text, e = .pubkeyNotFound text) (h : ∀ k, r ≠ .ok k) :
    ∃ text, r = .error (.pubkeyNotFound text) := by
  cases r with
  | ok k => exact absurd rfl (h k)
  | error e =>
    obtain ⟨text, htext⟩ := herr e rfl
    exact ⟨text, by rw [htext]⟩

namespace Openpgp

theorem extractEd25519Pubkey_error {b : Bytes} {e : Error}
    (h : extractEd25519Pubkey b = .error e) : ∃ text, e = .pubkeyNotFound text := by
  unfold extractEd25519Pubkey at h
  split at h
  · exact ⟨_, (Except.error.inj h).symm⟩
  · exact scanKey_error h

theorem extractSecp256k1Pubkey_error {b : Bytes} {e : Error}
    (h : extractSecp256k1Pubkey b = .error e) : ∃ text, e = .pubkeyNotFound text := by
  unfold extractSecp256k1Pubkey at h
  split at h
  · exact ⟨_, (Except.error.inj h).symm⟩
  · split at h
    · rename_i e' he'
      rw [← Except.error.inj h]
      exact scanKey_error he'
    · split at h
      · exact ⟨_, (Except.error.inj h).symm⟩
      · cases h

/-- A point that begins with `04`. -/
theorem head_iff_getD (k : BytesN 65) : k.val.getD 0 0 = 0x04 ↔ k.val.head? = some 0x04 := by
  cases hk : k.val with
  | nil =>
    have := k.property
    rw [hk] at this
    cases this
  | cons x xs => simp

theorem extractEd25519Pubkey_exact (b : Bytes) :
    ExtractsExactly ed25519Marker (fun _ => True) extractEd25519Pubkey b where
  ok_iff k := by
    rw [extractEd25519Pubkey_eq_ok_iff]
    exact extract_iff_cut ed25519Marker_borderless (by decide) b k
  otherwise := pubkeyNotFound_of_not_ok fun _ => extractEd25519Pubkey_error
  unique := Cut.unique ed25519Marker_borderless

theorem extractSecp256k1Pubkey_exact (b : Bytes) :
    ExtractsExactly secp256k1Marker (fun k => k.head? = some 0x04) extractSecp256k1Pubkey b where
  ok_iff k := by
    rw [extractSecp256k1Pubkey_eq_ok_iff, head_iff_getD,
      extract_iff_cut secp256k1Marker_borderless (by decide) b k]
    constructor
    · intro h
      obtain ⟨⟨c, hc, -⟩, hhead⟩ := h
      exact ⟨c, hc, hhead⟩
    · intro h
      obtain ⟨c, hc, hhead⟩ := h
      exact ⟨⟨c, hc, trivial⟩, hhead⟩
  otherwise := pubkeyNotFound_of_not_ok fun _ => extractSecp256k1Pubkey_error
  unique := Cut.unique secp256k1Marker_borderless

end Openpgp

namespace Piv

theorem ed25519SpkiPrefix_borderless : Borderless ed25519SpkiPrefix := by decide

theorem extractEd25519FromCert_exact (b : Bytes) :
    ExtractsExactly ed25519SpkiPrefix (fun _ => True) extractEd25519FromCert b where
  ok_iff k := by
    unfold extractEd25519FromCert
    rw [scanKey_eq_ok_iff]
    exact extract_iff_cut ed25519SpkiPrefix_borderless (by decide) b k
  otherwise := pubkeyNotFound_of_not_ok fun _ => scanKey_error
  unique := Cut.unique ed25519SpkiPrefix_borderless

end Piv

/-- Each extractor takes the first marker, exactly. -/
theorem extractors_exact (b : Bytes) :
    ExtractsExactly [0x86, 0x20] (fun _ => True) Openpgp.extractEd25519Pubkey b ∧
    ExtractsExactly [0x86, 0x41] (fun k => k.head? = some 0x04)
      Openpgp.extractSecp256k1Pubkey b ∧
    ExtractsExactly [0x30, 0x2A, 0x30, 0x05, 0x06, 0x03, 0x2B, 0x65, 0x70, 0x03, 0x21, 0x00]
      (fun _ => True) Piv.extractEd25519FromCert b :=
  ⟨Openpgp.extractEd25519Pubkey_exact b, Openpgp.extractSecp256k1Pubkey_exact b,
    Piv.extractEd25519FromCert_exact b⟩

end YubiWallet
