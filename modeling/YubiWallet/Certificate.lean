import YubiWallet.Extractors
import YubiWallet.Lib.X509
import YubiWallet.Templates

/-! The key that is read from a certificate against the certificate's subject key. -/
namespace YubiWallet.Piv
open X509 (Certificate SubjectPublicKeyInfo)

/-- The object identifier 1.3.101.112. -/
def ed25519Oid : Bytes := [0x2B, 0x65, 0x70]

/-- An Ed25519 key: no parameters, and no unused bits. -/
def ed25519Spki (key : BytesN 32) : SubjectPublicKeyInfo := ⟨⟨ed25519Oid, none⟩, ⟨0x00, key.val⟩⟩

/-- The key that is read is the subject's: an Ed25519 key is found, and a key of another
algorithm is reported as none. -/
structure ShowsSubjectKey (c : Certificate) : Prop where
  ed25519 : ∀ key, c.spki = ed25519Spki key → extractEd25519FromCert c.encode = .ok key
  other : c.spki.algorithm.algorithm ≠ ed25519Oid →
    ∃ m, extractEd25519FromCert c.encode = .error (.pubkeyNotFound m)

/-- The prefix stands in a field in front of the key, and what follows its first occurrence
is not the key. -/
def Diverted (c : Certificate) (key : BytesN 32) : Prop :=
  ∃ a b, c.beforeKey = a ++ ed25519SpkiPrefix ++ b ∧ ¬ ed25519SpkiPrefix <:+: a ∧
    (b ++ ed25519SpkiPrefix ++ key.val ++ c.afterKey).take 32 ≠ key.val

/-- No other field is taken for the key. -/
structure Undiverted (c : Certificate) : Prop where
  ed25519 : ∀ key, c.spki = ed25519Spki key → ¬ Diverted c key
  other : c.spki.algorithm.algorithm ≠ ed25519Oid →
    ¬ ed25519SpkiPrefix <:+: c.encode.take (c.encode.length - 32)

/-- The prefix is what an Ed25519 key begins with. -/
theorem ed25519Spki_encode (key : BytesN 32) :
    (ed25519Spki key).encode = ed25519SpkiPrefix ++ key.val := by
  have halgorithm : (ed25519Spki key).algorithm.encode =
      [0x30, 0x05, 0x06, 0x03, 0x2B, 0x65, 0x70] := rfl
  have hlen : (0x00 :: key.val).length = 33 := by rw [List.length_cons, key.property]
  have hbits : X509.element 0x03 (0x00 :: key.val) = 0x03 :: 0x21 :: 0x00 :: key.val := by
    rw [X509.element_short 0x03 (by omega), hlen]
    rfl
  have hcontent : (0x30 :: 0x05 :: 0x06 :: 0x03 :: 0x2B :: 0x65 :: 0x70 :: 0x03 :: 0x21 ::
      0x00 :: key.val).length = 42 := by
    simp only [List.length_cons, key.property]
  have hencode : (ed25519Spki key).encode = X509.element 0x30 (0x30 :: 0x05 :: 0x06 :: 0x03 ::
      0x2B :: 0x65 :: 0x70 :: 0x03 :: 0x21 :: 0x00 :: key.val) := by
    rw [SubjectPublicKeyInfo.encode, halgorithm]
    change X509.element 0x30 (_ ++ X509.element 0x03 (0x00 :: key.val)) = _
    rw [hbits]
    rfl
  rw [hencode, X509.element_short 0x30 (by omega), hcontent]
  rfl

theorem extractEd25519FromCert_eq_ok_iff (der : Bytes) (key : BytesN 32) :
    extractEd25519FromCert der = .ok key ↔
      Window.extract ed25519SpkiPrefix 32 der = some key.val := scanKey_eq_ok_iff _ _ _ _ der key

/-- A certificate of an Ed25519 key is read as it should be unless the search is diverted. -/
theorem extract_ed25519Spki_iff {c : Certificate} {key : BytesN 32}
    (h : c.spki = ed25519Spki key) :
    extractEd25519FromCert c.encode = .ok key ↔ ¬ Diverted c key := by
  have hsplit : c.encode = c.beforeKey ++ ed25519SpkiPrefix ++ key.val ++ c.afterKey := by
    rw [c.encode_eq, h, ed25519Spki_encode, ← List.append_assoc]
  have hmarked := Window.extract_marked_iff ed25519SpkiPrefix_borderless (by decide) c.beforeKey
    key.val c.afterKey
  rw [key.property] at hmarked
  rw [extractEd25519FromCert_eq_ok_iff, hsplit]
  exact hmarked

theorem extract_error_iff (der : Bytes) :
    (∃ m, extractEd25519FromCert der = .error (.pubkeyNotFound m)) ↔
      ¬ ed25519SpkiPrefix <:+: der.take (der.length - 32) := by
  rw [← Window.extract_eq_none_iff (by decide)]
  constructor
  · intro h
    obtain ⟨m, hm⟩ := h
    cases hx : Window.extract ed25519SpkiPrefix 32 der with
    | none => rfl
    | some k =>
      obtain ⟨c, hc⟩ := (Window.extract_eq_some_iff_cut ed25519SpkiPrefix_borderless (by decide)
        32 der k).mp hx
      have hlen : k.length = 32 := hc ▸ c.block_length
      have hok := (extractEd25519FromCert_eq_ok_iff der ⟨k, hlen⟩).mpr hx
      rw [hm] at hok
      cases hok
  · intro hnone
    exact extractEd25519FromCert_error hnone

/-- The certificates whose subject key is shown are those without a field that looks like
one in front of it. -/
theorem certificate_showsSubjectKey_iff (c : Certificate) :
    ShowsSubjectKey c ↔ Undiverted c := by
  constructor
  · intro h
    constructor
    · intro key hkey
      exact (extract_ed25519Spki_iff hkey).mp (h.ed25519 key hkey)
    · intro hother
      exact (extract_error_iff c.encode).mp (h.other hother)
  · intro h
    constructor
    · intro key hkey
      exact (extract_ed25519Spki_iff hkey).mpr (h.ed25519 key hkey)
    · intro hother
      exact (extract_error_iff c.encode).mpr (h.other hother)

def ed25519Algorithm : X509.AlgorithmIdentifier := ⟨ed25519Oid, none⟩

/-- The common name, a UTF-8 string. -/
def commonName (text : Bytes) : X509.Name := [[⟨[0x55, 0x04, 0x03], (0x0C, text)⟩]]

/-- The common name of the issuer begins like an Ed25519 key. -/
def decoyCertificate : Certificate where
  tbsCertificate :=
    { version := some 2
      serialNumber := [0x01]
      signature := ed25519Algorithm
      issuer := commonName (ed25519SpkiPrefix ++ asBytes "AAAAAAAAAAAAAAAAAAAAAAAAAAAAAAAA")
      validity := ⟨.utcTime (asBytes "250101000000Z"), .utcTime (asBytes "350101000000Z")⟩
      subject := commonName (asBytes "yubikey")
      subjectPublicKeyInfo := ed25519Spki (.fill 32 0x07)
      issuerUniqueID := none
      subjectUniqueID := none
      extensions := none }
  signatureAlgorithm := ed25519Algorithm
  signatureValue := ⟨0x00, List.replicate 64 0x11⟩

theorem decoyCertificate_refuted : ¬ ShowsSubjectKey decoyCertificate := by
  rw [certificate_showsSubjectKey_iff]
  intro h
  apply h.ed25519 (.fill 32 0x07) rfl
  refine ⟨decoyCertificate.beforeKey.take 34, decoyCertificate.beforeKey.drop 46, ?_, ?_, ?_⟩
  · decide +kernel
  · decide +kernel
  · decide +kernel

end YubiWallet.Piv
