import YubiWallet.GeneralAuthenticate
import YubiWallet.Lib.Outcome

/-! What the TLV reader of the PIV applet accepts, and the two nested templates that it
reads: signatures in `7C { 82 }` and certificates in `53 { 70 }`. -/
namespace YubiWallet.Piv
open Outcome

/-- The ways in which reading fails. -/
inductive TlvFailure where
  | truncated
  | badLength (first : UInt8)
  | overrun (t : UInt8)
  | notFound (tag : UInt8)

def TlvFailure.text : TlvFailure → String
  | .truncated => "TLV length truncated"
  | .badLength first => s!"bad BER length byte {fmtHash04x first}"
  | .overrun t => s!"TLV {fmtHash04x t} overruns buffer"
  | .notFound tag => s!"TLV tag {fmtHash04x tag} not found"

theorem readLenBytes_error {data : Bytes} {num i len : Nat} {e : Error}
    (h : readLenBytes data num i len = .error e) : e = .parse TlvFailure.truncated.text := by
  induction num generalizing i len with
  | zero => cases h
  | succ num ih =>
    rw [readLenBytes] at h
    split at h
    · exact (Except.error.inj h).symm
    · exact ih h

theorem readBerLen_error {data : Bytes} {i : Nat} {e : Error}
    (h : readBerLen data i = .error e) : ∃ f : TlvFailure, e = .parse f.text := by
  simp only [readBerLen] at h
  split at h
  · exact ⟨.truncated, (Except.error.inj h).symm⟩
  · rename_i first _
    split at h
    · cases h
    · split at h
      · exact ⟨.badLength first, (Except.error.inj h).symm⟩
      · exact ⟨.truncated, readLenBytes_error h⟩

theorem readTlvFrom_error {data : Bytes} {tag : UInt8} {i : Nat} {e : Error}
    (h : readTlvFrom data tag i = .error e) : ∃ f : TlvFailure, e = .parse f.text := by
  fun_induction readTlvFrom data tag i with
  | case1 i hi => exact ⟨.notFound tag, (Except.error.inj h).symm⟩
  | case2 i t ht e' he =>
    obtain rfl := Except.error.inj h
    exact readBerLen_error he
  | case3 i len start hlen hfit ht => cases h
  | case4 i t ht len start hlen hfit hne _ ih => exact ih h
  | case5 i t ht len start hlen hover => exact ⟨.overrun t, (Except.error.inj h).symm⟩

theorem readTlv_error {data : Bytes} {tag : UInt8} {e : Error}
    (h : readTlv data tag = .error e) : ∃ f : TlvFailure, e = .parse f.text :=
  readTlvFrom_error h

theorem readTlv_ok_iff_locates (data : Bytes) (tag : UInt8) (v : Bytes) :
    readTlv data tag = .ok v ↔ Ber.Locates tag v data := by
  rw [readTlv_eq_ok_iff, Ber.find_eq_some_iff]

/-- `read_tlv` accepts its grammar and nothing else; the value is the only one. -/
theorem readTlv_accepts (data : Bytes) (tag : UInt8) :
    (∀ v, readTlv data tag = .ok v ↔ Ber.Locates tag v data) ∧
    (∀ v v', Ber.Locates tag v data → Ber.Locates tag v' data → v = v') ∧
    ((∀ v, ¬ Ber.Locates tag v data) →
      ∃ f : TlvFailure, readTlv data tag = .error (.parse f.text)) := by
  have hok := readTlv_ok_iff_locates data tag
  refine ⟨hok, ?_, ?_⟩
  · intro v v' hv hv'
    exact Except.ok.inj (((hok v).mpr hv).symm.trans ((hok v').mpr hv'))
  · intro hnone
    cases hread : readTlv data tag with
    | ok v => exact absurd ((hok v).mp hread) (hnone v)
    | error e =>
      obtain ⟨f, rfl⟩ := readTlv_error hread
      exact ⟨f, rfl⟩

/-- The element as the encoders of this module write it. -/
def encodeTlv (tag : UInt8) (v : Bytes) : Bytes := [tag] ++ berLen v.length ++ v

theorem encodeTlv_length (tag : UInt8) (v : Bytes) : v.length < (encodeTlv tag v).length := by
  simp only [encodeTlv, List.length_append, List.length_singleton]
  omega

/-- An encoded element is found behind elements with other tags. -/
theorem readTlv_encoded {tag : UInt8} {v : Bytes} {skipped : List Ber.Wire} (rest : Bytes)
    (hskipped : ∀ e ∈ skipped, e.tag ≠ tag) (hlen : v.length < 2 ^ 24) :
    readTlv (Ber.wireBytes skipped ++ encodeTlv tag v ++ rest) tag = .ok v := by
  have hread : Ber.readElement (encodeTlv tag v ++ rest) = some ((tag, v), rest) :=
    readElement_berLen tag hlen rest
  rw [readTlv_eq_ok_iff, List.append_assoc, Ber.find_skip _ hskipped,
    Ber.find_of_readElement tag hread, if_pos rfl]

theorem readTlv_encodeTlv {tag : UInt8} {v : Bytes} (hlen : v.length < 2 ^ 24) :
    readTlv (encodeTlv tag v) tag = .ok v := by
  have hread := @readTlv_encoded tag v [] [] (by simp) hlen
  simpa using hread

/-- An element within a template of less than 2^24 bytes is itself that short. -/
theorem template_fits {outer inner : UInt8} {skipped : List Ber.Wire} {v rest : Bytes}
    (h : (encodeTlv outer (Ber.wireBytes skipped ++ encodeTlv inner v ++ rest)).length < 2 ^ 24) :
    (Ber.wireBytes skipped ++ encodeTlv inner v ++ rest).length < 2 ^ 24 ∧ v.length < 2 ^ 24 := by
  have houter := encodeTlv_length outer (Ber.wireBytes skipped ++ encodeTlv inner v ++ rest)
  have hinner := encodeTlv_length inner v
  have hsum : (Ber.wireBytes skipped ++ encodeTlv inner v ++ rest).length =
      (Ber.wireBytes skipped).length + (encodeTlv inner v).length + rest.length := by
    rw [List.length_append, List.length_append]
  omega

theorem template_length {message : Bytes} (h : message.length ≤ 2 ^ 24 - 8) :
    (generalAuthenticateTemplate message).length < 2 ^ 24 := by
  simp only [generalAuthenticateTemplate, List.length_append, berLen_length,
    List.length_cons, List.length_nil]
  split_ifs <;> omega

/-- `82 00`, as an element of the grammar. -/
def emptyResponse : Ber.Wire := ⟨tagResponse, .short 0 (by decide), [], rfl⟩

theorem template_eq (message : Bytes) : generalAuthenticateTemplate message =
    Ber.wireBytes [emptyResponse] ++ encodeTlv tagChallenge message ++ [] := by
  simp [generalAuthenticateTemplate, encodeTlv, emptyResponse, Ber.Wire.bytes,
    Ber.LengthField.bytes]

theorem readTlv_challenge {message : Bytes} (h : message.length < 2 ^ 24) :
    readTlv (generalAuthenticateTemplate message) tagChallenge = .ok message := by
  rw [template_eq]
  refine readTlv_encoded [] ?_ h
  intro e he
  obtain rfl := List.mem_singleton.mp he
  decide

theorem readTlv_emptyResponse (message : Bytes) :
    readTlv (generalAuthenticateTemplate message) tagResponse = .ok [] := by
  rw [readTlv_ok_iff_locates, template_eq, List.append_assoc]
  exact ⟨[], emptyResponse, encodeTlv tagChallenge message ++ [], rfl, by simp, rfl, rfl⟩

/-- The request template is read back by the module's own reader, and the response
template gives the signature behind any elements with other tags. -/
theorem generalAuthenticate_exchange :
    (∀ message : Bytes, message.length ≤ 2 ^ 24 - 8 →
      let data := buildGeneralAuthenticateData message
      let inner := generalAuthenticateTemplate message
      readTlv data tagDynamicAuth = .ok inner ∧
        data = [tagDynamicAuth] ++ berLen inner.length ++ inner ∧
        readTlv inner tagResponse = .ok [] ∧ readTlv inner tagChallenge = .ok message) ∧
    (∀ message message' : Bytes, message.length ≤ 2 ^ 24 - 8 → message'.length ≤ 2 ^ 24 - 8 →
      message ≠ message' →
      buildGeneralAuthenticateData message ≠ buildGeneralAuthenticateData message') ∧
    (∀ (skipped : List Ber.Wire) (sig rest : Bytes), (∀ e ∈ skipped, e.tag ≠ tagResponse) →
      let inner := Ber.wireBytes skipped ++ encodeTlv tagResponse sig ++ rest
      (encodeTlv tagDynamicAuth inner).length < 2 ^ 24 →
      parseSignatureResponse (encodeTlv tagDynamicAuth inner) = .ok sig) := by
  have hread : ∀ message : Bytes, message.length ≤ 2 ^ 24 - 8 →
      readTlv (buildGeneralAuthenticateData message) tagDynamicAuth =
        .ok (generalAuthenticateTemplate message) := by
    intro message h
    exact readTlv_encodeTlv (template_length h)
  have hchallenge : ∀ message : Bytes, message.length ≤ 2 ^ 24 - 8 →
      readTlv (generalAuthenticateTemplate message) tagChallenge = .ok message := by
    intro message h
    exact readTlv_challenge (by omega)
  refine ⟨?_, ?_, ?_⟩
  · intro message h
    exact ⟨hread message h, rfl, readTlv_emptyResponse message, hchallenge message h⟩
  · intro message message' h h' hne heq
    have hinner : generalAuthenticateTemplate message = generalAuthenticateTemplate message' :=
      Except.ok.inj ((hread message h).symm.trans (heq ▸ hread message' h'))
    exact hne (Except.ok.inj ((hchallenge message h).symm.trans (hinner ▸ hchallenge message' h')))
  · intro skipped sig rest hskipped inner hlen
    obtain ⟨hinner, hsig⟩ := template_fits hlen
    simp only [parseSignatureResponse, bind_eq_ok_iff]
    exact ⟨inner, readTlv_encodeTlv hinner, readTlv_encoded rest hskipped hsig⟩

theorem generalAuthenticate_exchange_sample :
    let info : Ber.Wire := ⟨0x80, .short 1 (by decide), [0x00], rfl⟩
    readTlv (buildGeneralAuthenticateData [1, 2, 3]) tagDynamicAuth =
        .ok (generalAuthenticateTemplate [1, 2, 3]) ∧
      readTlv (generalAuthenticateTemplate [1, 2, 3]) tagChallenge = .ok [1, 2, 3] ∧
      buildGeneralAuthenticateData [1, 2, 3] ≠ buildGeneralAuthenticateData [1, 2, 4] ∧
      parseSignatureResponse (encodeTlv tagDynamicAuth
        (Ber.wireBytes [info] ++ encodeTlv tagResponse (List.replicate 64 7) ++ [])) =
        .ok (List.replicate 64 7) := by
  intro info
  obtain ⟨hrequest, hinjective, hresponse⟩ := generalAuthenticate_exchange
  obtain ⟨hdata, -, -, hmessage⟩ := hrequest [1, 2, 3] (by decide)
  exact ⟨hdata, hmessage, hinjective _ _ (by decide) (by decide) (by decide),
    hresponse [info] _ [] (by decide) (by decide)⟩

/-- A search that finds no block fails for want of a key. -/
theorem extractEd25519FromCert_error {der : Bytes}
    (h : Window.extract ed25519SpkiPrefix 32 der = none) :
    ∃ m, extractEd25519FromCert der = .error (.pubkeyNotFound m) := by
  cases hkey : extractEd25519FromCert der with
  | ok k =>
    have hfound := (scanKey_eq_ok_iff _ _ _ _ der k).mp hkey
    rw [h] at hfound
    cases hfound
  | error e =>
    obtain ⟨m, rfl⟩ := scanKey_error hkey
    exact ⟨m, rfl⟩

/-- The certificate object of a slot, and the key in its certificate. -/
theorem certificate_recovered (skipped : List Ber.Wire) (cert rest : Bytes)
    (hskipped : ∀ e ∈ skipped, e.tag ≠ tagCertificate)
    (hlen : (encodeTlv tagDataObject (Ber.wireBytes skipped ++ encodeTlv tagCertificate cert ++
      rest)).length < 2 ^ 24) :
    let resp := encodeTlv tagDataObject
      (Ber.wireBytes skipped ++ encodeTlv tagCertificate cert ++ rest)
    (∀ (pre post : Bytes) (key : BytesN 32), cert = pre ++ ed25519SpkiPrefix ++ key.val ++ post →
      ¬ ed25519SpkiPrefix <:+: pre →
      extractCertificate resp = .ok cert ∧ extractEd25519FromCert cert = .ok key) ∧
    (cert = [] ∨ (¬ ∃ (pre post : Bytes) (key : BytesN 32),
        cert = pre ++ ed25519SpkiPrefix ++ key.val ++ post) →
      ∃ m, readCertificateKey resp = .error (.pubkeyNotFound m)) := by
  intro resp
  obtain ⟨hobject, hcert⟩ := template_fits hlen
  have hread : readTlv resp tagDataObject =
      .ok (Ber.wireBytes skipped ++ encodeTlv tagCertificate cert ++ rest) :=
    readTlv_encodeTlv hobject
  have hinner := readTlv_encoded rest hskipped hcert
  have hextract : cert ≠ [] → extractCertificate resp = .ok cert := by
    intro hne
    simp only [extractCertificate, bind_eq_ok_iff]
    exact ⟨_, hread, cert, hinner, if_neg (by simpa using hne)⟩
  constructor
  · intro pre post key hsplit hpre
    constructor
    · apply hextract
      rw [hsplit]
      simp [ed25519SpkiPrefix]
    · apply (scanKey_eq_ok_iff _ _ _ _ cert key).mpr
      apply (Window.extract_eq_some_iff (by decide) (by decide) 32 cert key.val).mpr
      exact ⟨pre, post, hsplit, key.property, hpre⟩
  · intro hnone
    by_cases hne : cert = []
    · subst hne
      refine ⟨"empty certificate in slot", ?_⟩
      have hempty : extractCertificate resp = .error (.pubkeyNotFound "empty certificate in slot") := by
        simp only [extractCertificate, bind_eq_error_iff]
        exact Or.inr ⟨_, hread, Or.inr ⟨[], hinner, rfl⟩⟩
      simp only [readCertificateKey, bind_eq_error_iff]
      exact Or.inl hempty
    · have hnokey : Window.extract ed25519SpkiPrefix 32 cert = none := by
        cases hx : Window.extract ed25519SpkiPrefix 32 cert with
        | none => rfl
        | some k =>
          obtain ⟨pre, post, hsplit, hk, -⟩ :=
            (Window.extract_eq_some_iff (by decide) (by decide) 32 cert k).mp hx
          exact absurd ⟨pre, post, ⟨k, hk⟩, hsplit⟩ (hnone.resolve_left hne)
      obtain ⟨m, hm⟩ := extractEd25519FromCert_error hnokey
      refine ⟨m, ?_⟩
      simp only [readCertificateKey, bind_eq_error_iff]
      exact Or.inr ⟨cert, hextract hne, hm⟩

/-- The certificate information, a certificate of 46 bytes, and an error code behind it. -/
theorem certificate_recovered_sample :
    let info : Ber.Wire := ⟨0x71, .short 1 (by decide), [0x00], rfl⟩
    let resp := encodeTlv tagDataObject (Ber.wireBytes [info] ++
      encodeTlv tagCertificate ([0x30, 0x2A] ++ ed25519SpkiPrefix ++ (BytesN.fill 32 7).val ++ []) ++
      [0xFE, 0x00])
    extractCertificate resp =
        .ok ([0x30, 0x2A] ++ ed25519SpkiPrefix ++ (BytesN.fill 32 7).val ++ []) ∧
      extractEd25519FromCert ([0x30, 0x2A] ++ ed25519SpkiPrefix ++ (BytesN.fill 32 7).val ++ []) =
        .ok (BytesN.fill 32 7) :=
  (certificate_recovered [⟨0x71, .short 1 (by decide), [0x00], rfl⟩]
    ([0x30, 0x2A] ++ ed25519SpkiPrefix ++ (BytesN.fill 32 7).val ++ []) [0xFE, 0x00]
    (by decide) (by decide)).1 [0x30, 0x2A] [] (BytesN.fill 32 7) rfl (by decide)

end YubiWallet.Piv
