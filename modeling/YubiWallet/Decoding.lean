import YubiWallet.Extractors
import YubiWallet.Lib.Checked
import YubiWallet.Templates

/-! The decoders of card responses with the checks of indices, slices and sums that the
language makes. Each returns what the decoder without the checks gives. -/
namespace YubiWallet.Decoding
open Checked

/-- What `transmit` makes of the bytes that the card returned. -/
def transmit (resp : Bytes) : Run Error Bytes := do
  if resp.length < 2 then throw .shortResponse
  else do
    let high ← index resp (← sub resp.length 2)
    let low ← index resp (← sub resp.length 1)
    let status := high.toUInt16 <<< 8 ||| low.toUInt16
    if status = 0x9000 then slice resp 0 (← sub resp.length 2)
    else throw (.card status (statusWordMessage status))

/-- The loop over the `num` length bytes of a long form. -/
def readLenBytes (w : Width) (data : Bytes) : Nat → Nat → Nat → Run Error (Nat × Nat)
  | 0, i, len => pure (len, i)
  | num + 1, i, len =>
    match data[i]? with
    | none => throw (.parse "TLV length truncated")
    | some b => do
      let i ← add w i 1
      let high ← shiftLeft w len 8
      readLenBytes w data num i (high ||| b.toNat)

def readBerLen (w : Width) (data : Bytes) (i : Nat) : Run Error (Nat × Nat) :=
  match data[i]? with
  | none => throw (.parse "TLV length truncated")
  | some first => do
    let i ← add w i 1
    let num := (first &&& 0x7F).toNat
    if first < 0x80 then pure (first.toNat, i)
    else if num = 0 ∨ num > 4 then throw (.parse s!"bad BER length byte {fmtHash04x first}")
    else readLenBytes w data num i 0

/-- The element with tag `t` that starts at `start`: its value, if it has the tag that is
looked for, and the index behind it otherwise. -/
def takeElement (w : Width) (data : Bytes) (tag t : UInt8) (len start : Nat) :
    Run Error (Bytes ⊕ Nat) :=
  match (checkedAdd w start len).filter fun stop => stop ≤ data.length with
  | none => throw (.parse s!"TLV {fmtHash04x t} overruns buffer")
  | some stop =>
    if t = tag then do
      let value ← slice data start stop
      pure (.inl value)
    else pure (.inr stop)

/-- One round of the loop of `read_tlv`. -/
def readTlvRound (w : Width) (data : Bytes) (tag : UInt8) (i : Nat) : Run Error (Bytes ⊕ Nat) :=
  if i < data.length then do
    let t ← index data i
    let next ← add w i 1
    let (len, start) ← readBerLen w data next
    takeElement w data tag t len start
  else throw (.parse s!"TLV tag {fmtHash04x tag} not found")

/-- There are no more rounds than bytes, and one that ends the loop. -/
def readTlv (w : Width) (data : Bytes) (tag : UInt8) : Run Error Bytes :=
  loop (readTlvRound w data tag) (data.length + 1) 0

def parseSignatureResponse (w : Width) (resp : Bytes) : Run Error Bytes := do
  let dynamic ← readTlv w resp Piv.tagDynamicAuth
  readTlv w dynamic Piv.tagResponse

def extractCertificate (w : Width) (resp : Bytes) : Run Error Bytes := do
  let object ← readTlv w resp Piv.tagDataObject
  let cert ← readTlv w object Piv.tagCertificate
  if cert.isEmpty then throw (.pubkeyNotFound "empty certificate in slot") else pure cert

/-- A window must have a size. -/
def position (m tlv : Bytes) : Run Error (Option Nat) :=
  if m.length = 0 then crash .window else pure (Window.position m tlv)

/-- The search that the three extractors share. -/
def scanKey (w : Width) (m : Bytes) (len : Nat) (truncated missing : String) (tlv : Bytes) :
    Run Error (BytesN len) := do
  match ← position m tlv with
  | none => throw (.pubkeyNotFound missing)
  | some pos =>
    let start ← add w pos m.length
    let stop ← add w start len
    if stop > tlv.length then throw (.pubkeyNotFound truncated)
    else do
      let key ← slice tlv start stop
      expect (toArray len key)

def extractEd25519FromCert (w : Width) (der : Bytes) : Run Error (BytesN 32) :=
  scanKey w Piv.ed25519SpkiPrefix 32 "truncated Ed25519 key in cert"
    "no Ed25519 SubjectPublicKeyInfo in certificate (is the slot Ed25519?)" der

def extractEd25519Pubkey (w : Width) (tlv : Bytes) : Run Error (BytesN 32) :=
  if tlv.length < 2 then throw (.pubkeyNotFound "GET PUBLIC KEY response too short")
  else
    scanKey w Openpgp.ed25519Marker 32 "truncated 0x86 public-key TLV"
      s!"no Ed25519 (0x86,0x20) tag in response (TLV: {Hex.encode tlv})" tlv

def extractSecp256k1Pubkey (w : Width) (tlv : Bytes) : Run Error (BytesN 65) :=
  if tlv.length < 2 then throw (.pubkeyNotFound "GET PUBLIC KEY response too short")
  else do
    let point ← scanKey w Openpgp.secp256k1Marker 65 "truncated 0x86 secp256k1 point TLV"
      s!"no secp256k1 (0x86,0x41) tag in response (TLV: {Hex.encode tlv})" tlv
    let first ← index point.val 0
    if first ≠ 0x04 then
      throw (.pubkeyNotFound
        s!"expected uncompressed point (0x04 prefix), got {fmtHash04x first}")
    else pure point

theorem transmit_returns (resp : Bytes) :
    Returns (transmit resp) (Apdu.decodeResponse (.ok resp)) := by
  unfold transmit
  by_cases hshort : resp.length < 2
  · rw [if_pos hshort]
    have hdecode : Apdu.decodeResponse (.ok resp) = .error .shortResponse := if_pos hshort
    rw [hdecode]
    exact Returns.throw _
  · rw [if_neg hshort]
    apply Returns.step (Returns.sub (by omega))
    apply Returns.step (Returns.index_getD (by omega) 0)
    apply Returns.step (Returns.sub (by omega))
    apply Returns.step (Returns.index_getD (by omega) 0)
    by_cases hstatus : Apdu.statusWord resp = 0x9000
    · have hdecode : Apdu.decodeResponse (.ok resp) = .ok (resp.take (resp.length - 2)) := by
        rw [Apdu.decodeResponse, if_neg hshort, if_pos hstatus]
      rw [hdecode]
      unfold Apdu.statusWord at hstatus
      rw [if_pos hstatus]
      refine Returns.step (Returns.sub (by omega)) ?_
      have hslice : Returns (slice resp 0 (resp.length - 2) : Run Error Bytes) _ :=
        Returns.slice (Nat.zero_le _) (Nat.sub_le _ _)
      rw [List.drop_zero, Nat.sub_zero] at hslice
      exact hslice
    · have hdecode : Apdu.decodeResponse (.ok resp) =
          .error (.card (Apdu.statusWord resp) (statusWordMessage (Apdu.statusWord resp))) := by
        rw [Apdu.decodeResponse, if_neg hshort, if_neg hstatus]
      rw [hdecode]
      unfold Apdu.statusWord at hstatus
      rw [if_neg hstatus]
      exact Returns.throw _

/-- Before each of at most four bytes, the length is below what is left of 32 bits. -/
theorem readLenBytes_returns {w : Width} {data : Bytes} (hdata : Fits w data) {num j i len : Nat}
    (hnum : j + num ≤ 4) (hlen : len < 256 ^ j) :
    Returns (readLenBytes w data num i len) (Piv.readLenBytes data num i len) := by
  induction num generalizing j i len with
  | zero => exact Returns.pure _
  | succ num ih =>
    unfold readLenBytes Piv.readLenBytes
    cases hb : data[i]? with
    | none => exact Returns.throw _
    | some b =>
      have hi : i < data.length := (List.getElem?_eq_some_iff.mp hb).1
      have hbyte := b.toNat_lt
      have hshift : len <<< 8 = len * 256 := Nat.shiftLeft_eq len 8
      have hor : len <<< 8 ||| b.toNat = len * 256 + b.toNat := by
        rw [← Nat.shiftLeft_add_eq_or_of_lt (by simpa using hbyte), hshift]
      have hnext : len * 256 + b.toNat < 256 ^ (j + 1) := by
        rw [pow_succ]
        omega
      have hfits : len <<< 8 < 2 ^ w.bits := by
        calc
          len <<< 8 < 256 ^ (j + 1) := by omega
          _ ≤ 256 ^ 4 := Nat.pow_le_pow_right (by decide) (by omega)
          _ ≤ 2 ^ w.bits := w.two_pow_32_le
      have hrest := ih (i := i + 1) (by omega) hnext
      rw [← hor] at hrest
      exact Returns.step (Returns.add (Fits.add_lt hdata (by omega) (by decide)))
        (Returns.step (Returns.shiftLeft hfits) hrest)

theorem readBerLen_returns {w : Width} {data : Bytes} (hdata : Fits w data) (i : Nat) :
    Returns (readBerLen w data i) (Piv.readBerLen data i) := by
  unfold readBerLen Piv.readBerLen
  cases hfirst : data[i]? with
  | none => exact Returns.throw _
  | some first =>
    have hi : i < data.length := (List.getElem?_eq_some_iff.mp hfirst).1
    apply Returns.step (Returns.add (Fits.add_lt hdata (by omega) (by decide)))
    by_cases hshort : first < 0x80
    · simp only [if_pos hshort]
      exact Returns.pure _
    · simp only [if_neg hshort]
      by_cases hnum : (first &&& 0x7F).toNat = 0 ∨ (first &&& 0x7F).toNat > 4
      · simp only [if_pos hnum]
        exact Returns.throw _
      · simp only [if_neg hnum]
        exact readLenBytes_returns hdata (j := 0) (by omega) (by decide)

/-- Guarding the sum against overflow and the end of the data is guarding it against the
end. -/
theorem checkedAdd_filter {w : Width} {data : Bytes} (hdata : Fits w data) (start len : Nat) :
    ((checkedAdd w start len).filter fun stop => stop ≤ data.length) =
      if start + len ≤ data.length then some (start + len) else none := by
  have htwo := w.two_pow_bits
  unfold Fits at hdata
  unfold checkedAdd
  by_cases hfit : start + len ≤ data.length
  · rw [if_pos hfit, if_pos (by omega)]
    simp [hfit]
  · rw [if_neg hfit]
    split
    · simp only [Option.filter_some, decide_eq_true_eq, if_neg hfit]
    · rfl

theorem takeElement_found {w : Width} {data : Bytes} (hdata : Fits w data) {tag t : UInt8}
    {len start : Nat} (hfit : start + len ≤ data.length) (ht : t = tag) :
    Returns (takeElement w data tag t len start) (.ok (.inl ((data.drop start).take len))) := by
  have hslice : Returns (slice data start (start + len) : Run Error Bytes) _ :=
    Returns.slice (Nat.le_add_right start len) hfit
  rw [Nat.add_sub_cancel_left] at hslice
  unfold takeElement
  rw [checkedAdd_filter hdata, if_pos hfit]
  simp only [if_pos ht]
  exact Returns.step hslice (Returns.pure _)

theorem takeElement_next {w : Width} {data : Bytes} (hdata : Fits w data) {tag t : UInt8}
    {len start : Nat} (hfit : start + len ≤ data.length) (ht : t ≠ tag) :
    Returns (takeElement w data tag t len start) (.ok (.inr (start + len))) := by
  unfold takeElement
  rw [checkedAdd_filter hdata, if_pos hfit]
  simp only [if_neg ht]
  exact Returns.pure _

theorem takeElement_overrun {w : Width} {data : Bytes} (hdata : Fits w data) {tag t : UInt8}
    {len start : Nat} (hover : ¬ start + len ≤ data.length) :
    Returns (takeElement w data tag t len start)
      (.error (.parse s!"TLV {fmtHash04x t} overruns buffer")) := by
  unfold takeElement
  rw [checkedAdd_filter hdata, if_neg hover]
  exact Returns.throw _

/-- A round that finds a tag goes on to read the length behind it. -/
theorem readTlvRound_of_tag {w : Width} {data : Bytes} (hdata : Fits w data) {tag t : UInt8}
    {i : Nat} (ht : data[i]? = some t) {r : Except Error (Bytes ⊕ Nat)}
    (hr : Returns (readBerLen w data (i + 1) >>= fun x => takeElement w data tag t x.1 x.2) r) :
    Returns (readTlvRound w data tag i) r := by
  have hi : i < data.length := (List.getElem?_eq_some_iff.mp ht).1
  unfold readTlvRound
  rw [if_pos hi]
  exact Returns.step (Returns.index ht)
    (Returns.step (Returns.add (Fits.add_lt hdata hi.le (by decide))) hr)

/-- A round ends the loop, or it moves the index forward, within the data. -/
theorem readTlvRound_returns {w : Width} {data : Bytes} (hdata : Fits w data) (tag : UInt8)
    (i : Nat) :
    Returns (readTlvRound w data tag i) ((Piv.readTlvFrom data tag i).map .inl) ∨
      ∃ next, Returns (readTlvRound w data tag i) (.ok (.inr next)) ∧
        (i < next ∧ next ≤ data.length) ∧
        Piv.readTlvFrom data tag i = Piv.readTlvFrom data tag next := by
  have hlength := readBerLen_returns hdata (i + 1)
  fun_cases Piv.readTlvFrom data tag i with
  | case1 hnone =>
    have hi : ¬ i < data.length := by
      have := List.getElem?_eq_none_iff.mp hnone
      omega
    unfold readTlvRound
    rw [if_neg hi]
    exact Or.inl (Returns.throw _)
  | case2 t ht e he =>
    rw [he] at hlength
    apply Or.inl
    apply readTlvRound_of_tag hdata ht
    exact Returns.bind_error hlength _
  | case3 len start hlen hfit ht =>
    rw [hlen] at hlength
    apply Or.inl
    apply readTlvRound_of_tag hdata ht
    exact Returns.step hlength (takeElement_found hdata hfit rfl)
  | case4 t ht len start hlen hfit hne hlt =>
    rw [hlen] at hlength
    refine Or.inr ⟨start + len, ?_, ⟨hlt, hfit⟩, rfl⟩
    apply readTlvRound_of_tag hdata ht
    exact Returns.step hlength (takeElement_next hdata hfit hne)
  | case5 t ht len start hlen hover =>
    rw [hlen] at hlength
    apply Or.inl
    apply readTlvRound_of_tag hdata ht
    exact Returns.step hlength (takeElement_overrun hdata hover)

/-- Each round that does not end the loop moves the index forward. -/
theorem readTlvRound_increases {w : Width} {data : Bytes} (hdata : Fits w data) {tag : UInt8}
    {i next : Nat} (h : Returns (readTlvRound w data tag i) (.ok (.inr next))) :
    i < next ∧ next ≤ data.length := by
  cases readTlvRound_returns hdata tag i with
  | inl hlast =>
    have heq := Except.ok.inj (hlast.symm.trans h)
    cases hv : Piv.readTlvFrom data tag i with
    | ok v =>
      rw [hv] at heq
      cases heq
    | error e =>
      rw [hv] at heq
      cases heq
  | inr hnext =>
    obtain ⟨next', hbody, hmoves, -⟩ := hnext
    have heq := Except.ok.inj (hbody.symm.trans h)
    cases heq
    exact hmoves

theorem readTlv_returns {w : Width} {data : Bytes} (hdata : Fits w data) (tag : UInt8) :
    Returns (readTlv w data tag) (Piv.readTlv data tag) := by
  apply Returns.loop (fun i => Piv.readTlvFrom data tag i) (fun i => data.length - i)
  · intro i
    cases readTlvRound_returns hdata tag i with
    | inl hlast => exact Or.inl hlast
    | inr hnext =>
      obtain ⟨next, hbody, hmoves, hsame⟩ := hnext
      exact Or.inr ⟨next, hbody, by omega, hsame⟩
  · omega

theorem readTlv_length {data : Bytes} {tag : UInt8} {v : Bytes}
    (h : Piv.readTlv data tag = .ok v) : v.length ≤ data.length := by
  obtain ⟨skipped, e, rest, hdata, -, -, hv⟩ := (Piv.readTlv_ok_iff_locates data tag v).mp h
  rw [hdata, ← hv, Ber.Wire.bytes]
  simp only [List.length_append, List.length_cons]
  omega

theorem parseSignatureResponse_returns {w : Width} {resp : Bytes} (hresp : Fits w resp) :
    Returns (parseSignatureResponse w resp) (Piv.parseSignatureResponse resp) := by
  apply Returns.bind (readTlv_returns hresp Piv.tagDynamicAuth)
  intro dynamic hdynamic
  exact readTlv_returns (Fits.mono hresp (readTlv_length hdynamic)) Piv.tagResponse

theorem extractCertificate_returns {w : Width} {resp : Bytes} (hresp : Fits w resp) :
    Returns (extractCertificate w resp) (Piv.extractCertificate resp) := by
  apply Returns.bind (readTlv_returns hresp Piv.tagDataObject)
  intro object hobject
  have hfits := Fits.mono hresp (readTlv_length hobject)
  apply Returns.bind (readTlv_returns hfits Piv.tagCertificate)
  intro cert _
  split
  · exact Returns.throw _
  · exact Returns.pure _

/-- A found marker lies within the data, so every sum and slice behind it is in bounds. -/
theorem scanKey_returns {w : Width} {m : Bytes} {len : Nat} (hm : 0 < m.length)
    (hsmall : m.length + len < 2 ^ 31) (truncated missing : String) {tlv : Bytes}
    (htlv : Fits w tlv) :
    Returns (scanKey w m len truncated missing tlv)
      (YubiWallet.scanKey m len truncated missing tlv) := by
  have hposition : Returns (position m tlv) (.ok (Window.position m tlv)) := by
    unfold position
    rw [if_neg (by omega)]
    exact Returns.pure _
  unfold scanKey YubiWallet.scanKey
  apply Returns.step hposition
  cases hpos : Window.position m tlv with
  | none => exact Returns.throw _
  | some pos =>
    have hin := ((Window.occursAt_iff m tlv pos).mp
      ((Window.position_eq_some_iff m tlv pos).mp hpos).1).1
    apply Returns.step (Returns.add (Fits.add_lt htlv (by omega) (by omega)))
    apply Returns.step (Returns.add (Fits.add_lt htlv hin (by omega)))
    by_cases hover : pos + m.length + len > tlv.length
    · simp only [if_pos hover, dif_pos hover]
      exact Returns.throw _
    · have hkey : (tlv.drop (pos + m.length)).take (pos + m.length + len - (pos + m.length)) =
          (tlv.drop (pos + m.length)).take len := by rw [Nat.add_sub_cancel_left]
      simp only [if_neg hover, dif_neg hover]
      apply Returns.step (Returns.slice (by omega) (by omega))
      apply Returns.expect
      rw [hkey]
      exact dif_pos (block_length hover)

theorem extractEd25519FromCert_returns {w : Width} {der : Bytes} (hder : Fits w der) :
    Returns (extractEd25519FromCert w der) (Piv.extractEd25519FromCert der) :=
  scanKey_returns (by decide) (by decide) _ _ hder

theorem extractEd25519Pubkey_returns {w : Width} {tlv : Bytes} (htlv : Fits w tlv) :
    Returns (extractEd25519Pubkey w tlv) (Openpgp.extractEd25519Pubkey tlv) := by
  unfold extractEd25519Pubkey Openpgp.extractEd25519Pubkey
  split
  · exact Returns.throw _
  · exact scanKey_returns (by decide) (by decide) _ _ htlv

theorem extractSecp256k1Pubkey_returns {w : Width} {tlv : Bytes} (htlv : Fits w tlv) :
    Returns (extractSecp256k1Pubkey w tlv) (Openpgp.extractSecp256k1Pubkey tlv) := by
  unfold extractSecp256k1Pubkey Openpgp.extractSecp256k1Pubkey
  split
  · exact Returns.throw _
  · split
    · rename_i e he
      refine Returns.bind_error ?_ _
      rw [← he]
      exact scanKey_returns (by decide) (by decide) _ _ htlv
    · rename_i point hpoint
      have hfirst : 0 < point.val.length := by
        rw [point.property]
        decide
      refine Returns.step (a := point) ?_ (Returns.step (Returns.index_getD hfirst 0) ?_)
      · rw [← hpoint]
        exact scanKey_returns (by decide) (by decide) _ _ htlv
      · split
        · exact Returns.throw _
        · exact Returns.pure _

def signature (w : Width) (resp : Bytes) : Run Error Bytes := do
  let data ← transmit resp
  parseSignatureResponse w data

def certificateKey (w : Width) (resp : Bytes) : Run Error (BytesN 32) := do
  let data ← transmit resp
  let cert ← extractCertificate w data
  extractEd25519FromCert w cert

def ed25519Pubkey (w : Width) (resp : Bytes) : Run Error (BytesN 32) := do
  let data ← transmit resp
  extractEd25519Pubkey w data

def secp256k1Pubkey (w : Width) (resp : Bytes) : Run Error (BytesN 65) := do
  let data ← transmit resp
  extractSecp256k1Pubkey w data

/-- A decoder of response data is one of responses. -/
theorem transmit_then {α : Type} {w : Width} {resp : Bytes} (hresp : Fits w resp)
    {f : Bytes → Run Error α} {g : Bytes → Except Error α}
    (hf : ∀ data, Fits w data → Returns (f data) (g data)) :
    Returns (transmit resp >>= f) (Apdu.decodeResponse (.ok resp) >>= g) := by
  apply Returns.bind (transmit_returns resp)
  intro data hdata
  have heq := Except.ok.inj ((Apdu.decodeResponse_eq_ok_iff _ _).mp hdata)
  apply hf data
  apply Fits.mono hresp
  rw [heq, List.length_append]
  omega

theorem readCertificateKey_returns {w : Width} {data : Bytes} (hdata : Fits w data) :
    Returns (extractCertificate w data >>= extractEd25519FromCert w)
      (Piv.readCertificateKey data) := by
  apply Returns.bind (extractCertificate_returns hdata)
  intro cert hcert
  simp only [Piv.extractCertificate, Outcome.bind_eq_ok_iff] at hcert
  obtain ⟨object, hobject, cert', hcert', hsome⟩ := hcert
  split at hsome
  · cases hsome
  · obtain rfl := Except.ok.inj hsome
    apply extractEd25519FromCert_returns
    exact Fits.mono (Fits.mono hdata (readTlv_length hobject)) (readTlv_length hcert')

/-- A round of the reader that goes on has moved the index forward, within the data. -/
def IndexIncreases (w : Width) (data : Bytes) : Prop :=
  ∀ tag i next, Returns (readTlvRound w data tag i) (.ok (.inr next)) →
    i < next ∧ next ≤ data.length

/-- Every decoder returns, with the result of the one without checks: no index or slice is
out of bounds, no sum or length overflows, no array has another size than expected, and the
loop of the reader ends. -/
structure NeverPanics (w : Width) (resp : Bytes) : Prop where
  transmit : Returns (transmit resp) (Apdu.decodeResponse (.ok resp))
  readBerLen : ∀ i, Returns (readBerLen w resp i) (Piv.readBerLen resp i)
  readTlv : ∀ tag, Returns (readTlv w resp tag) (Piv.readTlv resp tag)
  indexIncreases : IndexIncreases w resp
  parseSignatureResponse :
    Returns (parseSignatureResponse w resp) (Piv.parseSignatureResponse resp)
  extractCertificate : Returns (extractCertificate w resp) (Piv.extractCertificate resp)
  extractEd25519FromCert :
    Returns (extractEd25519FromCert w resp) (Piv.extractEd25519FromCert resp)
  extractEd25519Pubkey :
    Returns (extractEd25519Pubkey w resp) (Openpgp.extractEd25519Pubkey resp)
  extractSecp256k1Pubkey :
    Returns (extractSecp256k1Pubkey w resp) (Openpgp.extractSecp256k1Pubkey resp)
  signature : Returns (signature w resp)
    (Apdu.decodeResponse (.ok resp) >>= Piv.parseSignatureResponse)
  certificateKey : Returns (certificateKey w resp)
    (Apdu.decodeResponse (.ok resp) >>= Piv.readCertificateKey)
  ed25519Pubkey : Returns (ed25519Pubkey w resp)
    (Apdu.decodeResponse (.ok resp) >>= Openpgp.extractEd25519Pubkey)
  secp256k1Pubkey : Returns (secp256k1Pubkey w resp)
    (Apdu.decodeResponse (.ok resp) >>= Openpgp.extractSecp256k1Pubkey)

/-- The bytes of a response, which fit in memory. -/
abbrev Response (w : Width) := { resp : Bytes // Fits w resp }

/-- Whatever a card returns, and on either width of an index. -/
theorem decoders_neverPanic (w : Width) (resp : Response w) : NeverPanics w resp.val where
  transmit := transmit_returns resp.val
  readBerLen := readBerLen_returns resp.property
  readTlv := readTlv_returns resp.property
  indexIncreases _ _ _ := readTlvRound_increases resp.property
  parseSignatureResponse := parseSignatureResponse_returns resp.property
  extractCertificate := extractCertificate_returns resp.property
  extractEd25519FromCert := extractEd25519FromCert_returns resp.property
  extractEd25519Pubkey := extractEd25519Pubkey_returns resp.property
  extractSecp256k1Pubkey := extractSecp256k1Pubkey_returns resp.property
  signature := transmit_then resp.property fun _ => parseSignatureResponse_returns
  certificateKey := transmit_then resp.property fun _ => readCertificateKey_returns
  ed25519Pubkey := transmit_then resp.property fun _ => extractEd25519Pubkey_returns
  secp256k1Pubkey := transmit_then resp.property fun _ => extractSecp256k1Pubkey_returns

end YubiWallet.Decoding
