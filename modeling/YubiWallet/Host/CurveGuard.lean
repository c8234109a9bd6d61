import YubiWallet.CardKeys
import YubiWallet.Host.Soundness

/-! Which keys the two signing methods of the host use, on cards whose slots hold keys
of either curve. -/
namespace YubiWallet.Host
open Interaction Outcome
open Openpgp (ed25519Marker)

/-- PSO:CDS, INTERNAL AUTHENTICATE or GENERAL AUTHENTICATE. -/
def isSigning (command : Bytes) : Bool :=
  command.getD 1 0 ∈ [Apdu.insPso, Apdu.insInternalAuthenticate, Apdu.insGeneralAuthenticate]

/-- A success is for an Ed25519 account whose slot holds an Ed25519 key. -/
def OnlyEd25519 (C : Crates) (keys : CardKeys) (params : Value) (result : MethodResult) : Prop :=
  ∀ v, result = .ok v → ∃ acc message, ed25519Args C params = .ok (acc, message) ∧
    acc.curve = .ed25519 ∧ keys.curveAt acc = some .ed25519

/-- A signing command is for a secp256k1 account whose slot holds a secp256k1 key. -/
def OnlySecp256k1 (C : Crates) (keys : CardKeys) (params : Value) (t : Trace) : Prop :=
  ∀ command ∈ commands t, isSigning command →
    ∃ acc hash, secp256k1Args C params = .ok (acc, hash) ∧
      acc.curve = .secp256k1 ∧ keys.curveAt acc = some .secp256k1

/-- An OpenPGP account with a message that fits a short command names an Ed25519 key as
what it is. -/
def Ed25519Safe (C : Crates) (keys : CardKeys) (params : Value) : Prop :=
  ∀ acc message, ed25519Args C params = .ok (acc, message) → acc.applet = .openPgp →
    message.length ≤ 255 → acc.curve = .ed25519 ∧ (keys.openpgp acc.slot).curve = .ed25519

/-- An account that claims Ed25519 has no key that can be read so: its OpenPGP slot holds
a point without `86 20` in the first coordinate, or the certificate object of its PIV slot, if
there is one, does not show an Ed25519 key. -/
def Secp256k1Safe (C : Crates) (keys : CardKeys) (params : Value) : Prop :=
  ∀ acc hash, secp256k1Args C params = .ok (acc, hash) → acc.curve = .ed25519 →
    match acc.applet with
    | .openPgp => ∃ x y, keys.openpgp acc.slot = .secp256k1 x y ∧ ¬ ed25519Marker <:+: x.val
    | .piv => ∀ object k, keys.certificate acc.slot = some object →
        Piv.readCertificateKey object ≠ .ok k

theorem parseAccount_slotOk {id : String} {acc : Account} (h : parseAccount id = .ok acc) :
    acc.applet.slotOk acc.slot := by
  unfold parseAccount at h
  split at h
  · simp only [bind_eq_ok_iff] at h
    obtain ⟨applet, -, slot, hslot, curve, -, hacc⟩ := h
    obtain rfl := Except.ok.inj hacc
    exact parseSlot_ok (mapError_eq_ok_iff.mp hslot)
  · cases h

theorem ed25519Args_slotOk {C : Crates} {params : Value} {acc : Account} {message : Bytes}
    (h : ed25519Args C params = .ok (acc, message)) : acc.applet.slotOk acc.slot := by
  simp only [ed25519Args, bind_eq_ok_iff] at h
  obtain ⟨id, -, acc', hacc, message', -, hargs⟩ := h
  obtain ⟨rfl, -⟩ := Prod.mk.inj (Except.ok.inj hargs)
  exact parseAccount_slotOk hacc

theorem secp256k1Args_slotOk {C : Crates} {params : Value} {acc : Account} {hash : BytesN 32}
    (h : secp256k1Args C params = .ok (acc, hash)) : acc.applet.slotOk acc.slot := by
  simp only [secp256k1Args, bind_eq_ok_iff] at h
  obtain ⟨id, -, acc', hacc, prehash, -, hargs⟩ := h
  split at hargs
  · obtain ⟨rfl, -⟩ := Prod.mk.inj (Except.ok.inj hargs)
    exact parseAccount_slotOk hacc
  · cases hargs

theorem signEd25519_only {C : Crates} {keys : CardKeys} {params : Value}
    (hsafe : Ed25519Safe C keys params) :
    Prog.Always (signEd25519 C params).run fun t r => (∀ e ∈ t, keys.Consistent e) →
      OnlyEd25519 C keys params r := by
  refine Action.always_ofExcept_bind_of (fun _ _ _ _ h => nomatch h) fun args hargs => ?_
  obtain ⟨acc, message⟩ := args
  refine Action.always_bind_of hostPin_silent (fun _ _ _ _ _ h => nomatch h) fun t pin _ => ?_
  refine Action.always_mapErr_bind_of (signWithPin_fromLast acc message pin)
    (fun _ _ _ _ _ h => nomatch h) fun t' sig hr' => ?_
  intro hcons v _
  obtain ⟨u, c, x, hu, p, d, hplan, hlen, rfl, hd, -⟩ := hr' sig rfl
  have hmem : (p.sign, x) ∈ exchanges t' := by
    change (p.sign, x) ∈ observed exchange? t'
    rw [hu]
    exact List.mem_append_right u List.mem_cons_self
  have hans := CardKeys.answers_of_exchange (fun e he => hcons e (by simp [he])) hmem hd
  refine ⟨acc, message, hargs, ?_⟩
  unfold CardKeys.curveAt
  cases happlet : acc.applet with
  | openPgp =>
    obtain ⟨hcurve, hkey⟩ := hsafe acc message hargs happlet (hlen happlet)
    exact ⟨hcurve, congrArg some hkey⟩
  | piv =>
    obtain ⟨hcurve, rfl⟩ := plan_piv happlet hplan
    have hcommand := (generalAuthenticateCommand_eq acc.slot message pin).symm
    obtain ⟨k, hk⟩ := Option.ne_none_iff_exists'.mp (hans.signature acc.slot message hcommand)
    exact ⟨hcurve, by simp [hk]⟩

theorem gives_hostPin (p : String) (hp : p.isEmpty = false) :
    Prog.Gives hostPin.run [⟨.envVar "YUBIWALLET_PIN", some p⟩] (.ok p) := by
  have hread : Prog.Gives readPin [⟨.envVar "YUBIWALLET_PIN", some p⟩] (.ok p) := by
    have hfound : Prog.Gives (if p.isEmpty then readTtyPin else pure (.ok p)) [] (.ok p) := by
      rw [hp]
      exact Prog.Gives.pure _
    exact (gives_perform (.envVar "YUBIWALLET_PIN") (some p)).bind hfound
  exact Action.gives_mapErr (p := ExceptT.mk readPin) hread _

/-- Every OpenPGP account signs a short message. -/
theorem gives_signEd25519 {C : Crates} {params : Value} {acc : Account} {message : Bytes}
    (hargs : ed25519Args C params = .ok (acc, message)) (happlet : acc.applet = .openPgp)
    (hlen : message.length ≤ 255) (keys : CardKeys) :
    ∃ t v, Prog.Gives (signEd25519 C params).run t (.ok v) ∧ ∀ e ∈ t, keys.Consistent e := by
  have hslot := ed25519Args_slotOk hargs
  obtain ⟨s, hs⟩ := exists_signingCall hslot message
  obtain ⟨data, hdata, hshort⟩ := pinData_short hs (by decide : (asBytes "123456").length ≤ 8)
  obtain ⟨c, hc⟩ := command_short hs hlen
  obtain ⟨hsignature, hins⟩ := signingCall_openpgp happlet hs
  have hcheck : acc.check = .ok () := check_ok hslot fun hpiv => by simp [happlet] at hpiv
  have hlast : keys.Consistent ⟨.transmit c s.bufLen, Apdu.success⟩ := by
    refine keys.consistent_success s.bufLen ?_
    rcases List.mem_pair.mp (hins c hc) with h | h <;> rw [h] <;> decide
  have hcard := Action.gives_mapErr
    (gives_signWithPin hcheck hs hdata hshort hc Apdu.success) cardErr
  rw [hsignature] at hcard
  refine ⟨_, _, Action.gives_ofExcept_bind hargs (Action.gives_bind (gives_hostPin "123456" rfl)
    (Action.gives_bind_pure hcard _)), ?_⟩
  exact List.forall_mem_append.mpr ⟨keys.consistent_envVar _ _,
    keys.consistent_signed acc.applet s.reference data hlast⟩

theorem signEd25519_onlyEd25519_iff (C : Crates) (keys : CardKeys) (params : Value) :
    (∀ env, (∀ h op, keys.Consistent ⟨op, env h op⟩) → ∀ h,
      OnlyEd25519 C keys params (Prog.run env (signEd25519 C params).run h).1) ↔
      Ed25519Safe C keys params := by
  rw [Prog.forall_run_iff_always keys.consistent_exists _
    fun _ r => OnlyEd25519 C keys params r]
  constructor
  · intro hall acc message hargs happlet hlen
    obtain ⟨t, v, hgives, hcons⟩ := gives_signEd25519 hargs happlet hlen keys
    obtain ⟨acc', message', hargs', hcurve, hkey⟩ := hall.of_gives hgives hcons v rfl
    obtain ⟨rfl, rfl⟩ : acc = acc' ∧ message = message' := by simpa [hargs] using hargs'
    exact ⟨hcurve, by simpa [CardKeys.curveAt, happlet] using hkey⟩
  · exact signEd25519_only

/-- The key that `get_pubkey` reads is one of the account's curve, except where the
account claims Ed25519 and its key can be read so. -/
theorem ReadsPubkey.secp256k1 {C : Crates} {keys : CardKeys} {params : Value}
    {acc : Account} {hash : BytesN 32} {c : Bytes} {x : Except String Bytes} {pk : Bytes}
    (hsafe : Secp256k1Safe C keys params) (hargs : secp256k1Args C params = .ok (acc, hash))
    (hread : ReadsPubkey acc c x pk) (hans : ∀ d, Carries x d → keys.Answers c d) :
    acc.curve = .secp256k1 ∧ keys.curveAt acc = some .secp256k1 := by
  have hclaim := hsafe acc hash hargs
  unfold ReadsPubkey at hread
  unfold CardKeys.curveAt
  cases happlet : acc.applet with
  | openPgp =>
    simp only [happlet] at hread hclaim
    obtain ⟨crt, raw, hcrt, hc, hx, hpk⟩ := hread
    obtain rfl := (hans raw hx).publicKey acc.slot crt hcrt hc
    cases hcurve : acc.curve with
    | ed25519 =>
      obtain ⟨x, y, hkey, hclean⟩ := hclaim hcurve
      rw [hcurve] at hpk
      exact absurd ((readPubkey_ed25519_response _).mp ⟨pk, hpk⟩ x y hkey) hclean
    | secp256k1 =>
      rw [hcurve] at hpk
      cases hkey : keys.openpgp acc.slot with
      | ed25519 k =>
        rw [hkey] at hpk
        exact absurd hpk (readPubkey_secp256k1_response k pk)
      | secp256k1 x y => exact ⟨rfl, rfl⟩
  | piv =>
    simp only [happlet] at hread hclaim
    obtain ⟨hcurve, tag, resp, k, htag, hc, hx, hk, -⟩ := hread
    exact absurd hk (hclaim hcurve resp k ((hans resp hx).certificate acc.slot tag htag hc))

theorem not_isSigning_of_readsCard {t : Trace} (h : ∀ e ∈ t, ReadsCard e.op) :
    ∀ command ∈ commands t, isSigning command = false := by
  intro command hmem
  obtain ⟨e, he, bufLen, hop⟩ := mem_commands.mp hmem
  have hins := h e he
  rw [hop] at hins
  change command.getD 1 0 ∈ _ at hins
  unfold isSigning
  simp only [List.mem_cons, List.not_mem_nil, or_false] at hins
  rcases hins with hins | hins | hins <;> rw [hins] <;> decide

theorem signSecp256k1_only {C : Crates} {keys : CardKeys} {params : Value}
    (hsafe : Secp256k1Safe C keys params) :
    Prog.Always (signSecp256k1 C params).run fun t _ => (∀ e ∈ t, keys.Consistent e) →
      OnlySecp256k1 C keys params t := by
  refine Action.always_ofExcept_bind_of (fun _ _ _ _ hmem => nomatch hmem) fun args hargs => ?_
  obtain ⟨acc, hash⟩ := args
  have hpubkey := Prog.Always.and (getPubkey_fromLast acc) (getPubkey_readsCard acc)
  refine Action.always_mapErr_bind_of hpubkey (fun t _ hr => ?_) fun t pk hr => ?_
  · intro _ command hmem hsig
    rw [not_isSigning_of_readsCard hr.2 command hmem] at hsig
    cases hsig
  · obtain ⟨u, c, x, hu, hpk⟩ := hr.1 pk rfl
    refine Prog.Always.of_forall _ fun t' r' hcons command hmem hsig => ?_
    have hmem' : (c, x) ∈ exchanges t := by
      change (c, x) ∈ observed exchange? t
      rw [hu]
      exact List.mem_append_right u List.mem_cons_self
    exact ⟨acc, hash, hargs, hpk.secp256k1 hsafe hargs fun d hd =>
      CardKeys.answers_of_exchange (fun e he => hcons e (by simp [he])) hmem' hd⟩

/-- A key that is read and a signing call that sends `command` make a course of the
method that sends it. -/
theorem gives_signSecp256k1 {C : Crates} {keys : CardKeys} {params : Value} {acc : Account}
    {hash : BytesN 32} {t t' : Trace} {pk command : Bytes} {bufLen : Nat}
    {x : Except String Bytes} {r : Except Error Bytes}
    (hargs : secp256k1Args C params = .ok (acc, hash))
    (hread : Prog.Gives (getPubkey acc).run t (.ok pk)) (hreadCons : ∀ e ∈ t, keys.Consistent e)
    (hsign : Prog.Gives (signWithPin acc hash.val "123456").run t' r)
    (hsignCons : ∀ e ∈ t', keys.Consistent e) (hlast : ⟨.transmit command bufLen, x⟩ ∈ t') :
    ∃ t v, Prog.Gives (signSecp256k1 C params).run t v ∧ (∀ e ∈ t, keys.Consistent e) ∧
      command ∈ commands t := by
  have hpubkey : Prog.Gives (Action.mapErr cardErr (getPubkey acc) : HostM Bytes).run t (.ok pk) :=
    Action.gives_mapErr hread cardErr
  refine ⟨_, _, Action.gives_ofExcept_bind hargs (Action.gives_bind hpubkey (Action.gives_bind
    (gives_hostPin "123456" rfl) (Action.gives_bind_ofExcept
      (Action.gives_mapErr hsign cardErr) _))), ?_, ?_⟩
  · exact List.forall_mem_append.mpr ⟨hreadCons,
      List.forall_mem_append.mpr ⟨keys.consistent_envVar _ _, hsignCons⟩⟩
  · exact mem_commands.mpr ⟨_, List.mem_append_right _ (List.mem_append_right _ hlast),
      bufLen, rfl⟩

/-- An answer of the card from which an account that claims Ed25519 gets its key. -/
theorem exists_reading_of_not_safe {keys : CardKeys} {acc : Account}
    (hslot : acc.applet.slotOk acc.slot) (hcurve : acc.curve = .ed25519)
    (hkey : match acc.applet with
      | .openPgp => ∀ x y, keys.openpgp acc.slot = .secp256k1 x y → ed25519Marker <:+: x.val
      | .piv => ∃ object k, keys.certificate acc.slot = some object ∧
          Piv.readCertificateKey object = .ok k) :
    ∃ reading d pk, acc.keyReading = .ok reading ∧ reading.key d = .ok pk ∧
      keys.Answers reading.command d := by
  obtain ⟨reading, hreading⟩ := exists_keyReading hslot
  rcases keyReading_cases hreading with ⟨happlet, crt, hcrt, rfl⟩ | ⟨happlet, tag, htag, rfl⟩
  · rw [happlet] at hkey
    obtain ⟨pk, hpk⟩ := (readPubkey_ed25519_response _).mpr hkey
    refine ⟨_, _, pk, hreading, ?_, keys.answers_publicKey hcrt⟩
    rw [hcurve]
    exact hpk
  · rw [happlet] at hkey
    obtain ⟨object, k, hobject, hk⟩ := hkey
    exact ⟨_, object, k.val, hreading, congrArg (Except.map Subtype.val) hk,
      keys.answers_certificate htag hobject⟩

/-- An account that claims Ed25519, and whose key can be read so, has its key used. -/
theorem exists_signing_of_not_safe {C : Crates} {keys : CardKeys} {params : Value}
    {acc : Account} {hash : BytesN 32} (hargs : secp256k1Args C params = .ok (acc, hash))
    (hcurve : acc.curve = .ed25519)
    (hkey : match acc.applet with
      | .openPgp => ∀ x y, keys.openpgp acc.slot = .secp256k1 x y → ed25519Marker <:+: x.val
      | .piv => ∃ object k, keys.certificate acc.slot = some object ∧
          Piv.readCertificateKey object = .ok k) :
    ∃ t v, Prog.Gives (signSecp256k1 C params).run t v ∧ (∀ e ∈ t, keys.Consistent e) ∧
      ∃ command ∈ commands t, isSigning command := by
  have hslot := secp256k1Args_slotOk hargs
  have hcheck := check_ok hslot fun _ => hcurve
  obtain ⟨reading, d, pk, hreading, hpk, hread⟩ := exists_reading_of_not_safe hslot hcurve hkey
  have hreadCons := List.forall_mem_append.mpr ⟨keys.consistent_opened acc.applet,
    List.forall_mem_singleton.mpr (CardKeys.consistent_transmit hread reading.bufLen)⟩
  obtain ⟨s, hs⟩ := exists_signingCall hslot hash.val
  obtain ⟨data, hdata, hshort⟩ := pinData_short hs (by decide : (asBytes "123456").length ≤ 8)
  obtain ⟨c, hc⟩ := command_short hs (by rw [hash.property]; decide)
  obtain ⟨t, v, hgives, hcons, hmem⟩ := gives_signSecp256k1 hargs
    (gives_getPubkey hcheck hreading hpk) hreadCons
    (gives_signWithPin hcheck hs hdata hshort hc refused)
    (keys.consistent_signed acc.applet s.reference data (keys.consistent_refused c s.bufLen))
    (List.mem_append_right _ (List.mem_cons_of_mem _ List.mem_cons_self))
  exact ⟨t, v, hgives, hcons, c, hmem, decide_eq_true (signingCall_ins hs hc)⟩

theorem signSecp256k1_onlySecp256k1_iff (C : Crates) (keys : CardKeys) (params : Value) :
    (∀ env, (∀ h op, keys.Consistent ⟨op, env h op⟩) → ∀ h,
      OnlySecp256k1 C keys params (Prog.run env (signSecp256k1 C params).run h).2) ↔
      Secp256k1Safe C keys params := by
  rw [Prog.forall_run_iff_always keys.consistent_exists _
    fun t _ => OnlySecp256k1 C keys params t]
  constructor
  · intro hall acc hash hargs hcurve
    by_contra hunsafe
    have hkey : match acc.applet with
        | .openPgp => ∀ x y, keys.openpgp acc.slot = .secp256k1 x y → ed25519Marker <:+: x.val
        | .piv => ∃ object k, keys.certificate acc.slot = some object ∧
            Piv.readCertificateKey object = .ok k := by
      cases happlet : acc.applet with
      | openPgp =>
        simp only [happlet] at hunsafe
        push Not at hunsafe
        exact hunsafe
      | piv =>
        simp only [happlet] at hunsafe
        push Not at hunsafe
        exact hunsafe
    obtain ⟨t, v, hgives, hcons, command, hmem, hsig⟩ :=
      exists_signing_of_not_safe hargs hcurve hkey
    obtain ⟨acc', hash', hargs', hcurve', -⟩ := hall.of_gives hgives hcons command hmem hsig
    obtain ⟨rfl, rfl⟩ : acc = acc' ∧ hash = hash' := by simpa [hargs] using hargs'
    rw [hcurve] at hcurve'
    cases hcurve'
  · exact signSecp256k1_only

/-- The requests for which, whatever a card with these keys and the outside world answer,
each signing method keeps to the keys of its own curve. -/
theorem signingMethods_keepCurve_iff (C : Crates) (keys : CardKeys) (params : Value) :
    ((∀ env, (∀ h op, keys.Consistent ⟨op, env h op⟩) → ∀ h,
        OnlyEd25519 C keys params (Prog.run env (signEd25519 C params).run h).1) ↔
      Ed25519Safe C keys params) ∧
    ((∀ env, (∀ h op, keys.Consistent ⟨op, env h op⟩) → ∀ h,
        OnlySecp256k1 C keys params (Prog.run env (signSecp256k1 C params).run h).2) ↔
      Secp256k1Safe C keys params) :=
  ⟨signEd25519_onlyEd25519_iff C keys params, signSecp256k1_onlySecp256k1_iff C keys params⟩

/-- The certificate object of the key, with nothing in it besides. -/
def certificateObject (k : BytesN 32) : Bytes :=
  let cert := Piv.ed25519SpkiPrefix ++ k.val
  let object := [Piv.tagCertificate] ++ Piv.berLen cert.length ++ cert
  [Piv.tagDataObject] ++ Piv.berLen object.length ++ object

theorem find_berLen (tag : UInt8) {v : Bytes} (h : v.length < 2 ^ 24) :
    Ber.find tag ([tag] ++ Piv.berLen v.length ++ v) = some v := by
  have hread := Piv.readElement_berLen tag h []
  rw [List.append_nil] at hread
  rw [Ber.find_of_readElement tag hread, if_pos rfl]

theorem readCertificateKey_object (k : BytesN 32) :
    Piv.readCertificateKey (certificateObject k) = .ok k := by
  let cert := Piv.ed25519SpkiPrefix ++ k.val
  let object := [Piv.tagCertificate] ++ Piv.berLen cert.length ++ cert
  have hcertLen : cert.length = 44 := by
    simp [cert, Piv.ed25519SpkiPrefix, k.property]
  have hobjectLen : object.length = 46 := by
    simp [object, hcertLen, Piv.berLen_length]
  have hobject : Piv.readTlv (certificateObject k) Piv.tagDataObject = .ok object :=
    (Piv.readTlv_eq_ok_iff _ _ _).mpr (find_berLen _ (by rw [hobjectLen]; decide))
  have hcert : Piv.readTlv object Piv.tagCertificate = .ok cert :=
    (Piv.readTlv_eq_ok_iff _ _ _).mpr (find_berLen _ (by rw [hcertLen]; decide))
  have hkey : Piv.extractEd25519FromCert cert = .ok k := by
    refine (scanKey_eq_ok_iff _ _ _ _ cert k).mpr ?_
    refine (Window.extract_eq_some_iff (by decide) (by decide) 32 cert k.val).mpr ?_
    exact ⟨[], [], by simp [cert], k.property, by decide⟩
  have hextract : Piv.extractCertificate (certificateObject k) = .ok cert := by
    simp only [Piv.extractCertificate, bind_eq_ok_iff]
    refine ⟨object, hobject, cert, hcert, if_neg ?_⟩
    simp [cert, Piv.ed25519SpkiPrefix]
  simp only [Piv.readCertificateKey, bind_eq_ok_iff]
  exact ⟨cert, hextract, hkey⟩

def mixedKeys : CardKeys where
  openpgp _ := .secp256k1 ⟨(Eth.hardhatKey.drop 1).take 32, by decide⟩
    ⟨Eth.hardhatKey.drop 33, by decide⟩
  piv slot := if slot = PivSlot.auth then some (.fill 32 1) else none
  certificate slot := if slot = PivSlot.auth then some (certificateObject (.fill 32 1)) else none

/-- A transaction's prehash, sent as a message to sign with Ed25519. -/
def prehashAsMessage : Value := .obj [("account_id", .str "openpgp:sig:secp256k1"),
  ("message", .str "0x0707070707070707070707070707070707070707070707070707070707070707")]

/-- A prehash for an account that is not one of secp256k1. -/
def prehashForEd25519 : Value := .obj [("account_id", .str "piv:9a:ed25519"),
  ("prehash", .str "0x0707070707070707070707070707070707070707070707070707070707070707")]

theorem signingMethods_mixedKeys :
    (¬ ∀ env, (∀ h op, mixedKeys.Consistent ⟨op, env h op⟩) → ∀ h,
      OnlyEd25519 sampleCrates mixedKeys prehashAsMessage
        (Prog.run env (signEd25519 sampleCrates prehashAsMessage).run h).1) ∧
    (¬ ∀ env, (∀ h op, mixedKeys.Consistent ⟨op, env h op⟩) → ∀ h,
      OnlySecp256k1 sampleCrates mixedKeys prehashForEd25519
        (Prog.run env (signSecp256k1 sampleCrates prehashForEd25519).run h).2) := by
  constructor
  · rw [signEd25519_onlyEd25519_iff]
    intro hsafe
    have hargs : ed25519Args sampleCrates prehashAsMessage =
        .ok (⟨.openPgp, OpenpgpSlot.sig, .secp256k1⟩, List.replicate 32 7) := by decide
    cases (hsafe _ _ hargs rfl (by decide)).1
  · rw [signSecp256k1_onlySecp256k1_iff]
    intro hsafe
    have hargs : secp256k1Args sampleCrates prehashForEd25519 =
        .ok (⟨.piv, PivSlot.auth, .ed25519⟩, .fill 32 7) := by decide
    exact hsafe _ _ hargs rfl (certificateObject (.fill 32 1)) (.fill 32 1) rfl
      (readCertificateKey_object _)

end YubiWallet.Host
