import YubiWallet.Cli

/-! The SSH keys that the command line converts to Solana addresses. -/
namespace YubiWallet.Cli

/-- What stands in front of the key in the wire format: the length of the name, the name,
and the length of the key. -/
def sshHeader : Bytes := [0x00, 0x00, 0x00, 0x0B] ++ asBytes "ssh-ed25519" ++ [0x00, 0x00, 0x00, 0x20]

/-- The wire format of a key. -/
def sshBlob (key : BytesN 32) : Bytes := sshHeader ++ key.val

/-- The line is an SSH key of the kind, with this key. -/
def IsSshKey (s : String) (key : BytesN 32) : Prop :=
  ∃ field comment, splitWhitespace s = "ssh-ed25519" :: field :: comment ∧
    Base64.decode (asBytes field) = some (sshBlob key)

/-- The line is accepted with the address of its key, or it is no SSH key and refused. -/
def ConvertsExactly (base64Error : Bytes → String) (s : String) : Prop :=
  ∀ a, sshEd25519ToSolana base64Error s = .ok a ↔ ∃ key, IsSshKey s key ∧ a = Bs58.encode key.val

/-- A blob that is long enough to hold a key in the place where the code looks for it has
the wire format. -/
def LongBlobsWellFormed (s : String) : Prop :=
  ∀ field comment raw, splitWhitespace s = "ssh-ed25519" :: field :: comment →
    Base64.decode (asBytes field) = some raw → 51 ≤ raw.length →
      raw.length = 51 ∧ raw.take 19 = sshHeader

theorem sshHeader_length : sshHeader.length = 19 := rfl

/-- What the code makes of a line. -/
theorem sshEd25519ToSolana_eq_ok_iff (base64Error : Bytes → String) (s a : String) :
    sshEd25519ToSolana base64Error s = .ok a ↔
      ∃ field comment raw, splitWhitespace s = "ssh-ed25519" :: field :: comment ∧
        Base64.decode (asBytes field) = some raw ∧ 51 ≤ raw.length ∧
        a = Bs58.encode ((raw.drop 19).take 32) := by
  have hidx : 4 + "ssh-ed25519".length + 4 = 19 := rfl
  simp only [sshEd25519ToSolana, hidx]
  constructor
  · intro h
    split at h
    · rename_i name field comment hfields
      split at h
      · cases h
      · rename_i hname
        split at h
        · cases h
        · rename_i raw hraw
          split at h
          · rename_i hlen
            have hname' : name = "ssh-ed25519" := not_not.mp hname
            rw [hname'] at hfields
            exact ⟨field, comment, raw, hfields, hraw, hlen, (Except.ok.inj h).symm⟩
          · cases h
    · cases h
  · intro h
    obtain ⟨field, comment, raw, hfields, hraw, hlen, ha⟩ := h
    rw [hfields]
    simp only [ne_eq, not_true_eq_false, if_false, hraw]
    rw [if_pos (by omega), ha]

theorem sshBlob_iff (raw : Bytes) :
    (∃ key, raw = sshBlob key) ↔ raw.length = 51 ∧ raw.take 19 = sshHeader := by
  constructor
  · intro h
    obtain ⟨key, rfl⟩ := h
    refine ⟨?_, ?_⟩
    · rw [sshBlob, List.length_append, sshHeader_length, key.property]
    · rw [sshBlob, ← sshHeader_length, List.take_append_length]
  · intro h
    obtain ⟨hlen, hheader⟩ := h
    refine ⟨⟨raw.drop 19, ?_⟩, ?_⟩
    · rw [List.length_drop, hlen]
    · rw [sshBlob, ← hheader, List.take_append_drop]

/-- The key stands where the code takes it from. -/
theorem sshBlob_key (key : BytesN 32) : ((sshBlob key).drop 19).take 32 = key.val := by
  rw [sshBlob, ← sshHeader_length, List.drop_append_length, List.take_of_length_le key.property.le]

/-- The line is converted as it should be exactly if its blob is too short to be accepted,
or is in the wire format. -/
theorem sshEd25519ToSolana_exact_iff (base64Error : Bytes → String) (s : String) :
    ConvertsExactly base64Error s ↔ LongBlobsWellFormed s := by
  constructor
  · intro h field comment raw hfields hraw hlen
    have hok := (sshEd25519ToSolana_eq_ok_iff base64Error s _).mpr
      ⟨field, comment, raw, hfields, hraw, hlen, rfl⟩
    obtain ⟨key, ⟨field', comment', hfields', hraw'⟩, -⟩ := (h _).mp hok
    have hfield : field = field' := by
      rw [hfields] at hfields'
      exact (List.cons.inj (List.cons.inj hfields').2).1
    rw [hfield, hraw'] at hraw
    exact (sshBlob_iff raw).mp ⟨key, (Option.some.inj hraw).symm⟩
  · intro h a
    rw [sshEd25519ToSolana_eq_ok_iff]
    constructor
    · intro hok
      obtain ⟨field, comment, raw, hfields, hraw, hlen, ha⟩ := hok
      obtain ⟨key, hkey⟩ := (sshBlob_iff raw).mpr (h field comment raw hfields hraw hlen)
      rw [hkey] at hraw
      rw [hkey, sshBlob_key] at ha
      exact ⟨key, ⟨field, comment, hfields, hraw⟩, ha⟩
    · intro hkey
      obtain ⟨key, ⟨field, comment, hfields, hraw⟩, ha⟩ := hkey
      have hlen := ((sshBlob_iff (sshBlob key)).mp ⟨key, rfl⟩).1
      exact ⟨field, comment, sshBlob key, hfields, hraw, hlen.ge, by rw [sshBlob_key, ha]⟩

def zeroLine : String := "ssh-ed25519 " ++ String.ofList (List.replicate 68 'A')

theorem zeroLine_refuted : ¬ ConvertsExactly (fun _ => "Invalid padding") zeroLine := by
  rw [sshEd25519ToSolana_exact_iff]
  intro h
  have hfields : splitWhitespace zeroLine =
      "ssh-ed25519" :: String.ofList (List.replicate 68 'A') :: [] := by decide
  have hdecode : Base64.decode (asBytes (String.ofList (List.replicate 68 'A'))) =
      some (List.replicate 51 0) := by
    rw [Base64.decode_eq_some_iff]
    decide
  have hheader := (h _ _ _ hfields hdecode (by decide)).2
  exact absurd hheader (by decide)

end YubiWallet.Cli
