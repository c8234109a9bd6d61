import YubiWallet.Error
import YubiWallet.Lib.Window

/-! The search that the three public-key extractors share: a marker, then a block of
fixed length behind its first occurrence. -/
namespace YubiWallet

theorem block_length {tlv : Bytes} {start len : Nat} (h : ¬ start + len > tlv.length) :
    ((tlv.drop start).take len).length = len := by
  simp only [List.length_take, List.length_drop]
  omega

/-- `tlv.windows(m.len()).position(|w| w == m)`, then `len` bytes. The subtype holds what
the conversion to an array expects. -/
def scanKey (m : Bytes) (len : Nat) (truncated missing : String) (tlv : Bytes) :
    Except Error (BytesN len) :=
  match Window.position m tlv with
  | some pos =>
    let start := pos + m.length
    if h : start + len > tlv.length then .error (.pubkeyNotFound truncated)
    else .ok ⟨(tlv.drop start).take len, block_length h⟩
  | none => .error (.pubkeyNotFound missing)

theorem scanKey_eq_ok_iff (m : Bytes) (len : Nat) (truncated missing : String)
    (tlv : Bytes) (k : BytesN len) :
    scanKey m len truncated missing tlv = .ok k ↔ Window.extract m len tlv = some k.val := by
  unfold scanKey Window.extract
  cases Window.position m tlv with
  | none => simp
  | some pos =>
    by_cases hfit : pos + m.length + len ≤ tlv.length
    · have hnot : ¬ pos + m.length + len > tlv.length := by omega
      simp only [dif_neg hnot, if_pos hfit, Except.ok.injEq, Option.some.injEq]
      exact Subtype.ext_iff
    · have hover : pos + m.length + len > tlv.length := by omega
      simp [dif_pos hover, if_neg hfit]

theorem scanKey_error {m : Bytes} {len : Nat} {truncated missing : String} {tlv : Bytes}
    {e : Error} (h : scanKey m len truncated missing tlv = .error e) :
    ∃ text, e = .pubkeyNotFound text := by
  simp only [scanKey] at h
  split at h
  · split at h
    · exact ⟨truncated, (Except.error.inj h).symm⟩
    · cases h
  · exact ⟨missing, (Except.error.inj h).symm⟩

/-- A response shorter than the marker cannot hold it. -/
theorem scanKey_short (m : Bytes) (len : Nat) (truncated missing : String) {tlv : Bytes}
    (h : tlv.length < m.length) :
    scanKey m len truncated missing tlv = .error (.pubkeyNotFound missing) := by
  have hnone : Window.position m tlv = none := by
    refine (Window.position_eq_none_iff m tlv).mpr ?_
    rintro ⟨pre, post, rfl⟩
    simp only [List.length_append] at h
    omega
  simp [scanKey, hnone]

end YubiWallet
