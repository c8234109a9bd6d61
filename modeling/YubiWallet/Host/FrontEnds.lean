import YubiWallet.Cli
import YubiWallet.Host.Methods
import YubiWallet.SlotGrammar
import YubiWallet.Supported

/-! The accounts of the command line and those of the host. -/
namespace YubiWallet.Host
open Outcome
open Cli (AccountArgs)

/-- The three texts name the same account for both, if any, and one that both applets
serve. -/
def SameAccounts (a s c : String) : Prop :=
  (∀ acc, AccountArgs.toAccount ⟨a, s, c⟩ = .ok acc ↔
    parseAccount (a ++ ":" ++ s ++ ":" ++ c) = .ok acc) ∧
  ∀ acc, AccountArgs.toAccount ⟨a, s, c⟩ = .ok acc ∨
    parseAccount (a ++ ":" ++ s ++ ":" ++ c) = .ok acc → Supported acc

/-- A PIV slot with the curve that PIV cannot sign with. -/
def NamesPivSecp256k1 (a s c : String) : Prop :=
  toAsciiLowercase (trim a) = "piv" ∧ toAsciiLowercase (trim c) ∈ ["secp256k1", "k1"] ∧
    ∃ v, PivSlotText (toAsciiLowercase (trim s)) v ∨ SignedSlotText (toAsciiLowercase (trim s)) v

theorem applet_piv_iff (a : String) :
    Applet.fromStr a = .ok .piv ↔ toAsciiLowercase (trim a) = "piv" := by
  unfold Applet.fromStr
  split <;> simp_all

theorem curve_secp256k1_iff (c : String) :
    Curve.fromStr c = .ok .secp256k1 ↔ toAsciiLowercase (trim c) ∈ ["secp256k1", "k1"] := by
  unfold Curve.fromStr
  split <;> simp_all

theorem toAccount_eq_ok_iff (a s c : String) (acc : Account) :
    AccountArgs.toAccount ⟨a, s, c⟩ = .ok acc ↔
      Parts a s c acc ∧ ¬ (acc.applet = .piv ∧ acc.curve = .secp256k1) := by
  simp only [AccountArgs.toAccount, bind_eq_ok_iff, mapError_eq_ok_iff]
  constructor
  · intro h
    obtain ⟨applet, happlet, curve, hcurve, slot, hslot, hacc⟩ := h
    split at hacc
    · cases hacc
    · rename_i hpiv
      obtain rfl := Except.ok.inj hacc
      exact ⟨⟨happlet, hslot, hcurve⟩, hpiv⟩
  · intro h
    obtain ⟨⟨happlet, hslot, hcurve⟩, hpiv⟩ := h
    exact ⟨acc.applet, happlet, acc.curve, hcurve, acc.slot, hslot, if_neg hpiv⟩

/-- Only the command line refuses PIV with secp256k1; the host leaves that to the applet. -/
theorem namesPivSecp256k1_iff (a s c : String) :
    NamesPivSecp256k1 a s c ↔
      ∃ acc, Parts a s c acc ∧ acc.applet = .piv ∧ acc.curve = .secp256k1 := by
  unfold NamesPivSecp256k1
  rw [← applet_piv_iff, ← curve_secp256k1_iff]
  simp only [← parseSlot_piv_texts]
  constructor
  · intro h
    obtain ⟨happlet, hcurve, v, hslot⟩ := h
    exact ⟨⟨.piv, v, .secp256k1⟩, ⟨happlet, hslot, hcurve⟩, rfl, rfl⟩
  · intro h
    obtain ⟨acc, ⟨happlet, hslot, hcurve⟩, hpiv, hsecp⟩ := h
    rw [hpiv] at happlet hslot
    rw [hsecp] at hcurve
    exact ⟨happlet, hcurve, acc.slot, hslot⟩

/-- Both accept the same accounts but for a PIV slot with secp256k1. -/
theorem frontEnds_sameAccounts_iff (a s c : String) (ha : ':' ∉ a.toList)
    (hs : ':' ∉ s.toList) (hc : ':' ∉ c.toList) :
    SameAccounts a s c ↔ ¬ NamesPivSecp256k1 a s c := by
  have hhost := parseAccount_eq_ok_iff ha hs hc
  rw [namesPivSecp256k1_iff]
  constructor
  · intro h hpiv
    obtain ⟨acc, hparts, hboth⟩ := hpiv
    have hcli := (h.1 acc).mpr ((hhost acc).mpr hparts)
    exact ((toAccount_eq_ok_iff a s c acc).mp hcli).2 hboth
  · intro h
    have hnot : ∀ acc, Parts a s c acc → ¬ (acc.applet = .piv ∧ acc.curve = .secp256k1) :=
      fun acc hparts hboth => h ⟨acc, hparts, hboth⟩
    have hcli : ∀ acc, AccountArgs.toAccount ⟨a, s, c⟩ = .ok acc ↔ Parts a s c acc := by
      intro acc
      rw [toAccount_eq_ok_iff]
      exact and_iff_left_of_imp (hnot acc)
    constructor
    · intro acc
      rw [hcli, hhost]
    · intro acc hacc
      rw [hcli, hhost, or_self] at hacc
      apply supported_of_slotOk (parseSlot_ok hacc.2.1)
      intro hpiv
      cases hcurve : acc.curve with
      | ed25519 => rfl
      | secp256k1 => exact absurd ⟨hpiv, hcurve⟩ (hnot acc hacc)

theorem frontEnds_sameAccounts_sample : SameAccounts "piv" "9a" "ed25519" := by
  apply (frontEnds_sameAccounts_iff "piv" "9a" "ed25519" (by decide) (by decide) (by decide)).mpr
  intro h
  exact absurd h.2.1 (by decide)

/-- The host takes an account that the command line refuses. -/
theorem frontEnds_piv_secp256k1 : ¬ SameAccounts "piv" "9a" "secp256k1" := by
  intro h
  have hhost : parseAccount ("piv" ++ ":" ++ "9a" ++ ":" ++ "secp256k1") =
      .ok ⟨.piv, PivSlot.auth, .secp256k1⟩ := by decide
  have hcli := (h.1 _).mpr hhost
  exact ((toAccount_eq_ok_iff _ _ _ _).mp hcli).2 ⟨rfl, rfl⟩

end YubiWallet.Host
