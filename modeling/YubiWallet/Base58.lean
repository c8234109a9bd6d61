import Mathlib.Data.List.GetD
import YubiWallet.Lib.Radix
import YubiWallet.Text

/-! Reading base58 back. -/
namespace YubiWallet.Bs58
open Endian

def symbol (d : Nat) : Char := alphabet.getD d '1'

def digit (c : Char) : Option Nat := if c ∈ alphabet then some (alphabet.idxOf c) else none

/-- `bs58::decode(s).into_vec()`. A character outside the alphabet is an error. -/
def decode (s : String) : Option Bytes :=
  (s.toList.mapM digit).map fun ds => (Radix.recode 58 256 ds).map UInt8.ofNat

theorem digit_eq_some_iff (c : Char) (d : Nat) : digit c = some d ↔ d < 58 ∧ symbol d = c := by
  have hsymbol : ∀ k : Fin 58, symbol k ∈ alphabet ∧ alphabet.idxOf (symbol k) = k := by
    decide +kernel
  unfold digit
  constructor
  · intro h
    split at h
    · rename_i hc
      obtain rfl := Option.some.inj h
      obtain ⟨i, hi, rfl⟩ := List.getElem_of_mem hc
      have hget : symbol i = alphabet[i] := List.getD_eq_getElem _ _ hi
      rw [← hget, (hsymbol ⟨i, hi⟩).2]
      exact ⟨hi, rfl⟩
    · cases h
  · intro h
    obtain ⟨hd, rfl⟩ := h
    obtain ⟨hmem, hindex⟩ := hsymbol ⟨d, hd⟩
    rw [if_pos hmem, hindex]

theorem mapM_digit_eq_some_iff (cs : List Char) (ds : List Nat) :
    cs.mapM digit = some ds ↔ (∀ d ∈ ds, d < 58) ∧ ds.map symbol = cs := by
  induction cs generalizing ds with
  | nil =>
    cases ds with
    | nil => simp
    | cons d ds => simp
  | cons c cs ih =>
    simp only [List.mapM_cons, Option.bind_eq_bind, Option.bind_eq_some_iff, ih]
    constructor
    · intro h
      obtain ⟨d, hd, ds', ⟨hlt, hmap⟩, hds⟩ := h
      obtain rfl : d :: ds' = ds := Option.some.inj hds
      obtain ⟨hd58, hsymbol⟩ := (digit_eq_some_iff c d).mp hd
      exact ⟨List.forall_mem_cons.mpr ⟨hd58, hlt⟩, by rw [List.map_cons, hsymbol, hmap]⟩
    · intro h
      obtain ⟨hlt, hmap⟩ := h
      cases ds with
      | nil => cases hmap
      | cons d ds =>
        obtain ⟨hd58, hlt⟩ := List.forall_mem_cons.mp hlt
        obtain ⟨hsymbol, hmap⟩ := List.cons.inj hmap
        exact ⟨d, (digit_eq_some_iff c d).mpr ⟨hd58, hsymbol⟩, ds, ⟨hlt, hmap⟩, rfl⟩

theorem toNat_lt_of_mem (b : Bytes) : ∀ d ∈ b.map UInt8.toNat, d < 256 := by
  intro d hd
  obtain ⟨x, -, rfl⟩ := List.mem_map.mp hd
  exact x.toNat_lt

theorem map_ofNat_toNat (b : Bytes) : (b.map UInt8.toNat).map UInt8.ofNat = b := by
  rw [List.map_map]
  exact List.map_id'' (fun x => UInt8.ofNat_toNat) b

theorem map_toNat_ofNat {ds : List Nat} (h : ∀ d ∈ ds, d < 256) :
    (ds.map UInt8.ofNat).map UInt8.toNat = ds := by
  rw [List.map_map]
  refine (List.map_congr_left fun d hd => ?_).trans (List.map_id ds)
  rw [Function.comp_apply, UInt8.toNat_ofNat']
  exact Nat.mod_eq_of_lt (h d hd)

theorem value_bytes (b : Bytes) : Radix.value 256 (b.map UInt8.toNat) = beNat b := by
  induction b using List.reverseRecOn with
  | nil => rfl
  | append_singleton b x ih =>
    rw [List.map_append, List.map_singleton, Radix.value_concat, ih, beNat_concat]
    omega

theorem zeros_bytes (b : Bytes) :
    Radix.zeros (b.map UInt8.toNat) = (b.takeWhile (· = 0)).length := by
  induction b with
  | nil => rfl
  | cons x b ih =>
    by_cases hx : x = 0
    · subst hx
      rw [List.map_cons, List.takeWhile_cons_of_pos (by simp), List.length_cons, ← ih]
      exact Radix.zeros_cons_zero _
    · have hne : x.toNat ≠ 0 := fun h => hx (UInt8.toNat_inj.mp h)
      rw [List.map_cons, List.takeWhile_cons_of_neg (by simpa using hx)]
      exact Radix.zeros_cons_of_ne hne _

/-- Encoding changes the base. -/
theorem encode_eq (b : Bytes) :
    encode b = String.ofList ((Radix.recode 256 58 (b.map UInt8.toNat)).map symbol) := by
  rw [Radix.recode, value_bytes, zeros_bytes, Radix.numeral, List.map_append, List.map_replicate]
  rfl

/-- The decoder takes the encodings and nothing else. -/
theorem decode_eq_some_iff (s : String) (b : Bytes) : decode s = some b ↔ s = encode b := by
  rw [decode, Option.map_eq_some_iff, encode_eq]
  constructor
  · intro h
    obtain ⟨ds, hds, rfl⟩ := h
    obtain ⟨hlt, hmap⟩ := (mapM_digit_eq_some_iff _ _).mp hds
    rw [map_toNat_ofNat (Radix.recode_lt (by decide) _ _), Radix.recode_recode (by decide) _ hlt,
      hmap, String.ofList_toList]
  · intro h
    refine ⟨Radix.recode 256 58 (b.map UInt8.toNat), ?_, ?_⟩
    · rw [mapM_digit_eq_some_iff]
      exact ⟨Radix.recode_lt (by decide) _ _, by rw [h, String.toList_ofList]⟩
    · rw [Radix.recode_recode (by decide) _ (toNat_lt_of_mem b), map_ofNat_toNat]

theorem encode_injective {b b' : Bytes} (h : encode b = encode b') : b = b' := by
  have hdecode := (decode_eq_some_iff (encode b) b).mpr rfl
  rw [(decode_eq_some_iff (encode b) b').mpr h] at hdecode
  exact (Option.some.inj hdecode).symm

end YubiWallet.Bs58
