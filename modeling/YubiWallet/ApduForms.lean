import YubiWallet.GeneralAuthenticate

/-! The commands of both builders, as a receiver tells them apart. -/
namespace YubiWallet.Apdu
open Endian

structure Header where
  cla : UInt8
  ins : UInt8
  p1 : UInt8
  p2 : UInt8
deriving DecidableEq

def Header.command (h : Header) (data : Option Bytes) (le : Option Nat) : Iso7816.Command :=
  ⟨h.cla, h.ins, h.p1, h.p2, data, le⟩

theorem Header.command_inj {h h' : Header} {data data' : Option Bytes} {le le' : Option Nat}
    (heq : h.command data le = h'.command data' le') : h = h' ∧ data = data' ∧ le = le' := by
  obtain ⟨hcla, hins, hp1, hp2, hdata, hle⟩ := Iso7816.Command.mk.inj heq
  cases h
  cases h'
  cases hcla
  cases hins
  cases hp1
  cases hp2
  exact ⟨rfl, hdata, hle⟩

/-- The calls of the two builders that make a command: without data, with data that fit
one length byte, and with data that fit two. -/
inductive Request where
  | bare (h : Header) (le : Option UInt8)
  | short (h : Header) (data : Bytes) (some_data : data ≠ []) (fits : data.length ≤ 255)
    (le : Option UInt8)
  | extended (h : Header) (data : Bytes) (some_data : data ≠ []) (fits : data.length ≤ 65535)
    (le : Option UInt16)

namespace Request

def build : Request → Except Error Bytes
  | bare h le => buildApdu h.cla h.ins h.p1 h.p2 none le
  | short h data _ _ le => buildApdu h.cla h.ins h.p1 h.p2 (some data) le
  | extended h data _ _ le => .ok (buildApduExt h.cla h.ins h.p1 h.p2 data le)

/-- What the caller asks for. A bare command has an expected length in any case. -/
def meaning : Request → Iso7816.Form × Iso7816.Command
  | bare h le => (.short, h.command none (some (le.getD 0).toNat))
  | short h data _ _ le => (.short, h.command (some data) (le.map UInt8.toNat))
  | extended h data _ _ le => (.extended, h.command (some data) (le.map UInt16.toNat))

/-- A bare command without expected length is the one with the expected length zero. -/
inductive Coincide : Request → Request → Prop
  | left (h : Header) : Coincide (bare h none) (bare h (some 0))
  | right (h : Header) : Coincide (bare h (some 0)) (bare h none)

end Request

theorem buildApdu_data_ok_iff (cla ins p1 p2 : UInt8) (data : Bytes) (le : Option UInt8) :
    (∃ c, buildApdu cla ins p1 p2 (some data) le = .ok c) ↔ data.length ≤ 255 := by
  constructor
  · intro h
    obtain ⟨c, hc⟩ := h
    exact (buildApdu_some hc).1
  · intro h
    exact ⟨_, if_neg (by omega)⟩

/-- Two bytes hold an expected length of the extended form. -/
theorem beNat_leBytesExt (le : UInt16) :
    beNat [(le >>> 8).toUInt8, (le &&& 0xFF).toUInt8] = le.toNat := by
  have hlt := le.toNat_lt
  have hlow : le.toNat &&& 0xFF = le.toNat % 2 ^ 8 := Nat.and_two_pow_sub_one_eq_mod _ 8
  have hhigh : (le >>> 8).toNat = le.toNat / 256 := by
    rw [UInt16.toNat_shiftRight]
    exact Nat.shiftRight_eq_div_pow _ 8
  have hmask : (le &&& 0xFF).toNat = le.toNat % 2 ^ 8 := by
    rw [UInt16.toNat_and]
    exact hlow
  simp only [beNat, List.foldl_cons, List.foldl_nil, UInt16.toNat_toUInt8, hhigh, hmask]
  omega

namespace Request

/-- Behind any header, data and expected length are found again, in either form. -/
theorem decode_build (r : Request) :
    ∃ c, r.build = .ok c ∧ Iso7816.decode c = some r.meaning := by
  cases r with
  | bare h le =>
    cases le with
    | none => exact ⟨_, rfl, Iso7816.decode_short_empty h.cla h.ins h.p1 h.p2⟩
    | some le => exact ⟨_, rfl, Iso7816.decode_short_le h.cla h.ins h.p1 h.p2 le⟩
  | short h data some_data fits le =>
    refine ⟨_, if_neg (by omega), ?_⟩
    cases le with
    | none =>
      rw [Option.toList_none, List.append_nil]
      exact Iso7816.decode_short_data h.cla h.ins h.p1 h.p2 some_data fits
    | some le =>
      rw [Option.toList_some, List.append_assoc]
      exact Iso7816.decode_short_data_le h.cla h.ins h.p1 h.p2 le some_data fits
  | extended h data some_data fits le =>
    refine ⟨_, rfl, ?_⟩
    have hlc : beNat [UInt8.ofNat (data.length >>> 8), UInt8.ofNat (data.length &&& 0xFF)] =
        data.length := by
      rw [Piv.beNat_lc]
      omega
    cases le with
    | none =>
      rw [buildApduExt, leBytesExt, List.append_nil]
      exact Iso7816.decode_extended_data h.cla h.ins h.p1 h.p2 rfl some_data hlc
    | some le =>
      have hle : ([(le >>> 8).toUInt8, (le &&& 0xFF).toUInt8] : Bytes).length = 2 := rfl
      have hdecode := Iso7816.decode_extended h.cla h.ins h.p1 h.p2 rfl hle some_data hlc
      rw [beNat_leBytesExt] at hdecode
      exact hdecode

/-- Bare commands have no other expected length in common than zero, given or not. -/
theorem bare_eq_or_coincide (h : Header) {le le' : Option UInt8} (hle : le.getD 0 = le'.getD 0) :
    bare h le = bare h le' ∨ Coincide (bare h le) (bare h le') := by
  cases le with
  | none =>
    cases le' with
    | none => exact Or.inl rfl
    | some n' =>
      obtain rfl : 0 = n' := hle
      exact Or.inr (Coincide.left h)
  | some n =>
    cases le' with
    | none =>
      obtain rfl : n = 0 := hle
      exact Or.inr (Coincide.right h)
    | some n' =>
      obtain rfl : n = n' := hle
      exact Or.inl rfl

/-- What is asked for tells the request, up to the one coincidence. -/
theorem eq_or_coincide {r r' : Request} (h : r.meaning = r'.meaning) :
    r = r' ∨ Coincide r r' := by
  have hbyte : Function.Injective (Option.map UInt8.toNat) :=
    Option.map_injective fun _ _ => UInt8.toNat_inj.mp
  have hword : Function.Injective (Option.map UInt16.toNat) :=
    Option.map_injective fun _ _ => UInt16.toNat_inj.mp
  obtain ⟨hform, hcommand⟩ := Prod.mk.inj h
  cases r with
  | bare k le =>
    cases r' with
    | bare k' le' =>
      obtain ⟨rfl, -, hle⟩ := Header.command_inj hcommand
      exact bare_eq_or_coincide k (UInt8.toNat_inj.mp (Option.some.inj hle))
    | short k' data' _ _ le' => cases (Header.command_inj hcommand).2.1
    | extended k' data' _ _ le' => cases hform
  | short k data _ _ le =>
    cases r' with
    | bare k' le' => cases (Header.command_inj hcommand).2.1
    | short k' data' _ _ le' =>
      obtain ⟨rfl, hdata, hle⟩ := Header.command_inj hcommand
      cases Option.some.inj hdata
      cases hbyte hle
      exact Or.inl rfl
    | extended k' data' _ _ le' => cases hform
  | extended k data _ _ le =>
    cases r' with
    | bare k' le' => cases hform
    | short k' data' _ _ le' => cases hform
    | extended k' data' _ _ le' =>
      obtain ⟨rfl, hdata, hle⟩ := Header.command_inj hcommand
      cases Option.some.inj hdata
      cases hword hle
      exact Or.inl rfl

/-- Two requests share an encoding only if they mean the same. -/
theorem build_eq_iff (r r' : Request) : r.build = r'.build ↔ r = r' ∨ Coincide r r' := by
  constructor
  · intro h
    obtain ⟨c, hc, hdecode⟩ := decode_build r
    obtain ⟨c', hc', hdecode'⟩ := decode_build r'
    rw [hc, hc'] at h
    rw [Except.ok.inj h] at hdecode
    exact eq_or_coincide (Option.some.inj (hdecode.symm.trans hdecode'))
  · intro h
    cases h with
    | inl heq => rw [heq]
    | inr hcoincide =>
      cases hcoincide with
      | left k => rfl
      | right k => rfl

end Request

/-- The short builder takes data of at most 255 bytes, every request is parsed back to what
was asked for, and two requests share an encoding only where nothing tells them apart. -/
theorem requests_decodeUniquely :
    (∀ cla ins p1 p2 data le,
      (∃ c, buildApdu cla ins p1 p2 (some data) le = .ok c) ↔ data.length ≤ 255) ∧
    (∀ r : Request, ∃ c, r.build = .ok c ∧ Iso7816.decode c = some r.meaning) ∧
    ∀ r r' : Request, r.build = r'.build ↔ r = r' ∨ r.Coincide r' :=
  ⟨buildApdu_data_ok_iff, Request.decode_build, Request.build_eq_iff⟩

end YubiWallet.Apdu
