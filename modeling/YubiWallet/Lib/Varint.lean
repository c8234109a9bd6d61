import YubiWallet.Lib.Format

/-! Numbers in base 128, least significant digit first. All bytes but the last one have their
top bit set, and the last one is zero only if it is the only one. -/
namespace Varint

def write (n : Nat) : List UInt8 :=
  if n < 128 then [UInt8.ofNat n] else UInt8.ofNat (n % 128 + 128) :: write (n / 128)
termination_by n
decreasing_by exact Nat.div_lt_self (by omega) (by decide)

def read : List UInt8 → Option (Nat × List UInt8)
  | [] => none
  | x :: b =>
    if x.toNat < 128 then some (x.toNat, b)
    else
      match read b with
      | some (n, rest) => if n = 0 then none else some (x.toNat - 128 + 128 * n, rest)
      | none => none

theorem write_of_lt {n : Nat} (h : n < 128) : write n = [UInt8.ofNat n] := by
  rw [write, if_pos h]

theorem write_of_le {n : Nat} (h : 128 ≤ n) :
    write n = UInt8.ofNat (n % 128 + 128) :: write (n / 128) := by
  rw [write, if_neg (not_lt.mpr h)]

theorem toNat_ofNat {n : Nat} (h : n < 256) : (UInt8.ofNat n).toNat = n := by
  rw [UInt8.toNat_ofNat']
  omega

theorem read_write (n : Nat) (rest : List UInt8) : read (write n ++ rest) = some (n, rest) := by
  induction n using Nat.strongRecOn with
  | ind n ih =>
    by_cases hn : n < 128
    · rw [write_of_lt hn, List.cons_append, read, toNat_ofNat (by omega), if_pos hn]
      rfl
    · have hnext := ih (n / 128) (Nat.div_lt_self (by omega) (by decide))
      rw [write_of_le (not_lt.mp hn), List.cons_append, read, toNat_ofNat (by omega),
        if_neg (by omega), hnext]
      have hpos : n / 128 ≠ 0 := by omega
      have hvalue : n % 128 + 128 - 128 + 128 * (n / 128) = n := by omega
      simp only [if_neg hpos, hvalue]

/-- What is read was written, so the shortest form is the only one. -/
theorem eq_write_of_read {b rest : List UInt8} {n : Nat} (h : read b = some (n, rest)) :
    b = write n ++ rest := by
  induction b generalizing n rest with
  | nil => cases h
  | cons x b ih =>
    have hx := x.toNat_lt
    rw [read] at h
    split at h
    · rename_i hsmall
      obtain ⟨rfl, rfl⟩ := Prod.mk.inj (Option.some.inj h)
      rw [write_of_lt hsmall, UInt8.ofNat_toNat]
      rfl
    · rename_i hbig
      split at h
      · rename_i m rest' hread
        split at h
        · cases h
        · rename_i hm
          obtain ⟨rfl, rfl⟩ := Prod.mk.inj (Option.some.inj h)
          have hdiv : (x.toNat - 128 + 128 * m) / 128 = m := by omega
          have hmod : (x.toNat - 128 + 128 * m) % 128 + 128 = x.toNat := by omega
          rw [write_of_le (by omega), hdiv, hmod, UInt8.ofNat_toNat, ih hread]
          rfl
      · cases h

def format : Format Nat where
  write := write
  read := read
  read_iff _ _ _ := ⟨eq_write_of_read, fun h => by rw [h, read_write]⟩

end Varint
