import YubiWallet.Lib.Endian

/-! Binary formats. A format writes each value in one way and reads exactly what it writes,
from the front of any input. The combinators keep this, so that a format built from them has
its round trip and its canonical form by construction. -/

structure Format (α : Type) where
  write : α → List UInt8
  read : List UInt8 → Option (α × List UInt8)
  read_iff : ∀ b a rest, read b = some (a, rest) ↔ b = write a ++ rest

abbrev Below (m : Nat) := { n : Nat // n < m }

namespace Format
variable {α β : Type}

theorem read_write (F : Format α) (a : α) (rest : List UInt8) :
    F.read (F.write a ++ rest) = some (a, rest) := (F.read_iff _ _ _).mpr rfl

/-- Nothing follows. -/
theorem read_eq_nil_iff (F : Format α) (b : List UInt8) (a : α) :
    F.read b = some (a, []) ↔ b = F.write a := by
  rw [F.read_iff, List.append_nil]

/-- No value is written as the beginning of another one. -/
theorem write_prefix_free (F : Format α) {a a' : α} {rest rest' : List UInt8}
    (h : F.write a ++ rest = F.write a' ++ rest') : a = a' ∧ rest = rest' := by
  have hread := F.read_write a rest
  rw [h, F.read_write] at hread
  obtain ⟨rfl, rfl⟩ := Prod.mk.inj (Option.some.inj hread)
  exact ⟨rfl, rfl⟩

def byte : Format UInt8 where
  write x := [x]
  read
    | [] => none
    | x :: rest => some (x, rest)
  read_iff b a rest := by
    cases b with
    | nil => simp
    | cons x b => simp

/-- A fixed number of bytes, as they are. -/
def bytes (n : Nat) : Format { b : List UInt8 // b.length = n } where
  write b := b.val
  read b := if h : n ≤ b.length then some (⟨b.take n, List.length_take_of_le h⟩, b.drop n) else none
  read_iff b a rest := by
    obtain ⟨a, rfl⟩ := a
    constructor
    · intro h
      split at h
      · obtain ⟨ha, hrest⟩ := Prod.mk.inj (Option.some.inj h)
        have htake : b.take a.length = a := congrArg Subtype.val ha
        calc b = b.take a.length ++ b.drop a.length := (List.take_append_drop _ b).symm
          _ = a ++ rest := by rw [htake, hrest]
      · cases h
    · intro h
      subst h
      rw [dif_pos (by simp)]
      simp

/-- Fixed bytes that carry nothing. -/
def marker (m : List UInt8) : Format Unit where
  write _ := m
  read b := if m <+: b then some ((), b.drop m.length) else none
  read_iff b a rest := by
    constructor
    · intro h
      split at h
      · rename_i hprefix
        obtain ⟨-, rfl⟩ := Prod.mk.inj (Option.some.inj h)
        exact (List.prefix_iff_eq_append.mp hprefix).symm
      · cases h
    · intro h
      subst h
      rw [if_pos (List.prefix_append m rest), List.drop_left]

/-- The same bytes, for values that correspond one to one. -/
def iso (F : Format α) (make : α → β) (back : β → α) (hmake : ∀ a, back (make a) = a)
    (hback : ∀ b, make (back b) = b) : Format β where
  write b := F.write (back b)
  read b := (F.read b).map fun r => (make r.1, r.2)
  read_iff b x rest := by
    rw [Option.map_eq_some_iff]
    constructor
    · intro h
      obtain ⟨⟨a, rest'⟩, hread, heq⟩ := h
      obtain ⟨rfl, rfl⟩ := Prod.mk.inj heq
      rw [hmake]
      exact (F.read_iff _ _ _).mp hread
    · intro h
      exact ⟨(back x, rest), (F.read_iff _ _ _).mpr h, by rw [hback]⟩

/-- The values of a kind. Others are refused. -/
def refine (F : Format α) (p : α → Prop) [DecidablePred p] : Format { a // p a } where
  write a := F.write a.val
  read b := match F.read b with
    | some (a, rest) => if h : p a then some (⟨a, h⟩, rest) else none
    | none => none
  read_iff b a rest := by
    constructor
    · intro h
      split at h
      · rename_i a' rest' hread
        split at h
        · obtain ⟨rfl, rfl⟩ := Prod.mk.inj (Option.some.inj h)
          exact (F.read_iff _ _ _).mp hread
        · cases h
      · cases h
    · intro h
      rw [(F.read_iff _ _ _).mpr h]
      exact dif_pos a.property

/-- A value whose format depends on the one before it. -/
def depend {β : α → Type} (F : Format α) (G : (a : α) → Format (β a)) : Format ((a : α) × β a) where
  write x := F.write x.1 ++ (G x.1).write x.2
  read b := match F.read b with
    | some (a, rest) => ((G a).read rest).map fun r => (⟨a, r.1⟩, r.2)
    | none => none
  read_iff b x rest := by
    obtain ⟨a, y⟩ := x
    constructor
    · intro h
      split at h
      · rename_i a' rest' hread
        obtain ⟨⟨y', rest''⟩, hread', heq⟩ := Option.map_eq_some_iff.mp h
        obtain ⟨hsigma, rfl⟩ := Prod.mk.inj heq
        cases hsigma
        rw [(F.read_iff _ _ _).mp hread, ((G a).read_iff _ _ _).mp hread', List.append_assoc]
      · cases h
    · intro h
      rw [List.append_assoc] at h
      rw [(F.read_iff _ _ _).mpr h]
      simp only [(G a).read_write, Option.map_some]

def pair (F : Format α) (G : Format β) : Format (α × β) :=
  (F.depend fun _ => G).iso (fun x => (x.1, x.2)) (fun x => ⟨x.1, x.2⟩) (fun _ => rfl)
    fun _ => rfl

@[simp] theorem write_pair (F : Format α) (G : Format β) (x : α × β) :
    (F.pair G).write x = F.write x.1 ++ G.write x.2 := rfl

/-- A list of fixed length, one element after the other. -/
def vector (F : Format α) : (n : Nat) → Format { as : List α // as.length = n }
  | 0 => (marker []).iso (fun _ => ⟨[], rfl⟩) (fun _ => ()) (fun _ => rfl) fun as =>
      Subtype.ext (List.length_eq_zero_iff.mp as.property).symm
  | n + 1 => (F.pair (vector F n)).iso
      (fun x => ⟨x.1 :: x.2.val, congrArg (· + 1) x.2.property⟩)
      (fun as => match as with
        | ⟨a :: as, h⟩ => (a, ⟨as, Nat.succ.inj h⟩))
      (fun _ => rfl)
      (fun as => match as with
        | ⟨_ :: _, _⟩ => rfl)

theorem write_vector (F : Format α) {n : Nat} (as : { as : List α // as.length = n }) :
    (F.vector n).write as = as.val.flatMap F.write := by
  obtain ⟨as, rfl⟩ := as
  induction as with
  | nil => rfl
  | cons a as ih =>
    rw [List.flatMap_cons, ← ih]
    rfl

/-- A list behind its length. -/
def counted {m : Nat} (L : Format (Below m)) (F : Format α) :
    Format { as : List α // as.length < m } :=
  (L.depend fun n => F.vector n.val).iso
    (fun x => ⟨x.2.val, by rw [x.2.property]; exact x.1.property⟩)
    (fun as => ⟨⟨as.val.length, as.property⟩, ⟨as.val, rfl⟩⟩)
    (fun x => by
      obtain ⟨⟨n, hn⟩, as, has⟩ := x
      change as.length = n at has
      subst has
      rfl)
    (fun _ => rfl)

theorem write_counted {m : Nat} (L : Format (Below m)) (F : Format α)
    (as : { as : List α // as.length < m }) :
    (counted L F).write as = L.write ⟨as.val.length, as.property⟩ ++ as.val.flatMap F.write :=
  congrArg (_ ++ ·) (write_vector F ⟨as.val, rfl⟩)

/-- Bytes behind their number. -/
theorem write_counted_byte {m : Nat} (L : Format (Below m))
    (b : { b : List UInt8 // b.length < m }) :
    (counted L byte).write b = L.write ⟨b.val.length, b.property⟩ ++ b.val := by
  rw [write_counted]
  exact congrArg (_ ++ ·) (List.flatMap_singleton' b.val)

/-- A value behind the number of its bytes. -/
def sized {m : Nat} (F : Format α) (L : Format (Below m)) :
    Format { a : α // (F.write a).length < m } where
  write a := L.write ⟨(F.write a.val).length, a.property⟩ ++ F.write a.val
  read b := match (counted L byte).read b with
    | some (c, rest) =>
      match h : F.read c.val with
      | some (a, []) => some (⟨a, by rw [← (F.read_eq_nil_iff _ _).mp h]; exact c.property⟩, rest)
      | _ => none
    | none => none
  read_iff b a rest := by
    constructor
    · intro h
      split at h
      · rename_i c rest' hread
        split at h
        · rename_i a' hvalue
          obtain ⟨rfl, rfl⟩ := Prod.mk.inj (Option.some.inj h)
          obtain ⟨c, hc⟩ := c
          obtain rfl : c = F.write a' := (F.read_eq_nil_iff _ _).mp hvalue
          rw [((counted L byte).read_iff _ _ _).mp hread, write_counted_byte]
        · cases h
      · cases h
    · intro h
      rw [← write_counted_byte L ⟨F.write a.val, a.property⟩] at h
      rw [((counted L byte).read_iff _ _ _).mpr h]
      have hvalue : F.read (F.write a.val) = some (a.val, []) := (F.read_eq_nil_iff _ _).mpr rfl
      simp only
      split
      · rename_i a' hread
        rw [hvalue] at hread
        obtain ⟨rfl, -⟩ := Prod.mk.inj (Option.some.inj hread)
        rfl
      · rename_i hne
        exact absurd hvalue (hne a.val)

theorem leBytes_leNat (b : List UInt8) : Endian.leBytes b.length (Endian.leNat b) = b := by
  rw [Endian.leBytes, Endian.leNat, ← List.length_reverse, Endian.beBytes_beNat,
    List.reverse_reverse]

theorem leNat_lt (b : List UInt8) : Endian.leNat b < 256 ^ b.length := by
  have h := Endian.beNat_lt b.reverse
  rwa [List.length_reverse] at h

def natLe (k : Nat) : Format (Below (256 ^ k)) :=
  (bytes k).iso
    (fun b => ⟨Endian.leNat b.val, by
      have h := leNat_lt b.val
      rwa [b.property] at h⟩)
    (fun n => ⟨Endian.leBytes k n.val, Endian.leBytes_length k n.val⟩)
    (fun b => Subtype.ext <| by
      have h := leBytes_leNat b.val
      rwa [b.property] at h)
    (fun n => Subtype.ext (Endian.leNat_leBytes n.property))

@[simp] theorem write_natLe (k : Nat) (n : Below (256 ^ k)) :
    (natLe k).write n = Endian.leBytes k n.val := rfl

def u32 : Format UInt32 :=
  (natLe 4).iso (fun n => UInt32.ofNatLT n.val n.property)
    (fun x => ⟨x.toNat, x.toNat_lt⟩) (fun _ => rfl)
    fun x => UInt32.ofNatLT_toNat x

def u64 : Format UInt64 :=
  (natLe 8).iso (fun n => UInt64.ofNatLT n.val n.property)
    (fun x => ⟨x.toNat, x.toNat_lt⟩) (fun _ => rfl)
    fun x => UInt64.ofNatLT_toNat x

@[simp] theorem write_u32 (x : UInt32) : u32.write x = Endian.leBytes 4 x.toNat := rfl

@[simp] theorem write_u64 (x : UInt64) : u64.write x = Endian.leBytes 8 x.toNat := rfl

end Format
