import YubiWallet.Lib.Format

/-! Bitcoin transactions with witnesses: their serialization, and the digest that a
signature with SIGHASH_ALL is for. -/
namespace BitcoinTx
open Endian Format

/-- `k` bytes behind their marker, for values that no shorter form has. -/
def readPayload (k least : Nat) (b : List UInt8) : Option (Below (2 ^ 64) × List UInt8) :=
  match (Format.natLe k).read b with
  | some (n, rest) =>
    if h : least ≤ n.val ∧ n.val < 2 ^ 64 then some (⟨n.val, h.2⟩, rest) else none
  | none => none

theorem readPayload_eq_some_iff (k least : Nat) (b : List UInt8)
    (n : Below (2 ^ 64)) (rest : List UInt8) :
    readPayload k least b = some (n, rest) ↔
      least ≤ n.val ∧ n.val < 256 ^ k ∧ b = leBytes k n.val ++ rest := by
  unfold readPayload
  constructor
  · intro h
    split at h
    · rename_i m rest' hread
      split at h
      · rename_i hm
        obtain ⟨hn, rfl⟩ := Prod.mk.inj (Option.some.inj h)
        subst hn
        exact ⟨hm.1, m.property, ((Format.natLe k).read_iff _ _ _).mp hread⟩
      · cases h
    · cases h
  · intro h
    obtain ⟨hleast, hlt, hb⟩ := h
    have hread := ((Format.natLe k).read_iff b ⟨n.val, hlt⟩ rest).mpr hb
    rw [hread]
    exact dif_pos ⟨hleast, n.property⟩

def writeCompactSize (n : Below (2 ^ 64)) : List UInt8 :=
  if n.val < 253 then [UInt8.ofNat n.val]
  else if n.val < 2 ^ 16 then 0xFD :: leBytes 2 n.val
  else if n.val < 2 ^ 32 then 0xFE :: leBytes 4 n.val
  else 0xFF :: leBytes 8 n.val

def readCompactSize : List UInt8 → Option (Below (2 ^ 64) × List UInt8)
  | [] => none
  | t :: b =>
    if t.toNat < 253 then some (⟨t.toNat, t.toNat_lt.trans (by decide)⟩, b)
    else if t = 0xFD then readPayload 2 253 b
    else if t = 0xFE then readPayload 4 (2 ^ 16) b
    else readPayload 8 (2 ^ 32) b

theorem readCompactSize_small {t : UInt8} (h : t.toNat < 253) (b : List UInt8) :
    readCompactSize (t :: b) = some (⟨t.toNat, t.toNat_lt.trans (by decide)⟩, b) := dif_pos h

theorem readCompactSize_marker {t : UInt8} (h : ¬ t.toNat < 253) (b : List UInt8) :
    readCompactSize (t :: b) =
      if t = 0xFD then readPayload 2 253 b
      else if t = 0xFE then readPayload 4 (2 ^ 16) b
      else readPayload 8 (2 ^ 32) b := dif_neg h

theorem readCompactSize_write (n : Below (2 ^ 64)) (rest : List UInt8) :
    readCompactSize (writeCompactSize n ++ rest) = some (n, rest) := by
  obtain ⟨n, hn⟩ := n
  have hpayload : ∀ k least, least ≤ n → n < 256 ^ k →
      readPayload k least (leBytes k n ++ rest) = some (⟨n, hn⟩, rest) :=
    fun k least hleast hlt => (readPayload_eq_some_iff k least _ ⟨n, hn⟩ rest).mpr
      ⟨hleast, hlt, rfl⟩
  unfold writeCompactSize
  simp only
  by_cases hsmall : n < 253
  · have htag : (UInt8.ofNat n).toNat = n := by
      rw [UInt8.toNat_ofNat']
      omega
    rw [if_pos hsmall, List.cons_append, readCompactSize_small (by rwa [htag])]
    simp only [htag, List.nil_append]
  · rw [if_neg hsmall]
    by_cases h16 : n < 2 ^ 16
    · rw [if_pos h16, List.cons_append, readCompactSize_marker (by decide), if_pos rfl]
      exact hpayload 2 253 (not_lt.mp hsmall) h16
    · rw [if_neg h16]
      by_cases h32 : n < 2 ^ 32
      · rw [if_pos h32, List.cons_append, readCompactSize_marker (by decide),
          if_neg (by decide), if_pos rfl]
        exact hpayload 4 (2 ^ 16) (not_lt.mp h16) h32
      · rw [if_neg h32, List.cons_append, readCompactSize_marker (by decide),
          if_neg (by decide), if_neg (by decide)]
        exact hpayload 8 (2 ^ 32) (not_lt.mp h32) hn

theorem marker_eq {t : UInt8} (h : ¬ t.toNat < 253) (hfd : t ≠ 0xFD) (hfe : t ≠ 0xFE) :
    t = 0xFF := by
  have ht := t.toNat_lt
  have hfd' : t.toNat ≠ 253 := fun heq => hfd (UInt8.toNat_inj.mp heq)
  have hfe' : t.toNat ≠ 254 := fun heq => hfe (UInt8.toNat_inj.mp heq)
  apply UInt8.toNat_inj.mp
  change t.toNat = 255
  omega

/-- Only the shortest form is read. -/
theorem eq_writeCompactSize_of_read {b rest : List UInt8} {n : Below (2 ^ 64)}
    (h : readCompactSize b = some (n, rest)) : b = writeCompactSize n ++ rest := by
  cases b with
  | nil => cases h
  | cons t b =>
    unfold writeCompactSize
    by_cases hsmall : t.toNat < 253
    · rw [readCompactSize_small hsmall] at h
      obtain ⟨rfl, rfl⟩ := Prod.mk.inj (Option.some.inj h)
      rw [if_pos hsmall, UInt8.ofNat_toNat]
      rfl
    · rw [readCompactSize_marker hsmall] at h
      by_cases hfd : t = 0xFD
      · rw [if_pos hfd] at h
        obtain ⟨hleast, hlt, rfl⟩ := (readPayload_eq_some_iff _ _ _ _ _).mp h
        rw [if_neg (not_lt.mpr hleast), if_pos (by omega), hfd]
        rfl
      · rw [if_neg hfd] at h
        by_cases hfe : t = 0xFE
        · rw [if_pos hfe] at h
          obtain ⟨hleast, hlt, rfl⟩ := (readPayload_eq_some_iff _ _ _ _ _).mp h
          rw [if_neg (by omega), if_neg (not_lt.mpr hleast), if_pos (by omega), hfe]
          rfl
        · rw [if_neg hfe] at h
          obtain ⟨hleast, -, rfl⟩ := (readPayload_eq_some_iff _ _ _ _ _).mp h
          rw [if_neg (by omega), if_neg (by omega), if_neg (not_lt.mpr hleast),
            marker_eq hsmall hfd hfe]
          rfl

theorem writeCompactSize_of_lt {n : Below (2 ^ 64)} (h : n.val < 253) :
    writeCompactSize n = [UInt8.ofNat n.val] := if_pos h

/-- One byte is enough below 253 only. -/
theorem writeCompactSize_length (n : Below (2 ^ 64)) :
    (writeCompactSize n).length = 1 ↔ n.val < 253 := by
  unfold writeCompactSize
  by_cases hsmall : n.val < 253
  · simp [hsmall]
  · rw [if_neg hsmall]
    split
    · simp [hsmall]
    · split <;> simp [hsmall]

def compactSize : Format (Below (2 ^ 64)) where
  write := writeCompactSize
  read := readCompactSize
  read_iff _ _ _ := ⟨eq_writeCompactSize_of_read, fun h => by rw [h, readCompactSize_write]⟩

/-- Fewer than `2 ^ 64` of something. -/
abbrev Many (α : Type) := { as : List α // as.length < 2 ^ 64 }

abbrev Script := Many UInt8

def Many.one {α : Type} (a : α) : Many α := ⟨[a], (by decide : 1 < 2 ^ 64)⟩

def Many.two {α : Type} (a a' : α) : Many α := ⟨[a, a'], (by decide : 2 < 2 ^ 64)⟩

def many {α : Type} (F : Format α) : Format (Many α) := compactSize.counted F

def script : Format Script := many Format.byte

theorem write_script (s : Script) :
    script.write s = writeCompactSize ⟨s.val.length, s.property⟩ ++ s.val :=
  Format.write_counted_byte compactSize s

theorem write_script_of_lt {s : Script} (h : s.val.length < 253) :
    script.write s = UInt8.ofNat s.val.length :: s.val := by
  rw [write_script, writeCompactSize_of_lt h]
  rfl

theorem write_one {α : Type} (F : Format α) (a : α) :
    (many F).write (Many.one a) = 0x01 :: F.write a := by
  rw [many, write_counted]
  exact congrArg (0x01 :: ·) (List.append_nil _)

theorem write_two {α : Type} (F : Format α) (a a' : α) :
    (many F).write (Many.two a a') = 0x02 :: (F.write a ++ F.write a') := by
  rw [many, write_counted]
  exact congrArg (fun w => 0x02 :: (F.write a ++ w)) (List.append_nil _)

structure OutPoint where
  /-- As in the digest of the transaction, the last displayed byte first. -/
  txid : { b : List UInt8 // b.length = 32 }
  vout : UInt32

structure TxIn where
  previous : OutPoint
  scriptSig : Script
  sequence : UInt32

structure TxOut where
  value : UInt64
  scriptPubkey : Script

/-- A transaction. Each input has its stack of witness items. -/
structure Tx where
  version : UInt32
  inputs : Many TxIn
  outputs : Many TxOut
  witnesses : { w : List (Many Script) // w.length = inputs.val.length }
  locktime : UInt32

def outPoint : Format OutPoint :=
  ((Format.bytes 32).pair u32).iso (fun x => ⟨x.1, x.2⟩) (fun o => (o.txid, o.vout))
    (fun _ => rfl) fun _ => rfl

def txIn : Format TxIn :=
  (outPoint.pair (script.pair u32)).iso (fun x => ⟨x.1, x.2.1, x.2.2⟩)
    (fun i => (i.previous, i.scriptSig, i.sequence)) (fun _ => rfl) fun _ => rfl

def txOut : Format TxOut :=
  (u64.pair script).iso (fun x => ⟨x.1, x.2⟩) (fun o => (o.value, o.scriptPubkey))
    (fun _ => rfl) fun _ => rfl

/-- Behind the version stands a count of no inputs, which tells that witnesses follow. -/
def segwit : List UInt8 := [0x00, 0x01]

def tx : Format Tx :=
  ((u32.pair ((Format.marker segwit).pair ((many txIn).pair (many txOut)))).depend fun x =>
      ((many script).vector x.2.2.1.val.length).pair u32).iso
    (fun x => ⟨x.1.1, x.1.2.2.1, x.1.2.2.2, x.2.1, x.2.2⟩)
    (fun t => ⟨(t.version, (), t.inputs, t.outputs), (t.witnesses, t.locktime)⟩)
    (fun _ => rfl) fun _ => rfl

theorem write_tx (t : Tx) :
    tx.write t = u32.write t.version ++ (segwit ++ ((many txIn).write t.inputs ++
      (many txOut).write t.outputs)) ++
      (t.witnesses.val.flatMap (many script).write ++ u32.write t.locktime) :=
  congrArg (fun w => u32.write t.version ++ (segwit ++ ((many txIn).write t.inputs ++
    (many txOut).write t.outputs)) ++ (w ++ u32.write t.locktime))
    (Format.write_vector (many script) t.witnesses)

-- the reader is used through `Format.read_iff` only, never unfolded
attribute [irreducible] tx

variable (sha256 : List UInt8 → { b : List UInt8 // b.length = 32 })

def hashTwice (b : List UInt8) : List UInt8 := (sha256 (sha256 b).val).val

/-- SIGHASH_ALL: all inputs and all outputs. -/
def sighashAll : UInt32 := 1

/-- The digest for one of the inputs, which spends an output of this amount under this
script. -/
def digest (t : Tx) (input : TxIn) (scriptCode : Script) (amount : UInt64) : List UInt8 :=
  hashTwice sha256 (u32.write t.version ++
    hashTwice sha256 (t.inputs.val.flatMap fun i => outPoint.write i.previous) ++
    hashTwice sha256 (t.inputs.val.flatMap fun i => u32.write i.sequence) ++
    outPoint.write input.previous ++ script.write scriptCode ++ u64.write amount ++
    u32.write input.sequence ++ hashTwice sha256 (t.outputs.val.flatMap txOut.write) ++
    u32.write t.locktime ++ u32.write sighashAll)

end BitcoinTx
