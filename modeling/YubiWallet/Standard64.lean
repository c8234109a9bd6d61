import YubiWallet.Lib.Base64
import YubiWallet.Text

/-! The engine `STANDARD` of the base64 crate, between bytes and text. -/
namespace YubiWallet.Standard64

/-- The text of ASCII bytes. -/
def asciiText (b : Bytes) : String := String.ofList (b.map fun x => Char.ofNat x.toNat)

def encode (b : Bytes) : String := asciiText (Base64.encode b)

def decode (s : String) : Option Bytes := Base64.decode (asBytes s)

theorem asBytes_asciiText {b : Bytes} (h : ∀ x ∈ b, x < 128) : asBytes (asciiText b) = b := by
  have hchar : ∀ n : Fin 128, String.utf8EncodeChar (Char.ofNat n) = [UInt8.ofNat n] := by decide
  rw [asBytes, asciiText, String.toList_ofList, List.flatMap_map]
  calc b.flatMap (fun x => String.utf8EncodeChar (Char.ofNat x.toNat))
      = b.flatMap fun x => [x] := List.flatMap_congr fun x hx => by
        rw [hchar ⟨x.toNat, UInt8.lt_iff_toNat_lt.mp (h x hx)⟩, UInt8.ofNat_toNat]
    _ = b := List.flatMap_singleton' b

theorem symbol_ascii {n : Nat} (h : n < 64) : Base64.symbol n < 128 := by
  have hall : ∀ k : Fin 64, Base64.symbol k < 128 := by decide
  exact hall ⟨n, h⟩

theorem encode_ascii (b : Bytes) : ∀ x ∈ Base64.encode b, x < 128 := by
  have hpad : Base64.pad < 128 := by decide
  fun_induction Base64.encode b with
  | case1 => exact List.forall_mem_nil _
  | case2 a =>
    have ha := a.toNat_lt
    simp only [List.forall_mem_cons, List.not_mem_nil, false_implies, implies_true, and_true]
    exact ⟨symbol_ascii (by omega), symbol_ascii (by omega), hpad, hpad⟩
  | case3 a b =>
    have ha := a.toNat_lt
    have hb := b.toNat_lt
    simp only [List.forall_mem_cons, List.not_mem_nil, false_implies, implies_true, and_true]
    exact ⟨symbol_ascii (by omega), symbol_ascii (by omega), symbol_ascii (by omega), hpad⟩
  | case4 a b c rest ih =>
    have ha := a.toNat_lt
    have hb := b.toNat_lt
    have hc := c.toNat_lt
    simp only [List.forall_mem_cons]
    exact ⟨symbol_ascii (by omega), symbol_ascii (by omega), symbol_ascii (by omega),
      symbol_ascii (by omega), ih⟩

theorem asBytes_encode (b : Bytes) : asBytes (encode b) = Base64.encode b :=
  asBytes_asciiText (encode_ascii b)

theorem decode_encode (b : Bytes) : decode (encode b) = some b := by
  rw [decode, asBytes_encode, Base64.decode_encode]

end YubiWallet.Standard64
