import YubiWallet.Account

/-! The texts that are read as PIV slots, against the documented ones. -/
namespace YubiWallet

/-- One or more hexadecimal digits that stand for `n`. -/
def HexNumeral (cs : List Char) (n : Nat) : Prop :=
  cs ≠ [] ∧ ∃ ds : List Nat, cs.map hexDigit = ds.map some ∧ Nat.ofDigits 16 ds.reverse = n

/-- The named slots. -/
def pivAliases : List (String × UInt8) :=
  [("auth", 0x9A), ("sign", 0x9C), ("keymgmt", 0x9D), ("key-mgmt", 0x9D), ("cardauth", 0x9E),
    ("card-auth", 0x9E)]

/-- The documented texts of a slot: a name, or its id in hexadecimal. -/
def PivSlotText (t : String) (v : UInt8) : Prop :=
  (t, v) ∈ pivAliases ∨
    ∃ ds, (t.toList = ds ∨ t.toList = '0' :: 'x' :: ds) ∧ HexNumeral ds v.toNat ∧
      v ∈ PivSlot.all

/-- The id of a slot in hexadecimal, with a plus sign in front of the digits. -/
def SignedSlotText (t : String) (v : UInt8) : Prop :=
  ∃ ds, (t.toList = '+' :: ds ∨ t.toList = '0' :: 'x' :: '+' :: ds) ∧
    HexNumeral ds v.toNat ∧ v ∈ PivSlot.all

theorem ofDigits_reverse (ds : List Nat) :
    Nat.ofDigits 16 ds.reverse = ds.foldl (fun n d => n * 16 + d) 0 := by
  rw [Nat.ofDigits_eq_foldr, List.foldr_reverse]
  congr 1
  funext n d
  simp only [Nat.cast_id]
  omega

theorem le_foldl_digits (ds : List Nat) (n : Nat) : n ≤ ds.foldl (fun n d => n * 16 + d) n := by
  induction ds generalizing n with
  | nil => exact le_refl n
  | cons d ds ih =>
    have hstep := ih (n * 16 + d)
    rw [List.foldl_cons]
    omega

theorem pushHexDigit_eq_some_iff {n m : Nat} {c : Char} :
    pushHexDigit n c = some m ↔ ∃ d, hexDigit c = some d ∧ n * 16 + d = m ∧ m < 256 := by
  unfold pushHexDigit
  cases hexDigit c with
  | none => simp
  | some d =>
    by_cases h : n * 16 + d < 256
    · simp only [if_pos h, Option.some.injEq, exists_eq_left']
      constructor
      · intro hm
        exact ⟨hm, by omega⟩
      · intro hm
        exact hm.1
    · simp only [if_neg h, Option.some.injEq, exists_eq_left', reduceCtorEq, false_iff]
      intro hm
      omega

/-- Digits are read from the left, and a value that fits has only values that fit before it. -/
theorem foldlM_pushHexDigit {cs : List Char} {n m : Nat} (hn : n < 256) :
    cs.foldlM pushHexDigit n = some m ↔
      ∃ ds : List Nat, cs.map hexDigit = ds.map some ∧ ds.foldl (fun n d => n * 16 + d) n = m ∧ m < 256 := by
  induction cs generalizing n with
  | nil =>
    rw [List.foldlM_nil]
    constructor
    · intro h
      have hm : n = m := Option.some.inj h
      exact ⟨[], rfl, hm, hm ▸ hn⟩
    · intro h
      obtain ⟨ds, hds, hm, -⟩ := h
      have hnil : ds = [] := List.map_eq_nil_iff.mp hds.symm
      rw [hnil] at hm
      exact congrArg some hm
  | cons c cs ih =>
    rw [List.foldlM_cons, Option.bind_eq_bind, Option.bind_eq_some_iff]
    constructor
    · intro h
      obtain ⟨k, hk, hrest⟩ := h
      obtain ⟨d, hd, heq, hlt⟩ := pushHexDigit_eq_some_iff.mp hk
      obtain ⟨ds, hds, hm, hfit⟩ := (ih hlt).mp hrest
      refine ⟨d :: ds, ?_, ?_, hfit⟩
      · rw [List.map_cons, List.map_cons, hd, hds]
      · rw [List.foldl_cons, heq, hm]
    · intro h
      obtain ⟨ds, hds, hm, hfit⟩ := h
      cases ds with
      | nil => cases hds
      | cons d ds =>
        obtain ⟨hd, hrest⟩ := List.cons.inj hds
        rw [List.foldl_cons] at hm
        have hle := le_foldl_digits ds (n * 16 + d)
        have hlt : n * 16 + d < 256 := by omega
        exact ⟨n * 16 + d, pushHexDigit_eq_some_iff.mpr ⟨d, hd, rfl, hlt⟩,
          (ih hlt).mpr ⟨ds, hrest, hm, hfit⟩⟩

theorem HexNumeral.not_plus {ds : List Char} {n : Nat} (h : HexNumeral ('+' :: ds) n) : False := by
  obtain ⟨-, digits, hdigits, -⟩ := h
  cases digits with
  | nil => cases hdigits
  | cons d digits => cases (List.cons.inj hdigits).1

theorem HexNumeral.not_prefix {ds : List Char} {n : Nat} (h : HexNumeral ('0' :: 'x' :: ds) n) :
    False := by
  obtain ⟨-, digits, hdigits, -⟩ := h
  cases digits with
  | nil => cases hdigits
  | cons d digits =>
    cases digits with
    | nil => cases (List.cons.inj hdigits).2
    | cons d' digits => cases (List.cons.inj (List.cons.inj hdigits).2).1

theorem foldlM_eq_some_iff_numeral {ds : List Char} (hne : ds ≠ []) (v : UInt8) :
    (ds.foldlM pushHexDigit 0).map UInt8.ofNat = some v ↔ HexNumeral ds v.toNat := by
  rw [Option.map_eq_some_iff]
  constructor
  · intro h
    obtain ⟨m, hm, hv⟩ := h
    obtain ⟨digits, hdigits, hvalue, hfit⟩ := (foldlM_pushHexDigit (by decide)).mp hm
    refine ⟨hne, digits, hdigits, ?_⟩
    rw [ofDigits_reverse, hvalue, ← hv, UInt8.toNat_ofNat']
    omega
  · intro h
    obtain ⟨-, digits, hdigits, hvalue⟩ := h
    rw [ofDigits_reverse] at hvalue
    exact ⟨v.toNat, (foldlM_pushHexDigit (by decide)).mpr ⟨digits, hdigits, hvalue, v.toNat_lt⟩,
      UInt8.ofNat_toNat⟩

/-- The radix parser reads the numerals, with or without a plus sign. -/
theorem u8FromStrRadix16_eq_some_iff (cs : List Char) (v : UInt8) :
    u8FromStrRadix16 cs = some v ↔
      ∃ ds, (cs = ds ∨ cs = '+' :: ds) ∧ HexNumeral ds v.toNat := by
  have hdigits : ∀ ds : List Char,
      (if ds = [] then none else (ds.foldlM pushHexDigit 0).map UInt8.ofNat) = some v ↔
        HexNumeral ds v.toNat := by
    intro ds
    by_cases hnil : ds = []
    · rw [if_pos hnil]
      constructor
      · intro h
        cases h
      · intro h
        exact absurd hnil h.1
    · rw [if_neg hnil]
      exact foldlM_eq_some_iff_numeral hnil v
  simp only [u8FromStrRadix16]
  split
  · rename_i ds
    rw [hdigits]
    constructor
    · intro h
      exact ⟨ds, Or.inr rfl, h⟩
    · intro h
      obtain ⟨ds', hcs, hnum⟩ := h
      cases hcs with
      | inl heq => exact (HexNumeral.not_plus (heq ▸ hnum)).elim
      | inr heq => exact (List.cons.inj heq).2 ▸ hnum
  · rename_i hplain
    rw [hdigits]
    constructor
    · intro h
      exact ⟨cs, Or.inl rfl, h⟩
    · intro h
      obtain ⟨ds, hcs, hnum⟩ := h
      cases hcs with
      | inl heq => exact heq ▸ hnum
      | inr heq => exact absurd heq (hplain ds)

theorem parseHexByte_eq_some_iff (t : String) (v : UInt8) :
    parseHexByte t = some v ↔
      ∃ ds, (t.toList = ds ∨ t.toList = '0' :: 'x' :: ds ∨ t.toList = '+' :: ds ∨
        t.toList = '0' :: 'x' :: '+' :: ds) ∧ HexNumeral ds v.toNat := by
  unfold parseHexByte
  rw [u8FromStrRadix16_eq_some_iff]
  generalize t.toList = cs
  unfold stripPrefix0x
  split
  · rename_i rest
    constructor
    · intro h
      obtain ⟨ds, hrest, hnum⟩ := h
      cases hrest with
      | inl heq => exact ⟨ds, Or.inr (Or.inl (by rw [heq])), hnum⟩
      | inr heq => exact ⟨ds, Or.inr (Or.inr (Or.inr (by rw [heq]))), hnum⟩
    · intro h
      obtain ⟨ds, hcs, hnum⟩ := h
      rcases hcs with heq | heq | heq | heq
      · exact (HexNumeral.not_prefix (heq ▸ hnum)).elim
      · exact ⟨ds, Or.inl (by simpa using heq), hnum⟩
      · cases (List.cons.inj heq).1
      · exact ⟨ds, Or.inr (by simpa using heq), hnum⟩
  · rename_i hplain
    constructor
    · intro h
      obtain ⟨ds, hcs, hnum⟩ := h
      cases hcs with
      | inl heq => exact ⟨ds, Or.inl heq, hnum⟩
      | inr heq => exact ⟨ds, Or.inr (Or.inr (Or.inl heq)), hnum⟩
    · intro h
      obtain ⟨ds, hcs, hnum⟩ := h
      rcases hcs with heq | heq | heq | heq
      · exact ⟨ds, Or.inl heq, hnum⟩
      · exact absurd heq (hplain ds)
      · exact ⟨ds, Or.inr heq, hnum⟩
      · exact absurd heq (hplain ('+' :: ds))

/-- A name is no number, so the order in which the two are tried does not matter. -/
theorem pivSlotValue_eq_some_iff (t : String) (v : UInt8) :
    pivSlotValue t = some v ↔ (t, v) ∈ pivAliases ∨ parseHexByte t = some v := by
  have hnames : ∀ p ∈ pivAliases, parseHexByte p.1 = none := by decide
  by_cases halias : ∃ w, (t, w) ∈ pivAliases
  · obtain ⟨w, hw⟩ := halias
    have hvalue : ∀ p ∈ pivAliases, pivSlotValue p.1 = some p.2 ∧
        ∀ q ∈ pivAliases, q.1 = p.1 → q.2 = p.2 := by decide
    obtain ⟨hparse, hunique⟩ := hvalue (t, w) hw
    rw [hparse, hnames (t, w) hw]
    constructor
    · intro h
      exact Or.inl (Option.some.inj h ▸ hw)
    · intro h
      cases h with
      | inl hv => exact congrArg some (hunique (t, v) hv rfl).symm
      | inr hv => cases hv
  · have hother : pivSlotValue t = parseHexByte t := by
      have hnot : ∀ p ∈ pivAliases, t ≠ p.1 := fun p hp ht => halias ⟨p.2, ht ▸ hp⟩
      simp only [pivAliases, List.forall_mem_cons] at hnot
      obtain ⟨h1, h2, h3, h4, h5, h6, -⟩ := hnot
      unfold pivSlotValue
      split
      · exact absurd rfl h1
      · exact absurd rfl h2
      · exact absurd rfl h3
      · exact absurd rfl h4
      · exact absurd rfl h5
      · exact absurd rfl h6
      · rfl
    rw [hother]
    constructor
    · intro h
      exact Or.inr h
    · intro h
      cases h with
      | inl hv => exact absurd ⟨v, hv⟩ halias
      | inr hv => exact hv

theorem parseSlot_piv_eq_ok_iff (s : String) (v : UInt8) :
    parseSlot .piv s = .ok v ↔
      pivSlotValue (toAsciiLowercase (trim s)) = some v ∧ v ∈ PivSlot.all := by
  rw [PivSlot.mem_all_iff]
  simp only [parseSlot]
  cases pivSlotValue (toAsciiLowercase (trim s)) with
  | none => simp
  | some w =>
    by_cases hw : PivSlot.isValid w = true
    · simp only [if_pos hw, Except.ok.injEq, Option.some.injEq]
      constructor
      · intro h
        exact ⟨h, h ▸ hw⟩
      · intro h
        exact h.1
    · simp only [if_neg hw, Option.some.injEq, reduceCtorEq, false_iff]
      intro h
      exact hw (h.1 ▸ h.2)

/-- What is accepted: the documented texts, and the numbers with a plus sign. -/
theorem parseSlot_piv_texts (s : String) (v : UInt8) :
    parseSlot .piv s = .ok v ↔
      PivSlotText (toAsciiLowercase (trim s)) v ∨ SignedSlotText (toAsciiLowercase (trim s)) v := by
  rw [parseSlot_piv_eq_ok_iff, pivSlotValue_eq_some_iff, parseHexByte_eq_some_iff]
  generalize toAsciiLowercase (trim s) = t
  have hvalid : ∀ p ∈ pivAliases, p.2 ∈ PivSlot.all := by decide
  constructor
  · intro h
    obtain ⟨htext, hall⟩ := h
    cases htext with
    | inl halias => exact Or.inl (Or.inl halias)
    | inr hhex =>
      obtain ⟨ds, hcs, hnum⟩ := hhex
      rcases hcs with heq | heq | heq | heq
      · exact Or.inl (Or.inr ⟨ds, Or.inl heq, hnum, hall⟩)
      · exact Or.inl (Or.inr ⟨ds, Or.inr heq, hnum, hall⟩)
      · exact Or.inr ⟨ds, Or.inl heq, hnum, hall⟩
      · exact Or.inr ⟨ds, Or.inr heq, hnum, hall⟩
  · intro h
    rcases h with (halias | ⟨ds, hcs, hnum, hall⟩) | ⟨ds, hcs, hnum, hall⟩
    · exact ⟨Or.inl halias, hvalid (t, v) halias⟩
    · exact ⟨Or.inr ⟨ds, by tauto, hnum⟩, hall⟩
    · exact ⟨Or.inr ⟨ds, by tauto, hnum⟩, hall⟩

/-- A text with a plus sign is none of the documented ones. -/
theorem SignedSlotText.not_text {t : String} {v w : UInt8} (h : SignedSlotText t v) :
    ¬ PivSlotText t w := by
  obtain ⟨ds, hcs, hnum, -⟩ := h
  have hnames : ∀ p ∈ pivAliases, p.1.toList.contains '+' = false := by decide
  have hplus : '+' ∈ t.toList := by
    cases hcs with
    | inl heq => simp [heq]
    | inr heq => simp [heq]
  intro htext
  cases htext with
  | inl halias =>
    have hnone := hnames (t, w) halias
    rw [List.contains_eq_mem, decide_eq_false_iff_not] at hnone
    exact hnone hplus
  | inr hhex =>
    obtain ⟨digits, hdigits, hvalue, -⟩ := hhex
    rcases hcs with heq | heq <;> rcases hdigits with heq' | heq' <;> rw [heq] at heq'
    · exact (HexNumeral.not_plus (heq' ▸ hvalue)).elim
    · cases (List.cons.inj heq').1
    · exact (HexNumeral.not_prefix (heq' ▸ hvalue)).elim
    · obtain rfl : '+' :: ds = digits := by simpa using heq'
      exact hvalue.not_plus

/-- The slot parser keeps to the documented texts but where it reads a plus sign. -/
theorem parseSlot_documented_iff (s : String) :
    (∀ v, parseSlot .piv s = .ok v ↔ PivSlotText (toAsciiLowercase (trim s)) v) ↔
      ¬ ∃ v, SignedSlotText (toAsciiLowercase (trim s)) v := by
  constructor
  · intro h hsigned
    obtain ⟨v, hv⟩ := hsigned
    have hok := (parseSlot_piv_texts s v).mpr (Or.inr hv)
    exact hv.not_text ((h v).mp hok)
  · intro h v
    rw [parseSlot_piv_texts]
    constructor
    · intro htext
      exact htext.resolve_right fun hv => h ⟨v, hv⟩
    · intro htext
      exact Or.inl htext

/-- The slot `9A` with a plus sign. -/
theorem parseSlot_plus :
    ¬ ∀ v, parseSlot .piv "+9a" = .ok v ↔ PivSlotText (toAsciiLowercase (trim "+9a")) v := by
  intro h
  have hok : parseSlot .piv "+9a" = .ok 0x9A := by decide
  have hsigned : SignedSlotText (toAsciiLowercase (trim "+9a")) 0x9A :=
    ⟨['9', 'a'], Or.inl rfl, ⟨by decide, [9, 10], rfl, rfl⟩, by decide⟩
  exact hsigned.not_text ((h 0x9A).mp hok)

end YubiWallet
