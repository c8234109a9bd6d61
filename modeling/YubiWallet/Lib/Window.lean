import Mathlib.Data.List.Infix
import Mathlib.Data.List.TakeDrop

/-! First occurrence of a pattern in a list, found by sliding a window over it,
and the block of fixed length that follows it. -/
namespace Window
variable {α : Type}

/-- `m` stands in `xs` at offset `i`. -/
def OccursAt (m xs : List α) (i : Nat) : Prop :=
  ∃ pre post, xs = pre ++ m ++ post ∧ pre.length = i

theorem occursAt_iff (m xs : List α) (i : Nat) :
    OccursAt m xs i ↔ i + m.length ≤ xs.length ∧ (xs.drop i).take m.length = m := by
  constructor
  · rintro ⟨pre, post, rfl, rfl⟩
    exact ⟨by simp, by simp [List.append_assoc]⟩
  · rintro ⟨hi, hm⟩
    refine ⟨xs.take i, xs.drop (i + m.length), ?_, by simp; omega⟩
    calc
      xs = xs.take i ++ ((xs.drop i).take m.length ++ (xs.drop i).drop m.length) := by
        rw [List.take_append_drop, List.take_append_drop]
      _ = xs.take i ++ m ++ xs.drop (i + m.length) := by
        rw [hm, List.drop_drop, List.append_assoc]

/-- Occurring inside the first `n` elements is occurring at an offset that ends there. -/
theorem infix_take_iff (m xs : List α) (n : Nat) :
    m <:+: xs.take n ↔ ∃ i, i + m.length ≤ n ∧ OccursAt m xs i := by
  constructor
  · rintro ⟨pre, post, h⟩
    have hlen := congrArg List.length h
    simp only [List.length_append, List.length_take] at hlen
    refine ⟨pre.length, by omega, pre, post ++ xs.drop n, ?_, rfl⟩
    rw [← List.append_assoc, h, List.take_append_drop]
  · rintro ⟨i, hi, pre, post, rfl, rfl⟩
    refine ⟨pre, post.take (n - (pre ++ m).length), ?_⟩
    rw [List.take_append, List.take_of_length_le (by simpa using hi : (pre ++ m).length ≤ n)]

theorem infix_iff_occursAt (m xs : List α) : m <:+: xs ↔ ∃ i, OccursAt m xs i := by
  constructor
  · rintro ⟨pre, post, h⟩
    exact ⟨pre.length, pre, post, h.symm, rfl⟩
  · rintro ⟨i, pre, post, rfl, -⟩
    exact ⟨pre, post, rfl⟩

/-- No proper initial part of `m` is also a final part of it. -/
def Borderless (m : List α) : Prop :=
  ∀ n, 0 < n → n < m.length → m.take n ≠ m.drop (m.length - n)

instance [DecidableEq α] (m : List α) : Decidable (Borderless m) :=
  decidable_of_iff (∀ n ∈ List.range m.length, 0 < n → m.take n ≠ m.drop (m.length - n))
    ⟨fun h n h0 hn => h n (List.mem_range.mpr hn) h0,
      fun h n hn h0 => h n h0 (List.mem_range.mp hn)⟩

/-- A borderless pattern that occurs before the end of `pre` in `pre ++ m ++ post`
cannot straddle the two, so it lies in `pre`. -/
theorem Borderless.infix_of_occursAt {m pre post : List α} (hm : Borderless m) {i : Nat}
    (hi : i < pre.length) (ho : OccursAt m (pre ++ m ++ post) i) : m <:+: pre := by
  have hat := ho
  rw [occursAt_iff] at ho
  by_cases hle : i + m.length ≤ pre.length
  · have := (infix_take_iff m (pre ++ m ++ post) pre.length).mpr ⟨i, hle, hat⟩
    simpa [List.append_assoc] using this
  · exfalso
    have hdrop : (pre ++ m ++ post).drop i = pre.drop i ++ (m ++ post) := by
      rw [List.append_assoc, List.drop_append_of_le_length (by omega)]
    have hrest : m.drop (pre.length - i) = (m ++ post).take (i + m.length - pre.length) := by
      have h := congrArg (List.drop (pre.length - i)) ho.2
      rw [hdrop, List.drop_take, List.drop_append_of_le_length (by simp),
        List.drop_of_length_le (by simp : (pre.drop i).length ≤ pre.length - i)] at h
      rw [← h, List.nil_append]
      congr 1
      omega
    refine hm (i + m.length - pre.length) (by omega) (by omega) ?_
    rw [List.take_append_of_le_length (by omega)] at hrest
    rw [← hrest]
    congr 1
    omega

section Search
variable [DecidableEq α]

/-- All runs of `n` consecutive elements, from left to right. -/
def windows (n : Nat) (xs : List α) : List (List α) :=
  (List.range (xs.length + 1 - n)).map fun i => (xs.drop i).take n

/-- Where the first window equal to `m` starts. -/
def position (m xs : List α) : Option Nat :=
  (windows m.length xs).findIdx? fun w => w = m

theorem position_eq_some_iff (m xs : List α) (i : Nat) :
    position m xs = some i ↔ OccursAt m xs i ∧ ∀ j < i, ¬ OccursAt m xs j := by
  simp only [position, windows, List.findIdx?_eq_some_iff_getElem, List.length_map,
    List.length_range, List.getElem_map, List.getElem_range, decide_eq_true_eq,
    occursAt_iff]
  constructor
  · rintro ⟨hi, hm, hj⟩
    exact ⟨⟨by omega, hm⟩, fun j hji ho => hj j hji ho.2⟩
  · rintro ⟨⟨hi, hm⟩, hj⟩
    exact ⟨by omega, hm, fun j hji hw => hj j hji ⟨by omega, hw⟩⟩

theorem position_eq_none_iff (m xs : List α) : position m xs = none ↔ ¬ m <:+: xs := by
  simp only [position, windows, List.findIdx?_eq_none_iff, List.mem_map, List.mem_range,
    infix_iff_occursAt, occursAt_iff, decide_eq_false_iff_not, not_exists, not_and]
  constructor
  · intro h i hi
    exact h _ ⟨i, by omega, rfl⟩
  · rintro h w ⟨i, hi, rfl⟩
    exact h i (by omega)

theorem exists_position {m xs : List α} {i : Nat} (ho : OccursAt m xs i) :
    ∃ j, j ≤ i ∧ position m xs = some j := by
  cases hp : position m xs with
  | none => exact absurd ((infix_iff_occursAt m xs).mpr ⟨i, ho⟩) ((position_eq_none_iff m xs).mp hp)
  | some j =>
    refine ⟨j, ?_, rfl⟩
    by_contra hij
    exact ((position_eq_some_iff m xs j).mp hp).2 i (by omega) ho

/-- The `len` elements behind the first `m`, when there are that many. -/
def extract (m : List α) (len : Nat) (xs : List α) : Option (List α) :=
  match position m xs with
  | some pos =>
    if pos + m.length + len ≤ xs.length then some ((xs.drop (pos + m.length)).take len) else none
  | none => none

theorem position_append {m : List α} (hm : Borderless m) (pre post : List α)
    (hpre : ¬ m <:+: pre) : position m (pre ++ m ++ post) = some pre.length :=
  (position_eq_some_iff m _ _).mpr
    ⟨⟨pre, post, rfl, rfl⟩, fun _ hj ho => hpre (hm.infix_of_occursAt hj ho)⟩

/-- The extracted block sits behind the first occurrence, and the split is the only one. -/
theorem extract_eq_some_iff {m : List α} (hm : Borderless m) (hne : m ≠ []) (len : Nat)
    (xs k : List α) :
    extract m len xs = some k ↔
      ∃ pre post, xs = pre ++ m ++ k ++ post ∧ k.length = len ∧ ¬ m <:+: pre := by
  constructor
  · intro h
    unfold extract at h
    split at h
    · rename_i pos hp
      obtain ⟨⟨pre, post, rfl, rfl⟩, hfirst⟩ := (position_eq_some_iff m xs pos).mp hp
      rw [← List.length_append, List.drop_append_length] at h
      split at h
      · rename_i hfit
        obtain rfl : post.take len = k := by simpa using h
        refine ⟨pre, post.drop len, ?_, ?_, ?_⟩
        · rw [List.append_assoc _ (post.take len), List.take_append_drop]
        · simp only [List.length_append, List.length_take] at hfit ⊢
          omega
        · rintro ⟨a, b, rfl⟩
          have hpos : 0 < m.length := List.length_pos_iff.mpr hne
          exact hfirst a.length (by simp; omega) ⟨a, b ++ m ++ post, by simp, rfl⟩
      · simp at h
    · simp at h
  · rintro ⟨pre, post, rfl, rfl, hpre⟩
    have hdrop : (pre ++ m ++ (k ++ post)).drop (pre.length + m.length) = k ++ post := by
      rw [← List.length_append, List.drop_append_length]
    rw [List.append_assoc _ k]
    simp only [extract, position_append hm pre (k ++ post) hpre, hdrop, List.take_append_length]
    rw [if_pos (by simp only [List.length_append]; omega)]

/-- A block is found exactly when the pattern occurs before the last `len` elements. -/
theorem extract_eq_none_iff {m : List α} (hne : m ≠ []) (len : Nat) (xs : List α) :
    extract m len xs = none ↔ ¬ m <:+: xs.take (xs.length - len) := by
  have hpos : 0 < m.length := List.length_pos_iff.mpr hne
  rw [infix_take_iff]
  constructor
  · rintro h ⟨i, hi, ho⟩
    obtain ⟨j, hji, hj⟩ := exists_position ho
    have hle := ((occursAt_iff m xs j).mp ((position_eq_some_iff m xs j).mp hj).1).1
    simp only [extract, hj] at h
    rw [if_pos (by omega)] at h
    simp at h
  · intro h
    unfold extract
    split
    · rename_i pos hp
      have ho := ((position_eq_some_iff m xs pos).mp hp).1
      rw [if_neg fun hfit => h ⟨pos, by omega, ho⟩]
    · rfl

/-- A pattern that occurs has a first occurrence. -/
theorem exists_first {m xs : List α} (hne : m ≠ []) (h : m <:+: xs) :
    ∃ a b, xs = a ++ m ++ b ∧ ¬ m <:+: a := by
  obtain ⟨i, hi⟩ := (infix_iff_occursAt m xs).mp h
  obtain ⟨j, -, hj⟩ := exists_position hi
  obtain ⟨⟨a, b, heq, hlen⟩, hfirst⟩ := (position_eq_some_iff m xs j).mp hj
  refine ⟨a, b, heq, ?_⟩
  intro hinfix
  obtain ⟨front, back, ha⟩ := hinfix
  have hpos : 0 < m.length := List.length_pos_iff.mpr hne
  have hshort : front.length < j := by
    rw [← hlen, ← ha, List.length_append, List.length_append]
    omega
  exact hfirst front.length hshort ⟨front, back ++ m ++ b, by rw [heq, ← ha]; simp, rfl⟩

/-- A marked block is the one that is extracted, unless an earlier marker has other
elements behind it. -/
theorem extract_marked_iff {m : List α} (hm : Borderless m) (hne : m ≠ [])
    (pre k post : List α) :
    extract m k.length (pre ++ m ++ k ++ post) = some k ↔
      ¬ ∃ a b, pre = a ++ m ++ b ∧ ¬ m <:+: a ∧ (b ++ m ++ k ++ post).take k.length ≠ k := by
  -- what an earlier marker makes of the search
  have hearlier : ∀ a b, pre = a ++ m ++ b → ¬ m <:+: a →
      extract m k.length (pre ++ m ++ k ++ post) =
        some ((b ++ m ++ k ++ post).take k.length) := by
    intro a b hpre ha
    apply (extract_eq_some_iff hm hne _ _ _).mpr
    refine ⟨a, (b ++ m ++ k ++ post).drop k.length, ?_, ?_, ha⟩
    · rw [hpre, List.append_assoc (a ++ m) (List.take _ _), List.take_append_drop]
      simp only [List.append_assoc]
    · rw [List.length_take]
      simp only [List.length_append]
      omega
  constructor
  · intro h hother
    obtain ⟨a, b, hpre, ha, hne'⟩ := hother
    rw [hearlier a b hpre ha] at h
    exact hne' (Option.some.inj h)
  · intro h
    by_cases hpre : m <:+: pre
    · obtain ⟨a, b, heq, ha⟩ := exists_first hne hpre
      rw [hearlier a b heq ha]
      by_contra hother
      exact h ⟨a, b, heq, ha, fun hk => hother (congrArg some hk)⟩
    · exact (extract_eq_some_iff hm hne _ _ _).mpr ⟨pre, post, rfl, rfl, hpre⟩

/-- A list cut at its first `m`: what stands before it, the block of `len` behind it, and
the rest. -/
structure Cut (m : List α) (len : Nat) (xs : List α) where
  before : List α
  block : List α
  after : List α
  eq : xs = before ++ m ++ block ++ after
  block_length : block.length = len
  first : ¬ m <:+: before

theorem extract_eq_some_iff_cut {m : List α} (hm : Borderless m) (hne : m ≠ []) (len : Nat)
    (xs k : List α) : extract m len xs = some k ↔ ∃ c : Cut m len xs, c.block = k := by
  rw [extract_eq_some_iff hm hne]
  constructor
  · intro h
    obtain ⟨pre, post, heq, hlen, hpre⟩ := h
    exact ⟨⟨pre, k, post, heq, hlen, hpre⟩, rfl⟩
  · intro h
    obtain ⟨c, hc⟩ := h
    rw [← hc]
    exact ⟨c.before, c.after, c.eq, c.block_length, c.first⟩

/-- There is one place to cut. -/
theorem Cut.unique {m : List α} (hm : Borderless m) {len : Nat} {xs : List α}
    (c d : Cut m len xs) : c = d := by
  have hc := position_append hm c.before (c.block ++ c.after) c.first
  have hd := position_append hm d.before (d.block ++ d.after) d.first
  rw [← List.append_assoc, ← c.eq] at hc
  rw [← List.append_assoc, ← d.eq] at hd
  have hstart : c.before.length = d.before.length := Option.some.inj (hc.symm.trans hd)
  have heq : c.before ++ m ++ c.block ++ c.after = d.before ++ m ++ d.block ++ d.after :=
    c.eq.symm.trans d.eq
  have hblock : (c.before ++ m ++ c.block).length = (d.before ++ m ++ d.block).length := by
    simp only [List.length_append, hstart, c.block_length, d.block_length]
  obtain ⟨hfront, hafter⟩ := List.append_inj heq hblock
  obtain ⟨hmarked, hkey⟩ := List.append_inj hfront (by simp only [List.length_append, hstart])
  have hbefore := (List.append_inj hmarked hstart).1
  cases c
  cases d
  cases hbefore
  cases hkey
  cases hafter
  rfl

/-- What stands before the first `m` and what stands behind it. -/
def splitOnce (m xs : List α) : Option (List α × List α) :=
  (position m xs).map fun i => (xs.take i, xs.drop (i + m.length))

/-- The first place of a pattern is the one that no earlier place overlaps. -/
theorem splitOnce_eq_some_iff {m : List α} (hne : m ≠ []) (xs pre post : List α) :
    splitOnce m xs = some (pre, post) ↔
      xs = pre ++ m ++ post ∧ ¬ m <:+: pre ++ m.dropLast := by
  have hpos : 0 < m.length := List.length_pos_iff.mpr hne
  have hfirst : ∀ pre post : List α, (m <:+: pre ++ m.dropLast) ↔
      ∃ j < pre.length, OccursAt m (pre ++ m ++ post) j := by
    intro pre post
    have htake : pre ++ m.dropLast = (pre ++ m ++ post).take (pre.length + m.length - 1) := by
      rw [List.take_append_of_le_length (by simp), Nat.add_sub_assoc hpos,
        List.take_length_add_append, List.dropLast_eq_take]
    rw [htake, infix_take_iff]
    exact exists_congr fun j => and_congr_left' (by omega)
  rw [splitOnce, Option.map_eq_some_iff]
  constructor
  · intro h
    obtain ⟨i, hi, heq⟩ := h
    obtain ⟨⟨front, back, rfl, rfl⟩, hearlier⟩ := (position_eq_some_iff m xs i).mp hi
    rw [← List.length_append, List.drop_append_length, List.append_assoc,
      List.take_append_length] at heq
    obtain ⟨rfl, rfl⟩ := Prod.mk.inj heq
    refine ⟨rfl, fun hinfix => ?_⟩
    obtain ⟨j, hj, ho⟩ := (hfirst front back).mp hinfix
    exact hearlier j hj ho
  · intro h
    obtain ⟨rfl, hinfix⟩ := h
    refine ⟨pre.length, (position_eq_some_iff m _ _).mpr ⟨⟨pre, post, rfl, rfl⟩, ?_⟩, ?_⟩
    · intro j hj ho
      exact hinfix ((hfirst pre post).mpr ⟨j, hj, ho⟩)
    · rw [← List.length_append, List.drop_append_length, List.append_assoc,
        List.take_append_length]

end Search
end Window
