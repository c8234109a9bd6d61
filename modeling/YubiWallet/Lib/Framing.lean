import YubiWallet.Lib.Endian

/-! Messages on a byte stream, each behind its length in four bytes, least
significant first. -/
namespace Framing
open Endian

def frame (m : List UInt8) : List UInt8 := leBytes 4 m.length ++ m

/-- Split off the first message; nothing when the stream ends before its last byte. -/
def unframe (s : List UInt8) : Option (List UInt8 × List UInt8) :=
  let n := leNat (s.take 4)
  let rest := s.drop 4
  if s.length < 4 then none
  else if rest.length < n then none
  else some (rest.take n, rest.drop n)

theorem unframe_rest {s m rest : List UInt8} (h : unframe s = some (m, rest)) :
    rest.length < s.length := by
  simp only [unframe] at h
  split at h
  · simp at h
  · split at h
    · simp at h
    · obtain ⟨-, rfl⟩ : _ ∧ (s.drop 4).drop (leNat (s.take 4)) = rest := by simpa using h
      simp only [List.length_drop]
      omega

theorem unframe_frame {m : List UInt8} (hm : m.length < 2 ^ 32) (rest : List UInt8) :
    unframe (frame m ++ rest) = some (m, rest) := by
  have hlen : (leBytes 4 m.length).length = 4 := leBytes_length 4 m.length
  have htake : (frame m ++ rest).take 4 = leBytes 4 m.length := by
    rw [frame, List.append_assoc]
    nth_rewrite 1 [← hlen]
    exact List.take_append_length
  have hdrop : (frame m ++ rest).drop 4 = m ++ rest := by
    rw [frame, List.append_assoc]
    nth_rewrite 1 [← hlen]
    exact List.drop_append_length
  have hn : leNat (leBytes 4 m.length) = m.length := leNat_leBytes (by simpa using hm)
  simp only [unframe, htake, hdrop, hn]
  rw [if_neg (by simp [frame]), if_neg (by simp), List.take_append_length,
    List.drop_append_length]

/-- A stream that ends inside its first frame: fewer than four bytes, or a length
followed by fewer bytes than it announces. The empty stream is one. -/
def Incomplete (t : List UInt8) : Prop :=
  t.length < 4 ∨ (t.drop 4).length < leNat (t.take 4)

instance (t : List UInt8) : Decidable (Incomplete t) :=
  inferInstanceAs (Decidable (_ ∨ _))

theorem unframe_eq_none_iff (t : List UInt8) : unframe t = none ↔ Incomplete t := by
  unfold unframe Incomplete
  by_cases h4 : t.length < 4
  · simp [h4]
  · by_cases hn : (t.drop 4).length < leNat (t.take 4) <;> simp only [h4, hn] <;> simp

def unframeAll (s : List UInt8) : List (List UInt8) :=
  match h : unframe s with
  | some (m, rest) =>
    have : rest.length < s.length := unframe_rest h
    m :: unframeAll rest
  | none => []
termination_by s.length

theorem unframeAll_cons {s m rest : List UInt8} (h : unframe s = some (m, rest)) :
    unframeAll s = m :: unframeAll rest := by
  rw [unframeAll]
  split
  · rename_i m' rest' h'
    obtain ⟨rfl, rfl⟩ : m' = m ∧ rest' = rest := by simpa [h] using h'.symm
    rfl
  · rename_i h'
    simp [h] at h'

theorem unframeAll_incomplete {t : List UInt8} (h : Incomplete t) : unframeAll t = [] := by
  have hnone := (unframe_eq_none_iff t).mpr h
  rw [unframeAll]
  split
  · rename_i h'
    simp [hnone] at h'
  · rfl

/-- Splitting a stream of frames gives the messages back, whatever incomplete
frame stands behind them. -/
theorem unframeAll_frames (ms : List (List UInt8)) (hms : ∀ m ∈ ms, m.length < 2 ^ 32)
    {t : List UInt8} (ht : Incomplete t) : unframeAll (ms.flatMap frame ++ t) = ms := by
  induction ms with
  | nil => simpa using unframeAll_incomplete ht
  | cons m ms ih =>
    have hrest := ih fun m' hm' => hms m' (List.mem_cons_of_mem m hm')
    rw [List.flatMap_cons, List.append_assoc,
      unframeAll_cons (unframe_frame (hms m List.mem_cons_self) _), hrest]

end Framing
