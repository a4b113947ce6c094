import Mathlib.Algebra.BigOperators.Group.List.Basic
import Mathlib.Algebra.Order.Ring.Nat

/-! # Chunks of a bounded size

A loop that cuts an amount into chunks, each as large as the limit allows, for at most so many rounds. -/

namespace Lib

variable {limit : Nat}

def chunks (limit : Nat) : Nat → Nat → List Nat
  | 0, _ => []
  | n + 1, left => if left > 0 then min limit left :: chunks limit n (left - min limit left) else []

attribute [local simp] chunks

/-- As many rounds as there are units are enough for the whole amount. -/
theorem sum_chunks (hl : 0 < limit) {n left : Nat} (h : left ≤ n) : (chunks limit n left).sum = left := by
  induction n generalizing left with
  | zero => simp [Nat.le_zero.mp h]
  | succ n ih =>
    unfold chunks
    split
    · rw [List.sum_cons, ih (by omega)]
      omega
    · simp
      omega

theorem mem_chunks (hl : 0 < limit) {n left c : Nat} (h : c ∈ chunks limit n left) :
    0 < c ∧ c ≤ limit ∧ c ≤ left := by
  induction n generalizing left with
  | zero => simp at h
  | succ n ih =>
    unfold chunks at h
    split at h
    · rcases List.mem_cons.mp h with rfl | h
      · omega
      · obtain ⟨h0, h1, h2⟩ := ih h
        omega
    · simp at h

/-- The first chunk is the largest. -/
theorem min_mem_chunks {left : Nat} (h : 0 < left) : min limit left ∈ chunks limit left left := by
  obtain ⟨n, rfl⟩ := Nat.exists_eq_succ_of_ne_zero (Nat.ne_of_gt h)
  simp

end Lib

/-! ## Room for chunks

Something is handed out in chunks of a fixed size. A chunk is poured into open bins first, whose room is given as one
amount, and what is left of it takes one free bin, which is not opened for the next chunk. -/

namespace Lib

/-- So much finds room: all of it in the open bins, or every chunk in full ones and one free bin each. -/
def ChunksFit (size room free n : ℕ) : Prop := n ≤ room ∨ (n + size - 1) / size ≤ room / size + free

variable {size room free n : ℕ}

/-- The last chunk, or a chunk that finds room in the open bins. -/
theorem chunksFit_pour (hsize : 0 < size) (h : min size n ≤ room) :
    ChunksFit size (room - min size n) free (n - min size n) ↔ ChunksFit size room free n := by
  unfold ChunksFit
  rcases Nat.lt_or_ge size n with hlt | hle
  · rw [min_eq_left hlt.le] at h ⊢
    have hroom : room / size = (room - size) / size + 1 := Nat.div_eq_sub_div hsize h
    have hn : (n + size - 1) / size = (n - size + size - 1) / size + 1 := by
      rw [Nat.div_eq_sub_div hsize (by omega)]
      congr 2
      omega
    omega
  · rw [min_eq_right hle] at h ⊢
    exact iff_of_true (.inl (by omega)) (.inl h)

/-- A chunk that takes a free bin. -/
theorem chunksFit_open (hsize : 0 < size) (h : room < min size n) (hfree : 0 < free) :
    ChunksFit size 0 (free - 1) (n - min size n) ↔ ChunksFit size room free n := by
  unfold ChunksFit
  have hroom : room / size = 0 := Nat.div_eq_of_lt (h.trans_le (min_le_left ..))
  rw [hroom, Nat.zero_div]
  rcases Nat.lt_or_ge size n with hlt | hle
  · rw [min_eq_left hlt.le] at h ⊢
    have hn : (n + size - 1) / size = (n - size + size - 1) / size + 1 := by
      rw [Nat.div_eq_sub_div hsize (by omega)]
      congr 2
      omega
    omega
  · rw [min_eq_right hle] at h ⊢
    have hone : (n + size - 1) / size = 1 := by
      rw [Nat.div_eq_of_lt_le] <;> omega
    exact iff_of_true (.inl (by omega)) (.inr (by omega))

/-- A chunk that finds no room. -/
theorem not_chunksFit (hsize : 0 < size) (h : room < min size n) : ¬ChunksFit size room 0 n := by
  have hroom : room / size = 0 := Nat.div_eq_of_lt (h.trans_le (min_le_left ..))
  have hpos : 0 < (n + size - 1) / size := Nat.div_pos (by omega) hsize
  rintro (hn | hn)
  · exact absurd (h.trans_le (min_le_right ..)) (not_lt.mpr hn)
  · omega

theorem chunksFit_zero : ChunksFit size room free 0 := .inl (Nat.zero_le _)

end Lib
