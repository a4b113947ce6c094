import CrystalServer.Network.Protocol

/-! # The checksum of a packet

It takes its remainders once in so many bytes, and is the one that takes them at every byte. -/

namespace CrystalServer

namespace Adler

/-- The sums with their remainders at every byte. -/
def reduced (data : List UInt8) (s : Nat × Nat) : Nat × Nat :=
  data.foldl (fun s byte => ((s.1 + byte.toNat) % 65521, (s.2 + (s.1 + byte.toNat) % 65521) % 65521)) s

/-- Adler-32, with its remainders at every byte. -/
def adler32 (data : List UInt8) : Nat := (reduced data (1, 0)).2 * 65536 + (reduced data (1, 0)).1

/-- The sums without remainders. -/
def exact (data : List UInt8) (s : Nat × Nat) : Nat × Nat :=
  data.foldl (fun s byte => (s.1 + byte.toNat, s.2 + (s.1 + byte.toNat))) s

variable {data : List UInt8}

theorem le_exact (data : List UInt8) (s : Nat × Nat) : s.1 ≤ (exact data s).1 ∧ s.2 ≤ (exact data s).2 := by
  induction data generalizing s with
  | nil => exact ⟨Nat.le_refl _, Nat.le_refl _⟩
  | cons byte data ih =>
    obtain ⟨ha, hb⟩ := ih (s.1 + byte.toNat, s.2 + (s.1 + byte.toNat))
    exact ⟨(Nat.le_add_right ..).trans ha, (Nat.le_add_right ..).trans hb⟩

theorem exact_le (data : List UInt8) (s : Nat × Nat) : (exact data s).1 ≤ s.1 + 255 * data.length ∧
    2 * (exact data s).2 ≤ 2 * s.2 + 2 * (data.length * s.1) + 255 * (data.length * (data.length + 1)) := by
  induction data generalizing s with
  | nil => simp [exact]
  | cons byte data ih =>
    obtain ⟨ha, hb⟩ := ih (s.1 + byte.toNat, s.2 + (s.1 + byte.toNat))
    have hbyte : byte.toNat ≤ 255 := Nat.le_of_lt_succ byte.toNat_lt
    have hscaled : data.length * byte.toNat ≤ data.length * 255 := Nat.mul_le_mul_left _ hbyte
    have hcons : exact (byte :: data) s = exact data (s.1 + byte.toNat, s.2 + (s.1 + byte.toNat)) := rfl
    dsimp only at ha hb
    rw [hcons, List.length_cons]
    constructor
    · omega
    · refine hb.trans ?_
      simp only [Nat.mul_add, Nat.add_mul, Nat.mul_one, Nat.one_mul]
      omega

/-- The remainders of the sums are the sums with remainders. -/
theorem reduced_mod (data : List UInt8) (s : Nat × Nat) :
    reduced data (s.1 % 65521, s.2 % 65521) = ((exact data s).1 % 65521, (exact data s).2 % 65521) := by
  induction data generalizing s with
  | nil => rfl
  | cons byte data ih =>
    have hstep : ((s.1 % 65521 + byte.toNat) % 65521, (s.2 % 65521 + (s.1 % 65521 + byte.toNat) % 65521) % 65521) =
        ((s.1 + byte.toNat) % 65521, (s.2 + (s.1 + byte.toNat)) % 65521) := by
      rw [Nat.mod_add_mod, Nat.mod_add_mod, Nat.add_mod_mod]
    rw [reduced, List.foldl_cons, hstep]
    exact ih (s.1 + byte.toNat, s.2 + (s.1 + byte.toNat))

theorem reduced_lt (data : List UInt8) {s : Nat × Nat} (ha : s.1 < 65521) (hb : s.2 < 65521) :
    (reduced data s).1 < 65521 ∧ (reduced data s).2 < 65521 := by
  have hmod := reduced_mod data s
  rw [Nat.mod_eq_of_lt ha, Nat.mod_eq_of_lt hb] at hmod
  rw [hmod]
  exact ⟨Nat.mod_lt _ (by decide), Nat.mod_lt _ (by decide)⟩

/-- The sums in 32 bits are exact as long as they have room at the end. -/
theorem foldl_exact (data : List UInt8) (s : UInt32 × UInt32) (ha : (exact data (s.1.toNat, s.2.toNat)).1 < 2 ^ 32)
    (hb : (exact data (s.1.toNat, s.2.toNat)).2 < 2 ^ 32) :
    let t := data.foldl (fun s byte => (s.1 + byte.toUInt32, s.2 + (s.1 + byte.toUInt32))) s
    (t.1.toNat, t.2.toNat) = exact data (s.1.toNat, s.2.toNat) := by
  induction data generalizing s with
  | nil => rfl
  | cons byte data ih =>
    have hle := le_exact data (s.1.toNat + byte.toNat, s.2.toNat + (s.1.toNat + byte.toNat))
    have ha' : (s.1 + byte.toUInt32).toNat = s.1.toNat + byte.toNat := by
      rw [UInt32.toNat_add, UInt8.toNat_toUInt32]
      exact Nat.mod_eq_of_lt (hle.1.trans_lt ha)
    have hb' : (s.2 + (s.1 + byte.toUInt32)).toNat = s.2.toNat + (s.1.toNat + byte.toNat) := by
      rw [UInt32.toNat_add, ha']
      exact Nat.mod_eq_of_lt (hle.2.trans_lt hb)
    have hih := ih (s.1 + byte.toUInt32, s.2 + (s.1 + byte.toUInt32))
    dsimp only at hih
    rw [ha', hb'] at hih
    exact hih ha hb

/-- 5552 bytes are as many as have room before a remainder must be taken. -/
theorem adlerChunk_eq (hdata : data.length ≤ 5552) {s : UInt32 × UInt32} (ha : s.1.toNat < 65521) (hb : s.2.toNat < 65521) :
    ((adlerChunk data s).1.toNat, (adlerChunk data s).2.toNat) = reduced data (s.1.toNat, s.2.toNat) := by
  have hbounds := exact_le data (s.1.toNat, s.2.toNat)
  have hscaled : data.length * s.1.toNat ≤ 5552 * 65520 := Nat.mul_le_mul hdata (by omega)
  have hsquare : data.length * (data.length + 1) ≤ 5552 * 5553 := Nat.mul_le_mul hdata (by omega)
  dsimp only at hbounds
  have hfold := foldl_exact data s (by omega) (by omega)
  have hmod := reduced_mod data (s.1.toNat, s.2.toNat)
  dsimp only at hfold hmod
  rw [Nat.mod_eq_of_lt ha, Nat.mod_eq_of_lt hb, ← hfold] at hmod
  rw [hmod, adlerChunk, UInt32.toNat_mod, UInt32.toNat_mod]
  rfl

theorem adlerLoop_eq {n : Nat} (hn : data.length ≤ n) {s : UInt32 × UInt32} (ha : s.1.toNat < 65521) (hb : s.2.toNat < 65521) :
    ((adlerLoop n data s).1.toNat, (adlerLoop n data s).2.toNat) = reduced data (s.1.toNat, s.2.toNat) := by
  induction n generalizing data s with
  | zero =>
    rw [List.length_eq_zero_iff.mp (Nat.le_zero.mp hn)]
    rfl
  | succ n ih =>
    rw [adlerLoop]
    split
    · rename_i hempty
      rw [List.isEmpty_iff.mp hempty]
      rfl
    · rename_i hne
      have hpos : 0 < data.length := List.length_pos_iff.mpr fun hnil => hne (List.isEmpty_iff.mpr hnil)
      have hchunk := adlerChunk_eq (List.length_take_le 5552 data) ha hb
      have hlt := reduced_lt (data.take 5552) (s := (s.1.toNat, s.2.toNat)) ha hb
      rw [← hchunk] at hlt
      rw [ih (by rw [List.length_drop]; omega) hlt.1 hlt.2, hchunk]
      conv_rhs => rw [← List.take_append_drop 5552 data, reduced, List.foldl_append]
      rfl

end Adler

/-- The checksum of every message is Adler-32, although remainders are taken only once in 5552 bytes and the sums are kept in 32
    bits; what is too long for a message has the checksum zero. -/
theorem adlerChecksum_eq (data : List UInt8) :
    (adlerChecksum data).toNat = if data.length > NETWORKMESSAGE_MAXSIZE then 0 else Adler.adler32 data := by
  rw [adlerChecksum]
  split
  · rfl
  · have hloop := Adler.adlerLoop_eq (Nat.le_refl data.length) (s := (1, 0)) (by decide) (by decide)
    have hlt := Adler.reduced_lt data (s := (1, 0)) (by decide) (by decide)
    have hone : ((1 : UInt32).toNat, (0 : UInt32).toNat) = (1, 0) := rfl
    dsimp only at hloop
    rw [hone] at hloop
    have ha := congrArg Prod.fst hloop
    have hb := congrArg Prod.snd hloop
    dsimp only at ha hb
    have hshift : ((adlerLoop data.length data (1, 0)).2 <<< 16).toNat = 2 ^ 16 * (Adler.reduced data (1, 0)).2 := by
      rw [UInt32.toNat_shiftLeft, hb, Nat.shiftLeft_eq, Nat.mul_comm]
      exact Nat.mod_eq_of_lt (show 2 ^ 16 * (Adler.reduced data (1, 0)).2 < 2 ^ 32 by omega)
    rw [UInt32.toNat_or, hshift, ha, Adler.adler32, Nat.mul_comm _ 65536]
    exact (Nat.two_pow_add_eq_or_of_lt (i := 16) (by omega) _).symm

end CrystalServer
