import Mathlib.Algebra.BigOperators.Group.Finset.Piecewise
import Mathlib.Algebra.Ring.Nat

/-! # Keyed tables

A list of rows with distinct keys: the row of a key that is found, written or taken out, and sums over the rows. A sum
over a list of rows, or over a function on finitely many keys, changes by the one entry that is taken out or written. -/

namespace Lib

section List
variable {α κ : Type*} [DecidableEq κ] {key : α → κ} {f : α → Nat} {l : List α} {a : α}

theorem filter_key_of_not_mem (h : key a ∉ l.map key) : (l.filter fun b => key b ≠ key a) = l := by
  refine List.filter_eq_self.mpr fun b hb => decide_eq_true fun hk => h ?_
  exact hk ▸ List.mem_map_of_mem hb

/-- The row that is deleted is missing from the sum. -/
theorem sum_filter_key (hn : (l.map key).Nodup) (ha : a ∈ l) :
    ((l.filter fun b => key b ≠ key a).map f).sum + f a = (l.map f).sum := by
  induction l with
  | nil => exact absurd ha List.not_mem_nil
  | cons b l ih =>
    rw [List.map_cons, List.nodup_cons] at hn
    by_cases hb : key b = key a
    · have hab : a = b := by
        rcases List.mem_cons.mp ha with h | h
        · exact h
        · exact absurd (hb ▸ List.mem_map_of_mem h) hn.1
      subst hab
      rw [List.filter_cons_of_neg (by simp), filter_key_of_not_mem hn.1, List.map_cons, List.sum_cons, Nat.add_comm]
    · have hal : a ∈ l := (List.mem_cons.mp ha).resolve_left fun h => hb (congrArg key h.symm)
      rw [List.filter_cons_of_pos (by simpa using hb), List.map_cons, List.map_cons, List.sum_cons, List.sum_cons,
        ← ih hn.2 hal, Nat.add_assoc]

/-- The row that is rewritten counts with its new value. -/
theorem sum_map_key {g : α → α} (hn : (l.map key).Nodup) (ha : a ∈ l) :
    ((l.map fun b => if key b = key a then g b else b).map f).sum + f a = (l.map f).sum + f (g a) := by
  induction l with
  | nil => exact absurd ha List.not_mem_nil
  | cons b l ih =>
    rw [List.map_cons, List.nodup_cons] at hn
    by_cases hb : key b = key a
    · have hab : a = b := by
        rcases List.mem_cons.mp ha with h | h
        · exact h
        · exact absurd (hb ▸ List.mem_map_of_mem h) hn.1
      subst hab
      have hrest : l.map (fun b => if key b = key a then g b else b) = l := by
        refine (List.map_congr_left fun b hb => if_neg fun hk => hn.1 ?_).trans (List.map_id l)
        exact hk ▸ List.mem_map_of_mem hb
      rw [List.map_cons, hrest, if_pos rfl, List.map_cons, List.map_cons, List.sum_cons, List.sum_cons]
      omega
    · have hal : a ∈ l := (List.mem_cons.mp ha).resolve_left fun h => hb (congrArg key h.symm)
      have := ih hn.2 hal
      rw [List.map_cons, if_neg hb, List.map_cons, List.map_cons, List.sum_cons, List.sum_cons]
      omega

end List

section Find
variable {α κ : Type*} [DecidableEq κ] {key : α → κ} {l : List α} {k : κ}

/-- A row that is rewritten under its key is found as it was written. -/
theorem find?_map_key (key : α → κ) (f : α → α) (hf : ∀ a, key (f a) = key a) (k' : κ) :
    (l.map fun a => if key a = k then f a else a).find? (fun a => key a = k') =
      (l.find? fun a => key a = k').map fun a => if key a = k then f a else a := by
  rw [List.find?_map]
  have hsame : (fun a => decide (key a = k')) ∘ (fun a => if key a = k then f a else a) = fun a => decide (key a = k') := by
    funext a
    simp only [Function.comp_apply]
    split <;> simp [hf]
  rw [hsame]

theorem find?_eq_some_iff_mem (key : α → κ) (hn : (l.map key).Nodup) {a : α} :
    l.find? (fun a => key a = k) = some a ↔ a ∈ l ∧ key a = k := by
  refine ⟨fun h => ⟨List.mem_of_find?_eq_some h, by simpa using List.find?_some h⟩, fun ⟨ha, hk⟩ => ?_⟩
  cases hf : l.find? (fun a => key a = k) with
  | none => exact absurd hk (by simpa using List.find?_eq_none.mp hf a ha)
  | some b =>
    have hb : key b = k := by simpa using List.find?_some hf
    rw [List.inj_on_of_nodup_map hn (List.mem_of_find?_eq_some hf) ha (hb.trans hk.symm)]

/-- A row is taken out, the last one comes into its place. -/
theorem perm_swapRemove (hn : (l.map key).Nodup) {i : Nat} (hi : l.findIdx? (fun a => key a = k) = some i) {last : α}
    (hlast : l.getLast? = some last) : ((l.set i last).dropLast).Perm (l.filter fun a => key a ≠ k) := by
  obtain ⟨hlt, hkey, -⟩ := List.findIdx?_eq_some_iff_getElem.mp hi
  have hk : key l[i] = k := by simpa using hkey
  have hsplit : l = l.take i ++ l[i] :: l.drop (i + 1) := by simp
  generalize l[i] = a at hk hsplit
  generalize hxs : l.take i = xs at hsplit
  generalize l.drop (i + 1) = ys at hsplit
  have hlen : xs.length = i := by
    rw [← hxs, List.length_take]
    omega
  subst hsplit
  have hother : ∀ b ∈ xs ++ ys, key b ≠ k := fun b hb heq => by
    have hmiddle : (xs ++ a :: ys).Perm (a :: (xs ++ ys)) := List.perm_middle
    have hperm := hmiddle.map key
    rw [List.map_cons] at hperm
    have hnotin := (List.nodup_cons.mp (hperm.nodup_iff.mp hn)).1
    exact hnotin (hk ▸ heq ▸ List.mem_map_of_mem hb)
  have hfilter : ((xs ++ a :: ys).filter fun b => key b ≠ k) = xs ++ ys := by
    rw [List.filter_append, List.filter_cons_of_neg (by simp [hk]), ← List.filter_append]
    exact List.filter_eq_self.mpr fun b hb => by simpa using hother b hb
  rw [hfilter, ← hlen, List.set_append_right _ _ (Nat.le_refl _), Nat.sub_self, List.set_cons_zero]
  rcases List.eq_nil_or_concat ys with rfl | ⟨zs, z, rfl⟩
  · rw [List.dropLast_concat, List.append_nil]
  · rw [List.concat_eq_append, ← List.cons_append, ← List.append_assoc, List.getLast?_concat] at hlast
    obtain rfl := Option.some.inj hlast
    have hdrop : (xs ++ z :: (zs ++ [z])).dropLast = xs ++ z :: zs := by
      rw [← List.cons_append, ← List.append_assoc, List.dropLast_concat]
    rw [List.concat_eq_append, hdrop, ← List.append_assoc]
    exact List.perm_middle.trans (List.perm_append_singleton z (xs ++ zs)).symm

end Find

section Lookup
variable {κ β : Type*} [DecidableEq κ] {m : List (κ × β)} {k : κ} {b : β}

theorem lookup_eq_some_iff_mem (hn : (m.map Prod.fst).Nodup) : m.lookup k = some b ↔ (k, b) ∈ m := by
  induction m with
  | nil => simp
  | cons a m ih =>
    obtain ⟨ha, hm⟩ := List.nodup_cons.mp (List.map_cons .. ▸ hn)
    rw [List.lookup_cons, List.mem_cons]
    by_cases hk : k = a.1
    · have hnot : (k, b) ∉ m := fun h => ha (hk ▸ List.mem_map_of_mem h)
      rw [beq_iff_eq.mpr hk, or_iff_left hnot, Prod.ext_iff]
      simp [hk, eq_comm]
    · have hne : (k, b) ≠ a := fun h => hk (congrArg Prod.fst h)
      rw [beq_eq_false_iff_ne.mpr hk]
      simp [hne, ih hm]

/-- An entry that is there is written. -/
theorem lookup_map_entry (h : (m.lookup k).isSome) (b : β) (k' : κ) :
    (m.map fun a => if a.1 = k then (k, b) else a).lookup k' = if k' = k then some b else m.lookup k' := by
  induction m with
  | nil => exact absurd h (by simp)
  | cons a m ih =>
    rw [List.map_cons]
    by_cases ha : a.1 = k
    · rw [if_pos ha, List.lookup_cons, List.lookup_cons]
      by_cases hk : k' = k
      · simp [hk]
      · have hne : k' ≠ a.1 := fun h => hk (h.trans ha)
        rw [beq_eq_false_iff_ne.mpr hk, beq_eq_false_iff_ne.mpr hne, if_neg hk]
        by_cases hm : (m.lookup k).isSome
        · simpa [hk] using ih hm
        · have hsame : (m.map fun a => if a.1 = k then (k, b) else a) = m := by
            refine (List.map_congr_left fun e he => if_neg fun hek => hm ?_).trans (List.map_id m)
            exact List.lookup_isSome_iff.mpr ⟨e, he, beq_iff_eq.mpr hek.symm⟩
          simp [hsame]
    · have hm : (m.lookup k).isSome := by
        rw [List.lookup_cons, beq_eq_false_iff_ne.mpr (Ne.symm ha)] at h
        exact h
      rw [if_neg ha, List.lookup_cons, List.lookup_cons]
      by_cases hk : k' = a.1
      · have hne : k' ≠ k := fun h => ha (hk.symm.trans h)
        rw [beq_iff_eq.mpr hk, if_neg hne]
      · rw [beq_eq_false_iff_ne.mpr hk]
        exact ih hm

/-- An entry is added at the end. -/
theorem lookup_append_entry (h : m.lookup k = none) (b : β) (k' : κ) :
    (m ++ [(k, b)]).lookup k' = if k' = k then some b else m.lookup k' := by
  rw [List.lookup_append, List.lookup_cons]
  by_cases hk : k' = k
  · simp [hk, h]
  · rw [beq_eq_false_iff_ne.mpr hk, if_neg hk]
    simp

theorem lookup_filter_ne (m : List (κ × β)) (k k' : κ) :
    (m.filter fun a => a.1 ≠ k).lookup k' = if k' = k then none else m.lookup k' := by
  induction m with
  | nil => simp
  | cons a m ih =>
    by_cases ha : a.1 = k
    · rw [List.filter_cons_of_neg (by simpa using ha), ih, List.lookup_cons]
      by_cases hk : k' = k
      · simp [hk]
      · have hne : k' ≠ a.1 := fun h => hk (h.trans ha)
        rw [beq_eq_false_iff_ne.mpr hne]
    · rw [List.filter_cons_of_pos (by simpa using ha), List.lookup_cons, List.lookup_cons, ih]
      by_cases hk : k' = a.1
      · simp [hk, ha]
      · rw [beq_eq_false_iff_ne.mpr hk]

end Lookup

section Finset
open Finset
variable {κ β : Type*} [DecidableEq κ] {t : Finset κ} {k : κ}

/-- The entry that is written counts with its new value. -/
theorem sum_update (hk : k ∈ t) (F : β → Nat) (f : κ → β) (b : β) :
    ∑ x ∈ t, F (Function.update f k b x) + F (f k) = ∑ x ∈ t, F (f x) + F b := by
  rw [← Finset.add_sum_erase t _ hk, ← Finset.add_sum_erase t (fun x => F (f x)) hk, Function.update_self]
  have hrest : ∑ x ∈ t.erase k, F (Function.update f k b x) = ∑ x ∈ t.erase k, F (f x) :=
    Finset.sum_congr rfl fun x hx => by rw [Function.update_of_ne (Finset.ne_of_mem_erase hx)]
  omega

/-- An amount that is added at one key is added to the sum. -/
theorem sum_add_at (hk : k ∈ t) (f : κ → Nat) (n : Nat) :
    ∑ x ∈ t, (f x + if k = x then n else 0) = ∑ x ∈ t, f x + n := by
  rw [Finset.sum_add_distrib, Finset.sum_ite_eq, if_pos hk]

end Finset

end Lib
