import Mathlib.Data.List.AList
import Mathlib.Data.List.Dedup

/-! # Tables that keep the first value of each key

A table keyed by a digest hands out, for each value, the first value with the same digest. It is
transparent for a sequence of values exactly when the digest tells the values of the sequence apart. -/

namespace Lib
variable {α κ : Type*} [DecidableEq κ] (key : α → κ)

abbrev Table (κ α : Type*) := AList fun _ : κ => α

/-- `try_emplace(key(a), a).first->second`, with the table after it. -/
def tryEmplace (t : Table κ α) (a : α) : α × Table κ α :=
  match t.lookup (key a) with
  | some b => (b, t)
  | none => (a, t.insert (key a) a)

/-- The table after a sequence of values. -/
def emplaceAll (t : Table κ α) (as : List α) : Table κ α := as.foldl (fun t a => (tryEmplace key t a).2) t

theorem emplaceAll_append (t : Table κ α) (as bs : List α) :
    emplaceAll key t (as ++ bs) = emplaceAll key (emplaceAll key t as) bs := List.foldl_append

variable {key} {t : Table κ α}

theorem tryEmplace_of_lookup {a b : α} (h : t.lookup (key a) = some b) : tryEmplace key t a = (b, t) := by
  simp only [tryEmplace, h]

theorem tryEmplace_of_none {a : α} (h : t.lookup (key a) = none) : tryEmplace key t a = (a, t.insert (key a) a) := by
  simp only [tryEmplace, h]

/-- A stored entry stays, and after a value came in its digest has an entry. -/
theorem lookup_tryEmplace (a : α) (k : κ) : (tryEmplace key t a).2.lookup k =
    (t.lookup k).or (if k = key a then some a else none) := by
  cases h : t.lookup (key a) with
  | some b =>
    rw [tryEmplace_of_lookup h]
    by_cases hk : k = key a
    · subst hk
      rw [h, Option.some_or]
    · simp [hk]
  | none =>
    rw [tryEmplace_of_none h]
    by_cases hk : k = key a
    · subst hk
      simp [h]
    · simp [hk, AList.lookup_insert_ne hk]

/-- The entry of a digest is the first value of the sequence with it. -/
theorem lookup_emplaceAll (as : List α) (k : κ) :
    (emplaceAll key t as).lookup k = (t.lookup k).or (as.find? (key · = k)) := by
  induction as generalizing t with
  | nil => simp [emplaceAll]
  | cons a as ih =>
    have ht : emplaceAll key t (a :: as) = emplaceAll key (tryEmplace key t a).2 as := rfl
    rw [ht, ih, lookup_tryEmplace, Option.or_assoc]
    by_cases hk : key a = k
    · simp [hk]
    · simp [hk, Ne.symm hk]

/-- Each value of the sequence is handed out as it came in exactly when no two different values of the
    sequence have the same digest. -/
theorem tryEmplace_eq_iff (as : List α) :
    (∀ xs a ys, as = xs ++ a :: ys → (tryEmplace key (emplaceAll key (∅ : Table κ α) xs) a).1 = a) ↔
      ∀ a ∈ as, ∀ b ∈ as, key a = key b → a = b := by
  have hfirst : ∀ (xs : List α) (a : α), (tryEmplace key (emplaceAll key (∅ : Table κ α) xs) a).1 =
      (xs.find? (key · = key a)).getD a := by
    intro xs a
    have hl : (emplaceAll key (∅ : Table κ α) xs).lookup (key a) = xs.find? (key · = key a) := by
      simp [lookup_emplaceAll]
    cases h : xs.find? (key · = key a) with
    | none => rw [tryEmplace_of_none (hl.trans h)]; rfl
    | some b => rw [tryEmplace_of_lookup (hl.trans h)]; rfl
  simp only [hfirst]
  constructor
  · intro h
    have hone : ∀ a ∈ as, (as.find? (key · = key a)) = some a := by
      intro a ha
      obtain ⟨xs, ys, rfl⟩ := List.append_of_mem ha
      have hx := h xs a ys rfl
      rw [List.find?_append]
      cases hf : xs.find? (key · = key a) with
      | none => simp
      | some b =>
        rw [hf, Option.getD_some] at hx
        simp [hx]
    intro a ha b hb hab
    have := hone a ha
    rw [hab, hone b hb] at this
    exact (Option.some.inj this).symm
  · rintro h xs a ys rfl
    cases hf : xs.find? (key · = key a) with
    | none => rfl
    | some b =>
      have hk : key b = key a := by simpa using List.find?_some hf
      exact h b (List.mem_append_left _ (List.mem_of_find?_eq_some hf)) a (by simp) hk

/-! ### Last occurrences

`List.dedup` keeps the last occurrence of each element. -/

section Last
variable {β : Type*} [DecidableEq β]

theorem dedup_filter (p : β → Prop) [DecidablePred p] (l : List β) :
    (l.filter fun b => p b).dedup = l.dedup.filter fun b => p b := by
  induction l with
  | nil => rfl
  | cons b l ih =>
    by_cases hp : p b
    · rw [List.filter_cons_of_pos (by simpa using hp)]
      by_cases hb : b ∈ l
      · rw [List.dedup_cons_of_mem hb, List.dedup_cons_of_mem (List.mem_filter.mpr ⟨hb, by simpa using hp⟩), ih]
      · have hb' : b ∉ l.filter fun b => p b := fun h => hb (List.mem_of_mem_filter h)
        rw [List.dedup_cons_of_notMem hb, List.dedup_cons_of_notMem hb', ih, List.filter_cons_of_pos (by simpa using hp)]
    · rw [List.filter_cons_of_neg (by simpa using hp), ih]
      by_cases hb : b ∈ l
      · rw [List.dedup_cons_of_mem hb]
      · rw [List.dedup_cons_of_notMem hb, List.filter_cons_of_neg (by simpa using hp)]

/-- What comes last comes out last, and nowhere before. -/
theorem dedup_concat (l : List β) (a : β) : (l ++ [a]).dedup = l.dedup.filter (· ≠ a) ++ [a] := by
  induction l with
  | nil => rfl
  | cons b l ih =>
    rw [List.cons_append]
    by_cases hb : b ∈ l
    · rw [List.dedup_cons_of_mem hb, List.dedup_cons_of_mem (List.mem_append_left _ hb), ih]
    · by_cases hba : b = a
      · subst hba
        rw [List.dedup_cons_of_mem (by simp), List.dedup_cons_of_notMem hb, List.filter_cons_of_neg (by simp), ih]
      · rw [List.dedup_cons_of_notMem hb, List.dedup_cons_of_notMem (by simp [hb, hba]), ih,
          List.filter_cons_of_pos (by simpa using hba), List.cons_append]

end Last

end Lib
