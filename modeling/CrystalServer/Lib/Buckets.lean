import CrystalServer.Lib.Keyed
import CrystalServer.Lib.SortedMap

/-! # Maps of lists

A sorted map from keys to lists. Its entries are the elements of all lists, each with its key. -/

namespace Lib.Buckets
open SortedMap
variable {κ α : Type*}

def entries (m : List (κ × List α)) : List (κ × α) := m.flatMap fun b => b.2.map (Prod.mk b.1)

/-- The elements of all lists. -/
def elements (m : List (κ × List α)) : List α := m.flatMap Prod.snd

@[simp] theorem entries_nil : entries ([] : List (κ × List α)) = [] := rfl

@[simp] theorem entries_cons (b : κ × List α) (m : List (κ × List α)) :
    entries (b :: m) = b.2.map (Prod.mk b.1) ++ entries m := rfl

@[simp] theorem entries_append (m n : List (κ × List α)) : entries (m ++ n) = entries m ++ entries n :=
  List.flatMap_append

@[simp] theorem map_entries (m : List (κ × List α)) : (entries m).map Prod.snd = elements m := by
  unfold entries elements
  rw [List.map_flatMap]
  simp [Function.comp_def]

theorem mem_entries {m : List (κ × List α)} {e : κ × α} : e ∈ entries m ↔ ∃ xs, (e.1, xs) ∈ m ∧ e.2 ∈ xs := by
  obtain ⟨k, a⟩ := e
  unfold entries
  simp only [List.mem_flatMap, List.mem_map, Prod.mk.injEq, Prod.exists]
  constructor
  · rintro ⟨k, xs, hm, a, ha, rfl, rfl⟩
    exact ⟨xs, hm, ha⟩
  · rintro ⟨xs, hm, ha⟩
    exact ⟨k, xs, hm, a, ha, rfl, rfl⟩

variable [LT κ] [DecidableEq κ]

def erase (key : κ) (m : List (κ × List α)) : List (κ × List α) := m.filter fun b => b.1 ≠ key

variable {m : List (κ × List α)} {key : κ} {xs ys : List α} {a : α}

theorem Sorted.erase (hm : Sorted m) (key : κ) : Sorted (erase key m) := List.Pairwise.filter _ hm

theorem lookup_of_mem [IsStrictTotalOrder κ (· < ·)] (hm : Sorted m) (h : (key, xs) ∈ m) : m.lookup key = some xs := by
  induction m with
  | nil => exact absurd h List.not_mem_nil
  | cons b m ih =>
    obtain ⟨hb, hm⟩ := List.pairwise_cons.mp hm
    rw [List.lookup_cons]
    rcases List.mem_cons.mp h with rfl | h
    · rw [beq_self_eq_true]
    · have hne : key ≠ b.1 := fun heq => irrefl_of (· < ·) b.1 (heq ▸ hb (key, xs) h)
      rw [beq_eq_false_iff_ne.mpr hne]
      exact ih hm h

variable [DecidableLT κ]

/-- The element comes in at the end of the list of its key. -/
def push (key : κ) (a : α) (m : List (κ × List α)) : List (κ × List α) :=
  SortedMap.insert key ((m.lookup key).getD [] ++ [a]) m

variable [IsStrictTotalOrder κ (· < ·)]

/-- Where the list of a key stands in the map. -/
theorem split_of_lookup (hm : Sorted m) (h : m.lookup key = some xs) :
    ∃ l r, m = l ++ (key, xs) :: r ∧ (∀ ys, SortedMap.insert key ys m = l ++ (key, ys) :: r) ∧ erase key m = l ++ r :=
  SortedMap.split_of_lookup hm h

/-- An element that is pushed comes to the entries. -/
theorem entries_push (hm : Sorted m) (key : κ) (a : α) : (entries (push key a m)).Perm ((key, a) :: entries m) := by
  unfold push
  cases h : m.lookup key with
  | none => exact (SortedMap.insert_perm h _).flatMap_right _
  | some xs =>
    obtain ⟨l, r, rfl, hinsert, -⟩ := split_of_lookup hm h
    rw [hinsert]
    simp only [Option.getD_some, entries_append, entries_cons, List.map_append, List.map_cons, List.map_nil,
      List.append_assoc, List.singleton_append]
    rw [← List.append_assoc, ← List.append_assoc]
    exact List.perm_middle

/-- A list of one element that is erased takes its entry along. -/
theorem entries_erase (hm : Sorted m) (h : m.lookup key = some [a]) :
    (entries m).Perm ((key, a) :: entries (erase key m)) := by
  obtain ⟨l, r, rfl, -, herase⟩ := split_of_lookup hm h
  rw [herase]
  simp only [entries_append, entries_cons, List.map_cons, List.map_nil, List.singleton_append]
  exact List.perm_middle

/-- A list that loses an element loses its entry. -/
theorem entries_insert (hm : Sorted m) (h : m.lookup key = some xs) (hxs : xs.Perm (a :: ys)) :
    (entries m).Perm ((key, a) :: entries (SortedMap.insert key ys m)) := by
  obtain ⟨l, r, rfl, hinsert, -⟩ := split_of_lookup hm h
  rw [hinsert]
  simp only [entries_append, entries_cons]
  have hmap := (hxs.map (Prod.mk key)).append_right (entries r)
  exact (hmap.append_left (entries l)).trans List.perm_middle

end Lib.Buckets
