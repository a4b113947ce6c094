import Mathlib.Data.List.Basic
import Mathlib.Order.Lattice
import Mathlib.Data.List.TakeWhile

/-! # Sorted lists

A map is the list of its entries in the order of their keys. A list that is ordered by a key but may hold a key twice takes a
new element behind those of the same key. -/

/-! ## Maps as sorted lists

A map is the list of its entries in the order of their keys. -/

namespace Lib.SortedMap
variable {κ β : Type*} [LT κ]

def Sorted (m : List (κ × β)) : Prop := m.Pairwise fun a b => a.1 < b.1

theorem eq_of_perm [IsStrictTotalOrder κ (· < ·)] {m m' : List (κ × β)} (hm : Sorted m) (hm' : Sorted m') (h : m.Perm m') :
    m = m' :=
  h.eq_of_pairwise (fun _ _ _ _ hab hba => absurd hba (asymm_of (· < ·) hab)) hm hm'

variable [DecidableLT κ] [DecidableEq κ]

/-- The entry is written, or comes in at its place. -/
def insert (key : κ) (value : β) : List (κ × β) → List (κ × β)
  | [] => [(key, value)]
  | (k, v) :: m =>
    if key < k then (key, value) :: (k, v) :: m
    else if key = k then (key, value) :: m
    else (k, v) :: insert key value m

variable {key : κ} {value : β} {m : List (κ × β)}

theorem mem_insert {a : κ × β} (h : a ∈ insert key value m) : a = (key, value) ∨ a ∈ m := by
  induction m with
  | nil => exact Or.inl (List.mem_singleton.mp h)
  | cons b m ih =>
    unfold insert at h
    split_ifs at h
    · exact List.mem_cons.mp h
    · exact (List.mem_cons.mp h).imp_right (List.mem_cons_of_mem _)
    · rcases List.mem_cons.mp h with rfl | h
      · exact Or.inr List.mem_cons_self
      · exact (ih h).imp_right (List.mem_cons_of_mem _)

/-- A new key adds its entry. -/
theorem insert_perm (h : m.lookup key = none) (value : β) : (insert key value m).Perm ((key, value) :: m) := by
  induction m with
  | nil => exact .refl _
  | cons b m ih =>
    rw [List.lookup_cons] at h
    have hne : key ≠ b.1 := fun heq => by simp [heq] at h
    rw [beq_eq_false_iff_ne.mpr hne] at h
    unfold insert
    rw [if_neg hne]
    split_ifs
    · exact .refl _
    · exact ((ih h).cons b).trans (.swap (key, value) b m)

variable [IsStrictTotalOrder κ (· < ·)]

theorem Sorted.insert (h : Sorted m) (key : κ) (value : β) : Sorted (insert key value m) := by
  induction m with
  | nil => exact List.pairwise_singleton ..
  | cons b m ih =>
    obtain ⟨hb, hm⟩ := List.pairwise_cons.mp h
    unfold SortedMap.insert
    split_ifs with hlt heq
    · refine List.pairwise_cons.mpr ⟨fun a ha => ?_, h⟩
      rcases List.mem_cons.mp ha with rfl | ha
      · exact hlt
      · exact trans_of (· < ·) hlt (hb a ha)
    · exact List.pairwise_cons.mpr ⟨fun a ha => heq ▸ hb a ha, hm⟩
    · refine List.pairwise_cons.mpr ⟨fun a ha => ?_, ih hm⟩
      rcases mem_insert ha with rfl | ha
      · rcases trichotomous_of (· < ·) key b.1 with h | h | h
        · exact absurd h hlt
        · exact absurd h heq
        · exact h
      · exact hb a ha

/-- Where the entry of a key stands in the map. -/
theorem split_of_lookup (hm : Sorted m) (h : m.lookup key = some value) :
    ∃ l r, m = l ++ (key, value) :: r ∧ (∀ w, SortedMap.insert key w m = l ++ (key, w) :: r) ∧
      (m.filter fun b => b.1 ≠ key) = l ++ r := by
  induction m with
  | nil => exact absurd h nofun
  | cons b m ih =>
    obtain ⟨hb, hm⟩ := List.pairwise_cons.mp hm
    rw [List.lookup_cons] at h
    by_cases heq : key = b.1
    · subst heq
      rw [beq_self_eq_true] at h
      obtain rfl := Option.some.inj h
      refine ⟨[], m, rfl, fun w => ?_, ?_⟩
      · unfold SortedMap.insert
        rw [if_neg (irrefl_of (· < ·) b.1), if_pos rfl]
        rfl
      · rw [List.filter_cons_of_neg (by simp)]
        refine List.filter_eq_self.mpr fun c hc => decide_eq_true fun heq => ?_
        exact irrefl_of (· < ·) b.1 (heq ▸ hb c hc)
    · rw [beq_eq_false_iff_ne.mpr heq] at h
      obtain ⟨l, r, rfl, hinsert, herase⟩ := ih hm h
      have hlt : b.1 < key := hb (key, value) (by simp)
      refine ⟨b :: l, r, rfl, fun w => ?_, ?_⟩
      · unfold SortedMap.insert
        rw [if_neg (asymm_of (· < ·) hlt), if_neg heq, hinsert]
        rfl
      · rw [List.filter_cons_of_pos (by simpa using fun h => heq h.symm), herase]
        rfl

/-- The new entry of the key, and those of the other keys. -/
theorem mem_insert_iff (hm : Sorted m) {a : κ × β} : a ∈ insert key value m ↔ a = (key, value) ∨ (a ∈ m ∧ a.1 ≠ key) := by
  cases h : m.lookup key with
  | none =>
    have hne : a ∈ m → a.1 ≠ key := fun ha heq => by
      simpa [heq] using List.lookup_eq_none_iff.mp h a ha
    rw [(insert_perm h value).mem_iff, List.mem_cons, iff_def]
    exact ⟨Or.imp_right fun ha => ⟨ha, hne ha⟩, Or.imp_right And.left⟩
  | some v =>
    obtain ⟨l, r, rfl, hinsert, hrest⟩ := split_of_lookup hm h
    have hmem : a ∈ l ++ r ↔ a ∈ l ++ (key, v) :: r ∧ a.1 ≠ key := by
      rw [← hrest, List.mem_filter]
      simp
    rw [hinsert, ← hmem, List.mem_append, List.mem_cons, List.mem_append]
    exact or_left_comm

/-- An entry behind all others comes in at the end. -/
theorem insert_of_lt (h : ∀ a ∈ m, a.1 < key) : insert key value m = m ++ [(key, value)] := by
  induction m with
  | nil => rfl
  | cons b m ih =>
    have hb := h b List.mem_cons_self
    have hne : key ≠ b.1 := fun heq => irrefl_of (· < ·) b.1 (heq ▸ hb)
    unfold insert
    rw [if_neg (asymm_of (· < ·) hb), if_neg hne, ih fun a ha => h a (List.mem_cons_of_mem _ ha), List.cons_append]

/-- The entries of a map, written one after the other behind smaller ones. -/
theorem foldl_insert {l : List (κ × β)} (h : Sorted (m ++ l)) :
    l.foldl (fun m a => insert a.1 a.2 m) m = m ++ l := by
  induction l generalizing m with
  | nil => exact (List.append_nil m).symm
  | cons a l ih =>
    have ha : ∀ b ∈ m, b.1 < a.1 := fun b hb =>
      (List.pairwise_append.mp h).2.2 b hb a List.mem_cons_self
    rw [List.foldl_cons, insert_of_lt ha, ih (by simpa using h), List.append_assoc]
    rfl

/-- Entries with distinct keys come into the empty map in the order of their keys. -/
theorem foldl_insert_perm {l : List (κ × β)} (hm : Sorted m) (hn : ((m ++ l).map Prod.fst).Nodup) :
    Sorted (l.foldl (fun m a => insert a.1 a.2 m) m) ∧ (l.foldl (fun m a => insert a.1 a.2 m) m).Perm (m ++ l) := by
  induction l generalizing m with
  | nil => exact ⟨hm, by simp⟩
  | cons a l ih =>
    have hperm : (m ++ a :: l).Perm (a :: m ++ l) := List.perm_middle
    have hn' := (hperm.map Prod.fst).nodup_iff.mp hn
    have hnone : m.lookup a.1 = none := by
      rw [List.lookup_eq_none_iff]
      intro b hb
      rw [List.cons_append, List.map_cons, List.nodup_cons] at hn'
      refine bne_iff_ne.mpr fun heq => hn'.1 ?_
      rw [heq]
      exact List.mem_map_of_mem (List.mem_append_left _ hb)
    have hinsert := insert_perm hnone a.2
    have hkeys := ((hinsert.append_right l).map Prod.fst).nodup_iff.mpr hn'
    obtain ⟨hsorted, hall⟩ := ih (hm.insert a.1 a.2) hkeys
    exact ⟨hsorted, hall.trans ((hinsert.append_right l).trans hperm.symm)⟩

end Lib.SortedMap

/-! ## Insertion into a list ordered by a key

An element is put behind those of smaller and of the same key. So the list stays ordered, and elements of one key stand in
the order in which they came. -/

namespace Lib
variable {α κ : Type*} [LinearOrder κ] (key : α → κ)

def insertByKey (a : α) (l : List α) : List α :=
  l.takeWhile (fun b => key b ≤ key a) ++ a :: l.dropWhile (fun b => key b ≤ key a)

/-- Some elements, one after the other. -/
def insertAll (as l : List α) : List α := as.foldl (fun l a => insertByKey key a l) l

variable {key} {a : α} {as l : List α}

theorem insertByKey_of_lt (h : ∀ b ∈ l, key a < key b) : insertByKey key a l = a :: l := by
  cases l with
  | nil => rfl
  | cons b l =>
    have hb : ¬key b ≤ key a := not_le.mpr (h b List.mem_cons_self)
    simp [insertByKey, hb]

theorem insertByKey_cons {b : α} (h : key b ≤ key a) : insertByKey key a (b :: l) = b :: insertByKey key a l := by
  simp [insertByKey, h]

theorem insertByKey_cons_of_lt {b : α} (h : key a < key b) : insertByKey key a (b :: l) = a :: b :: l := by
  simp [insertByKey, not_le.mpr h]

theorem insertByKey_perm : (insertByKey key a l).Perm (a :: l) := by
  refine List.perm_middle.trans (.of_eq ?_)
  rw [List.takeWhile_append_dropWhile]

theorem mem_insertByKey {x : α} : x ∈ insertByKey key a l ↔ x = a ∨ x ∈ l :=
  insertByKey_perm.mem_iff.trans List.mem_cons

theorem length_insertByKey : (insertByKey key a l).length = l.length + 1 := insertByKey_perm.length_eq

theorem pairwise_insertByKey (h : l.Pairwise fun x y => key x ≤ key y) :
    (insertByKey key a l).Pairwise fun x y => key x ≤ key y := by
  induction l with
  | nil => exact List.pairwise_singleton _ a
  | cons b l ih =>
    obtain ⟨hb, hl⟩ := List.pairwise_cons.mp h
    rcases le_or_gt (key b) (key a) with hle | hlt
    · rw [insertByKey_cons hle, List.pairwise_cons]
      refine ⟨fun x hx => ?_, ih hl⟩
      rcases mem_insertByKey.mp hx with rfl | hx
      · exact hle
      · exact hb x hx
    · rw [insertByKey_cons_of_lt hlt, List.pairwise_cons]
      refine ⟨fun x hx => ?_, h⟩
      rcases List.mem_cons.mp hx with rfl | hx
      · exact hlt.le
      · exact hlt.le.trans (hb x hx)

theorem filter_insertByKey (h : l.Pairwise fun x y => key x ≤ key y) (k : κ) :
    (insertByKey key a l).filter (key · = k) = l.filter (key · = k) ++ if key a = k then [a] else [] := by
  induction l with
  | nil => by_cases ha : key a = k <;> simp [insertByKey, ha]
  | cons b l ih =>
    obtain ⟨hb, hl⟩ := List.pairwise_cons.mp h
    rcases le_or_gt (key b) (key a) with hle | hlt
    · rw [insertByKey_cons hle, List.filter_cons, List.filter_cons, ih hl]
      split <;> simp
    · rw [insertByKey_cons_of_lt hlt, List.filter_cons]
      by_cases ha : key a = k
      · -- all that stand behind have a larger key
        have hnone : (b :: l).filter (key · = k) = [] := List.filter_eq_nil_iff.mpr fun x hx => by
          have hx : key b ≤ key x := (List.mem_cons.mp hx).elim (fun h => h ▸ le_rfl) (hb x)
          simpa using (ha ▸ hlt.trans_le hx).ne'
        simp [ha, hnone]
      · simp [ha]

theorem insertAll_perm : (insertAll key as l).Perm (as ++ l) := by
  induction as generalizing l with
  | nil => exact .refl l
  | cons a as ih => exact (ih.trans (insertByKey_perm.append_left as)).trans List.perm_middle

theorem length_insertAll : (insertAll key as l).length = as.length + l.length :=
  insertAll_perm.length_eq.trans List.length_append

theorem pairwise_insertAll (h : l.Pairwise fun x y => key x ≤ key y) :
    (insertAll key as l).Pairwise fun x y => key x ≤ key y := by
  induction as generalizing l with
  | nil => exact h
  | cons a as ih => exact ih (pairwise_insertByKey h)

/-- Elements of one key stand in the order in which they came. -/
theorem filter_insertAll (h : l.Pairwise fun x y => key x ≤ key y) (k : κ) :
    (insertAll key as l).filter (key · = k) = l.filter (key · = k) ++ as.filter (key · = k) := by
  induction as generalizing l with
  | nil => simp [insertAll]
  | cons a as ih =>
    change (insertAll key as (insertByKey key a l)).filter (key · = k) = _
    rw [ih (pairwise_insertByKey h), filter_insertByKey h, List.filter_cons]
    by_cases ha : key a = k <;> simp [ha]

/-- A list without two elements of one key is made from behind. -/
theorem insertAll_reverse (h : l.Pairwise fun x y => key x < key y) : insertAll key l.reverse [] = l := by
  induction l with
  | nil => rfl
  | cons a l ih =>
    obtain ⟨ha, hl⟩ := List.pairwise_cons.mp h
    have hlast : insertAll key (a :: l).reverse [] = insertByKey key a (insertAll key l.reverse []) := by
      simp [insertAll]
    rw [hlast, ih hl, insertByKey_of_lt ha]

end Lib
