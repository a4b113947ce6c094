import Mathlib.Data.List.Basic

/-! # Updates of slots

A state is seen through slots. Each update of a list writes some of them and leaves the others as they are, so a slot
that one update alone writes has its value in the end, and a slot that none writes has its old one. -/

namespace Lib

/-- Updates of a state, and the slots that each of them may write. -/
structure Updates (σ ι κ ν : Type*) where
  get : σ → κ → ν
  update : ι → σ → σ
  writes : ι → κ → Prop
  ok : σ → Prop
  ok_update : ∀ i s, ok s → ok (update i s)
  frame : ∀ i s k, ok s → ¬writes i k → get (update i s) k = get s k

namespace Updates
variable {σ ι κ ν : Type*} (u : Updates σ ι κ ν) {l : List ι} {s : σ} {k : κ}

/-- All updates of the list, one after the other. -/
def all (l : List ι) (s : σ) : σ := l.foldl (fun s i => u.update i s) s

theorem get_unwritten (hs : u.ok s) (h : ∀ i ∈ l, ¬u.writes i k) : u.get (u.all l s) k = u.get s k := by
  induction l generalizing s with
  | nil => rfl
  | cons i l ih =>
    refine (ih (u.ok_update i s hs) fun j hj => h j (List.mem_cons_of_mem _ hj)).trans ?_
    exact u.frame i s k hs (h i List.mem_cons_self)

theorem get_written (hs : u.ok s) (hn : l.Nodup) {i : ι} (hi : i ∈ l) (h : ∀ j ∈ l, j ≠ i → ¬u.writes j k) {v : ν}
    (hv : ∀ s', u.ok s' → u.get s' k = u.get s k → u.get (u.update i s') k = v) : u.get (u.all l s) k = v := by
  induction l generalizing s with
  | nil => exact absurd hi List.not_mem_nil
  | cons j l ih =>
    obtain ⟨hj, hn⟩ := List.nodup_cons.mp hn
    have hrest : ∀ j ∈ l, j ≠ i → ¬u.writes j k := fun j hj => h j (List.mem_cons_of_mem _ hj)
    rcases List.mem_cons.mp hi with rfl | hi
    · have hlater : ∀ j ∈ l, ¬u.writes j k := fun j hjl => hrest j hjl fun heq => hj (heq ▸ hjl)
      exact (u.get_unwritten (u.ok_update i s hs) hlater).trans (hv s hs rfl)
    · have hne : j ≠ i := fun heq => hj (heq ▸ hi)
      have hsame := u.frame j s k hs (h j List.mem_cons_self hne)
      exact ih (u.ok_update j s hs) hn hi hrest fun s' hs' heq => hv s' hs' (heq.trans hsame)

end Updates
end Lib

/-! ## Maps under writes

What a map holds after a list of writes: at each key the value written last, or what it held before. -/

namespace Lib
variable {κ β : Type*} [DecidableEq κ]

/-- The value of the last write to the key. -/
def lastWrite (ws : List (κ × β)) (k : κ) : Option β := (ws.reverse.find? (·.1 = k)).map Prod.snd

/-- What a map that holds `m` holds at the key after the writes. -/
def written (m : κ → β) (ws : List (κ × β)) (k : κ) : β := (lastWrite ws k).getD (m k)

@[simp] theorem written_nil (m : κ → β) (k : κ) : written m [] k = m k := rfl

theorem written_concat (m : κ → β) (ws : List (κ × β)) (a : κ) (b : β) :
    written m (ws ++ [(a, b)]) = Function.update (written m ws) a b := by
  funext k
  by_cases h : a = k
  · subst h
    simp [written, lastWrite]
  · simp [written, lastWrite, h, Function.update_of_ne (Ne.symm h)]

end Lib

/-! ## Writing into a buffer

A buffer of fixed size in which a list of elements replaces those from a position on. What would stand behind
the end is dropped. -/

namespace Lib

variable {α : Type*}

/-- The elements `bs` in place of those of `l` from position `i` on. -/
def overwrite (l : List α) (i : Nat) (bs : List α) : List α :=
  l.take i ++ bs.take (l.length - i) ++ l.drop (i + bs.length)

@[simp] theorem length_overwrite (l : List α) (i : Nat) (bs : List α) : (overwrite l i bs).length = l.length := by
  simp only [overwrite, List.length_append, List.length_take, List.length_drop]
  omega

@[simp] theorem overwrite_nil (l : List α) (i : Nat) : overwrite l i [] = l := by
  simp [overwrite]

theorem overwrite_of_le {l : List α} {i : Nat} {bs : List α} (h : i + bs.length ≤ l.length) :
    overwrite l i bs = l.take i ++ (bs ++ l.drop (i + bs.length)) := by
  have hbs : bs.take (l.length - i) = bs := List.take_of_length_le (by omega)
  rw [overwrite, hbs, List.append_assoc]

/-- Elements written behind a part of the buffer. -/
theorem overwrite_append {l₁ l₂ bs : List α} (h : bs.length ≤ l₂.length) :
    overwrite (l₁ ++ l₂) l₁.length bs = l₁ ++ (bs ++ l₂.drop bs.length) := by
  rw [overwrite_of_le (by rw [List.length_append]; omega), List.take_left, ← List.drop_drop, List.drop_left]

end Lib
