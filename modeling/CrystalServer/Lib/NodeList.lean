import Mathlib.Data.List.Nodup
import Mathlib.Data.List.Perm.Basic

/-! # Doubly linked lists with stable iterators

A list of nodes, each with an address that stays the same while the node lives. An iterator is the
address of a node, so it keeps designating its node when the node moves inside the list. No address
occurs twice, and an address is never handed out again. -/

namespace Lib

/-- A linked list: its nodes front to back, each with its address, and the next unused address. -/
structure NodeList (α : Type) where
  nodes : List (Nat × α)
  fresh : Nat
  nodup : (nodes.map Prod.fst).Nodup
  bound : ∀ n ∈ nodes, n.1 < fresh

namespace NodeList
variable {α : Type}

def empty : NodeList α := ⟨[], 0, List.nodup_nil, fun _ h => absurd h List.not_mem_nil⟩

/-- The elements, front to back. -/
def toList (q : NodeList α) : List α := q.nodes.map Prod.snd

/-- The element that an iterator designates. -/
def deref (q : NodeList α) (it : Nat) : Option α := (q.nodes.find? (·.1 == it)).map Prod.snd

def back? (q : NodeList α) : Option α := q.nodes.getLast?.map Prod.snd

/-- Adds a node in front; its address is `q.fresh`. -/
def pushFront (q : NodeList α) (a : α) : NodeList α where
  nodes := (q.fresh, a) :: q.nodes
  fresh := q.fresh + 1
  nodup := by
    refine List.nodup_cons.mpr ⟨fun h => ?_, q.nodup⟩
    obtain ⟨n, hn, he⟩ := List.mem_map.mp h
    exact absurd he (Nat.ne_of_lt (q.bound n hn))
  bound := fun n hn => by
    rcases List.mem_cons.mp hn with rfl | hn
    · exact Nat.lt_succ_self _
    · exact Nat.lt_succ_of_lt (q.bound n hn)

def popBack (q : NodeList α) : NodeList α where
  nodes := q.nodes.dropLast
  fresh := q.fresh
  nodup := q.nodup.sublist ((List.dropLast_sublist _).map _)
  bound := fun n hn => q.bound n ((List.dropLast_sublist _).subset hn)

/-- The nodes reordered: the list holds the same nodes under the same addresses. -/
def reorder (q : NodeList α) (l : List (Nat × α)) (h : l.Perm q.nodes) : NodeList α where
  nodes := l
  fresh := q.fresh
  nodup := (h.map _).nodup_iff.mpr q.nodup
  bound := fun n hn => q.bound n (h.subset hn)

/-- Moves the node of an iterator to the front (`splice` before `begin`). -/
def moveFront (q : NodeList α) (it : Nat) : NodeList α :=
  q.reorder (q.nodes.filter (·.1 == it) ++ q.nodes.filter (!·.1 == it)) (List.filter_append_perm _ _)

/-- Moves the node of an iterator to the back (`splice` before `end`). -/
def moveBack (q : NodeList α) (it : Nat) : NodeList α :=
  q.reorder (q.nodes.filter (!·.1 == it) ++ q.nodes.filter (·.1 == it))
    (List.perm_append_comm.trans (List.filter_append_perm _ _))

/-! ### Iterators -/

theorem deref_eq_some {q : NodeList α} {it : Nat} {a : α} : q.deref it = some a ↔ (it, a) ∈ q.nodes := by
  unfold deref
  constructor
  · intro h
    obtain ⟨n, hn, rfl⟩ := Option.map_eq_some_iff.mp h
    have hit : n.1 = it := by simpa using List.find?_some hn
    exact hit ▸ List.mem_of_find?_eq_some hn
  · intro h
    cases hf : q.nodes.find? (·.1 == it) with
    | none => simpa using List.find?_eq_none.mp hf _ h
    | some n =>
      have hit : n.1 = it := by simpa using List.find?_some hf
      have hn : n = (it, a) := List.inj_on_of_nodup_map q.nodup (List.mem_of_find?_eq_some hf) h hit
      simp [hn]

theorem mem_toList {q : NodeList α} {a : α} : a ∈ q.toList ↔ ∃ it, q.deref it = some a := by
  simp only [toList, List.mem_map, Prod.exists, exists_eq_right, deref_eq_some]

@[simp] theorem toList_empty : (empty : NodeList α).toList = [] := rfl

@[simp] theorem toList_pushFront (q : NodeList α) (a : α) : (q.pushFront a).toList = a :: q.toList := rfl

@[simp] theorem toList_popBack (q : NodeList α) : q.popBack.toList = q.toList.dropLast :=
  (List.map_dropLast ..)

theorem back?_eq (q : NodeList α) : q.back? = q.toList.getLast? := by
  simp [back?, toList, List.getLast?_map]

theorem deref_pushFront_self (q : NodeList α) (a : α) : (q.pushFront a).deref q.fresh = some a :=
  deref_eq_some.mpr List.mem_cons_self

/-- A new node leaves every iterator where it was. -/
theorem deref_pushFront {q : NodeList α} {a b : α} {it : Nat} (h : q.deref it = some b) :
    (q.pushFront a).deref it = some b :=
  deref_eq_some.mpr (List.mem_cons_of_mem _ (deref_eq_some.mp h))

theorem deref_reorder (q : NodeList α) {l : List (Nat × α)} (h : l.Perm q.nodes) (it : Nat) :
    (q.reorder l h).deref it = q.deref it := by
  ext a
  rw [deref_eq_some, deref_eq_some]
  exact h.mem_iff

@[simp] theorem deref_moveFront (q : NodeList α) (it i : Nat) : (q.moveFront it).deref i = q.deref i :=
  deref_reorder ..

@[simp] theorem deref_moveBack (q : NodeList α) (it i : Nat) : (q.moveBack it).deref i = q.deref i :=
  deref_reorder ..

theorem toList_moveFront_perm (q : NodeList α) (it : Nat) : (q.moveFront it).toList.Perm q.toList :=
  (List.filter_append_perm _ _).map _

theorem toList_moveBack_perm (q : NodeList α) (it : Nat) : (q.moveBack it).toList.Perm q.toList :=
  (List.perm_append_comm.trans (List.filter_append_perm _ _)).map _

/-- Dropping the last node keeps the iterators of the elements before it. -/
theorem deref_popBack {q : NodeList α} {a b : α} {it : Nat} (h : q.deref it = some b) (hb : q.back? = some a)
    (hne : b ≠ a) : q.popBack.deref it = some b := by
  rw [deref_eq_some] at h ⊢
  obtain ⟨n, hn, rfl⟩ := Option.map_eq_some_iff.mp hb
  rcases List.mem_append.mp (List.dropLast_append_getLast? n hn ▸ h) with h | h
  · exact h
  · obtain rfl := List.mem_singleton.mp h
    exact absurd rfl hne

end NodeList
end Lib
