import Mathlib.Data.Finset.Sort
import Mathlib.Data.List.TakeWhile
import CrystalServer.Lib.Run
import CrystalServer.Utils.VectorSet

/-! # A `vector_set` against a set

The set of a vector is what it holds, whether it is sorted by now or not. Every call but `erase` answers as the set does.
`erase` takes what `lower_bound` finds, which is the value, or the first one above it. -/

namespace CrystalServer
open Lib (run Meets)

variable {α : Type} [LinearOrder α] {l : List α} {v : α}

/-! ### Searches -/

/-- `lower_bound` finds the end, or the first element that is not below the value. -/
theorem lowerBound_cases (l : List α) (v : α) : (lowerBound l v = l.length ∧ ∀ x ∈ l, x < v) ∨
    ∃ pre x suf, l = pre ++ x :: suf ∧ (∀ y ∈ pre, y < v) ∧ v ≤ x ∧ lowerBound l v = pre.length := by
  unfold lowerBound
  have hpre : ∀ y ∈ l.takeWhile (· < v), y < v := fun y hy => by simpa using List.mem_takeWhile_imp hy
  have hl : l.takeWhile (· < v) ++ l.dropWhile (· < v) = l := List.takeWhile_append_dropWhile
  rcases hdrop : l.dropWhile (· < v) with - | ⟨x, suf⟩
  · rw [hdrop, List.append_nil] at hl
    exact Or.inl ⟨congrArg List.length hl, hl ▸ hpre⟩
  · rw [hdrop] at hl
    have hx : ¬x < v := by
      have hhead := List.head_dropWhile_not (fun y => decide (y < v)) (l := l) (by simp [hdrop])
      simpa [hdrop] using hhead
    exact Or.inr ⟨_, x, suf, hl.symm, hpre, not_lt.mp hx, rfl⟩

theorem find?_of_split {pre suf : List α} {x : α} (hpre : ∀ y ∈ pre, y < v) (hx : v ≤ x) :
    (pre ++ x :: suf).find? (fun x => !decide (x < v)) = some x := by
  rw [List.find?_append, List.find?_eq_none.mpr (by simpa using hpre), List.find?_cons_of_pos (by simpa using hx)]
  rfl

/-- In a sorted range the value is found exactly where it is. -/
theorem mem_iff_of_split {pre suf : List α} {x : α} (h : (pre ++ x :: suf).Pairwise (· < ·)) (hpre : ∀ y ∈ pre, y < v)
    (hx : v ≤ x) : v ∈ pre ++ x :: suf ↔ x = v := by
  constructor
  · intro hv
    rcases List.mem_append.mp hv with hv | hv
    · exact absurd (hpre v hv) (lt_irrefl v)
    · rcases List.mem_cons.mp hv with rfl | hv
      · rfl
      · have hlt : x < v := List.rel_of_pairwise_cons (List.pairwise_append.mp h).2.1 hv
        exact absurd hlt (not_lt.mpr hx)
  · rintro rfl
    simp

theorem binarySearch_iff (h : l.Pairwise (· < ·)) : binarySearch l v = true ↔ v ∈ l := by
  unfold binarySearch
  rcases lowerBound_cases l v with ⟨heq, hall⟩ | ⟨pre, x, suf, rfl, hpre, hx, heq⟩
  · rw [heq, List.getElem?_eq_none (Nat.le_refl _)]
    refine iff_of_false (by simp) fun hv => lt_irrefl v (hall v hv)
  · rw [heq, mem_iff_of_split h hpre hx, List.getElem?_append_right (Nat.le_refl _), Nat.sub_self]
    have hsame : x = v ↔ ¬v < x := ⟨fun h => not_lt.mpr (le_of_eq h), fun h => le_antisymm (not_lt.mp h) hx⟩
    simp [hsame]

theorem mem_unique {x : α} : x ∈ unique l ↔ x ∈ l := by
  induction l using unique.induct with
  | case1 => simp [unique]
  | case2 a => simp [unique]
  | case3 a range ih =>
    rw [unique, if_pos rfl, ih]
    simp
  | case4 a b range hne ih =>
    rw [unique, if_neg hne, List.mem_cons, ih, ← List.mem_cons]

theorem unique_pairwise (h : l.Pairwise (· ≤ ·)) : (unique l).Pairwise (· < ·) := by
  induction l using unique.induct with
  | case1 => exact .nil
  | case2 a => exact List.pairwise_singleton ..
  | case3 a range ih =>
    rw [unique, if_pos rfl]
    exact ih (List.pairwise_cons.mp h).2
  | case4 a b range hne ih =>
    obtain ⟨ha, hrange⟩ := List.pairwise_cons.mp h
    rw [unique, if_neg hne]
    refine List.pairwise_cons.mpr ⟨fun x hx => ?_, ih hrange⟩
    have hab : a < b := lt_of_le_of_ne (ha b List.mem_cons_self) hne
    rcases List.mem_cons.mp (mem_unique.mp hx) with rfl | hx
    · exact hab
    · exact lt_of_lt_of_le hab ((List.pairwise_cons.mp hrange).1 x hx)

namespace VectorSet
variable {a : VectorSet α}

/-- The call on a set. -/
def setCall (s : Finset α) : Op α → Finset α × Answer α
  | .insert v => (s ∪ {v}, .unit)
  | .insertAll list | .insertAt _ list => (s ∪ list.toFinset, .unit)
  | .erase v => (s.erase v, .bool (decide (v ∈ s)))
  | .eraseIf fnc => (s.filter fun v => ¬fnc v, .bool (decide (∃ v ∈ s, fnc v)))
  | .contains v => (s, .bool (decide (v ∈ s)))
  | .size => (s, .size s.card)
  | .isEmpty => (s, .bool (decide (s = ∅)))
  | .data => (s, .list (s.sort (· ≤ ·)))
  | .get i => (s, .elem (s.sort (· ≤ ·))[i]?)
  | .clear => (∅, .unit)

/-- What the vector holds. -/
def toFinset (a : VectorSet α) : Finset α := a.container.toFinset

/-- Where nothing needs an update, each element is above the one before it. -/
def Settled (a : VectorSet α) : Prop := a.needUpdate = false → a.container.Pairwise (· < ·)

/-- What is erased is there, or nothing is above it. -/
def Exact (a : VectorSet α) : Op α → Prop
  | .erase v => v ∈ a.container ∨ ∀ x ∈ a.container, x < v
  | _ => True

theorem update_spec (h : a.Settled) : ∃ l, a.update = ⟨l, false⟩ ∧ l.Pairwise (· < ·) ∧ ∀ x, x ∈ l ↔ x ∈ a.container := by
  obtain ⟨container, needUpdate⟩ := a
  cases needUpdate with
  | false => exact ⟨container, rfl, h rfl, fun _ => Iff.rfl⟩
  | true =>
    refine ⟨_, rfl, unique_pairwise (List.pairwise_insertionSort _ _), fun x => ?_⟩
    rw [mem_unique, List.mem_insertionSort]

theorem sort_toFinset (h : l.Pairwise (· < ·)) : l.toFinset.sort (· ≤ ·) = l :=
  (List.toFinset_sort (· ≤ ·) (h.imp ne_of_lt)).mpr (h.imp le_of_lt)

/-- `erase` answers as the set does exactly when the call is exact, and then leaves what the set has left. -/
theorem erase_spec (h : a.Settled) (v : α) : (a.erase v).1.Settled ∧
    ((a.erase v).2 = decide (v ∈ a.toFinset) ↔ a.Exact (.erase v)) ∧
    (a.Exact (.erase v) → (a.erase v).1.toFinset = a.toFinset.erase v) := by
  obtain ⟨l, hupdate, hl, hmem⟩ := update_spec h
  have hset : a.toFinset = l.toFinset := by
    ext x
    simp [toFinset, hmem]
  have hexact : a.Exact (.erase v) ↔ v ∈ l ∨ ∀ x ∈ l, x < v := by simp [Exact, hmem]
  rw [hexact, hset]
  unfold erase
  rw [hupdate]
  dsimp only
  rcases lowerBound_cases l v with ⟨heq, hall⟩ | ⟨pre, x, suf, rfl, hpre, hx, heq⟩
  · have hv : v ∉ l := fun hv => lt_irrefl v (hall v hv)
    rw [if_pos heq]
    exact ⟨fun _ => hl, iff_of_true (by simp [hv]) (Or.inr hall), fun _ => by simp [toFinset, hv]⟩
  · have hne : pre.length ≠ (pre ++ x :: suf).length := by simp
    have hrest : (pre ++ x :: suf).eraseIdx pre.length = pre ++ suf := by simp [List.eraseIdx_append_of_length_le]
    have hnot : ¬∀ y ∈ pre ++ x :: suf, y < v := fun hall => not_lt.mpr hx (hall x (by simp))
    have hv : v ∈ pre ++ x :: suf ↔ x = v := mem_iff_of_split hl hpre hx
    rw [heq, if_neg hne, hrest, or_iff_left hnot]
    refine ⟨fun _ => hl.sublist (by simp), by simp [or_left_comm], fun hmem => ?_⟩
    obtain rfl := hv.mp hmem
    have hx' : x ∉ pre ++ suf := by
      have hnodup : (pre ++ x :: suf).Nodup := hl.imp ne_of_lt
      exact (List.nodup_cons.mp (List.perm_middle.nodup_iff.mp hnodup)).1
    ext y
    simp only [toFinset, List.mem_toFinset, Finset.mem_erase, List.mem_append, List.mem_cons]
    constructor
    · intro hy
      refine ⟨?_, hy.imp_right Or.inr⟩
      rintro rfl
      exact hx' (List.mem_append.mpr hy)
    · rintro ⟨hne, hy⟩
      exact hy.imp_right fun hy => hy.resolve_left hne

/-- Each call answers as the set does exactly when it is exact, and then leaves what the set has left. -/
theorem call_spec (h : a.Settled) (op : Op α) : (a.call op).1.Settled ∧
    ((a.call op).2 = (setCall a.toFinset op).2 ↔ a.Exact op) ∧
    (a.Exact op → (a.call op).1.toFinset = (setCall a.toFinset op).1) := by
  obtain ⟨l, hupdate, hl, hmem⟩ := update_spec h
  have hset : a.toFinset = l.toFinset := by
    ext x
    simp [toFinset, hmem]
  cases op with
  | erase v =>
    obtain ⟨hsettled, hanswer, hleft⟩ := erase_spec h v
    refine ⟨hsettled, ?_, hleft⟩
    rw [← hanswer]
    exact ⟨fun heq => Answer.bool.inj heq, fun heq => congrArg Answer.bool heq⟩
  | insert v => exact ⟨(by rintro ⟨⟩), iff_of_true rfl trivial, fun _ => by simp [call, setCall, insert, toFinset]⟩
  | insertAll list => exact ⟨(by rintro ⟨⟩), iff_of_true rfl trivial, fun _ => by simp [call, setCall, insertAll, toFinset]⟩
  | insertAt position list =>
    refine ⟨(by rintro ⟨⟩), iff_of_true rfl trivial, fun _ => ?_⟩
    have hparts : (a.container.take position).toFinset ∪ (a.container.drop position).toFinset = a.container.toFinset := by
      rw [← List.toFinset_append, List.take_append_drop]
    simp [call, setCall, insertAt, toFinset, ← hparts, Finset.union_left_comm, Finset.union_comm]
  | clear => exact ⟨fun _ => List.Pairwise.nil, iff_of_true rfl trivial, fun _ => rfl⟩
  | isEmpty =>
    refine ⟨h, iff_of_true ?_ trivial, fun _ => rfl⟩
    cases hc : a.container <;> simp [call, setCall, isEmpty, toFinset, hc]
  | eraseIf fnc =>
    unfold call eraseIf setCall
    rw [hupdate, hset]
    exact ⟨fun _ => hl.sublist List.filter_sublist, iff_of_true (by simp [List.any_eq]) trivial,
      fun _ => by simp [toFinset, List.toFinset_filter]⟩
  | contains v =>
    unfold call contains setCall
    rw [hupdate, hset]
    have hfound : binarySearch l v = decide (v ∈ l.toFinset) := by
      rw [Bool.eq_iff_iff, binarySearch_iff hl]
      simp
    exact ⟨fun _ => hl, iff_of_true (congrArg Answer.bool hfound) trivial, fun _ => rfl⟩
  | size =>
    unfold call size setCall
    rw [hupdate, hset, List.toFinset_card_of_nodup (hl.imp ne_of_lt)]
    exact ⟨fun _ => hl, iff_of_true rfl trivial, fun _ => rfl⟩
  | data =>
    unfold call data setCall
    rw [hupdate, hset, sort_toFinset hl]
    exact ⟨fun _ => hl, iff_of_true rfl trivial, fun _ => rfl⟩
  | get i =>
    unfold call get setCall
    rw [hupdate, hset, sort_toFinset hl]
    exact ⟨fun _ => hl, iff_of_true rfl trivial, fun _ => rfl⟩

/-! ### Runs -/

def step (a : VectorSet α) (op : Op α) : VectorSet α := (a.call op).1

/-- What the calls give back, one after another. -/
def answers (a : VectorSet α) : List (Op α) → List (Answer α)
  | [] => []
  | op :: ops => (a.call op).2 :: answers (a.step op) ops

def setAnswers (s : Finset α) : List (Op α) → List (Answer α)
  | [] => []
  | op :: ops => (setCall s op).2 :: setAnswers (setCall s op).1 ops

/-- A run answers as the set does exactly when each of its calls is exact. -/
theorem meets_iff_answers (h : a.Settled) (ops : List (Op α)) :
    Meets step Exact a ops ↔ answers a ops = setAnswers a.toFinset ops := by
  induction ops generalizing a with
  | nil => exact iff_of_true trivial rfl
  | cons op ops ih =>
    obtain ⟨hsettled, hanswer, hleft⟩ := call_spec h op
    have hrest : a.Exact op → (Meets step Exact (a.step op) ops ↔
        answers (a.step op) ops = setAnswers (setCall a.toFinset op).1 ops) := fun hexact => by
      rw [← hleft hexact]
      exact ih hsettled
    constructor
    · rintro ⟨hexact, hm⟩
      exact congrArg₂ List.cons (hanswer.mpr hexact) ((hrest hexact).mp hm)
    · intro heq
      obtain ⟨hhead, htail⟩ := List.cons.inj heq
      have hexact := hanswer.mp hhead
      exact ⟨hexact, (hrest hexact).mpr htail⟩

end VectorSet

namespace VectorSort
variable {a : VectorSort α}

/-- One occurrence of the value goes, or nothing does and the answer says so. -/
def ErasesOne (a : VectorSort α) (v : α) : Prop :=
  ((a.erase v).2 = true ↔ v ∈ a.container) ∧ (a.erase v).1.container.Perm (a.container.erase v)

/-- The first element that is not below the value, where there is one, is the value. -/
def Exact (a : VectorSort α) (v : α) : Prop := ∀ x, a.update.container.find? (fun x => !decide (x < v)) = some x → x = v

theorem update_perm (a : VectorSort α) : a.update.container.Perm a.container := by
  unfold update
  split
  · exact .refl _
  · dsimp only
    generalize a.container.length - a.partialEnd = last
    have hparts : a.container.take a.partialBegin ++ (a.container.take last).drop a.partialBegin ++
        a.container.drop (max a.partialBegin last) = a.container := by
      rcases le_total a.partialBegin last with h | h
      · have hfirst : a.container.take a.partialBegin = (a.container.take last).take a.partialBegin := by
          rw [List.take_take, min_eq_left h]
        rw [max_eq_right h, hfirst, List.take_append_drop, List.take_append_drop]
      · have hnone : (a.container.take last).drop a.partialBegin = [] := by
          rw [List.drop_eq_nil_iff, List.length_take]
          omega
        rw [max_eq_left h, hnone, List.append_nil, List.take_append_drop]
    exact ((((List.perm_insertionSort _ _).append_left _).append_right _).trans (.of_eq hparts))

/-- Where all is sorted, the value is there, or nothing is above it. -/
theorem exact_iff (h : a.update.container.Pairwise (· ≤ ·)) :
    a.Exact v ↔ v ∈ a.container ∨ ∀ x ∈ a.container, x < v := by
  unfold Exact
  simp only [← a.update_perm.mem_iff]
  generalize a.update.container = l at h ⊢
  rcases lowerBound_cases l v with ⟨-, hall⟩ | ⟨pre, x, suf, rfl, hpre, hx, -⟩
  · refine iff_of_true (fun x hx => ?_) (Or.inr hall)
    exact absurd (hall x (List.mem_of_find?_eq_some hx)) (by simpa using List.find?_some hx)
  · have hnot : ¬∀ y ∈ pre ++ x :: suf, y < v := fun hall => not_lt.mpr hx (hall x (by simp))
    simp only [find?_of_split hpre hx, Option.some.injEq, forall_eq', or_iff_left hnot]
    constructor
    · rintro rfl
      simp
    · intro hv
      rcases List.mem_append.mp hv with hv | hv
      · exact absurd (hpre v hv) (lt_irrefl v)
      · rcases List.mem_cons.mp hv with rfl | hv
        · rfl
        · exact le_antisymm (List.rel_of_pairwise_cons (List.pairwise_append.mp h).2.1 hv) hx

theorem exact_iff_erasesOne (a : VectorSort α) (v : α) : a.Exact v ↔ a.ErasesOne v := by
  unfold Exact ErasesOne erase
  rw [← a.update_perm.mem_iff]
  have hperm : ∀ l : List α, l.Perm (a.container.erase v) ↔ l.Perm (a.update.container.erase v) := fun l =>
    ⟨fun h => h.trans (a.update_perm.erase v).symm, fun h => h.trans (a.update_perm.erase v)⟩
  rw [hperm]
  dsimp only
  rcases lowerBound_cases a.update.container v with ⟨heq, hall⟩ | ⟨pre, x, suf, hsplit, hpre, hx, heq⟩
  · have hv : v ∉ a.update.container := fun hv => lt_irrefl v (hall v hv)
    rw [if_pos heq]
    refine iff_of_true (fun x hx => ?_) ⟨by simp [hv], by rw [List.erase_of_not_mem hv]⟩
    exact absurd (hall x (List.mem_of_find?_eq_some hx)) (by simpa using List.find?_some hx)
  · have hne : pre.length ≠ (pre ++ x :: suf).length := by simp
    have hrest : (pre ++ x :: suf).eraseIdx pre.length = pre ++ suf := by simp [List.eraseIdx_append_of_length_le]
    have hmiddle : (pre ++ x :: suf).Perm (x :: (pre ++ suf)) := List.perm_middle
    rw [heq, hsplit, if_neg hne, hrest, find?_of_split hpre hx]
    constructor
    · intro hall
      obtain rfl := hall x rfl
      refine ⟨by simp, ?_⟩
      simpa using (hmiddle.erase x).symm
    · rintro ⟨hmem, hleft⟩ y ⟨⟩
      have hv : v ∈ pre ++ x :: suf := hmem.mp rfl
      -- what is taken out on the two sides is the same
      have hleft : (pre ++ suf).Perm ((pre ++ x :: suf).erase v) := hleft
      have hback := (hmiddle.symm.trans (List.perm_cons_erase hv)).trans (hleft.symm.cons v)
      have hcount := hback.count_eq v
      by_contra hxv
      rw [List.count_cons_of_ne hxv, List.count_cons_self] at hcount
      omega

end VectorSort

/-- A run of a `vector_set` answers as the set does exactly when each value that it erases is there or is above all the
    others, and `erase` of a `vector_sort` takes out one occurrence or nothing exactly when what it finds is the value. -/
theorem erase_exact_iff (ops : List (VectorSet.Op α)) (s : VectorSort α) (v : α) :
    (Meets VectorSet.step VectorSet.Exact VectorSet.empty ops ↔
      VectorSet.answers VectorSet.empty ops = VectorSet.setAnswers ∅ ops) ∧ (s.Exact v ↔ s.ErasesOne v) :=
  ⟨VectorSet.meets_iff_answers (fun _ => List.Pairwise.nil) ops, s.exact_iff_erasesOne v⟩

/-- The value that is not there takes the one above it along. -/
theorem erase_takes_another : ¬∀ (ops : List (VectorSet.Op Nat)) (s : VectorSort Nat) (v : Nat),
    VectorSet.answers VectorSet.empty ops = VectorSet.setAnswers ∅ ops ∧ s.ErasesOne v := by
  intro h
  have hanswers := (h [.insert 5, .erase 3] ⟨[], false, 0, 0⟩ 0).1
  have hanswer := (List.cons.inj (List.cons.inj hanswers).2).1
  revert hanswer
  decide

end CrystalServer
