import CrystalServer.Lib.Run
import CrystalServer.Utils.ArrayList

/-! # An `arraylist` against a plain list

The contents are what is parked, the latest first, and then the rest. Every call but an assignment respects them; an
assignment leaves what is parked. -/

namespace CrystalServer.ArrayList
open Lib (run Meets)

variable {α : Type} [BEq α] {a : ArrayList α} {l : List α}

/-- The call on a plain list, done at once. -/
def listCall (l : List α) : Op α → List α × Answer α
  | .pushFront v => (v :: l, .unit)
  | .pushBack v => (l ++ [v], .unit)
  | .popBack => (l.dropLast, .unit)
  | .assign list => (list, .unit)
  | .clear => ([], .unit)
  | .erase v => (l.eraseP (· == v), .bool (l.any (· == v)))
  | .eraseRange first last =>
    if first ≤ l.length ∧ last ≤ l.length then (l.take first ++ l.drop last, .bool true) else (l, .bool false)
  | .eraseIf fnc => (l.filter fun v => !fnc v, .bool (l.any fnc))
  | .contains v => (l, .bool (l.any (· == v)))
  | .front => (l, .elem l.head?)
  | .back => (l, .elem l.getLast?)
  | .get i => (l, .elem l[i]?)
  | .set i v => (l.set i v, .unit)
  | .data => (l, .list l)
  | .size => (l, .size l.length)
  | .isEmpty => (l, .bool l.isEmpty)

/-- The contents. -/
def toList (a : ArrayList α) : List α := a.frontContainer.reverse ++ a.backContainer

/-- Where nothing needs an update, nothing is parked. -/
def Settled (a : ArrayList α) : Prop := a.needUpdate = false → a.frontContainer = []

/-- An assignment finds nothing parked. -/
def Unparked (a : ArrayList α) : Op α → Prop
  | .assign _ => a.frontContainer = []
  | _ => True

omit [BEq α] in
/-- After an update all of the contents are in one vector. -/
theorem update_spec (h : a.Settled) : a.update = ⟨a.toList, [], false⟩ := by
  obtain ⟨back, front, need⟩ := a
  cases need with
  | false =>
    have hfront : front = [] := h rfl
    rw [hfront]
    rfl
  | true => rfl

omit [BEq α] in
theorem settled_of_nil {back : List α} {need : Bool} : Settled ⟨back, [], need⟩ := fun _ => rfl

omit [BEq α] in
theorem toList_of_nil {back : List α} {need : Bool} : toList ⟨back, [], need⟩ = back := List.nil_append back

/-- Each call answers as the list does, and leaves the same contents unless it assigns over what is parked. -/
theorem call_spec (h : a.Settled) (op : Op α) :
    (a.call op).2 = (listCall a.toList op).2 ∧ (a.call op).1.Settled ∧
      ((a.call op).1.toList = (listCall a.toList op).1 ↔ a.Unparked op) := by
  have hupdate := update_spec h
  cases op with
  | assign list => exact ⟨rfl, h, by simp [call, listCall, assign, toList, Unparked]⟩
  | pushFront v => exact ⟨rfl, (by rintro ⟨⟩), by simp [call, listCall, pushFront, toList, Unparked]⟩
  | pushBack v => exact ⟨rfl, h, by simp [call, listCall, pushBack, toList, Unparked]⟩
  | clear => exact ⟨rfl, settled_of_nil, iff_of_true rfl trivial⟩
  | size => exact ⟨by simp [call, listCall, size, toList, Nat.add_comm], h, iff_of_true rfl trivial⟩
  | isEmpty =>
    refine ⟨?_, h, iff_of_true rfl trivial⟩
    obtain ⟨back, front, need⟩ := a
    cases front <;> simp [call, listCall, isEmpty, toList]
  | erase v =>
    unfold call erase listCall Unparked
    rw [hupdate]
    by_cases hv : a.toList.any (· == v)
    · simp [hv, Settled, toList_of_nil]
    · have hsame : a.toList.eraseP (· == v) = a.toList := List.eraseP_of_forall_not (by simpa using hv)
      simp [hv, hsame, Settled, toList_of_nil]
  | eraseRange first last =>
    unfold call eraseRange listCall
    rw [hupdate]
    have hsize : size ⟨a.toList, [], false⟩ = a.toList.length := rfl
    simp only [hsize]
    by_cases hrange : first ≤ a.toList.length ∧ last ≤ a.toList.length
    · rw [if_pos hrange, if_neg (by omega)]
      exact ⟨rfl, settled_of_nil, iff_of_true toList_of_nil trivial⟩
    · rw [if_neg hrange, if_pos (by omega)]
      exact ⟨rfl, settled_of_nil, iff_of_true toList_of_nil trivial⟩
  | popBack | eraseIf fnc | contains v | front | back | get i | set i v | data =>
    simp [call, listCall, popBack, eraseIf, contains, front, back, get, set, data, hupdate, Settled, toList_of_nil, Unparked]

/-! ### Runs -/

def step (a : ArrayList α) (op : Op α) : ArrayList α := (a.call op).1

/-- What the calls give back, one after another. -/
def answers (a : ArrayList α) : List (Op α) → List (Answer α)
  | [] => []
  | op :: ops => (a.call op).2 :: answers (a.step op) ops

def listStep (l : List α) (op : Op α) : List α := (listCall l op).1

def listAnswers (l : List α) : List (Op α) → List (Answer α)
  | [] => []
  | op :: ops => (listCall l op).2 :: listAnswers (listStep l op) ops

/-- The calls answer as on the list, and iterating then gives the list. -/
def Conforms (a : ArrayList α) (l : List α) (ops : List (Op α)) : Prop :=
  answers a ops = listAnswers l ops ∧ (run step a ops).data.2 = run listStep l ops

theorem conforms_nil (h : a.Settled) : Conforms a a.toList [] := by
  refine ⟨rfl, ?_⟩
  rw [Lib.run_nil, Lib.run_nil, data, update_spec h]

theorem conforms_cons (h : a.Settled) {op : Op α} (hop : a.Unparked op) {ops : List (Op α)}
    (hc : Conforms (a.step op) (a.step op).toList ops) : Conforms a a.toList (op :: ops) := by
  obtain ⟨hanswer, -, hlist⟩ := call_spec h op
  have hstep : (a.step op).toList = listStep a.toList op := hlist.mpr hop
  rw [hstep] at hc
  exact ⟨congrArg₂ List.cons hanswer hc.1, hc.2⟩

theorem meets_iff_conforms (h : a.Settled) (ops : List (Op α)) :
    Meets step Unparked a ops ↔ ∀ xs, xs <+: ops → Conforms a a.toList xs := by
  induction ops generalizing a with
  | nil =>
    refine iff_of_true trivial fun xs hxs => ?_
    rw [List.prefix_nil.mp hxs]
    exact conforms_nil h
  | cons op ops ih =>
    obtain ⟨-, hsettled, hlist⟩ : _ ∧ (a.step op).Settled ∧ ((a.step op).toList = listStep a.toList op ↔ _) := call_spec h op
    constructor
    · rintro ⟨hop, hm⟩ xs hxs
      rcases xs with - | ⟨op', xs⟩
      · exact conforms_nil h
      · obtain ⟨rfl, hrest⟩ := List.cons_prefix_cons.mp hxs
        exact conforms_cons h hop ((ih hsettled).mp hm xs hrest)
    · intro hall
      -- the contents after the first call are seen by iterating there
      have hfirst := (hall [op] (List.cons_prefix_cons.mpr ⟨rfl, List.nil_prefix⟩)).2
      rw [Lib.run_cons, Lib.run_nil, Lib.run_cons, Lib.run_nil, data, update_spec hsettled] at hfirst
      refine ⟨hlist.mp hfirst, (ih hsettled).mpr fun xs hxs => ?_⟩
      obtain ⟨hanswers, hdata⟩ := hall (op :: xs) (List.cons_prefix_cons.mpr ⟨rfl, hxs⟩)
      rw [show (a.step op).toList = listStep a.toList op from hfirst]
      exact ⟨(List.cons.inj hanswers).2, hdata⟩

/-- A sequence of calls answers as on a plain list all along exactly when no assignment finds something parked. -/
theorem arraylist_conforms_iff (list : List α) (ops : List (Op α)) :
    Meets step Unparked (ofList list) ops ↔ ∀ xs, xs <+: ops → Conforms (ofList list) list xs :=
  meets_iff_conforms settled_of_nil ops

/-- What was pushed to the front comes back after an assignment. -/
theorem assign_resurrects : ¬∀ (list : List Nat) (ops : List (Op Nat)), Conforms (ofList list) list ops := by
  intro h
  have hdata := (h [] [.pushFront 1, .assign [2]]).2
  revert hdata
  decide

end CrystalServer.ArrayList
