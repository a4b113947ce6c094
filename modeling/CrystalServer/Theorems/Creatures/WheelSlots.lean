import CrystalServer.Creatures.WheelSlots
import CrystalServer.Lib.Run
import CrystalServer.Lib.SumBy

/-! # The slots of the wheel: legal allocations

A save keeps the slots legal where the points that are stored are there to give, and no slot that keeps points or gets
some depends on a full slot that is to lose its points. -/

namespace CrystalServer.WheelSlots
open Lib

/-- The slot takes no more points. -/
def Full (points : WheelSlot → UInt16) (slot : WheelSlot) : Prop := points slot = getMaxPointsPerSlot slot

/-- A chain of neighbours leads from one of the first slots to this one, and those before it are full. -/
inductive ReachedBy (full : WheelSlot → Prop) : WheelSlot → Prop
  | first {slot} (h : isFirst slot = true) : ReachedBy full slot
  | next {slot n} (hr : ReachedBy full n) (hf : full n) (hn : n ∈ neighbours slot) : ReachedBy full slot

/-- The points in all slots. -/
def given (points : WheelSlot → UInt16) : Nat := sumBy (fun slot => (points slot).toNat) enum_values

/-- The points to give. -/
def budget (s : State) : Nat := (getWheelPoints s).toNat + s.m_modsMaxGrade.toNat

/-- The slots are filled as the wheel asks for. -/
structure Reachable (points : WheelSlot → UInt16) : Prop where
  max : ∀ slot, points slot ≤ getMaxPointsPerSlot slot
  reached : ∀ slot, 0 < points slot → ReachedBy (Full points) slot

def Legal (s : State) : Prop := Reachable s.m_wheelSlots ∧ given s.m_wheelSlots ≤ budget s

/-- The stored points are there to give, without an overflow. -/
structure Covered (s : State) : Prop where
  given : given s.m_wheelSlots ≤ budget s
  budget : budget s < 65536
  some : getWheelPoints s = 0 → ∀ slot, s.m_wheelSlots slot = 0

/-- Every slot that is filled is filled anew. -/
structure Anew (s : State) (message : WheelSlot → UInt16) : Prop where
  max : ∀ slot, message slot ≤ getMaxPointsPerSlot slot
  given : WheelSlots.given message ≤ WheelSlots.budget s
  anew : ∀ slot, s.m_wheelSlots slot = 0 ∨ message slot = 0

/-- What is stored is there to give or is given up, and where a slot keeps points, or gets points next to a full slot
    that loses some, a chain of slots that stay full leads to it. -/
structure Careful (s : State) (message : WheelSlot → UInt16) : Prop where
  covered : Covered s ∨ Anew s message
  kept : ∀ slot, 0 < message slot →
    (0 < s.m_wheelSlots slot ∨ ∃ n ∈ neighbours slot, Full s.m_wheelSlots n ∧ ¬Full message n) →
    ReachedBy (fun n => Full s.m_wheelSlots n ∧ Full message n) slot

/-- The condition on a step. -/
def CarefulOp (s : State) : Op → Prop
  | .saveSlotPointsOnPressSaveButton message => canOpenWheel s = true ∧ Careful s message
  | _ => True

variable {s s₀ : State} {m : WheelSlot → UInt16} {slot : WheelSlot} {full full' : WheelSlot → Prop} {points : UInt16}

/-! ### Chains and sums -/

theorem ReachedBy.mono (h : ∀ n, full n → full' n) (hr : ReachedBy full slot) : ReachedBy full' slot := by
  induction hr with
  | first h => exact .first h
  | next _ hf hn ih => exact .next ih (h _ hf) hn

theorem max_pos (slot : WheelSlot) : 0 < getMaxPointsPerSlot slot := by
  cases slot <;> decide

theorem Full.pos {points : WheelSlot → UInt16} (h : Full points slot) : 0 < points slot := by
  rw [h]
  exact max_pos slot

theorem mem_enum_values (slot : WheelSlot) : slot ∈ enum_values := by
  cases slot <;> decide

theorem enum_values_nodup : enum_values.Nodup := by decide

theorem given_update (f : WheelSlot → UInt16) (slot : WheelSlot) (points : UInt16) :
    given (Function.update f slot points) + (f slot).toNat = given f + points.toNat := by
  have := sumBy_update (f := fun x => (f x).toNat) (g := fun x => (Function.update f slot points x).toNat)
    enum_values_nodup (mem_enum_values slot) fun b _ hb => by rw [Function.update_of_ne hb]
  rwa [Function.update_self] at this

theorem given_mono {f g : WheelSlot → UInt16} (h : ∀ slot, f slot ≤ g slot) : given f ≤ given g := by
  rw [given, given]
  induction enum_values with
  | nil => exact le_rfl
  | cons slot l ih => exact Nat.add_le_add (UInt16.le_iff_toNat_le.mp (h slot)) ih

theorem toNat_foldl_sub (f : WheelSlot → UInt16) (l : List WheelSlot) {a : UInt16}
    (h : sumBy (fun slot => (f slot).toNat) l ≤ a.toNat) :
    (l.foldl (fun a slot => a - f slot) a).toNat = a.toNat - sumBy (fun slot => (f slot).toNat) l := by
  induction l generalizing a with
  | nil => rfl
  | cons slot l ih =>
    rw [sumBy_cons] at h ⊢
    have hle : f slot ≤ a := UInt16.le_iff_toNat_le.mpr (by omega)
    have hsub := UInt16.toNat_sub_of_le _ _ hle
    rw [List.foldl_cons, ih (by omega), hsub, Nat.sub_sub]

/-- While the stored points are there to give, the subtraction does not wrap. -/
theorem getUnusedPoints_eq (hgiven : given s.m_wheelSlots ≤ budget s) (hbudget : budget s < 65536) (h0 : getWheelPoints s ≠ 0) :
    (getUnusedPoints s).toNat = budget s - given s.m_wheelSlots := by
  have hsum : (getWheelPoints s + s.m_modsMaxGrade.toUInt16).toNat = budget s := by
    rw [UInt16.toNat_add, UInt8.toNat_toUInt16]
    exact Nat.mod_eq_of_lt hbudget
  rw [getUnusedPoints, if_neg h0, toNat_foldl_sub s.m_wheelSlots enum_values (hsum.symm ▸ hgiven), hsum]
  rfl

theorem getUnusedPoints_zero (h0 : getWheelPoints s = 0) : getUnusedPoints s = 0 := if_pos h0

/-! ### One slot -/

/-- Only the points of the slots differ. -/
def SameWheel (s₀ s : State) : Prop := s = { s₀ with m_wheelSlots := s.m_wheelSlots }

theorem SameWheel.refl (s : State) : SameWheel s s := rfl

theorem SameWheel.set (h : SameWheel s₀ s) (slot : WheelSlot) (points : UInt16) :
    SameWheel s₀ (setPointsBySlotType s slot points) := by
  rw [SameWheel] at h ⊢
  rw [setPointsBySlotType, h]

theorem SameWheel.getWheelPoints (h : SameWheel s₀ s) : getWheelPoints s = getWheelPoints s₀ := by
  rw [h]
  rfl

theorem SameWheel.budget (h : SameWheel s₀ s) : budget s = budget s₀ := by
  rw [h]
  rfl

theorem SameWheel.check (h : SameWheel s₀ s) (slot : WheelSlot) (points : UInt16) :
    SameWheel s₀ (checkSavePointsBySlotType s slot points).1 := by
  rw [checkSavePointsBySlotType]
  split
  · exact h
  · dsimp only
    split
    · exact h.set slot 0
    · exact (h.set slot 0).set slot points

theorem SameWheel.round (h : SameWheel s₀ s) (table : List SlotInfo) :
    SameWheel s₀ (saveSlotPointsHandleRetryErrors s table).1 := by
  induction table generalizing s with
  | nil => exact h
  | cons data table ih => exact ih (h.check data.slot data.points)

theorem SameWheel.retry (n : Nat) {table : List SlotInfo} (h : SameWheel s₀ s) : SameWheel s₀ (retryLoop n s table) := by
  induction n generalizing s table with
  | zero => exact h
  | succ n ih => exact ih (h.round table)

theorem sameWheel_save (sort : List SlotInfo → List SlotInfo) (s : State) (message : WheelSlot → UInt16) :
    SameWheel s (saveSlotPointsOnPressSaveButton sort s message) := by
  rw [saveSlotPointsOnPressSaveButton]
  split
  · exact .refl s
  · split
    · exact .refl s
    · exact ((SameWheel.refl s).round _).retry 6

/-- The slot was full, and is to stay full. -/
def Kept (s₀ : State) (m : WheelSlot → UInt16) (slot : WheelSlot) : Prop := Full s₀.m_wheelSlots slot ∧ Full m slot

/-- What holds while a message is saved, of which the points of some slots are pending. -/
structure Saving (s₀ : State) (m : WheelSlot → UInt16) (pending : WheelSlot → Prop) (s : State) : Prop where
  same : SameWheel s₀ s
  saved : ∀ slot, ¬pending slot → s.m_wheelSlots slot = m slot
  old : ∀ slot, pending slot → s.m_wheelSlots slot = s₀.m_wheelSlots slot ∨ s.m_wheelSlots slot = 0
  full : ∀ slot, Kept s₀ m slot → Full s.m_wheelSlots slot
  reached : ∀ slot, ¬pending slot → 0 < m slot → ReachedBy (fun n => Kept s₀ m n ∨ ¬pending n ∧ Full m n) slot
  given : Covered s₀ → WheelSlots.given s.m_wheelSlots ≤ WheelSlots.budget s₀

theorem Saving.congr {pending pending' : WheelSlot → Prop} (h : Saving s₀ m pending s) (hp : ∀ slot, pending slot ↔ pending' slot) :
    Saving s₀ m pending' s := by
  have : pending = pending' := funext fun slot => propext (hp slot)
  rwa [← this]

variable {pending : WheelSlot → Prop}

/-- A slot that is to stay full is not refused. -/
theorem Saving.fits_of_kept (h : Saving s₀ m pending s) (hcov : Covered s₀) (hk : Kept s₀ m slot) :
    ¬m slot > getUnusedPoints (setPointsBySlotType s slot 0) := by
  have h0 : getWheelPoints (setPointsBySlotType s slot 0) ≠ 0 := by
    rw [(h.same.set slot 0).getWheelPoints]
    intro h0
    have := hk.1.pos
    rw [hcov.some h0] at this
    exact absurd this (by decide)
  have hsum := given_update s.m_wheelSlots slot 0
  have hfull : s.m_wheelSlots slot = m slot := (h.full slot hk).trans hk.2.symm
  have hgiven := h.given hcov
  have hbudget := (h.same.set slot 0).budget
  rw [hfull, UInt16.toNat_zero, Nat.add_zero] at hsum
  have hle : WheelSlots.given (setPointsBySlotType s slot 0).m_wheelSlots + (m slot).toNat ≤
      WheelSlots.budget (setPointsBySlotType s slot 0) := by
    rw [hbudget]
    exact hsum.trans_le hgiven
  rw [gt_iff_lt, UInt16.lt_iff_toNat_lt, getUnusedPoints_eq (by omega) (hbudget.trans_lt hcov.budget) h0]
  omega

/-- A slot that the message fills anew was empty, so that none of the filled slots is to stay full. -/
theorem Anew.not_kept (h : Anew s₀ m) : ¬Kept s₀ m slot := fun hk => by
  rcases h.anew slot with h0 | h0
  · exact absurd (h0 ▸ hk.1.pos) (by decide)
  · exact absurd (h0 ▸ hk.2.pos) (by decide)

/-- A slot that the wheel lets be chosen is reached by a chain that stays full. -/
theorem Saving.reached_of_select (hc : Careful s₀ m) (h : Saving s₀ m pending s) (hm : 0 < m slot)
    (hsel : canPlayerSelectPointOnSlot s slot = true) :
    ReachedBy (fun n => Kept s₀ m n ∨ ¬pending n ∧ Full m n) slot := by
  rw [canPlayerSelectPointOnSlot] at hsel
  split at hsel
  next hfirst => exact .first hfirst
  next =>
    split at hsel
    next => exact nomatch hsel
    next =>
      obtain ⟨n, hn, hfull⟩ := List.any_eq_true.mp hsel
      have hfull : Full s.m_wheelSlots n := beq_iff_eq.mp hfull
      by_cases hp : pending n
      · -- the neighbour is full of its old points
        have hold : Full s₀.m_wheelSlots n := by
          rcases h.old n hp with hv | hv
          · exact hv.symm.trans hfull
          · exact absurd (hv ▸ hfull.pos) (by decide)
        by_cases hmn : Full m n
        · exact .next ((hc.kept n hmn.pos (.inl hold.pos)).mono fun _ hk => .inl hk) (.inl ⟨hold, hmn⟩) hn
        · exact (hc.kept slot hm (.inr ⟨n, hn, hold, hmn⟩)).mono fun _ hk => .inl hk
      · have hmn : Full m n := (h.saved n hp).symm.trans hfull
        exact .next (h.reached n hp hmn.pos) (.inr ⟨hp, hmn⟩) hn

/-- The points of a slot are saved. -/
theorem Saving.save (hc : Careful s₀ m) (h : Saving s₀ m pending s)
    (hsel : ¬(m slot > 0 ∧ !canPlayerSelectPointOnSlot s slot))
    (hfit : ¬m slot > getUnusedPoints (setPointsBySlotType s slot 0)) :
    Saving s₀ m (fun x => pending x ∧ x ≠ slot) (setPointsBySlotType (setPointsBySlotType s slot 0) slot (m slot)) where
  same := (h.same.set slot 0).set slot (m slot)
  saved x hx := by
    by_cases hxs : x = slot
    · subst hxs
      exact Function.update_self ..
    · exact (Function.update_of_ne hxs ..).trans ((Function.update_of_ne hxs ..).trans
        (h.saved x fun hp => hx ⟨hp, hxs⟩))
  old x hx := by
    have := h.old x hx.1
    simpa [setPointsBySlotType, Function.update_of_ne hx.2] using this
  full x hk := by
    by_cases hxs : x = slot
    · subst hxs
      exact (Function.update_self ..).trans hk.2
    · exact (Function.update_of_ne hxs ..).trans ((Function.update_of_ne hxs ..).trans (h.full x hk))
  reached x hx hm := by
    have hmono : ∀ n, Kept s₀ m n ∨ ¬pending n ∧ Full m n → Kept s₀ m n ∨ ¬(pending n ∧ n ≠ slot) ∧ Full m n :=
      fun n hn => hn.imp_right fun hn => ⟨fun hp => hn.1 hp.1, hn.2⟩
    by_cases hp : pending x
    · obtain rfl : x = slot := not_not.mp fun hne => hx ⟨hp, hne⟩
      refine (h.reached_of_select hc hm ?_).mono hmono
      by_contra hno
      exact hsel ⟨hm, by rw [Bool.eq_false_of_not_eq_true hno]; rfl⟩
    · exact (h.reached x hp hm).mono hmono
  given hcov := by
    have hgiven := h.given hcov
    have hsum := given_update s.m_wheelSlots slot 0
    have hsum' := given_update (Function.update s.m_wheelSlots slot 0) slot (m slot)
    rw [Function.update_self, UInt16.toNat_zero, Nat.add_zero] at hsum'
    rw [UInt16.toNat_zero, Nat.add_zero] at hsum
    have hbudget := (h.same.set slot 0).budget
    have hpoints := (h.same.set slot 0).getWheelPoints
    rw [gt_iff_lt, UInt16.lt_iff_toNat_lt] at hfit
    change WheelSlots.given (Function.update (Function.update s.m_wheelSlots slot 0) slot (m slot)) ≤ _
    by_cases h0 : getWheelPoints (setPointsBySlotType s slot 0) = 0
    · rw [getUnusedPoints_zero h0, UInt16.toNat_zero] at hfit
      omega
    · have hle : WheelSlots.given (setPointsBySlotType s slot 0).m_wheelSlots ≤
          WheelSlots.budget (setPointsBySlotType s slot 0) := by
        change WheelSlots.given (Function.update s.m_wheelSlots slot 0) ≤ _
        omega
      rw [getUnusedPoints_eq hle (hbudget.trans_lt hcov.budget) h0, hbudget] at hfit
      change ¬WheelSlots.budget s₀ - WheelSlots.given (Function.update s.m_wheelSlots slot 0) < (m slot).toNat at hfit
      omega

/-- There are not enough points for a slot, and it is left empty. -/
theorem Saving.clear (hc : Careful s₀ m) (h : Saving s₀ m pending s) (hx : pending slot)
    (hfit : m slot > getUnusedPoints (setPointsBySlotType s slot 0)) :
    Saving s₀ m pending (setPointsBySlotType s slot 0) where
  same := h.same.set slot 0
  saved x hp := by
    have hxs : x ≠ slot := by
      rintro rfl
      exact hp hx
    exact (Function.update_of_ne hxs ..).trans (h.saved x hp)
  old x hp := by
    by_cases hxs : x = slot
    · subst hxs
      exact .inr (Function.update_self ..)
    · rw [setPointsBySlotType]
      dsimp only
      rw [Function.update_of_ne hxs]
      exact h.old x hp
  full x hk := by
    have hxs : x ≠ slot := by
      rintro rfl
      rcases hc.covered with hcov | hnew
      · exact h.fits_of_kept hcov hk hfit
      · exact hnew.not_kept hk
    exact (Function.update_of_ne hxs ..).trans (h.full x hk)
  reached := h.reached
  given hcov := by
    have hgiven := h.given hcov
    have hsum := given_update s.m_wheelSlots slot 0
    rw [UInt16.toNat_zero, Nat.add_zero] at hsum
    change WheelSlots.given (Function.update s.m_wheelSlots slot 0) ≤ _
    omega

theorem Saving.check (hc : Careful s₀ m) (h : Saving s₀ m pending s) (hx : pending slot) :
    ((checkSavePointsBySlotType s slot (m slot)).2 = true →
        Saving s₀ m (fun x => pending x ∧ x ≠ slot) (checkSavePointsBySlotType s slot (m slot)).1) ∧
      ((checkSavePointsBySlotType s slot (m slot)).2 = false →
        Saving s₀ m pending (checkSavePointsBySlotType s slot (m slot)).1 ∧ 0 < m slot) := by
  rw [checkSavePointsBySlotType]
  split
  next hsel => exact ⟨nofun, fun _ => ⟨h, hsel.1⟩⟩
  next hsel =>
    dsimp only
    split
    next hfit =>
      refine ⟨nofun, fun _ => ⟨h.clear hc hx hfit, ?_⟩⟩
      rw [gt_iff_lt, UInt16.lt_iff_toNat_lt] at hfit
      exact UInt16.lt_iff_toNat_lt.mpr (Nat.zero_lt_of_lt hfit)
    next hfit => exact ⟨fun _ => h.save hc hsel hfit, nofun⟩

/-! ### The table -/

/-- The entries are those of the message, one for each slot. -/
structure Table (m : WheelSlot → UInt16) (table : List SlotInfo) : Prop where
  points : ∀ data ∈ table, data.points = m data.slot
  nodup : (table.map (·.slot)).Nodup

theorem Table.tail {data : SlotInfo} {table : List SlotInfo} (h : Table m (data :: table)) : Table m table :=
  ⟨fun d hd => h.points d (List.mem_cons_of_mem data hd), (List.nodup_cons.mp h.nodup).2⟩

/-- A round leaves a part of its table, all of whose slots are to get points. -/
theorem Saving.round (hc : Careful s₀ m) {table : List SlotInfo} (ht : Table m table) {rest : WheelSlot → Prop}
    (hrest : ∀ data ∈ table, ¬rest data.slot)
    (h : Saving s₀ m (fun x => rest x ∨ x ∈ table.map (·.slot)) s) :
    Saving s₀ m (fun x => rest x ∨ x ∈ (saveSlotPointsHandleRetryErrors s table).2.map (·.slot))
        (saveSlotPointsHandleRetryErrors s table).1 ∧
      (saveSlotPointsHandleRetryErrors s table).2.Sublist table ∧
      ∀ data ∈ (saveSlotPointsHandleRetryErrors s table).2, 0 < m data.slot := by
  induction table generalizing s rest with
  | nil => exact ⟨h, List.Sublist.refl [], nofun⟩
  | cons data table ih =>
    have hpoints := ht.points data List.mem_cons_self
    have hnot : data.slot ∉ table.map (·.slot) := (List.nodup_cons.mp ht.nodup).1
    have hdata := hrest data List.mem_cons_self
    obtain ⟨htrue, hfalse⟩ := h.check hc (.inr (List.mem_cons_self : data.slot ∈ data.slot :: table.map (·.slot)))
    rw [saveSlotPointsHandleRetryErrors, hpoints]
    dsimp only
    cases hsaved : (checkSavePointsBySlotType s data.slot (m data.slot)).2 with
    | true =>
      have hnext : Saving s₀ m (fun x => rest x ∨ x ∈ table.map (·.slot))
          (checkSavePointsBySlotType s data.slot (m data.slot)).1 := by
        refine (htrue hsaved).congr fun x => ?_
        rw [List.map_cons, List.mem_cons]
        constructor
        · rintro ⟨hx | rfl | hx, hne⟩
          · exact .inl hx
          · exact absurd rfl hne
          · exact .inr hx
        · rintro (hx | hx)
          · exact ⟨.inl hx, fun hxs => hdata (hxs ▸ hx)⟩
          · exact ⟨.inr (.inr hx), fun hxs => hnot (by rwa [← hxs])⟩
      obtain ⟨hs, hsub, hpos⟩ := ih ht.tail (fun d hd => hrest d (List.mem_cons_of_mem data hd)) hnext
      exact ⟨hs, hsub.cons data, hpos⟩
    | false =>
      obtain ⟨hnext, hm⟩ := hfalse hsaved
      have hnext : Saving s₀ m (fun x => (rest x ∨ x = data.slot) ∨ x ∈ table.map (·.slot))
          (checkSavePointsBySlotType s data.slot (m data.slot)).1 := by
        refine hnext.congr fun x => ?_
        rw [List.map_cons, List.mem_cons, or_assoc]
      have hkept : ∀ d ∈ table, ¬(rest d.slot ∨ d.slot = data.slot) := by
        rintro d hd (hr | hr)
        · exact hrest d (List.mem_cons_of_mem data hd) hr
        · exact hnot (by rw [← hr]; exact List.mem_map_of_mem hd)
      obtain ⟨hs, hsub, hpos⟩ := ih ht.tail hkept hnext
      refine ⟨hs.congr fun x => ?_, hsub.cons_cons data, ?_⟩
      · simp only [Bool.false_eq_true, if_false, List.map_cons, List.mem_cons, or_assoc]
      · simp only [Bool.false_eq_true, if_false, List.mem_cons]
        rintro d (rfl | hd)
        · exact hm
        · exact hpos d hd

theorem Table.sublist {table table' : List SlotInfo} (h : Table m table) (hs : table'.Sublist table) : Table m table' :=
  ⟨fun data hd => h.points data (hs.subset hd), (hs.map _).nodup h.nodup⟩

theorem Saving.retry (hc : Careful s₀ m) (n : Nat) {table : List SlotInfo} (ht : Table m table)
    (hpos : ∀ data ∈ table, 0 < m data.slot) (h : Saving s₀ m (fun x => x ∈ table.map (·.slot)) s) :
    ∃ pending, Saving s₀ m pending (retryLoop n s table) ∧ ∀ slot, pending slot → 0 < m slot := by
  induction n generalizing s table with
  | zero =>
    refine ⟨_, h, fun slot hs => ?_⟩
    obtain ⟨data, hd, rfl⟩ := List.mem_map.mp hs
    exact hpos data hd
  | succ n ih =>
    have hround : Saving s₀ m (fun x => False ∨ x ∈ table.map (·.slot)) s := h.congr fun x => by simp
    obtain ⟨hs, hsub, hpos⟩ := hround.round hc ht fun _ _ => not_false
    exact ih (ht.sublist hsub) hpos (hs.congr fun x => by simp)

/-! ### A save -/

theorem Saving.start : Saving s₀ m (fun _ => True) s₀ where
  same := rfl
  saved _ hp := absurd trivial hp
  old _ _ := .inl rfl
  full _ hk := hk.1
  reached _ hp := absurd trivial hp
  given hcov := hcov.given

theorem Saving.legal (hc : Careful s₀ m) (hr : Reachable s₀.m_wheelSlots) (hmax : ∀ slot, m slot ≤ getMaxPointsPerSlot slot)
    {pending : WheelSlot → Prop} (h : Saving s₀ m pending s) (hpos : ∀ slot, pending slot → 0 < m slot) : Legal s := by
  have hfull : ∀ n, Kept s₀ m n ∨ ¬pending n ∧ Full m n → Full s.m_wheelSlots n := by
    rintro n (hk | ⟨hp, hm⟩)
    · exact h.full n hk
    · exact (h.saved n hp).trans hm
  refine ⟨⟨fun slot => ?_, fun slot hslot => ?_⟩, ?_⟩
  · by_cases hp : pending slot
    · rcases h.old slot hp with hv | hv
      · exact hv ▸ hr.max slot
      · rw [hv]
        exact UInt16.le_iff_toNat_le.mpr (Nat.zero_le _)
    · exact h.saved slot hp ▸ hmax slot
  · by_cases hp : pending slot
    · have hold : 0 < s₀.m_wheelSlots slot := by
        rcases h.old slot hp with hv | hv
        · exact hv ▸ hslot
        · exact absurd (hv ▸ hslot) (by decide)
      exact (hc.kept slot (hpos slot hp) (.inl hold)).mono fun n hk => hfull n (.inl hk)
    · exact (h.reached slot hp (h.saved slot hp ▸ hslot)).mono hfull
  · rw [h.same.budget]
    rcases hc.covered with hcov | hnew
    · exact h.given hcov
    · refine (given_mono fun slot => ?_).trans hnew.given
      by_cases hp : pending slot
      · -- what is still pending gets points, so that nothing was stored
        have h0 := (hnew.anew slot).resolve_right fun h0 => absurd (h0 ▸ hpos slot hp) (by decide)
        rcases h.old slot hp with hv | hv
        · rw [hv, h0]
          exact UInt16.le_iff_toNat_le.mpr (Nat.zero_le _)
        · rw [hv]
          exact UInt16.le_iff_toNat_le.mpr (Nat.zero_le _)
      · exact UInt16.le_iff_toNat_le.mpr (congrArg UInt16.toNat (h.saved slot hp)).le

variable {sort : List SlotInfo → List SlotInfo}

theorem save_legal (hsort : ∀ l, (sort l).Perm l) (hc : Careful s m) (hr : Reachable s.m_wheelSlots)
    (ho : canOpenWheel s = true) : Legal (saveSlotPointsOnPressSaveButton sort s m) := by
  rw [saveSlotPointsOnPressSaveButton, ho]
  simp only [Bool.not_true, Bool.false_eq_true, if_false]
  split
  next hany =>
    obtain ⟨slot, -, hslot⟩ := List.any_eq_true.mp hany
    refine ⟨hr, ?_⟩
    rcases hc.covered with hcov | hnew
    · exact hcov.given
    · exact absurd (of_decide_eq_true hslot) (UInt16.not_lt.mpr (hnew.max slot))
  next hany =>
    have hmax : ∀ slot, m slot ≤ getMaxPointsPerSlot slot := fun slot => by
      have := List.any_eq_false.mp (Bool.eq_false_of_not_eq_true hany) slot (mem_enum_values slot)
      exact UInt16.not_lt.mp fun h => this (decide_eq_true h)
    have hperm := hsort (enum_values.map fun slot => ⟨getSlotPrioritaryOrder slot, slot, m slot⟩)
    have hslots : (sort (enum_values.map fun slot => ⟨getSlotPrioritaryOrder slot, slot, m slot⟩)).map (·.slot) |>.Perm enum_values := by
      refine (hperm.map _).trans (.of_eq ?_)
      rw [List.map_map]
      exact List.map_id _
    have ht : Table m (sort (enum_values.map fun slot => ⟨getSlotPrioritaryOrder slot, slot, m slot⟩)) := by
      refine ⟨fun data hd => ?_, hslots.nodup_iff.mpr enum_values_nodup⟩
      obtain ⟨slot, -, rfl⟩ := List.mem_map.mp (hperm.mem_iff.mp hd)
      rfl
    have hstart : Saving s m (fun x => False ∨ x ∈ (sort (enum_values.map fun slot =>
        ⟨getSlotPrioritaryOrder slot, slot, m slot⟩)).map (·.slot)) s :=
      Saving.start.congr fun x => by simp [hslots.mem_iff, mem_enum_values]
    obtain ⟨hs, hsub, hpos⟩ := hstart.round hc ht (fun _ _ => not_false)
    obtain ⟨pending, hs, hpos⟩ := Saving.retry hc 6 (ht.sublist hsub) hpos (hs.congr fun x => by simp)
    exact hs.legal hc hr hmax hpos

theorem step_reachable (hsort : ∀ l, (sort l).Perm l) {op : Op} (hr : Reachable s.m_wheelSlots) (hop : CarefulOp s op) :
    Reachable (step sort s op).m_wheelSlots := by
  cases op with
  | saveSlotPointsOnPressSaveButton message => exact (save_legal hsort hop.2 hr hop.1).1
  | setLevel level => exact hr
  | unlockScroll scrollName =>
    rw [step, unlockScroll]
    split
    · exact hr
    · split
      · exact hr
      · exact hr
  | improveGemGrade fragmentType pos paid =>
    have hsame : (improveGemGrade s fragmentType pos paid).m_wheelSlots = s.m_wheelSlots := by
      cases fragmentType with
      | Lesser =>
        simp only [improveGemGrade]
        split
        · rfl
        · rfl
      | Greater =>
        simp only [improveGemGrade]
        split
        · rfl
        · rfl
    rw [step, hsame]
    exact hr

/-- From an empty wheel on, every save that is careful leaves a legal allocation. -/
theorem legal_run (hsort : ∀ l, (sort l).Perm l) (hempty : ∀ slot, s.m_wheelSlots slot = 0) {ops : List Op}
    (hops : Meets (step sort) CarefulOp s ops) :
    ∀ xs message, xs ++ [.saveSlotPointsOnPressSaveButton message] <+: ops →
      Legal (run (step sort) s (xs ++ [.saveSlotPointsOnPressSaveButton message])) := by
  rintro xs message ⟨ys, rfl⟩
  have hstart : Reachable s.m_wheelSlots := by
    refine ⟨fun slot => ?_, fun slot hslot => ?_⟩
    · rw [hempty]
      exact UInt16.le_iff_toNat_le.mpr (Nat.zero_le _)
    · rw [hempty] at hslot
      exact absurd hslot (by decide)
  have hr : Reachable (run (step sort) s xs).m_wheelSlots :=
    run_invariant (fun s => Reachable s.m_wheelSlots) (fun _ _ => step_reachable hsort) hstart hops.of_append.of_append
  have hop : CarefulOp (run (step sort) s xs) (.saveSlotPointsOnPressSaveButton message) := hops.of_append.last
  rw [run_concat]
  exact save_legal hsort hop.2 hr hop.1

/-! ### A player of level 200 -/

/-- An insertion sort, which keeps the order of what is equal. -/
def sortByOrder (l : List SlotInfo) : List SlotInfo := l.insertionSort fun a b => a.order ≤ b.order

/-- A promoted player with nothing on the wheel. -/
def emptyWheel : State where
  m_wheelSlots _ := 0
  m_pointsPerLevel := 1
  m_unlockedScrolls := []
  m_basicGrades _ := 0
  m_supremeGrades _ := 0
  m_modsMaxGrade := 0
  level := 200
  mayOpen := true
  hasMonkQuest := false

/-- The first green slot is full, and ten points are in the next one. -/
def greenMessage : WheelSlot → UInt16
  | .GREEN_50 => 50
  | .GREEN_TOP_75 => 10
  | _ => 0

/-- The points of the first slot are taken away. -/
def loweredMessage : WheelSlot → UInt16
  | .GREEN_TOP_75 => 10
  | _ => 0

theorem sortByOrder_perm (l : List SlotInfo) : (sortByOrder l).Perm l := List.perm_insertionSort _ l

theorem sortByOrder_spec (l : List SlotInfo) :
    (sortByOrder l).Perm l ∧ (sortByOrder l).Pairwise fun a b => a.order ≤ b.order := by
  have : Std.Total fun a b : SlotInfo => a.order ≤ b.order := ⟨fun a b => Int8.le_total a.order b.order⟩
  have : IsTrans SlotInfo fun a b => a.order ≤ b.order := ⟨fun _ _ _ => Int8.le_trans⟩
  exact ⟨sortByOrder_perm l, List.pairwise_insertionSort _ l⟩

theorem legal_run_green : Legal (run (step sortByOrder) emptyWheel ([] ++ [.saveSlotPointsOnPressSaveButton greenMessage])) := by
  have hops : Meets (step sortByOrder) CarefulOp emptyWheel [.saveSlotPointsOnPressSaveButton greenMessage] := by
    refine ⟨⟨rfl, .inl ⟨by decide, by decide, fun _ _ => rfl⟩, ?_⟩, trivial⟩
    have h0 (slot : WheelSlot) : ¬0 < emptyWheel.m_wheelSlots slot := UInt16.lt_irrefl 0
    rintro slot - (h | ⟨n, -, hf, -⟩)
    · exact absurd h (h0 slot)
    · exact absurd hf.pos (h0 n)
  exact legal_run sortByOrder_perm (fun _ => rfl) hops [] greenMessage List.prefix_rfl

/-- The ten points stay although the first slot was emptied. -/
theorem lowered_unreached : ¬∀ (sort : List SlotInfo → List SlotInfo) (s : State) (ops : List Op),
    (∀ l, (sort l).Perm l ∧ (sort l).Pairwise fun a b => a.order ≤ b.order) → (∀ slot, s.m_wheelSlots slot = 0) →
    Meets (step sort) (fun s _ => canOpenWheel s = true) s ops →
    ∀ xs message, xs ++ [.saveSlotPointsOnPressSaveButton message] <+: ops →
      Legal (run (step sort) s (xs ++ [.saveSlotPointsOnPressSaveButton message])) := by
  intro h
  have hlegal := h sortByOrder emptyWheel
    [.saveSlotPointsOnPressSaveButton greenMessage, .saveSlotPointsOnPressSaveButton loweredMessage] sortByOrder_spec (fun _ => rfl)
    ⟨rfl, by decide +kernel, trivial⟩ [.saveSlotPointsOnPressSaveButton greenMessage] loweredMessage List.prefix_rfl
  obtain ⟨⟨-, hreached⟩, -⟩ := hlegal
  cases hreached .GREEN_TOP_75 (by decide +kernel) with
  | first hfirst => exact nomatch hfirst
  | next _ hf hn =>
    revert hf
    have : ∀ n ∈ neighbours .GREEN_TOP_75, ¬Full (run (step sortByOrder) emptyWheel
        [.saveSlotPointsOnPressSaveButton greenMessage, .saveSlotPointsOnPressSaveButton loweredMessage]).m_wheelSlots n := by
      unfold Full
      decide +kernel
    exact this _ hn

end CrystalServer.WheelSlots
