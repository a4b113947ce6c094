import CrystalServer.Theorems.Creatures.NpcTakes
import CrystalServer.Theorems.Game.Stash

/-! # Taking so many of an item is exact

What the loop takes is known from the counts beforehand. A container goes with all that lies in it, so that the units in it
go as well, whether they were asked for or not. -/

namespace CrystalServer
open Game Npc

/-- The pieces of an id that a player holds, at any depth. -/
def World.pieces (w : World) (p : PlayerRef) (id : UInt16) : Nat :=
  ∑ r ∈ Finset.range w.next, if w.heldLoop (.player p) w.next r ∧ (w.item r).id = id then (w.item r).getItemCount else 0

/-- The pieces of an id that a player holds and has stowed. -/
def StashState.pieces (s : StashState) (p : PlayerRef) (id : UInt16) : Nat :=
  s.world.pieces p id + ((s.stashItems id).getD 0).toNat

namespace Stash

/-- What is taken of each item, if so many pieces are to go. -/
def takes (w : World) : List Ref → Nat → List (Ref × Nat)
  | [], _ => []
  | item :: rest, n =>
    let k := min n (w.item item).getItemCount
    if k = 0 then takes w rest n else (item, k) :: takes w rest (n - k)

def amount (l : List (Ref × Nat)) : Nat := (l.map Prod.snd).sum

def refs (l : List (Ref × Nat)) : List Ref := l.map Prod.fst

def counts (w : World) (l : List Ref) : Nat := (l.map fun r => (w.item r).getItemCount).sum

theorem counts_cons (w : World) (x : Ref) (l : List Ref) : counts w (x :: l) = (w.item x).getItemCount + counts w l :=
  List.sum_cons

theorem amount_cons (x : Ref) (k : Nat) (t : List (Ref × Nat)) : amount ((x, k) :: t) = k + amount t := List.sum_cons

variable {env : StashEnv} {w w' : World} {p : PlayerRef} {itemId : UInt16} {x y : Ref} {l : List Ref} {n : Nat}

/-! ### What is taken -/

theorem takes_zero (w : World) (l : List Ref) : takes w l 0 = [] := by
  induction l with
  | nil => rfl
  | cons x l ih =>
    unfold takes
    rw [Nat.zero_min, if_pos rfl, ih]

theorem takes_congr (h : ∀ x ∈ l, (w'.item x).getItemCount = (w.item x).getItemCount) (n : Nat) :
    takes w' l n = takes w l n := by
  induction l generalizing n with
  | nil => rfl
  | cons x l ih =>
    have hrest := ih fun y hy => h y (List.mem_cons_of_mem x hy)
    unfold takes
    simp only [h x List.mem_cons_self, hrest]

/-- Each entry is part of an item of the list. -/
theorem mem_takes {e : Ref × Nat} (h : e ∈ takes w l n) : e.1 ∈ l ∧ 0 < e.2 ∧ e.2 ≤ (w.item e.1).getItemCount := by
  induction l generalizing n with
  | nil => exact nomatch h
  | cons x l ih =>
    unfold takes at h
    dsimp only at h
    split_ifs at h with hk
    · obtain ⟨hmem, hrest⟩ := ih h
      exact ⟨List.mem_cons_of_mem x hmem, hrest⟩
    · rcases List.mem_cons.mp h with rfl | h
      · exact ⟨List.mem_cons_self, Nat.pos_of_ne_zero hk, Nat.min_le_right ..⟩
      · obtain ⟨hmem, hrest⟩ := ih h
        exact ⟨List.mem_cons_of_mem x hmem, hrest⟩

theorem refs_sublist (w : World) (l : List Ref) (n : Nat) : (refs (takes w l n)).Sublist l := by
  induction l generalizing n with
  | nil => exact .refl _
  | cons x l ih =>
    unfold takes
    dsimp only
    split_ifs
    · exact (ih n).cons x
    · exact (ih _).cons_cons x

/-! ### One item -/

/-- The whole count is what -1 stands for. -/
theorem internalRemoveItem_all (env : MoneyEnv) (w : World) (x : Ref) :
    internalRemoveItem env w x (-1) = internalRemoveItem env w x (w.item x).getItemCount := by
  have hne : ((w.item x).getItemCount : Int) ≠ -1 := by omega
  unfold internalRemoveItem
  simp only [if_pos, if_neg hne]

theorem toNat_itemCount (item : Item) : (UInt32.ofNat item.getItemCount).toNat = item.getItemCount := by
  have hlt : item.getItemCount < 256 := item.count.toNat_lt
  rw [UInt32.toNat_ofNat', Nat.mod_eq_of_lt (by omega)]

/-- The loop takes the smaller one of what is asked for and what is there. -/
theorem removeLoop_cons (hx : (w.item x).id = itemId) (l : List Ref) (a : UInt32) :
    removeLoop env itemId (x :: l) w a =
      let w' := (internalRemoveItem env.toMoneyEnv w x (min a.toNat (w.item x).getItemCount : Nat)).1
      if a.toNat ≤ (w.item x).getItemCount then (w', none)
      else removeLoop env itemId l w' (a - .ofNat (w'.item x).getItemCount) := by
  have hlt : (w.item x).getItemCount < 256 := (w.item x).count.toNat_lt
  have hge : UInt32.ofNat (w.item x).getItemCount ≥ a ↔ a.toNat ≤ (w.item x).getItemCount := by
    rw [ge_iff_le, UInt32.le_iff_toNat_le, toNat_itemCount]
  conv_lhs => unfold removeLoop
  rw [if_neg (not_not.mpr hx)]
  dsimp only
  by_cases hle : a.toNat ≤ (w.item x).getItemCount
  · rw [if_pos (hge.mpr hle), min_eq_left hle, Lib.toInt_toInt32_of_lt (by omega)]
    exact (if_pos hle).symm
  · rw [if_neg fun h => hle (hge.mp h), min_eq_right (Nat.le_of_not_le hle), internalRemoveItem_all]
    exact (if_neg hle).symm

/-- One step: nothing is taken, or so many pieces of the item. -/
theorem step_gives (hw : Carried env.items w) (hs : Slotted w) (hrem : Removable env.toMoneyEnv x)
    (hx : ∃ c, w.getParent x = some c) {k : Nat} (hk : k ≤ (w.item x).getItemCount) :
    let w' := (internalRemoveItem env.toMoneyEnv w x k).1
    (k = 0 ∧ w' = w) ∨ (0 < k ∧ Gives env.items w w' x k) := by
  obtain ⟨c, hc⟩ := hx
  rcases Nat.eq_zero_or_pos k with rfl | hpos
  · have hnone : ¬(Removable env.toMoneyEnv x ∧ 0 ≠ 0) := fun h => h.2 rfl
    obtain ⟨ret, hres, -⟩ := internalRemoveItem_fails hw hs hc hnone
    exact Or.inl ⟨rfl, by rw [hres]⟩
  · obtain ⟨w', hres, hgives⟩ := internalRemoveItem_gives hw hs hc hrem hpos hk
    refine Or.inr ⟨hpos, ?_⟩
    rw [hres]
    exact hgives

end Stash

namespace Npc.Gives
variable {items : UInt16 → ItemType} {w w' : World} {x : Ref} {n : Nat}

theorem id (h : Gives items w w' x n) (r : Ref) : (w'.item r).id = (w.item r).id := by
  have hplain : ∀ {i j : Item}, i.plain = j.plain → i.id = j.id := fun h => by
    have := congrArg Item.id h
    exact this
  rcases h with ⟨h, -⟩ | ⟨-, -, h⟩
  · exact hplain (h.plain r)
  · by_cases hr : r = x
    · rw [hr, h.id]
    · exact hplain (h.plain r hr)

/-- All pieces are taken. -/
theorem cuts (h : Gives items w w' x (w.item x).getItemCount) : Cuts w w' x := by
  rcases h with ⟨h, -⟩ | ⟨-, hlt, -⟩
  · exact h
  · exact absurd hlt (lt_irrefl _)

theorem count_of_plain {i j : Item} (h : i.plain = j.plain) : i.getItemCount = j.getItemCount := by
  have := congrArg Item.getItemCount h
  exact this

end Npc.Gives

namespace Stash
variable {env : StashEnv} {items : UInt16 → ItemType} {w w' : World} {p : PlayerRef} {itemId : UInt16} {x y : Ref}
  {l : List Ref} {n : Nat}

/-! ### The loop -/

/-- The pieces are taken one item after the other. -/
inductive Goes (items : UInt16 → ItemType) : World → List (Ref × Nat) → World → Prop
  | nil (w : World) : Goes items w [] w
  | cons {w w₁ w' : World} {x : Ref} {k : Nat} {t : List (Ref × Nat)} (hx : Gives items w w₁ x k) (ht : Goes items w₁ t w') :
    Goes items w ((x, k) :: t) w'

/-- The items of an id in the list. -/
def ofId (w : World) (itemId : UInt16) (l : List Ref) : List Ref := l.filter fun r => (w.item r).id = itemId

/-- Each item of the list lies somewhere, and may be taken. -/
structure Loose (env : StashEnv) (w : World) (l : List Ref) : Prop where
  nodup : l.Nodup
  parent : ∀ x ∈ l, ∃ c, w.getParent x = some c
  removable : ∀ x ∈ l, Removable env.toMoneyEnv x

theorem ofId_congr (h : ∀ r, (w'.item r).id = (w.item r).id) (itemId : UInt16) (l : List Ref) :
    ofId w' itemId l = ofId w itemId l := by
  unfold ofId
  exact List.filter_congr fun r _ => by rw [h r]

/-- The rest of a list of which the first item went, in any world that has the rest as it was. -/
theorem Loose.tail (h : Loose env w (x :: l)) (hpar : ∀ y ∈ l, w'.getParent y = w.getParent y) : Loose env w' l := by
  refine ⟨(List.nodup_cons.mp h.nodup).2, fun y hy => ?_, fun y hy => h.removable y (List.mem_cons_of_mem x hy)⟩
  rw [hpar y hy]
  exact h.parent y (List.mem_cons_of_mem x hy)

/-- What a loop leaves to take, where it was to take `a` pieces: nothing, or what is more than the list has. -/
def Rests (a : UInt32) (taken has : Nat) : Option UInt32 → Prop
  | none => taken = a.toNat
  | some b => b.toNat + taken = a.toNat ∧ taken = has ∧ (b = 0 → a = 0)

/-- The loop goes on after an item with fewer pieces than are to be taken. -/
theorem Rests.cons {a a' : UInt32} {k taken has : Nat} {res : Option UInt32} (h : Rests a' taken has res)
    (ha : a'.toNat = a.toNat - k) (hk : k < a.toNat) : Rests a (k + taken) (k + has) res := by
  cases res with
  | none =>
    have htaken : taken = a'.toNat := h
    change k + taken = a.toNat
    omega
  | some b =>
    obtain ⟨hsum, hall, hzero⟩ := h
    refine ⟨by omega, by rw [hall], fun hb => ?_⟩
    have hnone : a'.toNat = 0 := by rw [hzero hb]; rfl
    omega

/-- What the loop takes, and what it leaves to take. -/
theorem removeLoop_goes (hw : Carried env.items w) (hs : Slotted w) (hl : Loose env w (ofId w itemId l)) (a : UInt32) :
    let res := removeLoop env itemId l w a
    let t := takes w (ofId w itemId l) a.toNat
    Goes env.items w t res.1 ∧ Rests a (amount t) (counts w (ofId w itemId l)) res.2 := by
  induction l generalizing w a with
  | nil => exact ⟨.nil w, rfl, rfl, id⟩
  | cons x l ih =>
    intro res t
    by_cases hx : (w.item x).id = itemId
    swap
    · have hdrop : ofId w itemId (x :: l) = ofId w itemId l := List.filter_cons_of_neg (by simpa using hx)
      have hres : res = removeLoop env itemId l w a := by
        change removeLoop env itemId (x :: l) w a = _
        conv_lhs => unfold removeLoop
        exact if_pos hx
      have ht : t = takes w (ofId w itemId l) a.toNat := by rw [← hdrop]
      rw [hres, ht, hdrop]
      exact ih hw hs (hdrop ▸ hl) a
    have hkeep : ofId w itemId (x :: l) = x :: ofId w itemId l := List.filter_cons_of_pos (by simpa using hx)
    rw [hkeep] at hl
    have hstep := step_gives hw hs (hl.removable x List.mem_cons_self) (hl.parent x List.mem_cons_self)
      (Nat.min_le_right a.toNat (w.item x).getItemCount)
    have hres : res = _ := removeLoop_cons hx l a
    have ht : t = takes w (x :: ofId w itemId l) a.toNat := by rw [← hkeep]
    unfold takes at ht
    dsimp only at hstep hres ht
    generalize (internalRemoveItem env.toMoneyEnv w x _).1 = w₁ at hstep hres
    rw [hkeep, counts_cons]
    by_cases hle : a.toNat ≤ (w.item x).getItemCount
    · -- the item has all that is left to take
      rw [if_pos hle] at hres
      rw [min_eq_left hle] at hstep ht
      rw [hres]
      dsimp only
      rcases hstep with ⟨hzero, rfl⟩ | ⟨hpos, hgives⟩
      · rw [hzero, if_pos rfl, takes_zero] at ht
        rw [ht]
        exact ⟨.nil _, hzero.symm⟩
      · rw [if_neg hpos.ne', Nat.sub_self, takes_zero] at ht
        rw [ht]
        exact ⟨.cons hgives (.nil _), Nat.add_zero _⟩
    · rw [if_neg hle] at hres
      rw [min_eq_right (Nat.le_of_not_le hle)] at hstep ht
      have hmore := Nat.lt_of_not_le hle
      have hnext : (a - .ofNat (w.item x).getItemCount).toNat = a.toNat - (w.item x).getItemCount := by
        have hc := toNat_itemCount (w.item x)
        rw [UInt32.toNat_sub_of_le _ _ (UInt32.le_iff_toNat_le.mpr (by omega)), hc]
      rcases hstep with ⟨hzero, rfl⟩ | ⟨hpos, hgives⟩
      · -- the item has no pieces
        rw [if_pos hzero] at ht
        have hsame : (a - .ofNat (w₁.item x).getItemCount).toNat = a.toNat := by omega
        obtain ⟨hgoes, hleft⟩ := ih hw hs (hl.tail fun _ _ => rfl) (a - .ofNat (w₁.item x).getItemCount)
        rw [hsame] at hgoes hleft
        have hrests := hleft.cons hnext hmore
        rw [hres, ht]
        exact ⟨hgoes, by simpa only [hzero, Nat.zero_add] using hrests⟩
      · -- the item goes as a whole
        rw [if_neg hpos.ne'] at ht
        have hcuts := hgives.cuts
        have horders := hgives.orders hw
        have hcount : ∀ r, (w₁.item r).getItemCount = (w.item r).getItemCount := fun r =>
          Npc.Gives.count_of_plain (hcuts.plain r)
        have hsame : counts w₁ (ofId w itemId l) = counts w (ofId w itemId l) :=
          congrArg List.sum (List.map_congr_left fun r _ => hcount r)
        have hloose : Loose env w₁ (ofId w₁ itemId l) := by
          rw [ofId_congr hgives.id]
          exact hl.tail fun y hy => hcuts.getParent_of_ne fun h => (List.nodup_cons.mp hl.nodup).1 (h ▸ hy)
        obtain ⟨hgoes, hleft⟩ := ih horders.carried (horders.slotted hs) hloose (a - .ofNat (w₁.item x).getItemCount)
        rw [hcount x, hnext, ofId_congr hgives.id, takes_congr fun r _ => hcount r] at hgoes hleft
        rw [hsame] at hleft
        rw [hres, ht, hcount x]
        exact ⟨.cons hgives hgoes, hleft.cons hnext hmore⟩

/-! ### Stacks -/

theorem pieces_eq_held (w : World) (hst : (items itemId).stackable) (p : PlayerRef) :
    w.pieces p itemId = w.held items (.player p) itemId := by
  refine Finset.sum_congr rfl fun r _ => ?_
  by_cases hid : (w.item r).id = itemId
  · simp [hid, Item.units, Item.part, Item.isStackable, hst]
  · simp [hid, Item.units, Item.part]

/-- Nothing lies in a stack, so that just the pieces are gone. -/
theorem Goes.held {t : List (Ref × Nat)} (h : Goes items w t w') (hst : (items itemId).stackable) (hw : Carried items w)
    (hid : ∀ r ∈ refs t, (w.item r).id = itemId) (hb : ∀ r ∈ refs t, Lib.Below w.holder (.container r) (.player p))
    (hn : (refs t).Nodup) :
    Carried items w' ∧ w'.held items (.player p) itemId + amount t = w.held items (.player p) itemId := by
  induction h with
  | nil w => exact ⟨hw, rfl⟩
  | @cons w w₁ w' x k t hx ht ih =>
    have hxid := hid x List.mem_cons_self
    have hxs : (w.item x).isStackable items := by rwa [Item.isStackable, hxid]
    have hsingle : ¬w.isContainer x := fun hc => by simp [hw.single x hc] at hxs
    have halone := World.not_below_single hw.forest hsingle
    have hstep := hx.held hw halone (hb x List.mem_cons_self) itemId
    rw [if_pos hxid, if_pos hxs] at hstep
    obtain ⟨hfirst, hrest⟩ := List.nodup_cons.mp hn
    obtain ⟨hcarried, hheld⟩ := ih (hx.orders hw).carried
      (fun r hr => (hx.id r).trans (hid r (List.mem_cons_of_mem x hr)))
      (fun r hr => hx.below halone (fun h => hfirst (h ▸ hr)) (hb r (List.mem_cons_of_mem x hr))) hrest
    rw [amount_cons]
    exact ⟨hcarried, by omega⟩

/-! ### Items that do not stack -/

/-- So many items are cut off. -/
structure CutAll (w w' : World) (l : List Ref) : Prop where
  next : w'.next = w.next
  parent : ∀ r, w'.getParent r = if r ∈ l then none else w.getParent r
  plain : ∀ r, (w'.item r).plain = (w.item r).plain

theorem Goes.cutAll {t : List (Ref × Nat)} (h : Goes items w t w') (hns : ¬(items itemId).stackable)
    (hw : Carried items w) (hid : ∀ r ∈ refs t, (w.item r).id = itemId) : Carried items w' ∧ CutAll w w' (refs t) := by
  induction h with
  | nil w => exact ⟨hw, rfl, fun r => (if_neg List.not_mem_nil).symm, fun _ => rfl⟩
  | @cons w w₁ w' x k t hx ht ih =>
    have hxns : ¬(w.item x).isStackable items := by rwa [Item.isStackable, hid x List.mem_cons_self]
    have hcuts : Cuts w w₁ x := by
      rcases hx with ⟨h, -⟩ | ⟨hst, -, -⟩
      · exact h
      · exact absurd hst hxns
    obtain ⟨hcarried, hnext, hparent, hplain⟩ := ih (hx.orders hw).carried
      fun r hr => (hx.id r).trans (hid r (List.mem_cons_of_mem x hr))
    refine ⟨hcarried, hnext.trans hcuts.next, fun r => ?_, fun r => (hplain r).trans (hcuts.plain r)⟩
    rw [hparent, hcuts.parent]
    by_cases hrx : r = x
    · rw [hrx, Function.update_self, ite_self]
      exact (if_pos List.mem_cons_self).symm
    · rw [Function.update_of_ne hrx]
      exact if_congr ⟨List.mem_cons_of_mem x, fun h => (List.mem_cons.mp h).resolve_left hrx⟩ rfl rfl

/-- The player still holds what is not cut off, and lies in nothing that is. -/
theorem CutAll.below_iff (h : CutAll w w' l) (r : Ref) : Lib.Below w'.holder (.container r) (.player p) ↔
    Lib.Below w.holder (.container r) (.player p) ∧ r ∉ l ∧ ∀ x ∈ l, ¬Lib.Below w.getParentContainer r x := by
  classical
  let s : Set Cylinder := {k | ∃ x ∈ l, k = .container x}
  have hholder : w'.holder = fun k => if k ∈ s then none else w.holder k := by
    funext k
    cases k with
    | container r =>
      refine (h.parent r).trans (if_congr ⟨fun hr => ⟨r, hr, rfl⟩, ?_⟩ rfl rfl)
      rintro ⟨x, hx, hk⟩
      cases hk
      exact hx
    | player q => exact (ite_self none).symm
  have hroot : Cylinder.player p ∉ s := by
    rintro ⟨x, -, hk⟩
    exact nomatch hk
  rw [hholder, Lib.below_cutAll_iff rfl hroot]
  refine and_congr_right fun _ => and_congr ?_ ⟨fun hs x hx hb => ?_, fun hl k hk hb => ?_⟩
  · refine not_congr ⟨?_, fun hr => ⟨r, hr, rfl⟩⟩
    rintro ⟨x, hx, hk⟩
    cases hk
    exact hx
  · exact hs _ ⟨x, hx, rfl⟩ (World.below_holder_of_below hb)
  · obtain ⟨x, hx, rfl⟩ := hk
    exact hl x hx (World.below_container hb)

open Classical in
theorem pieces_eq (hw : w.Forest) (p : PlayerRef) (itemId : UInt16) : w.pieces p itemId = ∑ r ∈ Finset.range w.next,
    if Lib.Below w.holder (.container r) (.player p) ∧ (w.item r).id = itemId then (w.item r).getItemCount else 0 :=
  Finset.sum_congr rfl fun r _ => if_congr (and_congr_left fun _ => World.heldLoop_iff (hw.ends r)) rfl rfl

/-- What is not taken of the items, and what they are asked for. -/
theorem sum_counts {t : List (Ref × Nat)} (h : ∀ e ∈ t, e.2 ≤ (w.item e.1).getItemCount) :
    ((refs t).map fun r => (w.item r).getItemCount).sum =
      amount t + (t.map fun e => (w.item e.1).getItemCount - e.2).sum := by
  induction t with
  | nil => rfl
  | cons e t ih =>
    have hfirst := h e List.mem_cons_self
    have hrest := ih fun e he => h e (List.mem_cons_of_mem _ he)
    rw [refs, List.map_cons, List.map_cons, List.sum_cons, ← refs, hrest, List.map_cons, List.sum_cons, amount_cons]
    omega

/-- All that is taken was asked for: no more pieces of an item, and none that lie in it. -/
def Asked (w : World) (itemId : UInt16) (t : List (Ref × Nat)) : Prop :=
  ∀ e ∈ t, e.2 = (w.item e.1).getItemCount ∧
    ∀ y, (w.item y).id = itemId → Lib.Below w.getParentContainer y e.1 → y ∈ refs t ∨ (w.item y).getItemCount = 0

theorem CutAll.pieces_iff {t : List (Ref × Nat)} (h : CutAll w w' (refs t)) (hw : Carried items w) (hw' : w'.Forest)
    (hid : ∀ r ∈ refs t, (w.item r).id = itemId) (hb : ∀ r ∈ refs t, Lib.Below w.holder (.container r) (.player p))
    (hn : (refs t).Nodup) (hle : ∀ e ∈ t, e.2 ≤ (w.item e.1).getItemCount) :
    w'.pieces p itemId + amount t = w.pieces p itemId ↔ Asked w itemId t := by
  classical
  let held := fun r => Lib.Below w.holder (.container r) (.player p) ∧ (w.item r).id = itemId
  let gone := fun r => r ∈ refs t ∨ ∃ x ∈ refs t, Lib.Below w.getParentContainer r x
  let count := fun r => (w.item r).getItemCount
  have hbefore : w.pieces p itemId = ∑ r ∈ Finset.range w.next, if held r then count r else 0 := pieces_eq hw.forest p itemId
  have hafter : w'.pieces p itemId = ∑ r ∈ Finset.range w.next, if held r ∧ ¬gone r then count r else 0 := by
    rw [pieces_eq hw', h.next]
    refine Finset.sum_congr rfl fun r _ => ?_
    have hsame := congrArg Item.id (h.plain r)
    have hsame : (w'.item r).id = (w.item r).id := hsame
    rw [Npc.Gives.count_of_plain (h.plain r), hsame]
    refine if_congr ?_ rfl rfl
    rw [h.below_iff]
    simp only [held, gone, not_or, not_exists, not_and]
    exact and_right_comm
  have hsplit : ∑ r ∈ Finset.range w.next, (if held r then count r else 0) =
      (∑ r ∈ Finset.range w.next, if held r ∧ ¬gone r then count r else 0) +
        ∑ r ∈ Finset.range w.next, if held r ∧ gone r then count r else 0 := by
    rw [← Finset.sum_add_distrib]
    refine Finset.sum_congr rfl fun r _ => ?_
    by_cases hg : gone r <;> simp [hg]
  have hsub : (refs t).toFinset ⊆ Finset.range w.next := fun r hr => by
    obtain ⟨k, hk, -⟩ := Lib.below_cases (hb r (List.mem_toFinset.mp hr))
    exact Finset.mem_range.mpr (hw.made r k hk)
  have htaken : ∑ r ∈ (refs t).toFinset, (if held r ∧ gone r then count r else 0) =
      amount t + (t.map fun e => (w.item e.1).getItemCount - e.2).sum := by
    rw [← sum_counts hle, ← List.sum_toFinset _ hn]
    refine Finset.sum_congr rfl fun r hr => if_pos ?_
    have hr := List.mem_toFinset.mp hr
    exact ⟨⟨hb r hr, hid r hr⟩, .inl hr⟩
  have hlost : (∑ r ∈ Finset.range w.next \ (refs t).toFinset, if held r ∧ gone r then count r else 0) +
      (amount t + (t.map fun e => (w.item e.1).getItemCount - e.2).sum) =
      ∑ r ∈ Finset.range w.next, if held r ∧ gone r then count r else 0 := by
    rw [← htaken]
    exact Finset.sum_sdiff hsub
  have hzero : (t.map fun e => (w.item e.1).getItemCount - e.2).sum = 0 ∧
      ∑ r ∈ Finset.range w.next \ (refs t).toFinset, (if held r ∧ gone r then count r else 0) = 0 ↔ Asked w itemId t := by
    rw [List.sum_eq_zero_iff_forall_eq_nat, Finset.sum_eq_zero_iff]
    constructor
    · rintro ⟨hexcess, hnested⟩ e he
      have hmem : e.1 ∈ refs t := List.mem_map_of_mem he
      refine ⟨?_, fun y hy hye => ?_⟩
      · have := hexcess _ (List.mem_map_of_mem he)
        have := hle e he
        omega
      · by_cases hyt : y ∈ refs t
        · exact Or.inl hyt
        have hheld : held y := ⟨(World.below_holder_of_below hye).trans (hb e.1 hmem), hy⟩
        have hyn := Lib.below_cases hheld.1
        obtain ⟨k, hk, -⟩ := hyn
        have := hnested y (Finset.mem_sdiff.mpr ⟨Finset.mem_range.mpr (hw.made y k hk), by simpa using hyt⟩)
        rw [if_pos ⟨hheld, .inr ⟨e.1, hmem, hye⟩⟩] at this
        exact Or.inr this
    · intro hasked
      refine ⟨fun k hk => ?_, fun y hy => ?_⟩
      · obtain ⟨e, he, rfl⟩ := List.mem_map.mp hk
        rw [(hasked e he).1, Nat.sub_self]
      · have hyt : y ∉ refs t := by simpa using (Finset.mem_sdiff.mp hy).2
        by_cases hg : held y ∧ gone y
        · obtain ⟨⟨-, hyid⟩, hyt' | ⟨x, hx, hyx⟩⟩ := hg
          · exact absurd hyt' hyt
          · obtain ⟨e, he, rfl⟩ := List.mem_map.mp hx
            rcases (hasked e he).2 y hyid hyx with h | h
            · exact absurd h hyt
            · rw [show count y = 0 from h, ite_self]
        · exact if_neg hg
  rw [← hzero, hbefore, hafter, hsplit, ← hlost]
  omega

/-! ### The call -/

theorem ofId_inventoryItems (env : Env) (w : World) (p : PlayerRef) (itemId : UInt16) :
    ofId w itemId (Player.getAllInventoryItems env w p) = Player.getInventoryItemsFromId env w p itemId false := by
  unfold ofId Player.getAllInventoryItems Player.getInventoryItemsFromId
  rw [List.filter_flatMap]
  refine List.flatMap_congr fun d _ => ?_
  rw [List.filter_cons]
  by_cases hid : (w.item d).id = itemId <;> by_cases hc : w.isContainer d <;> simp [hid, hc]

variable {s s' : StashState} {itemAmount : UInt32} {removeFromStash : Bool}

/-- What the loop goes over, as far as it has the id. -/
def listed (env : StashEnv) (w : World) (p : PlayerRef) (itemId : UInt16) : List Ref :=
  ofId w itemId (Player.getAllInventoryItems env.toEnv w p)

/-- So many pieces are gone, or nothing happened. -/
structure AllOrNothing (s s' : StashState) (ok : Bool) (p : PlayerRef) (itemId : UInt16) (n : Nat) : Prop where
  removed : ok = true → s'.pieces p itemId + n = s.pieces p itemId
  unchanged : ok = false → s' = s

/-- There is as much as the check says, though it counts in 32 bits. -/
theorem enough_of_has (h : hasItemCountById env s p itemId itemAmount removeFromStash = true) :
    itemAmount.toNat ≤ counts s.world (listed env s.world p itemId) +
      if removeFromStash then ((s.stashItems itemId).getD 0).toNat else 0 := by
  have hsum : ∀ l : List Ref, ((l.map fun r => UInt32.ofNat (s.world.item r).getItemCount).sum).toNat ≤ counts s.world l :=
    fun l => by
      rw [Lib.toNat_sum_uint32, List.map_map]
      exact (Nat.mod_le ..).trans_eq (congrArg List.sum (List.map_congr_left fun r _ => toNat_itemCount _))
  have hge := UInt32.le_iff_toNat_le.mp (of_decide_eq_true h)
  refine hge.trans ?_
  cases removeFromStash with
  | false => exact hsum _
  | true =>
    rw [if_pos rfl, if_pos rfl, UInt32.toNat_add]
    exact (Nat.mod_le ..).trans (Nat.add_le_add_right (hsum _) _)

/-- What is left to take comes out of the stash. -/
theorem withdrawItem_of_le {st : UInt16 → Option UInt32} {n : UInt32} (hpos : 0 < n.toNat)
    (hle : n.toNat ≤ ((st itemId).getD 0).toNat) : ∃ st', withdrawItem st itemId n = some st' := by
  unfold withdrawItem
  cases hst : st itemId with
  | none =>
    rw [hst] at hle
    exact absurd hpos (not_lt.mpr hle)
  | some m =>
    rw [hst] at hle
    dsimp only
    by_cases hgt : m > n
    · exact ⟨_, if_pos hgt⟩
    · have heq : m = n := UInt32.le_antisymm (UInt32.not_lt.mp hgt) (UInt32.le_iff_toNat_le.mpr hle)
      exact ⟨_, (if_neg hgt).trans (if_pos heq)⟩

/-- What the loop does to the pieces of the player. -/
theorem pieces_removeLoop (hw : Carried env.items w) (hs : Slotted w)
    (hrem : ∀ r, (w.item r).id = itemId → Lib.Below w.holder (.container r) (.player p) → Removable env.toMoneyEnv r)
    (a : UInt32) :
    let res := removeLoop env itemId (Player.getAllInventoryItems env.toEnv w p) w a
    let t := takes w (listed env w p itemId) a.toNat
    (res.1.pieces p itemId + amount t = w.pieces p itemId ↔ (¬(env.items itemId).stackable → Asked w itemId t)) ∧
      (amount t = 0 → res.1 = w) ∧ Rests a (amount t) (counts w (listed env w p itemId)) res.2 := by
  intro res t
  have hlist : listed env w p itemId = Player.getInventoryItemsFromId env.toEnv w p itemId false :=
    ofId_inventoryItems env.toEnv w p itemId
  have hmem : ∀ r ∈ listed env w p itemId, (w.item r).id = itemId ∧ Lib.Below w.holder (.container r) (.player p) :=
    fun r hr => Player.mem_inventoryItems hw hs (hlist ▸ hr)
  have hnodup : (listed env w p itemId).Nodup := by
    rw [hlist]
    exact (Player.inventoryItems_pairwise env.toEnv hw hs p itemId false).imp fun h => h.1
  have hloose : Loose env w (listed env w p itemId) := by
    refine ⟨hnodup, fun r hr => ?_, fun r hr => hrem r (hmem r hr).1 (hmem r hr).2⟩
    obtain ⟨k, hk, -⟩ := Lib.below_cases (hmem r hr).2
    exact ⟨k, hk⟩
  obtain ⟨hgoes, hleft⟩ : Goes env.items w t res.1 ∧ _ := removeLoop_goes hw hs hloose a
  have hsub : (refs t).Sublist (listed env w p itemId) := refs_sublist w _ _
  have hid : ∀ r ∈ refs t, (w.item r).id = itemId := fun r hr => (hmem r (hsub.subset hr)).1
  have hb : ∀ r ∈ refs t, Lib.Below w.holder (.container r) (.player p) := fun r hr => (hmem r (hsub.subset hr)).2
  refine ⟨?_, fun hzero => ?_, hleft⟩
  · by_cases hst : (env.items itemId).stackable
    · obtain ⟨-, hheld⟩ := hgoes.held hst hw hid hb (hsub.nodup hnodup)
      rw [pieces_eq_held _ hst, pieces_eq_held _ hst]
      exact iff_of_true hheld fun hns => absurd hst hns
    · obtain ⟨hcarried, hcut⟩ := hgoes.cutAll hst hw hid
      rw [hcut.pieces_iff hw hcarried.forest hid hb (hsub.nodup hnodup) fun e he => (mem_takes he).2.2]
      exact ⟨fun h _ => h, fun h => h hst⟩
  · have hnil : t = [] := by
      cases ht : t with
      | nil => rfl
      | cons e t' =>
        have hpos := (mem_takes (ht ▸ List.mem_cons_self : e ∈ t)).2.1
        rw [ht, amount_cons] at hzero
        omega
    rw [hnil] at hgoes
    generalize res.1 = v at hgoes
    cases hgoes
    rfl

/-- The call takes just what it is asked for, or nothing, unless pieces that were not asked for go along with what is
    taken. -/
theorem removeItemCountById_exact_iff (hw : Carried env.items s.world) (hs : Slotted s.world)
    (hrem : ∀ r, (s.world.item r).id = itemId → Lib.Below s.world.holder (.container r) (.player p) →
      Removable env.toMoneyEnv r) :
    let res := removeItemCountById env s p itemId itemAmount removeFromStash
    AllOrNothing s res.1 res.2 p itemId itemAmount.toNat ↔
      (hasItemCountById env s p itemId itemAmount removeFromStash = true → ¬(env.items itemId).stackable →
        Asked s.world itemId (takes s.world (listed env s.world p itemId) itemAmount.toNat)) := by
  intro res
  have hres : res = removeItemCountById env s p itemId itemAmount removeFromStash := rfl
  unfold removeItemCountById at hres
  by_cases hhas : hasItemCountById env s p itemId itemAmount removeFromStash = true
  swap
  · rw [if_pos (by simpa using hhas)] at hres
    rw [hres]
    exact iff_of_true ⟨nofun, fun _ => rfl⟩ fun h => absurd h hhas
  rw [if_neg (by simpa using hhas)] at hres
  obtain ⟨hpieces, hnone, hleft⟩ := pieces_removeLoop hw hs hrem itemAmount
  have henough := enough_of_has hhas
  have hexact : ∀ s', (s'.pieces p itemId + itemAmount.toNat = s.pieces p itemId ↔ (¬(env.items itemId).stackable →
      Asked s.world itemId (takes s.world (listed env s.world p itemId) itemAmount.toNat))) →
      (AllOrNothing s s' true p itemId itemAmount.toNat ↔ (hasItemCountById env s p itemId itemAmount removeFromStash = true →
        ¬(env.items itemId).stackable →
          Asked s.world itemId (takes s.world (listed env s.world p itemId) itemAmount.toNat))) :=
    fun s' h => ⟨fun h' _ => h.mp (h'.removed rfl), fun h' => ⟨fun _ => h.mpr (h' hhas), nofun⟩⟩
  revert hres hleft hpieces hnone
  rcases removeLoop env itemId (Player.getAllInventoryItems env.toEnv s.world p) s.world itemAmount with ⟨w', _ | b⟩
  · intro hres hpieces _ hamount
    rw [hres]
    have hamount : amount _ = itemAmount.toNat := hamount
    refine hexact _ (Iff.trans ?_ hpieces)
    unfold StashState.pieces
    dsimp only
    omega
  · rintro hres hpieces hnone ⟨hsum, hall, hzero⟩
    by_cases hstash : removeFromStash ∧ b > 0
    · have hpos : 0 < b.toNat := UInt32.lt_iff_toNat_lt.mp hstash.2
      rw [if_pos hstash.1] at henough
      have hle : b.toNat ≤ ((s.stashItems itemId).getD 0).toNat := by omega
      obtain ⟨st, hst⟩ := withdrawItem_of_le hpos hle
      dsimp only at hres
      rw [if_pos hstash, hst] at hres
      rw [hres]
      have hspec := withdrawItem_spec hst itemId
      rw [if_pos rfl] at hspec
      refine hexact _ (Iff.trans ?_ hpieces)
      unfold StashState.pieces
      dsimp only
      omega
    · -- nothing was asked for
      have hb : b.toNat = 0 := by
        rcases not_and_or.mp hstash with h | h
        · rw [if_neg h] at henough
          omega
        · exact Nat.eq_zero_of_not_pos fun h' => h (UInt32.lt_iff_toNat_lt.mpr h')
      have ha := hzero (UInt32.toNat_inj.mp hb)
      have hnothing : itemAmount.toNat = 0 := by
        rw [ha]
        rfl
      have hamount : amount (takes s.world (listed env s.world p itemId) itemAmount.toNat) = 0 := by omega
      dsimp only at hres
      rw [if_neg hstash, show w' = s.world from hnone hamount] at hres
      rw [hres]
      refine iff_of_true ⟨nofun, fun _ => rfl⟩ fun _ _ => ?_
      rw [hnothing, takes_zero]
      exact nofun

/-- All 50 pieces in the backpack are taken, and 30 of the stash. -/
theorem removeItemCountById_backpack :
    let res := removeItemCountById backpackEnv backpackState 0 268 80 true
    AllOrNothing backpackState res.1 res.2 0 268 80 ↔
      (hasItemCountById backpackEnv backpackState 0 268 80 true = true → ¬(backpackEnv.items 268).stackable →
        Asked backpackState.world 268 (takes backpackState.world (listed backpackEnv backpackState.world 0 268) 80)) :=
  removeItemCountById_exact_iff backpackState_carried backpackState_slotted fun _ _ _ => ⟨rfl, Bool.false_ne_true⟩

/-! ### A backpack in a backpack -/

/-- The player has an empty backpack in the one that he wears. -/
def nestedState : StashState where
  world :=
    { backpackState.world with
      item := Function.update backpackState.world.item 1
        ⟨2853, 1, none, some (.container 0), some ⟨2000, 8, 0, [], true, false, false⟩⟩ }
  stashItems _ := none

theorem nestedState_same {α : Type} (f : Item → α)
    (h : f (nestedState.world.item 1) = f (backpackState.world.item 1)) (r : Ref) :
    f (nestedState.world.item r) = f (backpackState.world.item r) := by
  by_cases hr : r = 1
  · rw [hr, h]
  · exact congrArg f (Function.update_of_ne hr _ _)

theorem nestedState_parent : nestedState.world.getParent = backpackState.world.getParent :=
  funext (nestedState_same Item.m_parent rfl)

theorem nestedState_container : nestedState.world.getParentContainer = backpackState.world.getParentContainer := by
  funext r
  rw [World.getParentContainer, nestedState_parent, World.getParentContainer]

theorem nestedState_itemlist : nestedState.world.itemlist = backpackState.world.itemlist :=
  funext (nestedState_same Item.getItemList rfl)

theorem nestedState_carried : Carried backpackEnv.items nestedState.world where
  forest.lists := by
    rw [nestedState_container, nestedState_itemlist]
    exact backpackState_carried.forest.lists
  forest.acyclic := by
    rw [nestedState_container]
    exact backpackState_carried.forest.acyclic
  forest.made := by
    rw [nestedState_container]
    exact backpackState_carried.forest.made
  single r hr := by
    match r with
    | 0 | 1 => rfl
    | _ + 2 => exact nomatch hr
  slots p s r h := by
    rw [nestedState_parent]
    exact backpackState_carried.slots p s r h
  made r k h := by
    rw [nestedState_parent] at h
    exact backpackState_carried.made r k h

theorem nestedState_slotted : Slotted nestedState.world where
  slot p r h := by
    rw [nestedState_parent] at h
    exact backpackState_slotted.slot p r h
  once := backpackState_slotted.once

/-- One backpack is to go, and both do. -/
theorem not_removes_exactly : ¬∀ (env : StashEnv) (s : StashState) (p : PlayerRef) (itemId : UInt16) (itemAmount : UInt32)
    (removeFromStash : Bool), Carried env.items s.world → Slotted s.world →
    (∀ r, (s.world.item r).id = itemId → Lib.Below s.world.holder (.container r) (.player p) →
      Removable env.toMoneyEnv r) →
    AllOrNothing s (removeItemCountById env s p itemId itemAmount removeFromStash).1
      (removeItemCountById env s p itemId itemAmount removeFromStash).2 p itemId itemAmount.toNat := by
  intro h
  have hexact := h backpackEnv nestedState 0 2853 1 false nestedState_carried nestedState_slotted
    fun _ _ _ => ⟨rfl, Bool.false_ne_true⟩
  have hremoved := hexact.removed (by decide +kernel)
  have hafter : (removeItemCountById backpackEnv nestedState 0 2853 1 false).1.pieces 0 2853 = 0 := by decide +kernel
  have hbefore : nestedState.pieces 0 2853 = 2 := by decide +kernel
  rw [hafter, hbefore] at hremoved
  exact absurd hremoved (by decide)

end Stash
end CrystalServer
