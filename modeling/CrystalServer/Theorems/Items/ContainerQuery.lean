import CrystalServer.Items.ContainerQuery
import CrystalServer.Theorems.Items.Units

/-! # Containers: what the queries say

An item that `queryAdd` lets in is not the container, nor above it. `queryDestination` stays at the container
with one of its items, or it leads to another container, above or inside. -/

namespace CrystalServer
namespace Container
variable {env : Env} {w : World} {this item : Ref}

/-! ### May it come in, or out -/

theorem queryAddParents_noerror {noLimit : Bool} {n : Nat} {c : Ref} (hc : Lib.Ends w.getParentContainer n c)
    (h : queryAddParents w item noLimit n (w.getParent c) = .NOERROR) : ¬Lib.Below w.getParentContainer c item := by
  induction n generalizing c with
  | zero =>
    intro hb
    obtain ⟨p, hcp, -⟩ := Lib.below_cases hb
    have hc : w.getParentContainer c = none := hc
    rw [hc] at hcp
    exact nomatch hcp
  | succ n ih =>
    intro hb
    obtain ⟨p, hcp, hpi⟩ := Lib.below_cases hb
    rw [World.getParent_of_getParentContainer hcp, queryAddParents] at h
    split_ifs at h with h₁ h₂ h₃
    rcases hpi with hpi | hpi
    · exact h₁ hpi
    · exact ih (hc p hcp) h hpi

/-- An item that may be added is not the container, nor above it. -/
theorem queryAdd_noerror {addIndex : Int} {addCount : UInt32} (hw : Lib.Ends w.getParentContainer w.next this)
    (h : queryAdd env w this addIndex item addCount 0 = .NOERROR) :
    item ≠ this ∧ ¬Lib.Below w.getParentContainer this item := by
  unfold queryAdd at h
  dsimp only at h
  rw [if_neg (by decide)] at h
  split at h
  · exact nomatch h
  split at h
  · exact nomatch h
  split at h
  · exact nomatch h
  rename_i hne
  split at h
  · exact nomatch h
  split at h
  · rename_i hpar
    exact absurd h hpar
  rename_i hpar
  exact ⟨hne, queryAddParents_noerror hw (not_not.mp hpar)⟩

theorem queryAddParents_ne_needexchange (item : Ref) (noLimit : Bool) (n : Nat) (c : Option Cylinder) :
    queryAddParents w item noLimit n c ≠ .NEEDEXCHANGE := by
  induction n generalizing c with
  | zero => exact nofun
  | succ n ih =>
    match c with
    | none => exact nofun
    | some (.player p) => exact nofun
    | some (.container c) =>
      rw [queryAddParents]
      split_ifs
      · exact nofun
      · exact nofun
      · exact nofun
      · exact ih _

/-- A player that is asked by a container answers with an owner, the capacity or no error. -/
theorem player_queryAdd_child {p : PlayerRef} {index : Int} {count : UInt32} :
    Player.queryAdd env w p index item count (0 ||| FLAG_CHILDISOWNER) ≠ .NEEDEXCHANGE := by
  unfold Player.queryAdd
  rw [if_pos (by decide : hasBitSet FLAG_CHILDISOWNER (0 ||| FLAG_CHILDISOWNER) = true)]
  split
  · exact nofun
  split
  · exact nofun
  · exact nofun

theorem queryAdd_ne_needexchange {addIndex : Int} {addCount : UInt32} :
    queryAdd env w this addIndex item addCount 0 ≠ .NEEDEXCHANGE := by
  unfold queryAdd
  dsimp only
  rw [if_neg (by decide)]
  split
  · exact nofun
  split
  · exact nofun
  split
  · exact nofun
  split
  · exact nofun
  split
  · exact queryAddParents_ne_needexchange item _ _ _
  split
  · exact nofun
  split
  · exact nofun
  split
  · exact nofun
  split
  · exact player_queryAdd_child
  · exact nofun

theorem queryRemove_noerror {count flags : UInt32} (h : queryRemove env w this item count flags = .NOERROR) :
    item ∈ w.itemlist this ∧ 0 < count.toNat ∧
      ((w.item item).isStackable env.items → count.toNat ≤ (w.item item).getItemCount) := by
  unfold queryRemove at h
  split at h
  · exact nomatch h
  rename_i hmem
  split at h
  · exact nomatch h
  rename_i hcount
  obtain ⟨h0, hle⟩ := not_or.mp hcount
  refine ⟨not_not.mp hmem, ?_, fun hs => not_lt.mp fun hlt => hle ⟨hs, hlt⟩⟩
  exact Nat.pos_of_ne_zero fun hz => h0 (UInt32.toNat_inj.mp hz)

/-! ### Where the queries lead -/

theorem destItem_queryDestinationStack {index : Int} {destItem : Option Ref} {flags : UInt32} {t : Ref}
    (hd : ∀ t, destItem = some t → t ∈ w.itemlist this)
    (h : (queryDestinationStack env w this index item destItem flags).destItem = some t) : t ∈ w.itemlist this := by
  unfold queryDestinationStack at h
  dsimp only at h
  split at h
  · split at h
    · exact hd t h
    split at h
    · exact List.mem_of_getElem? h
    · exact hd t h
  · exact hd t h

theorem cylinder_queryDestinationStack {index : Int} {destItem : Option Ref} {flags : UInt32} :
    (queryDestinationStack env w this index item destItem flags).cylinder = this := by
  unfold queryDestinationStack
  dsimp only
  split_ifs
  · rfl
  · split <;> rfl
  · rfl

theorem getItemByIndex_mem {index : Int} {t : Ref} (h : getItemByIndex w this index = some t) : t ∈ w.itemlist this := by
  unfold getItemByIndex at h
  split_ifs at h
  exact List.mem_of_getElem? h

/-- Where `queryDestination` leads from a container: it stays and picks one of its items, or it goes to another
    container, above or inside, with no item. -/
theorem queryDestination_cases (env : Env) (w : World) (this : Ref) (index : Int) (item : Ref) (flags : UInt32) :
    let d := queryDestination env w this index item none flags
    (d.cylinder = this ∧ ∀ t, d.destItem = some t → t ∈ w.itemlist this) ∨
      d.destItem = none ∧
        (w.getParentContainer this = some d.cylinder ∨ d.cylinder ∈ w.itemlist this ∧ w.isContainer d.cylinder) := by
  have stack : ∀ {index : Int} {destItem : Option Ref}, (∀ t, destItem = some t → t ∈ w.itemlist this) →
      (queryDestinationStack env w this index item destItem flags).cylinder = this ∧
        ∀ t, (queryDestinationStack env w this index item destItem flags).destItem = some t → t ∈ w.itemlist this :=
    fun hd => ⟨cylinder_queryDestinationStack, fun t => destItem_queryDestinationStack hd⟩
  unfold queryDestination
  simp only [ite_self, Option.or_none]
  split
  · exact .inl ⟨rfl, nofun⟩
  split
  · cases hp : w.getParentContainer this with
    | none => exact .inl ⟨rfl, nofun⟩
    | some p => exact .inr ⟨rfl, .inl rfl⟩
  generalize (if index = 255 ∨ index ≥ ((capacity w this).toNat : Int) ∧ (!hasPagination w this) = true then
    INDEX_WHEREEVER else index) = index'
  split
  · split
    · rename_i sub hsub
      have hmem := getItemByIndex_mem hsub
      split
      · rename_i hc
        exact .inr ⟨rfl, .inr ⟨hmem, hc⟩⟩
      · exact .inl (stack fun t ht => by rwa [← Option.some.inj (hsub.symm.trans ht)])
    · rename_i hsub
      exact .inl (stack fun t ht => nomatch hsub.symm.trans ht)
  · exact .inl (stack nofun)

end Container

end CrystalServer
