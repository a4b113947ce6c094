import CrystalServer.Theorems.Items.Tile

/-! # Tiles: flags

A flag of the tile stands for an item on it. Some flags are reset with one item while another one still has their
cause, and a ground that is put over another leaves the flags of the old one. -/

namespace CrystalServer

/-- `resetTileFlags` does not look at the other items. -/
def TileFlag.blind (flag : TileFlag) : Bool :=
  match flag.cause with
  | .inl .SUPPORTHANGABLE => true
  | .inl _ => false
  | .inr _ => true

namespace TileWorld

variable {env : TileEnv} {w w' w₁ : TileWorld} {r old x : Ref} {flag : TileFlag}

/-- The flags are those of the items on the tile. -/
def Exact (env : TileEnv) (w : TileWorld) : Prop :=
  ∀ flag, w.flags flag = true ↔ ∃ x ∈ w.present, w.gives env x flag = true

/-- The flag goes with the item, though another item has its cause. -/
def Clears (env : TileEnv) (w : TileWorld) (old : Ref) (flag : TileFlag) : Prop :=
  flag.blind = true ∧ w.gives env old flag = true ∧ ∃ x ∈ w.present, x ≠ old ∧ w.gives env x flag = true

/-! ### What an item gives -/

theorem gives_of_item (h : w'.item x = w.item x) (flag : TileFlag) : w'.gives env x flag = w.gives env x flag := by
  unfold gives
  rw [h]

theorem gives_modify_of_ne (h : x ≠ r) (f : Item → Item) (flag : TileFlag) :
    (w.modify r f).gives env x flag = w.gives env x flag :=
  gives_of_item (Function.update_of_ne h ..) flag

theorem hasProperty_setItemCount (items : UInt16 → TileItemType) (item : Item) (n : Nat) (prop : ItemProperty) :
    (item.setItemCount n).hasProperty items prop = item.hasProperty items prop := by
  cases prop <;> rfl

theorem gives_setItemCount (n : Nat) (flag : TileFlag) :
    (w.modify r (·.setItemCount n)).gives env x flag = w.gives env x flag := by
  by_cases h : x = r
  · subst h
    simp only [gives, modify, Function.update_self, hasProperty_setItemCount]
  · exact gives_modify_of_ne h _ flag

/-- The other items that `resetTileFlags` finds are those on the tile. -/
theorem mayReset_iff : w.mayReset env r flag = true ↔
    flag.blind = true ∨ ¬∃ x ∈ w.present, x ≠ r ∧ w.gives env x flag = true := by
  have hprop : ∀ prop, w.hasProperty env r prop = true ↔
      ∃ x ∈ w.present, x ≠ r ∧ (w.item x).hasProperty env.items prop = true := by
    intro prop
    simp only [hasProperty, Bool.or_eq_true, Option.any_eq_true, List.any_eq_true, decide_eq_true_eq, mem_present]
    constructor
    · rintro (⟨g, hg, hne, hp⟩ | ⟨x, hx, hne, hp⟩)
      · exact ⟨g, .inl hg, Ne.symm hne, hp⟩
      · exact ⟨x, .inr hx, hne, hp⟩
    · rintro ⟨x, hx | hx, hne, hp⟩
      · exact .inl ⟨x, hx, Ne.symm hne, hp⟩
      · exact .inr ⟨x, hx, hne, hp⟩
  have hnot : ∀ prop, (!w.hasProperty env r prop) = true ↔
      false = true ∨ ¬∃ x ∈ w.present, x ≠ r ∧ (w.item x).hasProperty env.items prop = true := by
    intro prop
    rw [Bool.not_eq_true', ← Bool.not_eq_true, hprop]
    simp only [Bool.false_eq_true, false_or]
  unfold mayReset TileFlag.blind gives
  rcases flag.cause with prop | c
  · cases prop with
    | SUPPORTHANGABLE => exact iff_of_true rfl (.inl rfl)
    | _ => exact hnot _
  · exact iff_of_true rfl (.inl rfl)

/-! ### One item for another -/

/-- A flag is reset with the old item, or set with the new one. -/
theorem flag_swap_iff {old others new kept flag flag' blind : Prop} (hflag : flag ↔ old ∨ others)
    (hflag' : flag' ↔ flag ∧ ¬(old ∧ (blind ∨ ¬kept)) ∨ new) (hkept : others → kept) (hkept' : kept → others ∨ new) :
    (flag' ↔ new ∨ others) ↔ (blind ∧ old ∧ others → new) := by
  tauto

theorem clears_iff {rest : List Ref} (hp : w.present.Perm (old :: rest)) (hn : old ∉ rest) :
    Clears env w old flag ↔ flag.blind = true ∧ w.gives env old flag = true ∧ ∃ x ∈ rest, w.gives env x flag = true := by
  refine and_congr_right fun _ => and_congr_right fun _ => ?_
  constructor
  · rintro ⟨x, hx, hne, hg⟩
    exact ⟨x, (List.mem_cons.mp (hp.mem_iff.mp hx)).resolve_left hne, hg⟩
  · rintro ⟨x, hx, hg⟩
    exact ⟨x, hp.mem_iff.mpr (List.mem_cons_of_mem _ hx), fun h => hn (h ▸ hx), hg⟩

theorem exists_mem_perm_cons {l rest : List Ref} {p : Ref → Prop} (hp : l.Perm (r :: rest)) :
    (∃ x ∈ l, p x) ↔ p r ∨ ∃ x ∈ rest, p x := by
  simp [hp.mem_iff]

/-- The flags after an item has come in the place of another. -/
theorem exact_swap_iff {rest : List Ref} {kept : TileFlag → Prop} (hex : Exact env w)
    (hp : w.present.Perm (old :: rest)) (hn : old ∉ rest) (hp' : w'.present.Perm (r :: rest))
    (hrest : ∀ x ∈ rest, ∀ flag, w'.gives env x flag = w.gives env x flag)
    (hflags : ∀ flag, w'.flags flag = true ↔
      w.flags flag = true ∧ ¬(w.gives env old flag = true ∧ (flag.blind = true ∨ ¬kept flag)) ∨
        w'.gives env r flag = true)
    (hkept : ∀ flag, (∃ x ∈ rest, w.gives env x flag = true) → kept flag)
    (hkept' : ∀ flag, kept flag → (∃ x ∈ rest, w.gives env x flag = true) ∨ w'.gives env r flag = true) :
    Exact env w' ↔ ∀ flag, Clears env w old flag → w'.gives env r flag = true := by
  refine forall_congr' fun flag => ?_
  have hothers : (∃ x ∈ rest, w'.gives env x flag = true) ↔ ∃ x ∈ rest, w.gives env x flag = true :=
    exists_congr fun x => and_congr_right fun hx => by rw [hrest x hx flag]
  rw [exists_mem_perm_cons hp', hothers, clears_iff hp hn]
  exact flag_swap_iff ((hex flag).trans (exists_mem_perm_cons hp)) (hflags flag) (hkept flag) (hkept' flag)

theorem and_not_iff {a b c : Bool} : (a && !(b && c)) = true ↔ a = true ∧ ¬(b = true ∧ c = true) := by
  rw [Bool.and_eq_true, Bool.not_eq_true', ← Bool.not_eq_true, Bool.and_eq_true]

/-- What `Takes` says of a flag. -/
theorem Takes.flag_iff (h : Takes env old w w') (hs : Sound w) (flag : TileFlag) : w'.flags flag = true ↔
    w.flags flag = true ∧ ¬(w.gives env old flag = true ∧
      (flag.blind = true ∨ ¬∃ x ∈ w'.present, w.gives env x flag = true)) := by
  have hn : old ∉ w'.present := (List.nodup_cons.mp (h.present.nodup_iff.mp hs.nodup)).1
  have hothers : (∃ x ∈ w'.present, x ≠ old ∧ w'.gives env x flag = true) ↔ ∃ x ∈ w'.present, w.gives env x flag = true := by
    refine exists_congr fun x => and_congr_right fun hx => ?_
    rw [gives_of_item (congrFun h.item x)]
    exact and_iff_right fun heq => hn (heq ▸ hx)
  rw [h.flags, and_not_iff, ← hothers, mayReset_iff]

/-- The flags after an item has gone. -/
theorem exact_takes_iff (hex : Exact env w) (hs : Sound w) (h : Takes env old w w') :
    Exact env w' ↔ ∀ flag, ¬Clears env w old flag := by
  have hn : old ∉ w'.present := (List.nodup_cons.mp (h.present.nodup_iff.mp hs.nodup)).1
  refine forall_congr' fun flag => ?_
  have hothers : (∃ x ∈ w'.present, w'.gives env x flag = true) ↔ ∃ x ∈ w'.present, w.gives env x flag = true :=
    exists_congr fun x => and_congr_right fun _ => by rw [gives_of_item (congrFun h.item x)]
  have hswap := flag_swap_iff ((hex flag).trans (exists_mem_perm_cons h.present))
    ((h.flag_iff hs flag).trans (or_iff_left id).symm) id .inl
  rw [false_or] at hswap
  rw [clears_iff h.present hn, hothers]
  exact hswap

/-- The flags after an item has gone and another one has come. -/
theorem exact_takes_insert_iff (hex : Exact env w) (hs : Sound w) (h : Takes env old w w₁)
    (hp : w'.present.Perm (r :: w₁.present))
    (hgives : ∀ x ∈ w₁.present, ∀ flag, w'.gives env x flag = w.gives env x flag)
    (hflags : ∀ flag, w'.flags flag = (w₁.flags flag || w'.gives env r flag)) :
    Exact env w' ↔ ∀ flag, Clears env w old flag → w'.gives env r flag = true := by
  have hn : old ∉ w₁.present := (List.nodup_cons.mp (h.present.nodup_iff.mp hs.nodup)).1
  refine exact_swap_iff hex h.present hn hp hgives (fun flag => ?_) (fun _ => id) (fun _ => .inl)
  rw [hflags, Bool.or_eq_true, h.flag_iff hs]

/-- Nothing is reset when an item only comes. -/
theorem exact_insert (hex : Exact env w) (hp : w'.present.Perm (r :: w.present))
    (hgives : ∀ x ∈ w.present, ∀ flag, w'.gives env x flag = w.gives env x flag)
    (hflags : ∀ flag, w'.flags flag = (w.flags flag || w'.gives env r flag)) : Exact env w' := by
  intro flag
  have hothers : (∃ x ∈ w.present, w'.gives env x flag = true) ↔ ∃ x ∈ w.present, w.gives env x flag = true :=
    exists_congr fun x => and_congr_right fun hx => by rw [hgives x hx flag]
  rw [hflags, Bool.or_eq_true, hex flag, exists_mem_perm_cons hp, hothers, or_comm]

theorem exact_of_same (hex : Exact env w) (hp : w'.present = w.present)
    (hgives : ∀ x ∈ w.present, ∀ flag, w'.gives env x flag = w.gives env x flag) (hflags : w'.flags = w.flags) :
    Exact env w' := by
  intro flag
  have hothers : (∃ x ∈ w.present, w'.gives env x flag = true) ↔ ∃ x ∈ w.present, w.gives env x flag = true :=
    exists_congr fun x => and_congr_right fun hx => by rw [hgives x hx flag]
  rw [hflags, hp, hothers, hex flag]

/-! ### Steps -/

/-- The old splash or field that `addThing` takes off the tile. -/
def displaces (env : TileEnv) (w : TileWorld) (r old : Ref) : Prop :=
  takesAway env w old 1 ∧
    if w.isAlwaysOnTop env r then (w.itemType env r).isSplash ∧ w.oldSplash env = some old
    else (w.itemType env r).isMagicField ∧ w.oldField env = some old ∧ (w.itemType env old).replaceable

/-- The items as they are once the item has come. -/
def received (env : TileEnv) (w : TileWorld) (r : Ref) : TileWorld :=
  if w.isAlwaysOnTop env r then w else w.setWaterball env r

/-- No flag that an item on the tile needs goes with another one, and no ground leaves a flag behind. -/
def Spared (env : TileEnv) (w : TileWorld) : Action → Prop
  | .addThing (.item r) => w.items.length < 0xFFFF →
    if (w.itemType env r).isGroundTile then
      ∀ ground, w.ground = some ground → ∀ flag, w.gives env ground flag = true →
        w.gives env r flag = true ∨ ∃ x ∈ w.items, w.gives env x flag = true
    else ∀ old, displaces env w r old → ∀ flag, Clears env w old flag → (received env w r).gives env r flag = true
  | .updateThing (.item r) itemId count => w.getThingIndex env (.item r) ≠ -1 → ∀ flag, Clears env w r flag →
    (w.modify r fun i => (i.setID env.types itemId).setSubType env.types count.toUInt16).gives env r flag = true
  | .replaceThing index (.item r) => ∀ old, w.getThing index = some (.item old) → ∀ flag, Clears env w old flag →
    w.gives env r flag = true
  | .removeThing (.item r) count => takesAway env w r count → ∀ flag, ¬Clears env w r flag
  | _ => True

theorem exact_displace (hex : Exact env w) (hs : Sound w) (ht : ¬takesAway env w old 1) :
    Exact env (w.displace env old) ∧ (w.displace env old).present = w.present := by
  rcases displace_cases hs env old with ⟨ht', -⟩ | ⟨-, h | ⟨-, n, h⟩⟩
  · exact absurd ht' ht
  · rw [h]
    exact ⟨exact_of_same hex rfl (fun _ _ _ => rfl) rfl, rfl⟩
  · rw [h]
    exact ⟨exact_of_same hex rfl (fun x _ flag => gives_setItemCount n flag) rfl, rfl⟩

theorem exact_removeThing_iff (hex : Exact env w) (hs : Sound w) (r : Ref) (count : UInt32) :
    Exact env (w.removeThing env (.item r) count) ↔ Spared env w (.removeThing (.item r) count) := by
  rcases removeThing_cases hs env r count with ⟨ht, h⟩ | ⟨ht, h⟩
  · rw [exact_takes_iff hex hs h]
    exact ⟨fun h _ => h, fun h => h ht⟩
  · refine iff_of_true ?_ fun h => absurd h ht
    rcases h with h | ⟨-, n, h⟩
    · rw [h]
      exact hex
    · rw [h]
      exact exact_of_same hex rfl (fun x _ flag => gives_setItemCount n flag) rfl

theorem exact_replaceThing_iff (hex : Exact env w) (hs : Sound w) (index : Nat) (hf : .item r ∉ w.things) :
    Exact env (w.replaceThing env index (.item r)) ↔ Spared env w (.replaceThing index (.item r)) := by
  rcases replaceAt_cases hs index r with ⟨old, w', h, hget, hswap⟩ | ⟨h, hget⟩
  · rw [replaceThing, h]
    obtain ⟨rest, hp, hp'⟩ := hswap.present
    have hn : old ∉ rest := (List.nodup_cons.mp (hp.nodup_iff.mp hs.nodup)).1
    have hne : old ≠ r := by
      rintro rfl
      exact hf (item_mem_things.mpr (hp.mem_iff.mpr List.mem_cons_self))
    have hgives : ∀ x flag, w'.gives env x flag = w.gives env x flag := fun x => gives_of_item (congrFun hswap.item x)
    have hothers : ∀ flag, (∃ x ∈ w'.present, x ≠ old ∧ w'.gives env x flag = true) ↔
        w.gives env r flag = true ∨ ∃ x ∈ rest, w.gives env x flag = true := by
      intro flag
      rw [exists_mem_perm_cons hp', and_iff_right hne.symm, hgives]
      refine or_congr_right (exists_congr fun x => and_congr_right fun hx => ?_)
      have hne : x ≠ old := fun heq => hn (heq ▸ hx)
      rw [hgives, and_iff_right hne]
    have hp₂ : ((((w'.setParent (.item r)).resetTileFlags env old).setTileFlags env r).resetParent
      (.item old)).present.Perm (r :: rest) := hp'
    have hiff := exact_swap_iff hex hp hn hp₂
      (fun x _ flag => hgives x flag) (fun flag => ?_) (fun flag h => (hothers flag).mpr (.inr h))
      (fun flag h => ((hothers flag).mp h).symm.imp_right fun h => (hgives r flag).trans h)
    · refine hiff.trans (Iff.trans ?_ ⟨fun h o ho => ?_, fun h => h old hget⟩)
      · exact forall_congr' fun flag => imp_congr_right fun _ => by rw [← hgives r flag]; rfl
      · obtain rfl : old = o := Thing.item.inj (Option.some.inj (hget.symm.trans ho))
        exact h
    · change (w'.flags flag && !(w'.gives env old flag && w'.mayReset env old flag) || w'.gives env r flag) = true ↔
        w.flags flag = true ∧ ¬(w.gives env old flag = true ∧
          (flag.blind = true ∨ ¬∃ x ∈ w'.present, x ≠ old ∧ w'.gives env x flag = true)) ∨ w'.gives env r flag = true
      rw [← mayReset_iff, Bool.or_eq_true, and_not_iff, hswap.flags, hgives old]
  · rw [replaceThing, h]
    exact iff_of_true hex fun old ho => absurd ho (hget old)

/-- The item that an update changes, for another with the same pointer. -/
theorem exact_updateThing_iff (hex : Exact env w) (hs : Sound w) (r : Ref) (itemId : UInt16) (count : UInt32) :
    Exact env (w.updateThing env (.item r) itemId count) ↔ Spared env w (.updateThing (.item r) itemId count) := by
  unfold updateThing
  dsimp only
  split_ifs with hi
  · exact iff_of_true hex fun h => absurd hi h
  · have hr : r ∈ w.present := by
      rcases getThingIndex_ne_iff.mp hi with h | ⟨-, h⟩ | ⟨-, h⟩
      · exact mem_present.mpr (.inl h)
      · exact mem_present.mpr (.inr (mem_items.mpr (.inr h)))
      · exact mem_present.mpr (.inr (mem_items.mpr (.inl h)))
    have hp := List.perm_cons_erase hr
    have hp' : (setTileFlags env ((w.resetTileFlags env r).modify r fun i =>
        (i.setID env.types itemId).setSubType env.types count.toUInt16) r).present.Perm (r :: w.present.erase r) := hp
    have hn : r ∉ w.present.erase r := hs.nodup.not_mem_erase
    have hne : ∀ x ∈ w.present.erase r, x ≠ r := by
      rintro x hx rfl
      exact hn hx
    have hothers : ∀ flag, (∃ x ∈ w.present.erase r, w.gives env x flag = true) ↔
        ∃ x ∈ w.present, x ≠ r ∧ w.gives env x flag = true := by
      intro flag
      rw [exists_mem_perm_cons hp]
      simp only [ne_eq, not_true, false_and, false_or]
      exact exists_congr fun x => and_congr_right fun hx => (and_iff_right (hne x hx)).symm
    refine (exact_swap_iff hex hp hn hp' (fun x hx flag => gives_of_item (Function.update_of_ne (hne x hx) ..) flag)
      (fun flag => ?_) (fun flag => (hothers flag).mp) (fun flag h => .inl ((hothers flag).mpr h))).trans ⟨fun h _ => h, fun h => h hi⟩
    rw [← mayReset_iff, ← and_not_iff]
    exact Bool.or_eq_true_iff

theorem ground_swap_iff {ground others new reset : Prop} :
    (((ground ∨ others) ∧ ¬(new ∧ reset) ∨ new) ↔ new ∨ others) ↔ (ground → new ∨ others) := by
  tauto

/-- The old ground has gone, its flags stay. -/
theorem exact_addGround_iff (hex : Exact env w) : Exact env (w.addGround env r) ↔
    ∀ ground, w.ground = some ground → ∀ flag, w.gives env ground flag = true →
      w.gives env r flag = true ∨ ∃ x ∈ w.items, w.gives env x flag = true := by
  unfold addGround
  split
  · rename_i hg
    refine iff_of_true ?_ fun ground h => absurd (hg.symm.trans h) nofun
    refine exact_insert (r := r) hex ?_ (fun _ _ _ => rfl) (fun _ => rfl)
    rw [present, present, hg]
    exact .refl _
  · rename_i ground hg
    have hground : ∀ flag, w.flags flag = true ↔ w.gives env ground flag = true ∨ ∃ x ∈ w.items, w.gives env x flag = true := by
      intro flag
      rw [hex flag, present, hg]
      exact exists_mem_perm_cons (.refl _)
    refine (forall_congr' fun flag => ?_).trans ⟨fun h g hg' => ?_, fun h => h ground hg⟩
    · change ((w.flags flag && !(w.gives env r flag && _) || w.gives env r flag) = true ↔
        ∃ x ∈ r :: w.items, w.gives env x flag = true) ↔ _
      rw [Bool.or_eq_true, and_not_iff, exists_mem_perm_cons (.refl _), hground flag]
      exact ground_swap_iff
    · obtain rfl : ground = g := Option.some.inj (hg.symm.trans hg')
      exact h

theorem gives_displace (hs : Sound w) (flag : TileFlag) : (w.displace env old).gives env x flag = w.gives env x flag := by
  rcases displace_cases hs env old with ⟨-, h⟩ | ⟨-, h | ⟨-, n, h⟩⟩
  · exact gives_of_item (congrFun h.item x) flag
  · rw [h]
    rfl
  · rw [h]
    exact gives_setItemCount n flag

/-- The flags after an item has come that displaces another. -/
theorem exact_displace_insert_iff (hex : Exact env w) (hs : Sound w)
    (hp : w'.present.Perm (r :: (w.displace env old).present))
    (hgives : ∀ x ∈ (w.displace env old).present, ∀ flag, w'.gives env x flag = w.gives env x flag)
    (hflags : ∀ flag, w'.flags flag = ((w.displace env old).flags flag || w'.gives env r flag)) :
    Exact env w' ↔ (takesAway env w old 1 → ∀ flag, Clears env w old flag → w'.gives env r flag = true) := by
  rcases displace_cases hs env old with ⟨ht, h⟩ | ⟨ht, -⟩
  · exact (exact_takes_insert_iff hex hs h hp hgives hflags).trans ⟨fun h _ => h, fun h => h ht⟩
  · obtain ⟨hex', hpresent⟩ := exact_displace hex hs ht
    refine iff_of_true (exact_insert hex' hp (fun x hx flag => ?_) hflags) fun h => absurd h ht
    rw [hgives x hx, gives_displace hs]

theorem exact_addTopItem_iff (hex : Exact env w) (hs : Sound w) (ht : w.isAlwaysOnTop env r) :
    Exact env (w.addTopItem env r) ↔ ∀ old, displaces env w r old → ∀ flag, Clears env w old flag →
      w.gives env r flag = true := by
  have hinsert : ∀ {w₁ : TileWorld} (before : Ref → Bool), Sound w₁ →
      ((w₁.insertTop before r).setTileFlags env r).present.Perm (r :: w₁.present) :=
    fun before hs₁ => (inserts_insertTop before hs₁).present
  have hnone : (∀ old, ¬displaces env w r old) → ∀ before, (Exact env ((w.insertTop before r).setTileFlags env r) ↔
      ∀ old, displaces env w r old → ∀ flag, Clears env w old flag → w.gives env r flag = true) := fun hn before =>
    iff_of_true (exact_insert hex (hinsert before hs) (fun _ _ _ => rfl) (fun _ => rfl)) fun old ho => absurd ho (hn old)
  unfold addTopItem
  split
  · rename_i old hold
    dsimp only
    split_ifs with hsplash
    · refine (exact_displace_insert_iff hex hs (hinsert _ (sound_displace hs env old).1)
        (fun x _ flag => gives_displace hs flag) (fun _ => rfl)).trans ⟨fun h o ho flag hclear => ?_, fun h htake flag hclear => ?_⟩
      · unfold displaces at ho
        rw [if_pos ht] at ho
        obtain rfl : old = o := Option.some.inj (hold.symm.trans ho.2.2)
        exact (gives_displace hs flag).symm.trans (h ho.1 flag hclear)
      · refine (gives_displace hs flag).trans (h old ⟨htake, ?_⟩ flag hclear)
        rw [if_pos ht]
        exact ⟨hsplash, hold⟩
    · refine hnone (fun o ho => hsplash ?_) _
      unfold displaces at ho
      rw [if_pos ht] at ho
      exact ho.2.1
  · rename_i hold
    refine hnone (fun o ho => ?_) _
    unfold displaces at ho
    rw [if_pos ht, hold] at ho
    exact nomatch ho.2.2

theorem setWaterball_displace (hs : Sound w) (hne : r ≠ old) (hclass : env.classOf old = .MagicField) (flag : TileFlag) :
    ((w.displace env old).setWaterball env r).gives env r flag = (w.setWaterball env r).gives env r flag := by
  have hitem : (w.displace env old).item r = w.item r := item_displace hs hne
  have htrash : (w.displace env old).flags .TRASHHOLDER = w.flags .TRASHHOLDER := by
    rcases displace_cases hs env old with ⟨-, h⟩ | ⟨-, h | ⟨-, n, h⟩⟩
    · have hgives : w.gives env old .TRASHHOLDER = false := by simp [gives, TileFlag.cause, hclass]
      rw [h.flags]
      dsimp only
      rw [hgives, Bool.false_and, Bool.not_false, Bool.and_true]
    · rw [h]
      rfl
    · rw [h]
      rfl
  refine gives_of_item ?_ flag
  unfold setWaterball
  rw [hitem, htrash]
  split_ifs
  · simp [modify, hitem]
  · exact hitem

/-- What `addDownItem` does to the tile that it finds. -/
theorem addDownItem_spec (hs : Sound w) (env : TileEnv) (hr : r ∉ w.present) :
    (w.addDownItem env r).present.Perm (r :: w.present) ∧
    (∀ x ∈ w.present, ∀ flag, (w.addDownItem env r).gives env x flag = w.gives env x flag) ∧
    ∀ flag, (w.addDownItem env r).flags flag = (w.flags flag || (w.addDownItem env r).gives env r flag) := by
  have hsame := samePlaces_setWaterball env w r
  have hne : ∀ x ∈ w.present, x ≠ r := by
    rintro x hx rfl
    exact hr hx
  refine ⟨?_, fun x hx flag => gives_of_item ?_ flag, fun flag => ?_⟩
  · rw [← hsame.present]
    exact (inserts_insertDown (hsame.sound hs).count_le).present
  · change (w.setWaterball env r).item x = w.item x
    unfold setWaterball
    split_ifs
    · exact Function.update_of_ne (hne x hx) ..
    · rfl
  · change ((w.setWaterball env r).flags flag || _) = _
    have hflags : (w.setWaterball env r).flags = w.flags := by
      unfold setWaterball
      split_ifs <;> rfl
    rw [hflags]
    rfl

theorem exact_addDownItem (hex : Exact env w) (hs : Sound w) (hr : r ∉ w.present) : Exact env (w.addDownItem env r) := by
  obtain ⟨hp, hgives, hflags⟩ := addDownItem_spec hs env hr
  exact exact_insert hex hp hgives hflags

theorem exact_displace_addDownItem_iff (hex : Exact env w) (hs : Sound w) (hr : r ∉ w.present)
    (hold : w.oldField env = some old) : Exact env ((w.displace env old).addDownItem env r) ↔
      (takesAway env w old 1 → ∀ flag, Clears env w old flag → (w.setWaterball env r).gives env r flag = true) := by
  obtain ⟨hs', hsub⟩ := sound_displace hs env old
  have hfield := List.find?_some hold
  have hmem : old ∈ w.present := mem_present.mpr (.inr (mem_items.mpr (.inl (List.mem_of_find?_eq_some hold))))
  have hne : r ≠ old := by
    rintro rfl
    exact hr hmem
  obtain ⟨hp, hgives, hflags⟩ := addDownItem_spec hs' env fun h => hr (hsub r h)
  refine (exact_displace_insert_iff hex hs hp (fun x hx flag => (hgives x hx flag).trans (gives_displace hs flag))
    hflags).trans (imp_congr_right fun _ => forall_congr' fun flag => imp_congr_right fun _ => ?_)
  rw [← setWaterball_displace hs hne (of_decide_eq_true hfield) flag]
  rfl

theorem setWaterball_setParent (thing : Thing) :
    (w.setParent thing).setWaterball env r = (w.setWaterball env r).setParent thing := by
  unfold setWaterball
  by_cases h : (w.item r).id = ITEM_WATERBALL_SPLASH ∧ !w.flags .TRASHHOLDER
  · rw [if_pos h]
    exact if_pos h
  · rw [if_neg h]
    exact if_neg h

theorem displaces_iff_of_down (ht : ¬w.isAlwaysOnTop env r) : displaces env w r old ↔ takesAway env w old 1 ∧
    (w.itemType env r).isMagicField ∧ w.oldField env = some old ∧ (w.itemType env old).replaceable := by
  rw [displaces, if_neg ht]

theorem exact_addThing_iff (hex : Exact env w) (hs : Sound w) (hf : .item r ∉ w.things) :
    Exact env (w.addThing env (.item r)) ↔ Spared env w (.addThing (.item r)) := by
  have hr : r ∉ w.present := mt item_mem_things.mpr hf
  have hs' : Sound (w.setParent (.item r)) := (samePlaces_setParent ..).sound hs
  have hex' : Exact env (w.setParent (.item r)) := hex
  by_cases hfull : w.items.length ≥ 0xFFFF
  · unfold addThing
    dsimp only
    rw [if_pos hfull]
    exact iff_of_true hex fun h => absurd h (Nat.not_lt.mpr hfull)
  unfold addThing Spared
  dsimp only
  rw [if_neg hfull, imp_iff_right (Nat.lt_of_not_le hfull)]
  have htype : ∀ x, itemType env (w.setParent (.item r)) x = w.itemType env x := fun _ => rfl
  have htop' : isAlwaysOnTop env (w.setParent (.item r)) r = w.isAlwaysOnTop env r := rfl
  simp only [htype, htop']
  by_cases hground : (w.itemType env r).isGroundTile
  · rw [if_pos hground, if_pos hground]
    exact exact_addGround_iff hex'
  by_cases htop : w.isAlwaysOnTop env r
  · rw [if_neg hground, if_neg hground, if_pos htop, received, if_pos htop]
    exact exact_addTopItem_iff hex' hs' htop
  rw [if_neg hground, if_neg hground, if_neg htop, received, if_neg htop]
  have hnone : (∀ old, ¬displaces env w r old) → (Exact env ((w.setParent (.item r)).addDownItem env r) ↔
      ∀ old, displaces env w r old → ∀ flag, Clears env w old flag → (w.setWaterball env r).gives env r flag = true) :=
    fun hn => iff_of_true (exact_addDownItem hex' hs' hr) fun old ho => absurd ho (hn old)
  have hball : ∀ flag, gives env ((w.setParent (.item r)).setWaterball env r) r flag
      = gives env (w.setWaterball env r) r flag := by
    intro flag
    rw [setWaterball_setParent]
    rfl
  split_ifs with hfield
  · split
    · rename_i old hold
      split_ifs with hreplaceable
      · refine (exact_displace_addDownItem_iff hex' hs' hr hold).trans ⟨fun h o ho => ?_, fun h htake => ?_⟩
        · obtain ⟨htake, -, ho, -⟩ := (displaces_iff_of_down htop).mp ho
          obtain rfl : old = o := Option.some.inj (hold.symm.trans ho)
          exact fun flag hclear => (hball flag).symm.trans (h htake flag hclear)
        · exact fun flag hclear =>
            (hball flag).trans (h old ((displaces_iff_of_down htop).mpr ⟨htake, hfield, hold, hreplaceable⟩) flag hclear)
      · refine iff_of_true hex fun o ho => ?_
        obtain ⟨-, -, ho, hrep⟩ := (displaces_iff_of_down htop).mp ho
        obtain rfl : old = o := Option.some.inj (hold.symm.trans ho)
        exact absurd hrep hreplaceable
    · rename_i hold
      refine hnone fun o ho => ?_
      obtain ⟨-, -, ho, -⟩ := (displaces_iff_of_down htop).mp ho
      exact nomatch hold.symm.trans ho
  · exact hnone fun o ho => hfield ((displaces_iff_of_down htop).mp ho).2.1

theorem exact_internalAddThing (hex : Exact env w) (hs : Sound w) : Exact env (w.internalAddThing env (.item r)) := by
  have hs' : Sound (w.setParent (.item r)) := (samePlaces_setParent ..).sound hs
  have hex' : Exact env (w.setParent (.item r)) := hex
  unfold internalAddThing
  dsimp only
  split_ifs
  · split
    · rename_i hg
      refine exact_insert (r := r) hex' ?_ (fun _ _ _ => rfl) (fun _ => rfl)
      rw [present, present, hg]
      exact .refl _
    · exact hex'
  · exact hex'
  · exact exact_insert hex' (inserts_insertTop _ hs').present (fun _ _ _ => rfl) (fun _ => rfl)
  · exact exact_insert hex' (inserts_insertDown hs'.count_le).present (fun _ _ _ => rfl) (fun _ => rfl)

theorem exact_step_iff (hs : Sound w) (hex : Exact env w) {a : Action} (hf : Fresh w a) :
    Exact env (step env w a) ↔ Spared env w a := by
  cases a with
  | addThing thing =>
    cases thing with
    | item r => exact exact_addThing_iff hex hs hf
    | creature c => exact iff_of_true hex trivial
  | internalAddThing thing =>
    cases thing with
    | item r => exact iff_of_true (exact_internalAddThing hex hs) trivial
    | creature c => exact iff_of_true hex trivial
  | updateThing thing itemId count =>
    cases thing with
    | item r => exact exact_updateThing_iff hex hs r itemId count
    | creature c => exact iff_of_true hex trivial
  | replaceThing index thing =>
    cases thing with
    | item r => exact exact_replaceThing_iff hex hs index hf
    | creature c => exact iff_of_true hex trivial
  | removeThing thing count =>
    cases thing with
    | item r => exact exact_removeThing_iff hex hs r count
    | creature c => exact iff_of_true hex trivial

/-- The flags are those of the items in every state of a run just when each step spares what is needed. -/
theorem exact_iff_spared (env : TileEnv) (item : Ref → Item) (ops : List Action)
    (h : Lib.Meets (step env) Fresh (start item) ops) :
    Lib.Meets (step env) (Spared env) (start item) ops ↔
      ∀ xs, xs <+: ops → Exact env (Lib.run (step env) (start item) xs) :=
  Lib.meets_iff_forall_part_of Sound (Exact env) (fun _ _ hs hf => sound_step hs hf)
    (fun _ _ hs hex hf => exact_step_iff hs hex hf) (sound_start item) (fun flag => by simp [start, present]) h

/-! ### A floor over water -/

/-- Grounds: type 1 is water, which blocks. -/
def groundEnv : TileEnv where
  items id := { plainType id .ground with blockSolid := id = 1 }
  classOf _ := .Item

/-- Water, and a floor over it. -/
def floorOverWater : List Action := [.addThing (.item 1), .addThing (.item 2)]

theorem exact_iff_spared_floorOverWater :
    Lib.Meets (step groundEnv) (Spared groundEnv) (start itemOfType) floorOverWater ↔
      ∀ xs, xs <+: floorOverWater → Exact groundEnv (Lib.run (step groundEnv) (start itemOfType) xs) :=
  exact_iff_spared groundEnv itemOfType floorOverWater ⟨by decide, by decide, trivial⟩

/-- The tile blocks the way as the water did. -/
theorem not_exact_floorOverWater : ¬∀ (env : TileEnv) (item : Ref → Item) (ops : List Action),
    Lib.Meets (step env) Fresh (start item) ops → Exact env (Lib.run (step env) (start item) ops) := by
  intro h
  obtain ⟨x, hx, hg⟩ := (h groundEnv itemOfType floorOverWater ⟨by decide, by decide, trivial⟩ .BLOCKSOLID).mp (by decide)
  obtain rfl : x = 2 := List.mem_singleton.mp hx
  exact absurd hg (by decide)

end TileWorld
end CrystalServer
