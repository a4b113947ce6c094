import CrystalServer.Network.TileDescription
import CrystalServer.Theorems.Items.TileIndex
import Mathlib.Data.List.TakeWhile

/-! # What a client is shown of a tile: the stack positions

The stack positions count the first ten of what the player sees. The description shows these too, but for a player who
stands further back on the tile: then it shows the player in the tenth place. -/

namespace CrystalServer

/-- The index of a thing in a description, or -1. -/
def indexIn (thing : Thing) (shown : List Thing) : Int := (shown.idxOf? thing).elim (-1) Int.ofNat

/-- The index among the first ten, for things that are counted from `n` on. -/
def place (thing : Thing) (n : Nat) (l : List Thing) : Int := ((l.take (10 - n)).idxOf? thing).elim (-1) fun i => n + i

variable {thing : Thing} {n : Nat} {l rest : List Thing} {x : Thing}

theorem place_nil (thing : Thing) (n : Nat) : place thing n [] = -1 := by simp [place]

theorem place_of_le (h : 10 ≤ n) : place thing n l = -1 := by simp [place, Nat.sub_eq_zero_of_le h]

theorem place_cons (h : n < 10) : place thing n (x :: l) = if x = thing then (n : Int) else place thing (n + 1) l := by
  have hsub : 10 - n = 10 - (n + 1) + 1 := by omega
  rw [place, hsub, List.take_succ_cons, List.idxOf?_cons, place]
  by_cases hx : x = thing
  · simp [hx]
  · have hb : (x == thing) = false := beq_eq_false_iff_ne.mpr hx
    rw [hb, if_neg Bool.false_ne_true, if_neg hx]
    rcases (l.take (10 - (n + 1))).idxOf? thing with _ | i
    · rfl
    · simp only [Option.map_some, Option.elim]
      omega

theorem place_append (h : thing ∉ l) : place thing n (l ++ rest) = place thing (n + l.length) rest := by
  induction l generalizing n with
  | nil => rfl
  | cons x l ih =>
    rw [List.cons_append, List.length_cons]
    by_cases hn : n < 10
    · have hx : x ≠ thing := by
        rintro rfl
        exact h List.mem_cons_self
      rw [place_cons hn, if_neg hx, ih fun hm => h (List.mem_cons_of_mem _ hm)]
      congr 1
      omega
    · rw [place_of_le (Nat.not_lt.mp hn), place_of_le (by omega)]

theorem place_append_left (h : thing ∉ rest) : place thing n (l ++ rest) = place thing n l := by
  induction l generalizing n with
  | nil =>
    rw [List.nil_append, place_nil, ← List.append_nil rest, place_append h, place_nil]
  | cons x l ih =>
    rw [List.cons_append]
    by_cases hn : n < 10
    · rw [place_cons hn, place_cons hn, ih]
    · rw [place_of_le (Nat.not_lt.mp hn), place_of_le (Nat.not_lt.mp hn)]

theorem place_zero (thing : Thing) (l : List Thing) : place thing 0 l = indexIn thing (l.take 10) := by
  simp [place, indexIn]
  rfl

namespace TileWorld
variable {env : TileEnv} {w : TileWorld} {player : Viewer}

/-- What the player sees of the tile, in the order of a description. -/
def seen (w : TileWorld) (player : Viewer) : List Thing :=
  w.ground.toList.map .item ++ (w.topItems.map .item ++
    ((w.creatures.reverse.filter player.canSeeCreature).map .creature ++ w.downItems.map .item))

/-! ### Stack positions -/

theorem stackposOfDownItem_eq (item : Ref) (items : List Ref) (h : n < 10) :
    stackposOfDownItem item n items = place (.item item) n (items.map .item) := by
  induction items generalizing n with
  | nil => rw [stackposOfDownItem, List.map_nil, place_nil]
  | cons x items ih =>
    rw [stackposOfDownItem, List.map_cons, place_cons h]
    simp only [Thing.item.injEq]
    split_ifs with hx hn
    · rfl
    · exact (place_of_le (by omega)).symm
    · exact ih (n := n + 1) (by omega)

theorem passCreatures_eq (after : Int → Int) (creatures : List CreatureRef) (h : n < 10) :
    passCreatures player after n creatures =
      if n + (creatures.filter player.canSeeCreature).length < 10 then
        after ((n + (creatures.filter player.canSeeCreature).length : Nat) : Int)
      else -1 := by
  induction creatures generalizing n with
  | nil => simp [passCreatures, h]
  | cons c creatures ih =>
    rw [passCreatures]
    cases hc : player.canSeeCreature c with
    | true =>
      rw [List.filter_cons_of_pos hc, List.length_cons, if_pos rfl]
      split_ifs with h₁ h₂ h₂
      · omega
      · rfl
      · rw [show ((n : Int) + 1) = ((n + 1 : Nat) : Int) by omega, ih (by omega), if_pos (by omega)]
        congr 2
        omega
      · rw [show ((n : Int) + 1) = ((n + 1 : Nat) : Int) by omega, ih (by omega), if_neg (by omega)]
    | false =>
      rw [List.filter_cons_of_neg (by simp [hc]), if_neg Bool.false_ne_true]
      exact ih h

theorem passCreatures_none (creatures : List CreatureRef) (h : n < 10) :
    passCreatures player (fun _ => -1) n creatures = -1 := by
  rw [passCreatures_eq _ _ h]
  exact ite_self _

theorem stackposOfTopItem_eq (item : Ref) {after : Int → Int} (hafter : ∀ n : Nat, n < 10 → after n = -1)
    (items : List Ref) (h : n < 10) : stackposOfTopItem item after n items = place (.item item) n (items.map .item) := by
  induction items generalizing n with
  | nil => rw [stackposOfTopItem, List.map_nil, place_nil, hafter n h]
  | cons x items ih =>
    rw [stackposOfTopItem, List.map_cons, place_cons h]
    simp only [Thing.item.injEq]
    split_ifs with hx hn
    · rfl
    · exact (place_of_le (by omega)).symm
    · exact ih (n := n + 1) (by omega)

theorem stackposOfCreature_eq {c : CreatureRef} (hc : player.canSeeCreature c = true) (creatures : List CreatureRef)
    (h : n < 10) : stackposOfCreature player c n creatures
      = place (.creature c) n ((creatures.filter player.canSeeCreature).map .creature) := by
  induction creatures generalizing n with
  | nil => rw [stackposOfCreature, List.filter_nil, List.map_nil, place_nil]
  | cons x creatures ih =>
    rw [stackposOfCreature]
    cases hx : player.canSeeCreature x with
    | true =>
      rw [List.filter_cons_of_pos hx, List.map_cons, place_cons h]
      simp only [Thing.creature.injEq, if_true]
      split_ifs with hxc hn
      · rfl
      · exact (place_of_le (by omega)).symm
      · exact ih (n := n + 1) (by omega)
    | false =>
      have hne : x ≠ c := by
        rintro rfl
        cases hx.symm.trans hc
      rw [List.filter_cons_of_neg (by simp [hx]), if_neg hne, if_neg Bool.false_ne_true]
      exact ih h

theorem length_ground_lt (w : TileWorld) : w.ground.toList.length < 10 := by cases w.ground <;> simp

theorem getStackposOfItem_eq (h : Indexed env w) (item : Ref) :
    w.getStackposOfItem env player item = indexIn (.item item) ((w.seen player).take 10) := by
  have htop : w.topItems.length = w.getTopItemCount := List.length_drop
  have hcreature : Thing.item item ∉ (w.creatures.reverse.filter player.canSeeCreature).map Thing.creature := by simp
  have hlen : (w.creatures.reverse.filter player.canSeeCreature).length = (w.creatures.filter player.canSeeCreature).length := by
    rw [List.filter_reverse, List.length_reverse]
  rw [← place_zero, getStackposOfItem, seen]
  dsimp only
  split_ifs with hg ht hn
  · rw [hg, Option.toList, List.map_cons, List.cons_append, place_cons (Nat.zero_lt_succ 9), if_pos rfl]
    rfl
  all_goals
    have hground : Thing.item item ∉ w.ground.toList.map Thing.item := by
      simpa [Option.mem_toList] using hg
    rw [place_append hground, List.length_map, Nat.zero_add]
  · have hdown : Thing.item item ∉ w.downItems.map Thing.item := by
      simpa using fun hm => h.down item hm ht
    rw [stackposOfTopItem_eq item (fun n hn => passCreatures_none _ hn) _ (length_ground_lt w), place_append_left]
    exact fun hm => (List.mem_append.mp hm).elim hcreature hdown
  all_goals
    have hout : Thing.item item ∉ w.topItems.map Thing.item := by
      simpa using fun hm => ht (h.top item hm)
    rw [place_append hout, place_append hcreature, List.length_map, List.length_map, htop, hlen]
  · exact (place_of_le (by omega)).symm
  · rw [← Nat.cast_add, passCreatures_eq _ _ (by omega)]
    split_ifs with hlt
    · exact stackposOfDownItem_eq item _ hlt
    · exact (place_of_le (Nat.not_lt.mp hlt)).symm

theorem getStackposOfCreature_eq {c : CreatureRef} (hc : player.canSeeCreature c = true) :
    w.getStackposOfCreature player c = indexIn (.creature c) ((w.seen player).take 10) := by
  have htop : w.topItems.length = w.getTopItemCount := List.length_drop
  rw [← place_zero, getStackposOfCreature, seen, place_append (by simp), place_append (by simp), place_append_left (by simp),
    List.length_map, List.length_map, htop, Nat.zero_add]
  split_ifs with hn
  · exact (place_of_le (by omega)).symm
  · rw [← Nat.cast_add, stackposOfCreature_eq hc _ (by omega)]

end TileWorld

namespace ProtocolGame
variable {w : TileWorld} {player : Viewer}

/-! ### The description -/

theorem take_cons (h : n < 10) (x : Thing) (l : List Thing) : (x :: l).take (10 - n) = x :: l.take (10 - (n + 1)) := by
  have hsub : 10 - n = 10 - (n + 1) + 1 := by omega
  rw [hsub, List.take_succ_cons]

theorem describeDownItems_eq (items : List Ref) (h : n < 10) :
    describeDownItems n items = (items.map .item).take (10 - n) := by
  induction items generalizing n with
  | nil => simp [describeDownItems]
  | cons x items ih =>
    rw [describeDownItems, List.map_cons, take_cons h]
    split_ifs with hn
    · rw [hn, Nat.sub_self, List.take_zero]
    · rw [ih (by omega)]

/-- The player was shown, or does not stand further back than in the tenth place. -/
def InSight (player : Viewer) (playerAdded : Bool) (n : Nat) (creatures : List CreatureRef) : Prop :=
  playerAdded = true ∨ ∃ l l', creatures = l ++ player.id :: l' ∧ n + (l.filter player.canSeeCreature).length ≤ 9

theorem InSight.of_unseen {c : CreatureRef} {creatures : List CreatureRef} {playerAdded : Bool}
    (h : InSight player playerAdded n (c :: creatures)) (hc : player.canSeeCreature c = false) :
    InSight player playerAdded n creatures := by
  rcases h with h | ⟨l, l', h, hlen⟩
  · exact .inl h
  · cases l with
    | nil =>
      obtain ⟨rfl, -⟩ := List.cons.inj h
      cases hc.symm.trans player.canSeeCreature_self
    | cons y l =>
      obtain ⟨rfl, rfl⟩ := List.cons.inj h
      rw [List.filter_cons_of_neg (by simp [hc])] at hlen
      exact .inr ⟨l, l', rfl, hlen⟩

theorem InSight.of_seen {c : CreatureRef} {creatures : List CreatureRef} {playerAdded : Bool}
    (h : InSight player playerAdded n (c :: creatures)) (hc : player.canSeeCreature c = true) :
    InSight player (playerAdded || c = player.id) (n + 1) creatures ∧ (n = 9 → playerAdded = false → c = player.id) := by
  rcases h with h | ⟨l, l', h, hlen⟩
  · exact ⟨.inl (by simp [h]), fun _ hn => absurd (h.symm.trans hn) (by decide)⟩
  · cases l with
    | nil =>
      obtain ⟨rfl, -⟩ := List.cons.inj h
      exact ⟨.inl (by simp), fun _ _ => rfl⟩
    | cons y l =>
      obtain ⟨rfl, rfl⟩ := List.cons.inj h
      rw [List.filter_cons_of_pos hc, List.length_cons] at hlen
      exact ⟨.inr ⟨l, l', rfl, by omega⟩, fun hn => by omega⟩

theorem describeCreatures_eq {after : Nat → List Thing} (hafter : ∀ n < 10, after n = rest.take (10 - n))
    (creatures : List CreatureRef) {playerAdded : Bool} (h : n < 10)
    (hroom : player.isHere = true → InSight player playerAdded n creatures) :
    describeCreatures player after playerAdded n creatures
      = ((creatures.filter player.canSeeCreature).map Thing.creature ++ rest).take (10 - n) := by
  induction creatures generalizing n playerAdded with
  | nil => rw [describeCreatures, hafter n h, List.filter_nil, List.map_nil, List.nil_append]
  | cons c creatures ih =>
    rw [describeCreatures]
    cases hc : player.canSeeCreature c with
    | true =>
      have hself : (if player.isHere = true ∧ n = 9 ∧ (!playerAdded) = true then player.id else c) = c := by
        split_ifs with hcond
        · exact (((hroom hcond.1).of_seen hc).2 hcond.2.1 (by simpa using hcond.2.2)).symm
        · rfl
      simp only [hself, Bool.not_true, Bool.false_eq_true, if_false]
      rw [List.filter_cons_of_pos hc, List.map_cons, List.cons_append, take_cons h]
      split_ifs with hn
      · rw [hn, Nat.sub_self, List.take_zero]
      · rw [ih (by omega) fun hhere => ((hroom hhere).of_seen hc).1]
    | false =>
      rw [List.filter_cons_of_neg (by simp [hc])]
      exact ih h fun hhere => (hroom hhere).of_unseen hc

theorem describeTopItems_eq {after : Nat → List Thing} (items : List Ref) {m : Nat}
    (hafter : ∀ n < 10, (player.isHere = true → n = m + items.length) → after n = rest.take (10 - n)) (h : m < 10)
    (hroom : player.isHere = true → m + items.length ≤ 9) :
    describeTopItems player after m items = (items.map Thing.item ++ rest).take (10 - m) := by
  induction items generalizing m with
  | nil => rw [describeTopItems, hafter m h (fun _ => rfl), List.map_nil, List.nil_append]
  | cons x items ih =>
    rw [List.length_cons] at hroom hafter
    rw [describeTopItems, List.map_cons, List.cons_append, take_cons h]
    split_ifs with hnine hten
    · obtain rfl : items = [] := List.length_eq_zero_iff.mp (by have := hroom hnine.2; omega)
      rw [hafter (m + 1) (by omega) (fun _ => rfl), List.map_nil, List.nil_append]
    · rw [hten, Nat.sub_self, List.take_zero]
    · rw [ih (fun n hn hhere => hafter n hn fun hh => by rw [hhere hh]; omega) (by omega)
        fun hh => by have := hroom hh; omega]

theorem GetTileDescription_eq
    (h : player.isHere = true → InSight player false (w.ground.toList.length + w.topItems.length) w.creatures.reverse) :
    GetTileDescription player w.toTile = (w.seen player).take 10 := by
  have hlt := TileWorld.length_ground_lt w
  have hroom : player.isHere = true → w.ground.toList.length + w.topItems.length ≤ 9 := by
    intro hhere
    rcases h hhere with hf | ⟨l, l', -, hlen⟩
    · cases hf
    · omega
  have htake : ∀ l : List Thing, (w.ground.toList.map Thing.item ++ l).take 10
      = w.ground.toList.map Thing.item ++ l.take (10 - w.ground.toList.length) := by
    intro l
    rw [List.take_append, List.length_map, List.take_of_length_le]
    rw [List.length_map]
    omega
  have hafter : ∀ n < 10, (player.isHere = true → n = w.ground.toList.length + w.topItems.length) →
      describeCreatures player (fun count => describeDownItems count w.downItems) false n w.creatures.reverse
        = ((w.creatures.reverse.filter player.canSeeCreature).map Thing.creature ++
            w.downItems.map Thing.item).take (10 - n) := by
    intro n hn hhere
    exact describeCreatures_eq (fun n hn => describeDownItems_eq _ hn) _ hn fun hh => hhere hh ▸ h hh
  rw [GetTileDescription, TileWorld.seen, describeTopItems_eq w.topItems hafter hlt hroom, htake]

/-! ### The tenth place -/

theorem mem_describeCreatures (hhere : player.isHere = true) {after : Nat → List Thing} {creatures : List CreatureRef}
    (h : n ≤ 9) (hid : player.id ∈ creatures) :
    Thing.creature player.id ∈ describeCreatures player after false n creatures := by
  induction creatures generalizing n with
  | nil => exact absurd hid List.not_mem_nil
  | cons c creatures ih =>
    rw [describeCreatures]
    cases hc : player.canSeeCreature c with
    | true =>
      by_cases hnine : n = 9
      · simp [hhere, hnine]
      · by_cases hself : c = player.id
        · simp [hnine, hself]
        · have hid := (List.mem_cons.mp hid).resolve_left (Ne.symm hself)
          have hten : n + 1 ≠ 10 := fun hn => hnine (Nat.succ.inj hn)
          simp only [hnine, hself, false_and, and_false, if_false, Bool.not_true, Bool.false_eq_true, decide_false,
            Bool.or_false, hten]
          exact List.mem_cons_of_mem _ (ih (by omega) hid)
    | false =>
      have hne : player.id ≠ c := by
        rintro rfl
        cases hc.symm.trans player.canSeeCreature_self
      exact ih h ((List.mem_cons.mp hid).resolve_left hne)

theorem mem_describeTopItems {thing : Thing} (hhere : player.isHere = true) {after : Nat → List Thing} {items : List Ref}
    (h : n < 9) (hafter : ∀ n ≤ 9, thing ∈ after n) : thing ∈ describeTopItems player after n items := by
  induction items generalizing n with
  | nil => exact hafter n (Nat.le_of_lt h)
  | cons x items ih =>
    rw [describeTopItems]
    refine List.mem_cons_of_mem _ ?_
    split_ifs with hnine hten
    · exact hafter _ (by omega)
    · exact absurd hten (by omega)
    · exact ih (by have : n + 1 ≠ 9 := fun h => hnine ⟨h, hhere⟩; omega)

theorem mem_GetTileDescription (hhere : player.isHere = true) (hid : player.id ∈ w.creatures) :
    Thing.creature player.id ∈ GetTileDescription player w.toTile := by
  refine List.mem_append_right _ (mem_describeTopItems hhere ?_ fun n hn =>
    mem_describeCreatures hhere hn (List.mem_reverse.mpr hid))
  cases w.ground <;> simp

end ProtocolGame

namespace TileWorld
open ProtocolGame
variable {env : TileEnv} {w : TileWorld} {player : Viewer}

/-- The stack positions are the indices in the description. -/
structure Agrees (env : TileEnv) (w : TileWorld) (player : Viewer) : Prop where
  items : ∀ item, w.getStackposOfItem env player item = indexIn (.item item) (GetTileDescription player w.toTile)
  creatures : ∀ c, player.canSeeCreature c = true →
    w.getStackposOfCreature player c = indexIn (.creature c) (GetTileDescription player w.toTile)

/-- What the player sees before the player, on the own tile. -/
def seenBefore (w : TileWorld) (player : Viewer) : Nat :=
  w.ground.toList.length + w.topItems.length +
    ((w.creatures.reverse.takeWhile (· ≠ player.id)).filter player.canSeeCreature).length

theorem exists_takeWhile_ne {α : Type*} [DecidableEq α] {a : α} {l : List α} (h : a ∈ l) :
    ∃ l', l = l.takeWhile (· ≠ a) ++ a :: l' := by
  induction l with
  | nil => exact absurd h List.not_mem_nil
  | cons x l ih =>
    by_cases hx : x = a
    · subst hx
      exact ⟨l, by simp⟩
    · obtain ⟨l', hl'⟩ := ih ((List.mem_cons.mp h).resolve_left (Ne.symm hx))
      refine ⟨l', ?_⟩
      rw [List.takeWhile_cons_of_pos (by simpa using hx), List.cons_append, ← hl']

theorem indexIn_ne {thing : Thing} {l : List Thing} (h : thing ∈ l) : indexIn thing l ≠ -1 := by
  rcases hi : l.idxOf? thing with _ | i
  · exact absurd h (List.idxOf?_eq_none_iff.mp hi)
  · rw [indexIn, hi]
    exact fun h => nomatch h

/-- The stack positions are right just when the player is elsewhere or sees fewer than ten things before the player. -/
theorem agrees_iff (h : Indexed env w) (hid : player.isHere = true → player.id ∈ w.creatures) :
    Agrees env w player ↔ (player.isHere = true → w.seenBefore player ≤ 9) := by
  have hparts : player.isHere = true → ∃ l, w.creatures.reverse
      = w.creatures.reverse.takeWhile (· ≠ player.id) ++ player.id :: l :=
    fun hhere => exists_takeWhile_ne (List.mem_reverse.mpr (hid hhere))
  constructor
  · intro hagrees hhere
    refine of_not_not fun hfar => indexIn_ne (mem_GetTileDescription hhere (hid hhere)) ?_
    rw [← hagrees.creatures player.id player.canSeeCreature_self, getStackposOfCreature_eq player.canSeeCreature_self,
      ← place_zero]
    -- the player comes after ten things
    obtain ⟨l, hl⟩ := hparts hhere
    rw [seen, hl, List.filter_append, List.map_append, List.append_assoc, place_append (by simp), place_append (by simp),
      place_append]
    · refine place_of_le ?_
      simp only [List.length_map, Nat.zero_add]
      exact Nat.not_le.mp hfar
    · simp only [List.mem_map, List.mem_filter, Thing.creature.injEq, exists_eq_right]
      rintro ⟨hm, -⟩
      simpa using List.mem_takeWhile_imp hm
  · intro hroom
    have hdesc := GetTileDescription_eq (w := w) fun hhere => by
      obtain ⟨l, hl⟩ := hparts hhere
      exact .inr ⟨_, l, hl, hroom hhere⟩
    exact ⟨fun item => by rw [hdesc, getStackposOfItem_eq h], fun c hc => by rw [hdesc, getStackposOfCreature_eq hc]⟩

/-! ### A crowd -/

/-- The player is the last of eleven to come. -/
def crowd : TileWorld := { start itemOfType with creatures := List.range 11 }

/-- A player who sees everyone. -/
def lastComer : Viewer := ⟨0, true, fun _ => true, rfl⟩

def crowdEnv : TileEnv := ⟨fun id => plainType id .none, fun _ => .Item⟩

theorem indexed_crowd : Indexed crowdEnv crowd :=
  Ordered.indexed ⟨⟨Nat.le_refl _, List.nodup_nil, List.nodup_range⟩, nofun, nofun, .nil⟩

theorem agrees_iff_crowd : Agrees crowdEnv crowd lastComer ↔ (lastComer.isHere = true → crowd.seenBefore lastComer ≤ 9) :=
  agrees_iff indexed_crowd (by decide)

/-- The player is shown in the tenth place, and has no stack position. -/
theorem not_agrees_crowd : ¬∀ (env : TileEnv) (w : TileWorld) (player : Viewer), Indexed env w →
    (player.isHere = true → player.id ∈ w.creatures) → Agrees env w player := by
  intro h
  have hself := (h crowdEnv crowd lastComer indexed_crowd (by decide)).creatures 0 rfl
  exact absurd hself (by decide)

end TileWorld
end CrystalServer
