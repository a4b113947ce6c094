import CrystalServer.Creatures.Monsters.Monster
import CrystalServer.Lib.RunningBest

/-! # The targets of a monster

The counter of players follows the list where a target is added or removed by name. `updateTargetList`, `clearTargetList` and
`setIdle` drop targets without it, and so does the end of a creature. A run keeps the two equal exactly as long as nothing
drops a player so. The choice among the targets adds an offset to some of the values that it compares: the strategies are
right exactly where the offset does no harm. -/

namespace CrystalServer.Monster
open Lib

/-! ### Runs -/

/-- A monster, and the creatures that do not exist any more. -/
structure Scene where
  monster : Monster
  gone : List CreatureRef

/-- What happens to a monster. -/
inductive Event where
  | onCreatureEnter (now : Moment) (creature : CreatureRef)
  | onCreatureLeave (now : Moment) (creature : CreatureRef)
  | onCreatureFound (now : Moment) (creature : CreatureRef) (pushFront : Bool)
  | updateTargetList (now : Moment)
  | onFollowCreatureComplete (now : Moment) (creature : CreatureRef)
  | clearTargetList
  | setIdle (now : Moment) (idle : Bool)
  | destroy (creature : CreatureRef)

namespace Scene

def alive (s : Scene) (r : CreatureRef) : Bool := r ∉ s.gone

variable (table : CreatureTable)

def step (s : Scene) : Event → Scene
  | .onCreatureEnter now creature => { s with monster := s.monster.onCreatureEnter table s.alive now creature }
  | .onCreatureLeave now creature => { s with monster := s.monster.onCreatureLeave table s.alive now creature }
  | .onCreatureFound now creature pushFront =>
    { s with monster := s.monster.onCreatureFound table s.alive now creature pushFront }
  | .updateTargetList now => { s with monster := s.monster.updateTargetList table s.alive now }
  | .onFollowCreatureComplete now creature =>
    { s with monster := s.monster.onFollowCreatureComplete table s.alive now creature }
  | .clearTargetList => { s with monster := s.monster.clearTargetList }
  | .setIdle now idle => { s with monster := s.monster.setIdle now idle }
  | .destroy creature => { s with gone := creature :: s.gone }

end Scene

/-- How many references of a list are to players that are alive. -/
def players (table : CreatureTable) (alive : CreatureRef → Bool) (l : List CreatureRef) : Nat :=
  l.countP fun r => alive r && table.isPlayer r

/-- The creatures that an event may add. -/
def Event.arriving : Event → List CreatureRef
  | .onCreatureEnter _ creature | .onCreatureFound _ creature _ | .onFollowCreatureComplete _ creature => [creature]
  | .updateTargetList now => now.spectators
  | _ => []

/-- The creatures that an event is about. -/
def Event.about : Event → List CreatureRef
  | .onCreatureEnter _ creature | .onCreatureFound _ creature _ | .onCreatureLeave _ creature
  | .onFollowCreatureComplete _ creature => [creature]
  | .updateTargetList now => now.spectators
  | _ => []

variable (table : CreatureTable)

/-- An event is about creatures that exist, and the players on screen are fewer than a `uint16_t` has values. -/
structure Possible (s : Scene) (e : Event) : Prop where
  exist : ∀ r ∈ e.about, s.alive r
  room : players table s.alive s.monster.targetList + e.arriving.length < 65536

/-- How many listed players an event drops without the counter. -/
def dropped (s : Scene) : Event → Nat
  | .updateTargetList now =>
    if now.isAsync then
      players table s.alive (s.monster.targetList.filter fun r => !s.monster.stays s.alive now r)
    else 0
  | .clearTargetList => players table s.alive s.monster.targetList
  | .setIdle now idle =>
    if (now.creature s.monster.self).isRemoved ∨ (now.creature s.monster.self).health ≤ 0 ∨ !idle then 0
    else players table s.alive s.monster.targetList
  | .destroy creature => players table s.alive (s.monster.targetList.filter (· = creature))
  | _ => 0

/-- The list holds no creature twice, and the counter is the number of players in it. -/
structure Counted (s : Scene) : Prop where
  once : s.monster.targetList.Nodup
  total : s.monster.totalPlayersOnScreen.toNat = players table s.alive s.monster.targetList

/-- A monster without a master, of a faction of its own. -/
structure Wild (m : Monster) : Prop where
  master : m.master = none
  faction : m.info.faction ≠ .DEFAULT

/-! ### The list and the counter -/

section
variable {table} {alive : CreatureRef → Bool} {now : Moment} {m m' m'' : Monster} {creature : CreatureRef} {l : List CreatureRef}

/-- No reference stands in a list twice, and no two that are alive have one id. -/
structure Tidy (table : CreatureTable) (alive : CreatureRef → Bool) (l : List CreatureRef) : Prop where
  refs : l.Nodup
  ids : ∀ a ∈ l, ∀ b ∈ l, alive a → alive b → table.getID a = table.getID b → a = b

theorem Tidy.sublist {l' : List CreatureRef} (h : Tidy table alive l) (hsub : l'.Sublist l) : Tidy table alive l' :=
  ⟨h.refs.sublist hsub, fun a ha b hb => h.ids a (hsub.subset ha) b (hsub.subset hb)⟩

/-- What is fresh and alive may join. -/
theorem Tidy.cons (h : Tidy table alive l) (hc : alive creature) (hfresh : ¬l.any (isIt table alive creature)) :
    Tidy table alive (creature :: l) := by
  have hother : ∀ a ∈ l, alive a → table.getID a ≠ table.getID creature := by
    intro a ha halive hid
    exact hfresh (List.any_eq_true.mpr ⟨a, ha, by simp [isIt, halive, hid]⟩)
  refine ⟨List.nodup_cons.mpr ⟨fun hmem => hother creature hmem hc rfl, h.refs⟩, fun a ha b hb haa hab hid => ?_⟩
  rcases List.mem_cons.mp ha with rfl | ha' <;> rcases List.mem_cons.mp hb with rfl | hb'
  · rfl
  · exact absurd hid.symm (hother b hb' hab)
  · exact absurd hid (hother a ha' haa)
  · exact h.ids a ha' b hb' haa hab hid

theorem Tidy.perm {l' : List CreatureRef} (h : Tidy table alive l) (hp : l.Perm l') : Tidy table alive l' :=
  ⟨hp.nodup_iff.mp h.refs, fun a ha b hb => h.ids a (hp.mem_iff.mpr ha) b (hp.mem_iff.mpr hb)⟩

/-- The counter goes along with the list, which takes in at most so many players. -/
structure Follows (table : CreatureTable) (alive : CreatureRef → Bool) (k : Nat) (m m' : Monster) : Prop where
  self : m'.self = m.self
  wild : Wild m → Wild m'
  tidy : Tidy table alive m.targetList → Tidy table alive m'.targetList
  total : (m'.totalPlayersOnScreen.toNat + players table alive m.targetList) % 65536 =
    (m.totalPlayersOnScreen.toNat + players table alive m'.targetList) % 65536
  room : players table alive m'.targetList ≤ players table alive m.targetList + k

theorem Follows.trans {k k' : Nat} (h : Follows table alive k m m') (h' : Follows table alive k' m' m'') :
    Follows table alive (k + k') m m'' := by
  refine ⟨h'.self.trans h.self, h'.wild ∘ h.wild, h'.tidy ∘ h.tidy, ?_, ?_⟩
  · have h₁ := h.total
    have h₂ := h'.total
    omega
  · have h₁ := h.room
    have h₂ := h'.room
    omega

/-- What does not touch the list leaves the counter. -/
theorem Follows.of_eq (hself : m'.self = m.self) (hmaster : m'.master = m.master) (hinfo : m'.info = m.info)
    (hlist : m'.targetList = m.targetList) (htotal : m'.totalPlayersOnScreen = m.totalPlayersOnScreen) :
    Follows table alive 0 m m' := by
  refine ⟨hself, fun h => ⟨hmaster.trans h.master, hinfo ▸ h.faction⟩, fun h => hlist.symm ▸ h, ?_, ?_⟩
  · rw [hlist, htotal]
  · rw [hlist]
    exact Nat.le_refl _

theorem Follows.refl (m : Monster) : Follows table alive 0 m m := .of_eq rfl rfl rfl rfl rfl

theorem Follows.mono {k k' : Nat} (h : Follows table alive k m m') (hk : k ≤ k') : Follows table alive k' m m' :=
  ⟨h.self, h.wild, h.tidy, h.total, h.room.trans (Nat.add_le_add_left hk _)⟩

theorem Wild.getMaster (h : Wild m) : m.getMaster alive = none := by
  simp [Monster.getMaster, h.master]

theorem Wild.countsPlayer (h : Wild m) : m.countsPlayer table alive now creature = table.isPlayer creature := by
  simp [Monster.countsPlayer, Monster.getFaction, h.getMaster, h.faction]

theorem toNat_succ_ite (n : UInt16) (b : Bool) :
    (if b then n + 1 else n).toNat = (n.toNat + if b then 1 else 0) % 65536 := by
  cases b with
  | true => simp [UInt16.toNat_add]
  | false => simp

theorem toNat_pred_ite (n : UInt16) (b : Bool) :
    (if b then n - 1 else n).toNat = (n.toNat + if b then 65535 else 0) % 65536 := by
  cases b with
  | true =>
    have := n.toNat_lt
    rw [if_pos rfl, if_pos rfl, UInt16.toNat_sub]
    simp [Nat.add_comm]
  | false => simp

theorem players_cons (r : CreatureRef) (l : List CreatureRef) :
    players table alive (r :: l) = players table alive l + if alive r && table.isPlayer r then 1 else 0 := by
  rw [players, List.countP_cons, players]

theorem follows_addTarget (hw : Wild m) (hc : alive creature) (pushFront : Bool) :
    Follows table alive 1 m (m.addTarget table alive now creature pushFront).1 := by
  unfold addTarget
  split
  · exact (Follows.refl m).mono (Nat.zero_le 1)
  rename_i hfresh
  obtain ⟨-, hfresh⟩ := not_or.mp hfresh
  have hperm : (creature :: m.targetList).Perm
      (if pushFront then creature :: m.targetList else m.targetList ++ [creature]) := by
    cases pushFront with
    | true => exact .refl _
    | false => exact (List.perm_append_singleton creature m.targetList).symm
  have hplayers : players table alive (if pushFront then creature :: m.targetList else m.targetList ++ [creature]) =
      players table alive m.targetList + if table.isPlayer creature then 1 else 0 := by
    rw [players, ← hperm.countP_eq, ← players, players_cons, hc, Bool.true_and]
  refine ⟨rfl, fun h => ⟨h.master, h.faction⟩, fun h => (h.cons hc hfresh).perm hperm, ?_, ?_⟩
  · dsimp only
    rw [hplayers, hw.countsPlayer, toNat_succ_ite]
    omega
  · dsimp only
    rw [hplayers]
    split <;> omega

theorem follows_removeTarget (hw : Wild m) : Follows table alive 0 m (m.removeTarget table alive now creature).1 := by
  unfold removeTarget
  split
  · rename_i hany
    obtain ⟨a, ha, hit⟩ := List.any_eq_true.mp hany
    obtain ⟨r, l₁, l₂, -, hr, hl, herase⟩ := List.exists_of_eraseP ha hit
    simp only [isIt, Bool.and_eq_true, decide_eq_true_eq] at hr
    have hkind : table.isPlayer r = table.isPlayer creature := by
      rw [CreatureTable.isPlayer, table.kind_eq r creature hr.2, CreatureTable.isPlayer]
    have hplayers : players table alive m.targetList = players table alive (l₁ ++ l₂) +
        if table.isPlayer creature then 1 else 0 := by
      rw [hl, players, List.perm_middle.countP_eq, ← players, players_cons, hr.1, Bool.true_and, hkind]
    refine ⟨rfl, fun h => ⟨h.master, h.faction⟩, fun h => h.sublist (List.eraseP_sublist ..), ?_, ?_⟩
    · dsimp only
      rw [herase, hplayers, hw.countsPlayer, toNat_pred_ite]
      split <;> omega
    · dsimp only
      rw [herase, hplayers]
      omega
  · exact Follows.refl m

theorem follows_setIdle (h : m.targetList = [] ∨ idle = false) : Follows table alive 0 m (m.setIdle now idle) := by
  unfold setIdle
  split
  · exact Follows.refl m
  dsimp only
  split
  · rename_i hidle
    have hnil : m.targetList = [] := h.resolve_right (by simp [hidle])
    unfold onIdleStatus
    dsimp only
    split <;> exact .of_eq rfl rfl rfl hnil.symm rfl
  · exact .of_eq rfl rfl rfl rfl rfl

/-- A monster without a master becomes idle by itself only when its list is empty. -/
theorem follows_updateIdleStatus (hw : Wild m) : Follows table alive 0 m (m.updateIdleStatus table alive now) := by
  unfold updateIdleStatus
  rw [isSummon, hw.getMaster]
  simp only [Option.isSome_none, Bool.not_false, Bool.true_and, Option.any_none, Bool.false_eq_true, if_false]
  split
  · exact Follows.refl m
  split
  · split
    · rename_i hempty
      split
      · exact follows_setIdle (.inl (List.isEmpty_iff.mp hempty))
      · have hback : Follows table alive 0 m { m with isWalkingBack := true } := .of_eq rfl rfl rfl rfl rfl
        exact hback.trans (follows_setIdle (.inr rfl))
    · exact follows_setIdle (.inr rfl)
  · exact follows_setIdle (.inr rfl)

theorem follows_onCreatureFound (hw : Wild m) (hc : alive creature) (pushFront : Bool) :
    Follows table alive 1 m (m.onCreatureFound table alive now creature pushFront) := by
  have hfriend : Follows table alive 0 m
      (if m.isFriend table alive now creature then m.addFriend table creature else m) := by
    unfold addFriend
    split
    · split
      · exact Follows.refl m
      · exact .of_eq rfl rfl rfl rfl rfl
    · exact Follows.refl m
  unfold onCreatureFound
  dsimp only
  generalize hm₁ : (if m.isFriend table alive now creature then m.addFriend table creature else m) = m₁ at hfriend ⊢
  have htarget : Follows table alive 1 m₁ (if m₁.isOpponent table alive now creature then
      (m₁.addTarget table alive now creature pushFront).1 else m₁) := by
    split
    · exact follows_addTarget (hfriend.wild hw) hc pushFront
    · exact (Follows.refl m₁).mono (Nat.zero_le 1)
  have h := hfriend.trans htarget
  exact h.trans (follows_updateIdleStatus (h.wild hw))

theorem follows_onCreatureLeave (hw : Wild m) :
    Follows table alive 0 m (m.onCreatureLeave table alive now creature) := by
  have hfriend : Follows table alive 0 m
      (if m.isFriend table alive now creature then m.removeFriend table alive creature else m) := by
    split
    · exact .of_eq rfl rfl rfl rfl rfl
    · exact Follows.refl m
  unfold onCreatureLeave
  dsimp only
  generalize hm₁ : (if m.isFriend table alive now creature then m.removeFriend table alive creature else m) = m₁
    at hfriend ⊢
  split
  · have htarget : Follows table alive 0 m₁ (m₁.removeTarget table alive now creature).1 :=
      follows_removeTarget (hfriend.wild hw)
    have h := hfriend.trans htarget
    split
    · exact h.trans (follows_updateIdleStatus (h.wild hw))
    · exact h
  · exact hfriend

/-- A follower that is lost and found again is counted once: it makes room for itself. -/
theorem follows_onFollowCreatureComplete (hw : Wild m) (hc : alive creature) :
    Follows table alive 1 m (m.onFollowCreatureComplete table alive now creature) := by
  have hremove : Follows table alive 0 m (m.removeTarget table alive now creature).1 := follows_removeTarget hw
  unfold onFollowCreatureComplete
  dsimp only
  split
  · exact hremove.trans (follows_addTarget (hremove.wild hw) hc _)
  · exact hremove.mono (Nat.zero_le 1)

variable (table now) in
/-- The loop over the spectators adds one at a time. -/
theorem follows_foldl (hw : Wild m) (spectators : List CreatureRef) (halive : ∀ r ∈ spectators, alive r) :
    Follows table alive spectators.length m (spectators.foldl (fun m spectator =>
      if spectator ≠ m.self ∧ m.canSee now spectator then m.onCreatureFound table alive now spectator false else m) m) := by
  induction spectators generalizing m with
  | nil => exact Follows.refl m
  | cons r rest ih =>
    obtain ⟨hr, hrest⟩ := List.forall_mem_cons.mp halive
    have hfound : Follows table alive 1 m
        (if r ≠ m.self ∧ m.canSee now r then m.onCreatureFound table alive now r false else m) := by
      split
      · exact follows_onCreatureFound hw hr false
      · exact (Follows.refl m).mono (Nat.zero_le 1)
    rw [List.length_cons, Nat.add_comm]
    exact hfound.trans (ih (hfound.wild hw) hrest)

theorem countP_filter_not_add (keep counts : CreatureRef → Bool) (l : List CreatureRef) :
    (l.filter keep).countP counts + (l.filter fun r => !keep r).countP counts = l.countP counts := by
  rw [List.countP_filter, List.countP_filter, List.countP_eq_countP_filter_add l counts keep, List.countP_filter,
    List.countP_filter]

theorem players_filter_le (keep : CreatureRef → Bool) (l : List CreatureRef) :
    players table alive (l.filter keep) ≤ players table alive l :=
  List.Sublist.countP_le List.filter_sublist

variable (table) in
theorem dropped_le (s : Scene) (e : Event) : dropped table s e ≤ players table s.alive s.monster.targetList := by
  cases e with
  | updateTargetList now =>
    rw [dropped]
    split
    · exact players_filter_le _ _
    · exact Nat.zero_le _
  | clearTargetList => exact Nat.le_refl _
  | setIdle now idle =>
    rw [dropped]
    split
    · exact Nat.zero_le _
    · exact Nat.le_refl _
  | destroy creature => exact players_filter_le _ _
  | _ => exact Nat.zero_le _

end

/-! ### An event -/

section
variable {table} {s : Scene} {e : Event}

/-- What an event does to the list and the counter: the counter goes along but for what is dropped. -/
structure Goes (table : CreatureTable) (s t : Scene) (d : Nat) : Prop where
  wild : Wild s.monster → Wild t.monster
  tidy : Tidy table s.alive s.monster.targetList → Tidy table t.alive t.monster.targetList
  total : (t.monster.totalPlayersOnScreen.toNat + players table s.alive s.monster.targetList) % 65536 =
    (s.monster.totalPlayersOnScreen.toNat + players table t.alive t.monster.targetList + d) % 65536
  room : players table t.alive t.monster.targetList < 65536

/-- An event that ends nobody. -/
theorem Goes.of_monster {m : Monster} {d : Nat} (hwild : Wild s.monster → Wild m)
    (htidy : Tidy table s.alive s.monster.targetList → Tidy table s.alive m.targetList)
    (htotal : (m.totalPlayersOnScreen.toNat + players table s.alive s.monster.targetList) % 65536 =
      (s.monster.totalPlayersOnScreen.toNat + players table s.alive m.targetList + d) % 65536)
    (hroom : players table s.alive m.targetList < 65536) : Goes table s { s with monster := m } d :=
  ⟨hwild, htidy, htotal, hroom⟩

theorem Goes.of_follows {k : Nat} {m : Monster} (h : Follows table s.alive k s.monster m)
    (hroom : players table s.alive s.monster.targetList + k < 65536) : Goes table s { s with monster := m } 0 :=
  ⟨h.wild, h.tidy, h.total, Nat.lt_of_le_of_lt h.room hroom⟩

theorem goes_clear {m : Monster} (hwild : Wild s.monster → Wild m) (hlist : m.targetList = [])
    (htotal : m.totalPlayersOnScreen = s.monster.totalPlayersOnScreen) :
    Goes table s { s with monster := m } (players table s.alive s.monster.targetList) := by
  refine ⟨hwild, fun h => ?_, ?_, ?_⟩
  · dsimp only
    rw [hlist]
    exact h.sublist (List.nil_sublist _)
  · dsimp only
    rw [hlist, htotal]
    simp [players]
  · dsimp only
    rw [hlist]
    simp [players]

theorem goes_updateTargetList {now : Moment} (hw : Wild s.monster) (hp : Possible table s (.updateTargetList now)) :
    Goes table s (s.step table (.updateTargetList now)) (dropped table s (.updateTargetList now)) := by
  obtain ⟨hexist, hroom⟩ := hp
  change ∀ r ∈ now.spectators, s.alive r at hexist
  change players table s.alive s.monster.targetList + now.spectators.length < 65536 at hroom
  change Goes table s { s with monster := s.monster.updateTargetList table s.alive now } _
  rw [dropped, updateTargetList]
  cases hasync : now.isAsync with
  | false => exact Goes.of_follows (Follows.refl _) (Nat.lt_of_le_of_lt (Nat.le_add_right _ _) hroom)
  | true =>
    -- The lists are filtered first; what the counter misses is what the filter takes out.
    have hfilter : players table s.alive (s.monster.targetList.filter (s.monster.stays s.alive now)) +
        players table s.alive (s.monster.targetList.filter fun r => !s.monster.stays s.alive now r) =
          players table s.alive s.monster.targetList := countP_filter_not_add _ _ _
    generalize hm : ({ s.monster with
      friendList := s.monster.friendList.filter fun it => s.monster.stays s.alive now it.2
      targetList := s.monster.targetList.filter (s.monster.stays s.alive now) } : Monster) = m
    have hlist : m.targetList = s.monster.targetList.filter (s.monster.stays s.alive now) := hm ▸ rfl
    have htotal : m.totalPlayersOnScreen = s.monster.totalPlayersOnScreen := hm ▸ rfl
    have hwild : Wild m := hm ▸ ⟨hw.master, hw.faction⟩
    have hfold := follows_foldl table now hwild now.spectators hexist
    refine Goes.of_monster (fun _ => hfold.wild hwild)
      (fun h => hfold.tidy (hlist ▸ h.sublist List.filter_sublist)) ?_ ?_
    · have h := hfold.total
      rw [hlist, htotal] at h
      simp only [Bool.not_true, Bool.false_eq_true, if_false, if_true]
      omega
    · have h := hfold.room
      rw [hlist] at h
      simp only [Bool.not_true, Bool.false_eq_true, if_false]
      omega

theorem goes_setIdle {now : Moment} {idle : Bool} (hp : Possible table s (.setIdle now idle)) :
    Goes table s (s.step table (.setIdle now idle)) (dropped table s (.setIdle now idle)) := by
  have hroom : players table s.alive s.monster.targetList + 0 < 65536 := hp.room
  by_cases hlive : (now.creature s.monster.self).isRemoved ∨ (now.creature s.monster.self).health ≤ 0 ∨ !idle
  · have hd : dropped table s (.setIdle now idle) = 0 := if_pos hlive
    rw [hd]
    refine Goes.of_follows ?_ hroom
    rw [← or_assoc] at hlive
    unfold setIdle
    split
    · exact Follows.refl _
    · rename_i hout
      have hidle : idle = false := by simpa using hlive.resolve_left hout
      rw [hidle]
      exact .of_eq rfl rfl rfl rfl rfl
  · have hd : dropped table s (.setIdle now idle) = players table s.alive s.monster.targetList := if_neg hlive
    obtain ⟨hremoved, hhealth, hidle⟩ := (by simpa [not_or] using hlive :
      (now.creature s.monster.self).isRemoved = false ∧ 0 < (now.creature s.monster.self).health ∧ idle = true)
    have hset : s.monster.setIdle now idle = { s.monster with
        isIdle := true, damageMap := fun _ => none, targetList := [], friendList := [] } := by
      simp [setIdle, hremoved, hidle, Int.not_le.mpr hhealth, onIdleStatus, hhealth, clearTargetList, clearFriendList]
    rw [hd, Scene.step, hset]
    exact goes_clear (fun h => ⟨h.master, h.faction⟩) rfl rfl

theorem goes_destroy (creature : CreatureRef) (hp : Possible table s (.destroy creature)) :
    Goes table s (s.step table (.destroy creature)) (dropped table s (.destroy creature)) := by
  have hroom : players table s.alive s.monster.targetList + 0 < 65536 := hp.room
  have halive : ∀ r, (s.step table (.destroy creature)).alive r = (s.alive r && !decide (r = creature)) := by
    intro r
    simp [Scene.alive, Scene.step, Bool.and_comm]
  have hplayers : players table (s.step table (.destroy creature)).alive s.monster.targetList +
      dropped table s (.destroy creature) = players table s.alive s.monster.targetList := by
    have hleft : players table (s.step table (.destroy creature)).alive s.monster.targetList =
        players table s.alive (s.monster.targetList.filter fun r => !decide (r = creature)) := by
      rw [players, players, List.countP_filter]
      refine List.countP_congr fun r _ => ?_
      rw [halive]
      simp [and_right_comm]
    have hright : dropped table s (.destroy creature) =
        players table s.alive (s.monster.targetList.filter fun r => !!decide (r = creature)) := by
      simp only [Bool.not_not]
      rfl
    rw [hleft, hright]
    exact countP_filter_not_add _ _ _
  refine ⟨fun h => h, fun h => ⟨h.refs, fun a ha b hb haa hab => ?_⟩, ?_, ?_⟩
  · rw [halive, Bool.and_eq_true] at haa hab
    exact h.ids a ha b hb haa.1 hab.1
  · change (s.monster.totalPlayersOnScreen.toNat + _) % 65536 = (s.monster.totalPlayersOnScreen.toNat + players table
      (s.step table (.destroy creature)).alive s.monster.targetList + _) % 65536
    omega
  · change players table (s.step table (.destroy creature)).alive s.monster.targetList < 65536
    omega

theorem goes_step (hw : Wild s.monster) (hp : Possible table s e) : Goes table s (s.step table e) (dropped table s e) := by
  obtain ⟨hexist, hroom⟩ := hp
  cases e with
  | onCreatureEnter now creature =>
    exact Goes.of_follows (follows_onCreatureFound hw (hexist creature List.mem_cons_self) true) hroom
  | onCreatureLeave now creature => exact Goes.of_follows (follows_onCreatureLeave hw) hroom
  | onCreatureFound now creature pushFront =>
    exact Goes.of_follows (follows_onCreatureFound hw (hexist creature List.mem_cons_self) pushFront) hroom
  | updateTargetList now => exact goes_updateTargetList hw ⟨hexist, hroom⟩
  | onFollowCreatureComplete now creature =>
    exact Goes.of_follows (follows_onFollowCreatureComplete hw (hexist creature List.mem_cons_self)) hroom
  | clearTargetList => exact goes_clear (fun h => ⟨h.master, h.faction⟩) rfl rfl
  | setIdle now idle => exact goes_setIdle ⟨hexist, hroom⟩
  | destroy creature => exact goes_destroy creature ⟨hexist, hroom⟩

/-- The event keeps the count exactly if it drops no listed player. -/
theorem counted_step_iff (hw : Wild s.monster) (htidy : Tidy table s.alive s.monster.targetList) (hs : Counted table s)
    (hp : Possible table s e) : Counted table (s.step table e) ↔ dropped table s e = 0 := by
  have hgoes := goes_step hw hp
  have htotal := hgoes.total
  have hroom := hgoes.room
  have hle := dropped_le table s e
  have hlt := hp.room
  have hbound := (s.step table e).monster.totalPlayersOnScreen.toNat_lt
  rw [hs.total] at htotal
  constructor
  · intro h
    have := h.total
    omega
  · intro hd
    exact ⟨(hgoes.tidy htidy).refs, by omega⟩

end

/-- From a new monster on, the list and the counter agree in every state of a run exactly if no event of it drops a listed
    player. -/
theorem counted_run_iff {table : CreatureTable} {s : Scene} (hw : Wild s.monster) (hlist : s.monster.targetList = [])
    (htotal : s.monster.totalPlayersOnScreen = 0) {events : List Event}
    (hp : Meets (Scene.step table) (Possible table) s events) :
    (∀ xs, xs <+: events → Counted table (run (Scene.step table) s xs)) ↔
      Meets (Scene.step table) (fun s e => dropped table s e = 0) s events := by
  have htidy : Tidy table s.alive s.monster.targetList := by
    rw [hlist]
    exact ⟨List.nodup_nil, by simp⟩
  have hcounted : Counted table s := by
    refine ⟨htidy.refs, ?_⟩
    rw [hlist, htotal]
    rfl
  exact (meets_iff_forall_part_of (fun s => Wild s.monster ∧ Tidy table s.alive s.monster.targetList) (Counted table)
    (fun s e h he => ⟨(goes_step h.1 he).wild h.1, (goes_step h.1 he).tidy h.2⟩)
    (fun s e h hc he => counted_step_iff h.1 h.2 hc he) ⟨hw, htidy⟩ hcounted hp).symm

/-- The monster is creature 0, creature 1 is a player. -/
def pair : CreatureTable where
  getID := UInt32.ofNat
  kind r := if UInt32.ofNat r = 1 then .player else .monster
  kind_eq _ _ h := by rw [h]

def lion : Monster where
  self := 0
  master := none
  info := ⟨.LION, [.LIONUSURPERS], true, 100, 0, 0⟩
  targetDistance := 1
  attackRanges := []
  canSeeInvisibility := false
  damageMap _ := none
  friendList := []
  targetList := []
  totalPlayersOnScreen := 0
  isIdle := true
  isWalkingBack := false

/-- The lion, and the player at `x` on its row. -/
def savanna (x : UInt16) : Moment where
  creature r :=
    ⟨⟨if r = 0 then 100 else x, 100, 7⟩, 100, if r = 0 then .LION else .PLAYER, none, false, false, true, false, .NORMAL, false,
      false⟩
  spectators := []
  map := ⟨fun _ _ _ => none⟩
  isPartner _ _ := false
  masterIsEnemyFaction _ := false
  masterPlayersOnScreen := 0
  isAsync := true
  isWalkGroup := false
  noConditions := true
  isInSpawnLocation := true
  hasFollowPath := false
  setFollowCreature _ := true

theorem wild_lion : Wild lion := ⟨rfl, by decide⟩

def visit : List Event := [.onCreatureEnter (savanna 101) 1, .onCreatureLeave (savanna 101) 1]

theorem possible_visit : Meets (Scene.step pair) (Possible pair) ⟨lion, []⟩ visit :=
  ⟨⟨by decide, by decide⟩, ⟨by decide, by decide⟩, trivial⟩

theorem meets_visit : Meets (Scene.step pair) (fun s e => dropped pair s e = 0) ⟨lion, []⟩ visit := ⟨rfl, rfl, trivial⟩

/-- A player comes and leaves. -/
theorem counted_run_lion : Meets (Scene.step pair) (fun s e => dropped pair s e = 0) ⟨lion, []⟩ visit ∧
    ∀ xs, xs <+: visit → Counted pair (run (Scene.step pair) ⟨lion, []⟩ xs) :=
  ⟨meets_visit, (counted_run_iff wild_lion rfl rfl possible_visit).mpr meets_visit⟩

/-- A player comes and walks out of sight: the list is empty, and the counter still is 1. -/
theorem counted_run_stale : ¬∀ (table : CreatureTable) (s : Scene) (events : List Event), Wild s.monster →
    s.monster.targetList = [] → s.monster.totalPlayersOnScreen = 0 → Meets (Scene.step table) (Possible table) s events →
      ∀ xs, xs <+: events → Counted table (run (Scene.step table) s xs) := by
  intro h
  have hlast := h pair ⟨lion, []⟩ [.onCreatureEnter (savanna 101) 1, .updateTargetList (savanna 200)] wild_lion rfl rfl
    ⟨⟨by decide, by decide⟩, ⟨by simp [Event.about, savanna], by decide⟩, trivial⟩ _ List.prefix_rfl
  exact absurd hlast.total (by decide)

/-! ### The choice among the targets -/

section
variable {table : CreatureTable} {alive : CreatureRef → Bool} {now : Moment} {m : Monster} {first : CreatureRef}
  {rest : List CreatureRef} {f : Faction}

/-- Whatever is drawn, the strategy selects a target of the list than which none is better. -/
def SelectsBest (table : CreatureTable) (alive : CreatureRef → Bool) (now : Moment) (m : Monster)
    (searchType : TargetSearchType) (better : CreatureRef → CreatureRef → Prop) : Prop :=
  ∀ rnd index, ∃ c ∈ m.resultList table alive now, m.searchTarget table alive now searchType rnd index = some c ∧
    ∀ c' ∈ m.resultList table alive now, better c c'

/-- What a creature has dealt to the monster. -/
def damage (table : CreatureTable) (m : Monster) (c : CreatureRef) : Int := (m.damageMap (table.getID c)).getD 0

theorem selectsBest_iff {searchType : TargetSearchType} {better : CreatureRef → CreatureRef → Prop} {c : CreatureRef}
    (hsearch : ∀ rnd index, m.searchTarget table alive now searchType rnd index = some c)
    (hc : c ∈ m.resultList table alive now) : SelectsBest table alive now m searchType better ↔
      ∀ c' ∈ m.resultList table alive now, better c c' := by
  constructor
  · intro h
    obtain ⟨d, -, hd, hbest⟩ := h 0 0
    rw [hsearch] at hd
    obtain rfl := Option.some.inj hd
    exact hbest
  · exact fun h rnd index => ⟨c, hc, hsearch rnd index, h⟩

theorem value_nonneg (f : Faction) : 0 ≤ f.value := by
  cases f <;> decide

theorem searchNearest_eq : m.searchNearest now first rest =
    (rest.foldl (takeLess fun c => m.range now c + factionOf now first * 100) (first, m.range now first)).1 := rfl

theorem searchNearest_mem : m.searchNearest now first rest ∈ first :: rest := by
  rw [searchNearest_eq]
  rcases foldl_takeLess (fun c => m.range now c + factionOf now first * 100) rest (first, m.range now first) with
    ⟨hfold, -⟩ | ⟨a, ha, hfold, -⟩
  · rw [hfold]
    exact List.mem_cons_self
  · rw [hfold]
    exact List.mem_cons_of_mem first ha

/-- The first target has no offset against it: it is kept unless another one is nearer by more than the offset. -/
theorem searchNearest_best_iff : (∀ c ∈ first :: rest, m.range now (m.searchNearest now first rest) ≤ m.range now c) ↔
    (∀ c ∈ rest, m.range now first ≤ m.range now c) ∨
      ∃ c ∈ rest, m.range now c + factionOf now first * 100 < m.range now first := by
  have hoff : 0 ≤ factionOf now first := value_nonneg _
  rw [searchNearest_eq]
  rcases foldl_takeLess (fun c => m.range now c + factionOf now first * 100) rest (first, m.range now first) with
    ⟨hfold, hleast⟩ | ⟨a, ha, hfold, hlt, hleast⟩
  · rw [hfold, List.forall_mem_cons, and_iff_right (le_refl _)]
    refine (or_iff_left ?_).symm
    rintro ⟨c, hc, hlt⟩
    exact absurd hlt (not_lt.mpr (hleast c hc))
  · rw [hfold]
    refine iff_of_true (List.forall_mem_cons.mpr ⟨?_, fun c hc => ?_⟩) (.inr ⟨a, ha, hlt⟩)
    · dsimp only at hlt ⊢
      omega
    · have := hleast c hc
      dsimp only at this ⊢
      omega

theorem searchHp_fold (hf : ∀ c ∈ rest, (now.creature c).faction = f) (t : CreatureRef) (v : Int) :
    (rest.foldl (fun (s : HpSearch) creature =>
      let hp := (now.creature creature).health + s.factionOffset
      let s := { s with factionOffset := factionOf now creature * 100000 }
      if hp < s.minHp then { s with getTarget := creature, minHp := hp } else s) ⟨t, v, f.value * 100000⟩).getTarget =
      (rest.foldl (takeLess fun c => (now.creature c).health + f.value * 100000) (t, v)).1 := by
  induction rest generalizing t v with
  | nil => rfl
  | cons x rest ih =>
    obtain ⟨hx, hrest⟩ := List.forall_mem_cons.mp hf
    have hoff : factionOf now x * 100000 = f.value * 100000 := by rw [factionOf, hx]
    rw [List.foldl_cons, List.foldl_cons]
    dsimp only
    rw [hoff, takeLess]
    by_cases hlt : (now.creature x).health + f.value * 100000 < v
    · rw [if_pos hlt, if_pos hlt]
      exact ih hrest x _
    · rw [if_neg hlt, if_neg hlt]
      exact ih hrest t v

/-- Where all targets are of one faction, all values have the same offset. -/
theorem searchHp_best (hf : ∀ c ∈ first :: rest, (now.creature c).faction = f) : searchHp now first rest ∈ first :: rest ∧
    ∀ c ∈ first :: rest, (now.creature (searchHp now first rest)).health ≤ (now.creature c).health := by
  obtain ⟨hfirst, hrest⟩ := List.forall_mem_cons.mp hf
  have heq : searchHp now first rest = (rest.foldl (takeLess fun c => (now.creature c).health + f.value * 100000)
      (first, (now.creature first).health + f.value * 100000)).1 := by
    rw [searchHp, factionOf, hfirst]
    exact searchHp_fold hrest _ _
  rw [heq]
  rcases foldl_takeLess (fun c => (now.creature c).health + f.value * 100000) rest
      (first, (now.creature first).health + f.value * 100000) with ⟨hfold, hleast⟩ | ⟨a, ha, hfold, hlt, hleast⟩
  · rw [hfold]
    refine ⟨List.mem_cons_self, List.forall_mem_cons.mpr ⟨le_refl _, fun c hc => ?_⟩⟩
    have := hleast c hc
    dsimp only at this ⊢
    omega
  · rw [hfold]
    refine ⟨List.mem_cons_of_mem first ha, List.forall_mem_cons.mpr ⟨?_, fun c hc => ?_⟩⟩
    · dsimp only at hlt ⊢
      omega
    · have := hleast c hc
      dsimp only at this ⊢
      omega

theorem searchDamage_eq (hf : ∀ c ∈ rest, (now.creature c).faction = f) : m.searchDamage table now first rest =
    (rest.foldl (takeOver (fun c => m.damageMap (table.getID c)) (f.value * 100000)) (first, 0)).1 := by
  rw [searchDamage]
  congr 1
  refine List.foldl_ext _ _ _ fun s c hc => ?_
  obtain ⟨t, v⟩ := s
  rw [factionOf, hf c hc]
  cases hd : m.damageMap (table.getID c) <;> simp only [takeOver, hd]

theorem searchDamage_mem (hf : ∀ c ∈ rest, (now.creature c).faction = f) :
    m.searchDamage table now first rest ∈ first :: rest := by
  rw [searchDamage_eq hf]
  rcases foldl_takeOver (fun c => m.damageMap (table.getID c)) (f.value * 100000) rest (first, 0) with
    ⟨hfold, -⟩ | ⟨xs, a, ys, v, hl, -, hfold, -⟩
  · rw [hfold]
    exact List.mem_cons_self
  · rw [hfold]
    exact List.mem_cons_of_mem first (by simp [hl])

/-- When the nearest target is selected, of targets in this order. -/
def NearestFits (now : Moment) (m : Monster) (first : CreatureRef) (rest : List CreatureRef) : Prop :=
  (∀ c ∈ rest, m.range now first ≤ m.range now c) ∨
    ∃ c ∈ rest, m.range now c + factionOf now first * 100 < m.range now first

/-- When the target that has dealt most is selected, of targets in this order: nobody but the first counts and the first has
    dealt most, or one that has dealt most counts, and nobody after it gets over its damage with the offset. -/
def DamageFits (table : CreatureTable) (now : Moment) (m : Monster) (first : CreatureRef) (rest : List CreatureRef) : Prop :=
  ((∀ c ∈ rest, ∀ total, m.damageMap (table.getID c) = some total → total + factionOf now first * 100000 ≤ 0) ∧
    ∀ c ∈ rest, damage table m c ≤ damage table m first) ∨
  ∃ xs c ys total, rest = xs ++ c :: ys ∧ m.damageMap (table.getID c) = some total ∧
    0 < total + factionOf now first * 100000 ∧
    (∀ c' ∈ ys, ∀ total', m.damageMap (table.getID c') = some total' →
      total' + factionOf now first * 100000 ≤ total) ∧
    ∀ c' ∈ first :: rest, damage table m c' ≤ total

/-- Which strategies find their target, of eligible ones of one faction that may be selected. -/
theorem searchTarget_best_iff (hlist : m.resultList table alive now = first :: rest)
    (hfaction : ∀ c ∈ m.resultList table alive now, (now.creature c).faction = f)
    (hselect : ∀ c ∈ m.resultList table alive now, m.selectTarget table alive now c) :
    (SelectsBest table alive now m .NEAREST (fun c c' => m.range now c ≤ m.range now c') ∧
      SelectsBest table alive now m .HP (fun c c' => (now.creature c).health ≤ (now.creature c').health) ∧
      SelectsBest table alive now m .DAMAGE (fun c c' => damage table m c' ≤ damage table m c)) ↔
      NearestFits now m first rest ∧ DamageFits table now m first rest := by
  rw [hlist] at hfaction hselect
  obtain ⟨hfirst, hrest⟩ := List.forall_mem_cons.mp hfaction
  have hnearest : m.searchNearest now first rest ∈ first :: rest := searchNearest_mem
  obtain ⟨hhp, hhpBest⟩ := searchHp_best hfaction
  have hdamage : m.searchDamage table now first rest ∈ first :: rest := searchDamage_mem hrest
  have hoff : factionOf now first = f.value := by rw [factionOf, hfirst]
  rw [selectsBest_iff (c := m.searchNearest now first rest) (fun _ _ => by simp [searchTarget, hlist, hselect _ hnearest])
      (hlist ▸ hnearest),
    selectsBest_iff (c := searchHp now first rest) (fun _ _ => by simp [searchTarget, hlist, hselect _ hhp]) (hlist ▸ hhp),
    selectsBest_iff (c := m.searchDamage table now first rest)
      (fun _ _ => by simp [searchTarget, hlist, hselect _ hdamage]) (hlist ▸ hdamage), hlist]
  refine and_congr searchNearest_best_iff ((and_iff_right hhpBest).trans ?_)
  rw [searchDamage_eq hrest, DamageFits, hoff]
  exact foldl_takeOver_greatest_iff (by have := value_nonneg f; omega)

end

/-- Two usurpers, the one five squares away from the lion and the other beside it. -/
def ambush : Moment :=
  { savanna 101 with creature := fun r =>
    ⟨⟨if r = 0 then 100 else if r = 1 then 105 else 101, 100, 7⟩, 100, if r = 0 then .LION else .LIONUSURPERS, none, false, false,
      true, false, .NORMAL, false, false⟩ }

/-- With the near one first in the list, all strategies find their target. -/
theorem searchTarget_best_near :
    SelectsBest pair (fun _ => true) ambush { lion with targetList := [2, 1] } .NEAREST
      (fun c c' => lion.range ambush c ≤ lion.range ambush c') ∧
    SelectsBest pair (fun _ => true) ambush { lion with targetList := [2, 1] } .HP
      (fun c c' => (ambush.creature c).health ≤ (ambush.creature c').health) ∧
    SelectsBest pair (fun _ => true) ambush { lion with targetList := [2, 1] } .DAMAGE
      (fun c c' => damage pair lion c' ≤ damage pair lion c) :=
  (@searchTarget_best_iff pair (fun _ => true) ambush { lion with targetList := [2, 1] } 2 [1] .LIONUSURPERS rfl (by decide)
    (by decide)).mpr
    ⟨.inl (by decide), .inl ⟨fun c _ total h => absurd h (by simp [lion]), by decide⟩⟩

/-- With the far one first, the lion goes for it: the near one has an offset of 300 against it. -/
theorem searchTarget_far : ¬∀ (table : CreatureTable) (alive : CreatureRef → Bool) (now : Moment) (m : Monster) (f : Faction),
    m.resultList table alive now ≠ [] → (∀ c ∈ m.resultList table alive now, (now.creature c).faction = f) →
      (∀ c ∈ m.resultList table alive now, m.selectTarget table alive now c) →
        SelectsBest table alive now m .NEAREST (fun c c' => m.range now c ≤ m.range now c') ∧
        SelectsBest table alive now m .HP (fun c c' => (now.creature c).health ≤ (now.creature c').health) ∧
        SelectsBest table alive now m .DAMAGE (fun c c' => damage table m c' ≤ damage table m c) := by
  intro h
  obtain ⟨hnearest, -⟩ := h pair (fun _ => true) ambush { lion with targetList := [1, 2] } .LIONUSURPERS (by decide) (by decide)
    (by decide)
  obtain ⟨c, -, hc, hbest⟩ := hnearest 0 0
  have hfar : ({ lion with targetList := [1, 2] } : Monster).searchTarget pair (fun _ => true) ambush .NEAREST 0 0 = some 1 := by
    decide
  obtain rfl := Option.some.inj (hfar.symm.trans hc)
  exact absurd (hbest 2 (by decide)) (by decide)

end CrystalServer.Monster
