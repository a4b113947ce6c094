import CrystalServer.Creatures.Monsters.SpawnMonster
import CrystalServer.Lib.Run
import Mathlib.Data.List.Perm.Basic

/-! # Respawns keep their discipline

A block has at most one monster. A monster whose death is noticed leaves its block alone for the block's interval, as long as no
check starts a spawn where a chain of scheduled steps is on its way already; and as long as no check finds a player where a type
that is not blockable is due, the setting to block respawns is kept. -/

namespace CrystalServer.Spawns
open Lib Spawns.World
variable {setup : Setup} {s : Surroundings} {w : World} {id : UInt32} {placed : Bool}

/-! ### The discipline -/

/-- Each block has at most one living monster. -/
def AtMostOne (w : World) : Prop := ∀ id, (w.alive.filter fun m => m.spawnMonsterId = id).length ≤ 1

/-- No monster appears at a block before its interval has passed since a death there was noticed. The last thing that has
    happened comes first. -/
def Waits (setup : Setup) : List Happening → Prop
  | [] => True
  | .appeared id time :: before =>
    (∀ noticed, .noticed id noticed ∈ before → noticed + (setup.blockInterval id).toNat ≤ time) ∧ Waits setup before
  | .noticed _ _ :: before => Waits setup before
  | .started _ _ _ :: before => Waits setup before

/-- Where players block respawns, no check starts a spawn next to one. -/
def Unblocked (setup : Setup) (history : List Happening) : Prop :=
  ∀ id isBlockable foundPlayer, .started id isBlockable foundPlayer ∈ history →
    setup.BLOCK_RESPAWN = true ∨ isBlockable = true → foundPlayer = false

structure Disciplined (setup : Setup) (w : World) : Prop where
  atMostOne : AtMostOne w
  waits : Waits setup w.history
  unblocked : Unblocked setup w.history

/-- A check comes to a spawn at a block: it is free and due, and its type may spawn. -/
def Starts (setup : Setup) (s : Surroundings) (w : World) (id : UInt32) : Prop :=
  w.spawnedMonsterMap id = none ∧ (∃ isBlockable, s.isBlockable id = some isBlockable ∧
    (s.canSpawn id = true ∧ (isBlockable = true → s.findPlayer id = false))) ∧
      w.lastSpawn id + (setup.blockInterval id).toNat ≤ w.OTSYS_TIME

/-- A check comes to a spawn only where no chain is on its way, and where players block all respawns only where none is found. -/
def Careful (setup : Setup) (w : World) : Operation → Prop
  | .checkSpawnMonster s => w.CheckDue → ∀ id ∈ setup.ids,
    Starts setup s (cleanup setup { w with checkSpawnMonsterEvent := none }) id →
      (∀ step ∈ w.scheduled, step.spawnMonsterId ≠ id) ∧ (setup.BLOCK_RESPAWN = true → s.findPlayer id = false)
  | _ => True

/-! ### One living monster for a block -/

/-- The living monsters are those of the map. -/
structure Sound (w : World) : Prop where
  nodup : w.alive.Nodup
  spawned : ∀ m ∈ w.alive, w.spawnedMonsterMap m.spawnMonsterId = some m.id

theorem Sound.atMostOne (h : Sound w) : AtMostOne w := by
  intro id
  have hnodup : (w.alive.filter fun m => m.spawnMonsterId = id).Nodup := h.nodup.filter _
  have hsame : ∀ m ∈ w.alive.filter fun m => m.spawnMonsterId = id,
      w.spawnedMonsterMap id = some m.id ∧ m.spawnMonsterId = id := by
    intro m hm
    obtain ⟨halive, hid⟩ := List.mem_filter.mp hm
    have hid := of_decide_eq_true hid
    exact ⟨hid ▸ h.spawned m halive, hid⟩
  rcases hl : w.alive.filter fun m => m.spawnMonsterId = id with _ | ⟨a, _ | ⟨b, l⟩⟩
  · rw [hl]
    exact Nat.zero_le _
  · rw [hl]
    exact Nat.le_refl _
  · rw [hl] at hnodup hsame
    obtain ⟨ha, hida⟩ := hsame a List.mem_cons_self
    obtain ⟨hb, hidb⟩ := hsame b (by simp)
    have heq : a = b := by
      rcases a with ⟨a, ida⟩
      rcases b with ⟨b, idb⟩
      obtain rfl := Option.some.inj (ha.symm.trans hb)
      exact congrArg _ (hida.trans hidb.symm)
    exact absurd (heq ▸ List.mem_cons_self) (List.nodup_cons.mp hnodup).1

theorem Sound.of_eq {v : World} (h : Sound w) (halive : v.alive = w.alive)
    (hspawned : v.spawnedMonsterMap = w.spawnedMonsterMap) : Sound v :=
  ⟨halive ▸ h.nodup, fun m hm => hspawned ▸ h.spawned m (halive ▸ hm)⟩

theorem spawnMonster_cases (id : UInt32) (placed : Bool) (w : World) : w.spawnMonster id placed = w ∨
    (w.spawnedMonsterMap id = none ∧ w.spawnMonster id placed =
      { w with
        spawnedMonsterMap := Function.update w.spawnedMonsterMap id (some w.created)
        lastSpawn := Function.update w.lastSpawn id w.OTSYS_TIME
        alive := ⟨w.created, id⟩ :: w.alive
        created := w.created + 1
        history := .appeared id w.OTSYS_TIME :: w.history }) := by
  unfold spawnMonster
  split_ifs with hsome hplaced
  · exact .inl rfl
  · exact .inl rfl
  · exact .inr ⟨Option.not_isSome_iff_eq_none.mp hsome, rfl⟩

theorem Sound.spawnMonster (h : Sound w) (id : UInt32) (placed : Bool) : Sound (w.spawnMonster id placed) := by
  obtain heq | ⟨hnone, heq⟩ := spawnMonster_cases id placed w
  · rwa [heq]
  · have hne : ∀ m ∈ w.alive, m.spawnMonsterId ≠ id := by
      rintro m hm rfl
      rw [h.spawned m hm] at hnone
      cases hnone
    rw [heq]
    refine ⟨List.nodup_cons.mpr ⟨fun hm => hne _ hm rfl, h.nodup⟩, fun m hm => ?_⟩
    rcases List.mem_cons.mp hm with rfl | hm
    · exact Function.update_self ..
    · exact (Function.update_of_ne (hne m hm) ..).trans (h.spawned m hm)

theorem Sound.scheduleSpawn (h : Sound w) (id : UInt32) (interval : UInt16) (placed : Bool) :
    Sound (w.scheduleSpawn id interval placed) := by
  unfold World.scheduleSpawn
  split_ifs
  · exact h.spawnMonster id placed
  · exact ⟨h.nodup, h.spawned⟩

theorem Sound.cleanupBlock (h : Sound w) (id : UInt32) : Sound (w.cleanupBlock id) := by
  unfold World.cleanupBlock
  split_ifs with hdead
  · obtain ⟨monster, hspawned, hnot⟩ := hdead
    refine ⟨h.nodup, fun m hm => (Function.update_of_ne (fun heq => hnot ?_) ..).trans (h.spawned m hm)⟩
    have hid := h.spawned m hm
    rw [heq, Option.mem_def.mp hspawned] at hid
    obtain rfl := Option.some.inj hid
    rwa [← heq]
  · exact h

/-- What the loop of a check does with a block. -/
theorem checkBlock_cases (setup : Setup) (s : Surroundings) (w : World) (id : UInt32) :
    checkBlock setup s w id = w ∨
    checkBlock setup s w id = { w with lastSpawn := Function.update w.lastSpawn id w.OTSYS_TIME } ∨
    Starts setup s w id ∧ ∃ isBlockable, (isBlockable = true → s.findPlayer id = false) ∧
      ∃ v, v = { w with history := .started id isBlockable (s.findPlayer id) :: w.history } ∧
      (checkBlock setup s w id = v.spawnMonster id (s.placed id) ∨
        checkBlock setup s w id =
          v.scheduleSpawn id (3 * NONBLOCKABLE_SPAWN_MONSTER_INTERVAL) (s.placed id)) := by
  unfold checkBlock
  by_cases hsome : (w.spawnedMonsterMap id).isSome = true
  · exact .inl (if_pos hsome)
  · rw [if_neg hsome]
    cases htype : s.isBlockable id with
    | none => exact .inl rfl
    | some isBlockable =>
      dsimp only
      split_ifs with hblocked hwait hblockable
      · exact .inr (.inl rfl)
      · exact .inl rfl
      all_goals
        have hfree : s.canSpawn id = true ∧ (isBlockable = true → s.findPlayer id = false) := by
          cases hcan : s.canSpawn id <;> cases hb : isBlockable <;> simp_all
        have hstarts : Starts setup s w id :=
          ⟨Option.not_isSome_iff_eq_none.mp hsome, ⟨isBlockable, htype, hfree⟩, Int.not_lt.mp hwait⟩
      · exact .inr (.inr ⟨hstarts, isBlockable, hfree.2, _, rfl, .inl rfl⟩)
      · exact .inr (.inr ⟨hstarts, isBlockable, hfree.2, _, rfl, .inr rfl⟩)

theorem Sound.checkBlock (h : Sound w) (id : UInt32) : Sound (checkBlock setup s w id) := by
  obtain heq | heq | ⟨-, _, -, v, rfl, heq | heq⟩ := checkBlock_cases setup s w id <;> rw [heq]
  · exact h
  · exact h.of_eq rfl rfl
  · exact Sound.spawnMonster (by exact h.of_eq rfl rfl) id _
  · exact Sound.scheduleSpawn (by exact h.of_eq rfl rfl) id _ _

theorem Sound.startSpawnMonsterCheck (h : Sound w) : Sound (w.startSpawnMonsterCheck setup) := by
  unfold World.startSpawnMonsterCheck
  split_ifs
  · exact h.of_eq rfl rfl
  · exact h

theorem Sound.step (h : Sound w) (op : Operation) : Sound (step setup w op) := by
  cases op with
  | wait ms => exact h.of_eq rfl rfl
  | checkSpawnMonster s =>
    change Sound (World.checkSpawnMonster setup s w)
    unfold World.checkSpawnMonster
    split_ifs with hdue
    · have hclean : Sound (cleanup setup { w with checkSpawnMonsterEvent := none }) :=
        run_induction Sound (fun _ id h => h.cleanupBlock id) setup.ids (h.of_eq rfl rfl)
      have hcheck : Sound (run (World.checkBlock setup s) _ setup.ids) :=
        run_induction Sound (fun _ id h => h.checkBlock id) setup.ids hclean
      dsimp only
      split_ifs
      · exact hcheck.of_eq rfl rfl
      · exact hcheck
    · exact h
  | runScheduled i placed =>
    change Sound (World.runScheduled i placed w)
    unfold World.runScheduled
    split
    · exact h
    · split_ifs
      · exact Sound.scheduleSpawn (by exact h.of_eq rfl rfl) _ _ _
      · exact h
  | startSpawnMonsterCheck => exact h.startSpawnMonsterCheck
  | death monster =>
    change Sound (World.death setup monster w)
    unfold World.death
    split_ifs
    · exact Sound.startSpawnMonsterCheck ⟨h.nodup.filter _, fun m hm => h.spawned m (List.mem_of_mem_filter hm)⟩
    · exact h

/-! ### Respawns -/

/-- A death at the block was noticed no later than its interval ago. -/
def Rested (setup : Setup) (w : World) (id : UInt32) : Prop :=
  ∀ noticed, .noticed id noticed ∈ w.history → noticed + (setup.blockInterval id).toNat ≤ w.OTSYS_TIME

/-- A block with a chain on its way is free and rested, and has one chain only. -/
structure Patient (setup : Setup) (w : World) : Prop where
  noticed : ∀ id noticed, .noticed id noticed ∈ w.history → noticed ≤ w.lastSpawn id ∧ noticed ≤ w.OTSYS_TIME
  distinct : (w.scheduled.map Scheduled.spawnMonsterId).Nodup
  free : ∀ step ∈ w.scheduled, w.spawnedMonsterMap step.spawnMonsterId = none
  rested : ∀ step ∈ w.scheduled, Rested setup w step.spawnMonsterId
  waits : Waits setup w.history
  unblocked : Unblocked setup w.history

theorem Patient.of_eq {v : World} (h : Patient setup w) (htime : v.OTSYS_TIME = w.OTSYS_TIME)
    (hlast : v.lastSpawn = w.lastSpawn) (hspawned : v.spawnedMonsterMap = w.spawnedMonsterMap)
    (hscheduled : v.scheduled = w.scheduled) (hhistory : v.history = w.history) : Patient setup v := by
  rcases v with ⟨time, lastSpawn, spawned, event, scheduled, alive, created, history⟩
  dsimp only at htime hlast hspawned hscheduled hhistory
  subst htime hlast hspawned hscheduled hhistory
  exact ⟨h.noticed, h.distinct, h.free, h.rested, h.waits, h.unblocked⟩

theorem Starts.rested (h : Starts setup s w id) (hp : Patient setup w) : Rested setup w id := by
  intro noticed hn
  have hle := (hp.noticed id noticed hn).1
  have hdue := h.2.2
  omega

theorem Patient.spawnMonster (h : Patient setup w) (hid : ∀ step ∈ w.scheduled, step.spawnMonsterId ≠ id)
    (hrested : Rested setup w id) (placed : Bool) : Patient setup (w.spawnMonster id placed) := by
  obtain heq | ⟨-, heq⟩ := spawnMonster_cases id placed w
  · rwa [heq]
  · have hold : ∀ id' noticed, .noticed id' noticed ∈ Happening.appeared id w.OTSYS_TIME :: w.history →
        .noticed id' noticed ∈ w.history := fun _ _ hn => (List.mem_cons.mp hn).resolve_left (by rintro ⟨⟩)
    rw [heq]
    refine ⟨fun id' noticed hn => ?_, h.distinct, fun step hs => ?_, fun step hs noticed hn => ?_, ⟨hrested, h.waits⟩,
      fun id' blockable found hs => ?_⟩
    · obtain ⟨hlast, hnow⟩ := h.noticed id' noticed (hold _ _ hn)
      refine ⟨?_, hnow⟩
      dsimp only
      by_cases hne : id' = id
      · rwa [hne, Function.update_self]
      · rwa [Function.update_of_ne hne]
    · exact (Function.update_of_ne (hid step hs) ..).trans (h.free step hs)
    · exact h.rested step hs noticed (hold _ _ hn)
    · exact h.unblocked id' blockable found ((List.mem_cons.mp hs).resolve_left (by rintro ⟨⟩))

theorem Patient.scheduleSpawn (h : Patient setup w) (hid : ∀ step ∈ w.scheduled, step.spawnMonsterId ≠ id)
    (hfree : w.spawnedMonsterMap id = none) (hrested : Rested setup w id) (interval : UInt16) (placed : Bool) :
    Patient setup (w.scheduleSpawn id interval placed) := by
  unfold World.scheduleSpawn
  split_ifs
  · exact h.spawnMonster hid hrested placed
  · refine ⟨h.noticed, List.nodup_cons.mpr ⟨fun hmem => ?_, h.distinct⟩, fun step hs => ?_, fun step hs => ?_, h.waits,
      h.unblocked⟩
    · obtain ⟨step, hs, heq⟩ := List.mem_map.mp hmem
      exact hid step hs heq
    · rcases List.mem_cons.mp hs with rfl | hs
      · exact hfree
      · exact h.free step hs
    · rcases List.mem_cons.mp hs with rfl | hs
      · exact hrested
      · exact h.rested step hs

theorem Patient.cleanupBlock (h : Patient setup w) (id : UInt32) : Patient setup (w.cleanupBlock id) := by
  unfold World.cleanupBlock
  split_ifs with hdead
  · -- a block whose death is noticed had a monster, and so no chain
    have hid : ∀ step ∈ w.scheduled, step.spawnMonsterId ≠ id := by
      rintro step hs rfl
      obtain ⟨monster, hm, -⟩ := hdead
      rw [h.free step hs] at hm
      cases hm
    refine ⟨fun id' noticed hn => ?_, h.distinct, fun step hs => ?_, fun step hs noticed hn => ?_, h.waits,
      fun id' blockable found hs => ?_⟩
    · dsimp only at hn ⊢
      by_cases hne : id' = id
      · subst hne
        rw [Function.update_self]
        rcases List.mem_cons.mp hn with heq | hn
        · cases heq
          exact ⟨Int.le_refl _, Int.le_refl _⟩
        · exact ⟨(h.noticed id' noticed hn).2, (h.noticed id' noticed hn).2⟩
      · rw [Function.update_of_ne hne]
        refine h.noticed id' noticed ((List.mem_cons.mp hn).resolve_left ?_)
        rintro heq
        cases heq
        exact hne rfl
    · exact (Function.update_of_ne (hid step hs) ..).trans (h.free step hs)
    · refine h.rested step hs noticed ((List.mem_cons.mp hn).resolve_left ?_)
      rintro heq
      cases heq
      exact hid step hs rfl
    · exact h.unblocked id' blockable found ((List.mem_cons.mp hs).resolve_left (by rintro ⟨⟩))
  · exact h

theorem Patient.checkBlock (h : Patient setup w) (hcareful : Starts setup s w id →
    (∀ step ∈ w.scheduled, step.spawnMonsterId ≠ id) ∧ (setup.BLOCK_RESPAWN = true → s.findPlayer id = false)) :
    Patient setup (checkBlock setup s w id) := by
  obtain heq | heq | ⟨hstarts, isBlockable, hblockable, v, rfl, hv⟩ := checkBlock_cases setup s w id
  · rwa [heq]
  · rw [heq]
    refine ⟨fun id' noticed hn => ?_, h.distinct, h.free, h.rested, h.waits, h.unblocked⟩
    obtain ⟨hlast, hnow⟩ := h.noticed id' noticed hn
    refine ⟨?_, hnow⟩
    dsimp only
    by_cases hne : id' = id
    · rwa [hne, Function.update_self]
    · rwa [Function.update_of_ne hne]
  · obtain ⟨hid, hblock⟩ := hcareful hstarts
    have hold : ∀ id' noticed, .noticed id' noticed ∈ Happening.started id isBlockable (s.findPlayer id) :: w.history →
        .noticed id' noticed ∈ w.history := fun _ _ hn => (List.mem_cons.mp hn).resolve_left (by rintro ⟨⟩)
    have hstarted : Patient setup { w with history := .started id isBlockable (s.findPlayer id) :: w.history } := by
      refine ⟨fun id' noticed hn => h.noticed id' noticed (hold _ _ hn), h.distinct, h.free,
        fun step hs noticed hn => h.rested step hs noticed (hold _ _ hn), h.waits, fun id' blockable found hs => ?_⟩
      rcases List.mem_cons.mp hs with heq | hs
      · cases heq
        exact fun hor => hor.elim hblock hblockable
      · exact h.unblocked id' blockable found hs
    have hrested : Rested setup { w with history := .started id isBlockable (s.findPlayer id) :: w.history } id :=
      fun noticed hn => hstarts.rested h noticed (hold _ _ hn)
    rcases hv with heq | heq <;> rw [heq]
    · exact hstarted.spawnMonster hid hrested _
    · exact hstarted.scheduleSpawn hid hstarts.1 hrested _ _

/-- Between two states, only one block is touched. -/
structure Touches (id : UInt32) (w v : World) : Prop where
  time : v.OTSYS_TIME = w.OTSYS_TIME
  spawned : ∀ id' ≠ id, v.spawnedMonsterMap id' = w.spawnedMonsterMap id'
  lastSpawn : ∀ id' ≠ id, v.lastSpawn id' = w.lastSpawn id'
  scheduled : ∀ step ∈ v.scheduled, step ∈ w.scheduled ∨ step.spawnMonsterId = id

theorem touches_spawnMonster (id : UInt32) (placed : Bool) (w : World) : Touches id w (w.spawnMonster id placed) := by
  obtain heq | ⟨-, heq⟩ := spawnMonster_cases id placed w <;> rw [heq]
  · exact ⟨rfl, fun _ _ => rfl, fun _ _ => rfl, fun _ hs => .inl hs⟩
  · exact ⟨rfl, fun _ hne => Function.update_of_ne hne .., fun _ hne => Function.update_of_ne hne .., fun _ hs => .inl hs⟩

theorem touches_scheduleSpawn (id : UInt32) (interval : UInt16) (placed : Bool) (w : World) :
    Touches id w (w.scheduleSpawn id interval placed) := by
  unfold World.scheduleSpawn
  split_ifs
  · exact touches_spawnMonster id placed w
  · refine ⟨rfl, fun _ _ => rfl, fun _ _ => rfl, fun step hs => ?_⟩
    rcases List.mem_cons.mp hs with rfl | hs
    · exact .inr rfl
    · exact .inl hs

theorem touches_checkBlock (setup : Setup) (s : Surroundings) (w : World) (id : UInt32) :
    Touches id w (checkBlock setup s w id) := by
  obtain heq | heq | ⟨-, isBlockable, -, v, rfl, hv⟩ := checkBlock_cases setup s w id
  · rw [heq]
    exact ⟨rfl, fun _ _ => rfl, fun _ _ => rfl, fun _ hs => .inl hs⟩
  · rw [heq]
    exact ⟨rfl, fun _ _ => rfl, fun _ hne => Function.update_of_ne hne .., fun _ hs => .inl hs⟩
  · have htouches : Touches id { w with history := .started id isBlockable (s.findPlayer id) :: w.history }
        (checkBlock setup s w id) := by
      rcases hv with heq | heq <;> rw [heq]
      · exact touches_spawnMonster ..
      · exact touches_scheduleSpawn ..
    exact ⟨htouches.time, htouches.spawned, htouches.lastSpawn, htouches.scheduled⟩

theorem Touches.starts {v : World} {id' : UInt32} (h : Touches id w v) (hne : id' ≠ id) (hs : Starts setup s v id') :
    Starts setup s w id' := by
  obtain ⟨hfree, htype, hdue⟩ := hs
  rw [h.spawned id' hne] at hfree
  rw [h.lastSpawn id' hne, h.time] at hdue
  exact ⟨hfree, htype, hdue⟩

/-- The loop of a check: what it does with a block does not matter to the blocks after it. -/
theorem Patient.checkBlocks (h : Patient setup w) {ids : List UInt32} (hids : ids.Nodup)
    (hcareful : ∀ id ∈ ids, Starts setup s w id →
      (∀ step ∈ w.scheduled, step.spawnMonsterId ≠ id) ∧ (setup.BLOCK_RESPAWN = true → s.findPlayer id = false)) :
    Patient setup (ids.foldl (World.checkBlock setup s) w) := by
  induction ids generalizing w with
  | nil => exact h
  | cons id ids ih =>
    obtain ⟨hnot, hids⟩ := List.nodup_cons.mp hids
    have htouches := touches_checkBlock setup s w id
    refine ih (h.checkBlock (hcareful id List.mem_cons_self)) hids fun id' hmem hstarts => ?_
    have hne : id' ≠ id := fun heq => hnot (heq ▸ hmem)
    obtain ⟨hchain, hblock⟩ := hcareful id' (List.mem_cons_of_mem _ hmem) (htouches.starts hne hstarts)
    refine ⟨fun step hs heq => ?_, hblock⟩
    rcases htouches.scheduled step hs with hs | hid
    · exact hchain step hs heq
    · exact hne (heq.symm.trans hid)

theorem scheduled_cleanup (setup : Setup) (w : World) : (cleanup setup w).scheduled = w.scheduled := by
  change (run World.cleanupBlock w setup.ids).scheduled = w.scheduled
  refine run_induction (fun v : World => v.scheduled = w.scheduled) (fun v id hv => ?_) setup.ids rfl
  unfold World.cleanupBlock
  split_ifs <;> exact hv

theorem Patient.startSpawnMonsterCheck (h : Patient setup w) : Patient setup (w.startSpawnMonsterCheck setup) := by
  unfold World.startSpawnMonsterCheck
  split_ifs
  · exact h.of_eq rfl rfl rfl rfl rfl
  · exact h

theorem Patient.step (h : Patient setup w) {op : Operation} (hcareful : Careful setup w op) :
    Patient setup (step setup w op) := by
  cases op with
  | wait ms =>
    have hle : w.OTSYS_TIME ≤ w.OTSYS_TIME + ms := by omega
    refine ⟨fun id noticed hn => ?_, h.distinct, h.free, fun step hs noticed hn => ?_, h.waits, h.unblocked⟩
    · exact ⟨(h.noticed id noticed hn).1, Int.le_trans (h.noticed id noticed hn).2 hle⟩
    · exact Int.le_trans (h.rested step hs noticed hn) hle
  | checkSpawnMonster s =>
    change Patient setup (World.checkSpawnMonster setup s w)
    unfold World.checkSpawnMonster
    split_ifs with hdue
    · have hclean : Patient setup (cleanup setup { w with checkSpawnMonsterEvent := none }) :=
        run_induction (Patient setup) (fun _ id h => h.cleanupBlock id) setup.ids (h.of_eq rfl rfl rfl rfl rfl)
      have hcheck : Patient setup (setup.ids.foldl (World.checkBlock setup s) _) :=
        hclean.checkBlocks setup.nodup fun id hid hstarts => by
          rw [scheduled_cleanup]
          exact hcareful hdue id hid hstarts
      dsimp only
      split_ifs
      · exact hcheck.of_eq rfl rfl rfl rfl rfl
      · exact hcheck
    · exact h
  | runScheduled i placed =>
    change Patient setup (World.runScheduled i placed w)
    unfold World.runScheduled
    cases hi : w.scheduled[i]? with
    | none => exact h
    | some step =>
      dsimp only
      split_ifs
      · obtain ⟨hlt, hstep⟩ := List.getElem?_eq_some_iff.mp hi
        have hmem := List.mem_of_getElem? hi
        have hsub := (List.eraseIdx_sublist w.scheduled i).subset
        have hperm := (List.getElem_cons_eraseIdx_perm hlt).map Scheduled.spawnMonsterId
        rw [hstep, List.map_cons] at hperm
        obtain ⟨hnot, hdistinct⟩ := List.nodup_cons.mp (hperm.nodup_iff.mpr h.distinct)
        have hrest : Patient setup { w with scheduled := w.scheduled.eraseIdx i } :=
          ⟨h.noticed, hdistinct, fun step hs => h.free step (hsub hs), fun step hs => h.rested step (hsub hs), h.waits,
            h.unblocked⟩
        refine hrest.scheduleSpawn (fun other ho heq => hnot ?_) (h.free step hmem) (h.rested step hmem) _ _
        rw [← heq]
        exact List.mem_map_of_mem ho
      · exact h
  | startSpawnMonsterCheck => exact h.startSpawnMonsterCheck
  | death monster =>
    change Patient setup (World.death setup monster w)
    unfold World.death
    split_ifs
    · exact Patient.startSpawnMonsterCheck (h.of_eq rfl rfl rfl rfl rfl)
    · exact h

/-! ### Every run -/

theorem sound_started (setup : Setup) (time : Int) (s : Surroundings) : Sound (World.started setup time s) := by
  change Sound (run (World.startupBlock s) _ setup.ids)
  refine run_induction Sound (fun w id h => ?_) setup.ids
    ⟨List.nodup_nil, fun _ hm => absurd hm List.not_mem_nil⟩
  unfold World.startupBlock
  split
  · exact h
  · exact h.scheduleSpawn ..

/-- A startup spawns monsters at once. -/
theorem patient_started (setup : Setup) (time : Int) (s : Surroundings) :
    Patient setup (World.started setup time s) := by
  have hkeep (w : World) (id : UInt32) (hw : Patient setup w ∧ w.scheduled = [] ∧ ∀ id noticed, .noticed id noticed ∉ w.history) :
      Patient setup (World.startupBlock s w id) ∧ (World.startupBlock s w id).scheduled = [] ∧
        ∀ id' noticed, .noticed id' noticed ∉ (World.startupBlock s w id).history := by
    obtain ⟨h, hnone, hnew⟩ := hw
    unfold World.startupBlock
    split
    · exact ⟨h, hnone, hnew⟩
    · unfold World.scheduleSpawn
      rw [if_pos (by decide)]
      refine ⟨h.spawnMonster (by simp [hnone]) (fun noticed hn => absurd hn (hnew id noticed)) _, ?_⟩
      obtain heq | ⟨-, heq⟩ := spawnMonster_cases id (s.placed id) w <;> rw [heq]
      · exact ⟨hnone, hnew⟩
      · exact ⟨hnone, fun id' noticed hn => hnew id' noticed ((List.mem_cons.mp hn).resolve_left (by rintro ⟨⟩))⟩
  have hfirst : Patient setup ⟨time, fun _ => 0, fun _ => none, none, [], [], 0, []⟩ :=
    ⟨fun _ _ hn => absurd hn List.not_mem_nil, List.nodup_nil, fun _ hs => absurd hs List.not_mem_nil,
      fun _ hs => absurd hs List.not_mem_nil, trivial, fun _ _ _ hs => absurd hs List.not_mem_nil⟩
  exact (run_induction _ hkeep setup.ids ⟨hfirst, rfl, fun _ _ => List.not_mem_nil⟩).1

/-- In every run a block has at most one living monster. In every run whose checks are careful the respawns keep their whole
    discipline, in every state. -/
theorem disciplined_of_careful (setup : Setup) (time : Int) (s : Surroundings) (ops : List Operation) :
    AtMostOne (run (step setup) (World.started setup time s) ops) ∧
    (Meets (step setup) (Careful setup) (World.started setup time s) ops →
      ∀ xs, xs <+: ops → Disciplined setup (run (step setup) (World.started setup time s) xs)) := by
  have hsound (ops : List Operation) : Sound (run (step setup) (World.started setup time s) ops) :=
    run_induction Sound (fun _ op h => h.step op) ops (sound_started setup time s)
  refine ⟨(hsound ops).atMostOne, ?_⟩
  rintro hmeets xs ⟨ys, rfl⟩
  have hpatient := run_invariant (Patient setup) (fun _ _ h hc => h.step hc) (patient_started setup time s) hmeets.of_append
  exact ⟨(hsound xs).atMostOne, hpatient.waits, hpatient.unblocked⟩

/-! A swamp with one block is checked every three seconds, and its block rests for 33. -/

def swamp (BLOCK_RESPAWN : Bool) : Setup := ⟨[1], List.nodup_singleton 1, fun _ => 33000, 3000, BLOCK_RESPAWN⟩

/-- A type that is not blockable may spawn. -/
def around (foundPlayer placed : Bool) : Surroundings := ⟨fun _ => some false, fun _ => true, fun _ => foundPlayer, fun _ => placed⟩

theorem disciplined_of_careful_swamp :
    Disciplined (swamp true) (run (step (swamp true)) (World.started (swamp true) 100000 (around false false))
      [.startSpawnMonsterCheck, .wait 3000, .checkSpawnMonster (around false true)]) :=
  (disciplined_of_careful (swamp true) 100000 (around false false)
    [.startSpawnMonsterCheck, .wait 3000, .checkSpawnMonster (around false true)]).2
    ⟨trivial, trivial, fun _ _ _ _ => ⟨fun _ hs => absurd hs List.not_mem_nil, fun _ => rfl⟩, trivial⟩ _ List.prefix_rfl

/-- Two checks start a chain each. The monster of the first one dies, and two seconds later there is the next one. -/
def overlapping : List Operation :=
  [.startSpawnMonsterCheck, .wait 3000, .checkSpawnMonster (around false true), .wait 1400, .runScheduled 0 true,
    .wait 1400, .runScheduled 0 true, .wait 200, .checkSpawnMonster (around false true), .wait 1200, .runScheduled 1 true,
    .wait 200, .runScheduled 0 true, .wait 1400, .runScheduled 0 true, .wait 100, .death 0, .wait 100,
    .checkSpawnMonster (around false true), .wait 1200, .runScheduled 0 true]

theorem not_disciplined :
    ¬Disciplined (swamp false) (run (step (swamp false)) (World.started (swamp false) 100000 (around false false)) overlapping) ∧
    ¬Disciplined (swamp true) (run (step (swamp true)) (World.started (swamp true) 100000 (around false false))
      [.startSpawnMonsterCheck, .wait 3000, .checkSpawnMonster (around true true)]) := by
  constructor
  · intro h
    have hhistory : (run (step (swamp false)) (World.started (swamp false) 100000 (around false false)) overlapping).history =
        [.appeared 1 110200, .noticed 1 109000, .appeared 1 107200, .started 1 false false, .started 1 false false] := by
      decide +kernel
    have hwaits := h.waits
    rw [hhistory] at hwaits
    exact absurd (hwaits.1 109000 (by simp)) (by decide)
  · intro h
    exact absurd (h.unblocked 1 false true (by decide +kernel) (.inl rfl)) (by decide)

end CrystalServer.Spawns
