import CrystalServer.Theorems.Creatures.Attributes

/-! # What mounts and outfits leave behind

While every mount that is put on is also taken off, the player has the speed, skills, stats and conditions that he started
with, those of the mount that he rides and those of the outfit that he wears with both addons. A change of the outfit
overwrites the mount before it looks whether one was ridden, so this holds only for the changes that `Kept` describes. -/

/-! ## Putting mounts and outfits on and off

The player remembers what he has been given in two flags, the current mount and the outfit. -/

namespace CrystalServer.Appearance

/-! ### The mount and the outfit that are worn -/

def Mount.bonus (m : Mount) : Bonus := (m.speed, m.attributes.given)

def Outfit.bonus (o : Outfit) : Bonus := (o.speed, o.attributes.given)

namespace Player

def gained (p : Player) : Bonus := (p.varSpeed, p.varSkills, p.varStats)

def wornMount (env : Env) (p : Player) : Option Mount := if p.isMounted then env.getMountByID p.currentMount else none

def wornOutfit (env : Env) (p : Player) : Option Outfit :=
  if p.defaultOutfit.lookAddons = 3 then env.getOutfitByLookType p.defaultOutfit.lookType else none

end Player

/-- The player carries what the mount and the outfit give. -/
abbrev Wears (start p : Player) (m : Option Mount) (o : Option Outfit) : Prop :=
  Carries start p (m.elim 0 (·.speed) + o.elim 0 (·.speed)) (m.map (·.attributes)) (o.map (·.attributes))

/-- The flag and the current mount tell what the mounts have given. -/
structure Ridden (env : Env) (p : Player) (m : Option Mount) : Prop where
  mountAttributes : p.mountAttributes = m.isSome
  current : ∀ x ∈ m, env.getMountByID p.currentMount = some x
  fits : ∀ x ∈ m, env.getMountByID x.id.toUInt8.toUInt16 = some x

/-- The flag and the outfit tell what the outfits have given; an outfit that was worn at the start gives nothing. -/
structure Outfitted (env : Env) (p : Player) (o : Option Outfit) : Prop where
  outfitAttributes : p.outfitAttributes = o.isSome
  worn : ∀ x ∈ o, p.wornOutfit env = some x
  idle : o = none → ∀ x ∈ p.wornOutfit env, x.bonus = 0 ∧ ∀ type, x.attributes.condition type = none

/-- What every call keeps. -/
structure Sound (env : Env) (start p : Player) (m : Option Mount) (o : Option Outfit) : Prop where
  wears : Wears start p m o
  ridden : Ridden env p m
  outfitted : Outfitted env p o
  looks : p.defaultOutfit.lookMount = m.elim 0 (·.clientId)
  mounted : ∀ x ∈ m, x.clientId ≠ 0
  owned : ∀ x ∈ m, p.hasMount env x

section
variable {env : Env} {now : Now} {start p q : Player} {m : Option Mount} {o : Option Outfit}

theorem Unclamped.wears (h : Unclamped env start) (hm : ∀ x ∈ m, x ∈ env.mounts) (ho : ∀ x ∈ o, x ∈ env.outfits) :
    0 ≤ start.baseSpeed.toNat + start.varSpeed + (m.elim 0 (·.speed) + o.elim 0 (·.speed)) ∧
      start.baseSpeed.toNat + start.varSpeed + (m.elim 0 (·.speed) + o.elim 0 (·.speed)) < Player.PLAYER_MAX_SPEED := by
  refine h _ _ ?_ ?_
  · cases m with
    | none => exact .inl rfl
    | some x => exact .inr ⟨x, hm x rfl, rfl⟩
  · cases o with
    | none => exact .inl rfl
    | some x => exact .inr ⟨x, ho x rfl, rfl⟩

theorem mem_of_getMountByID {id : UInt16} {x : Mount} (h : env.getMountByID id = some x) : x ∈ env.mounts :=
  List.mem_of_find?_eq_some h

theorem id_of_getMountByID {id : UInt16} {x : Mount} (h : env.getMountByID id = some x) : x.id = id :=
  of_decide_eq_true (List.find?_some h :)

theorem clientId_of_getMountByClientID {id : UInt16} {x : Mount} (h : env.getMountByClientID id = some x) :
    x.clientId = id :=
  of_decide_eq_true (List.find?_some h :)

theorem getOutfitId_of_some {lookType : UInt16} {x : Outfit} (h : env.getOutfitByLookType lookType = some x) :
    env.getOutfitId lookType = lookType := by
  unfold Env.getOutfitId
  rw [h]
  exact of_decide_eq_true (List.find?_some h :)

theorem Ridden.mem (h : Ridden env p m) : ∀ x ∈ m, x ∈ env.mounts := fun x hx => mem_of_getMountByID (h.fits x hx)

theorem mem_of_wornOutfit {x : Outfit} (h : p.wornOutfit env = some x) : x ∈ env.outfits := by
  unfold Player.wornOutfit at h
  split at h
  · exact List.mem_of_find?_eq_some h
  · cases h

theorem Outfitted.mem (h : Outfitted env p o) : ∀ x ∈ o, x ∈ env.outfits := fun x hx => mem_of_wornOutfit (h.worn x hx)

/-- The outfit depends on nothing else. -/
theorem Outfitted.congr (h : Outfitted env p o) (ha : q.outfitAttributes = p.outfitAttributes)
    (hl : q.defaultOutfit.lookType = p.defaultOutfit.lookType)
    (hd : q.defaultOutfit.lookAddons = p.defaultOutfit.lookAddons) : Outfitted env q o := by
  have hw : q.wornOutfit env = p.wornOutfit env := by
    unfold Player.wornOutfit
    rw [hl, hd]
  exact ⟨ha.trans h.outfitAttributes, fun x hx => hw.trans (h.worn x hx), fun ho => hw ▸ h.idle ho⟩

theorem hasMount_congr (hq : q.mountsMap = p.mountsMap) (x : Mount) : q.hasMount env x = p.hasMount env x := by
  unfold Player.hasMount
  rw [hq]

theorem Ridden.congr (h : Ridden env p m) (ha : q.mountAttributes = p.mountAttributes)
    (hc : q.currentMount = p.currentMount) : Ridden env q m where
  mountAttributes := ha.trans h.mountAttributes
  current x hx := hc ▸ h.current x hx
  fits := h.fits

/-- The state carries nothing else. -/
theorem Carries.congr {v : ℤ} {a b : Option Attributes} (h : Carries start p v a b) (hb : q.baseSpeed = p.baseSpeed)
    (hs : q.varSpeed = p.varSpeed) (hk : q.varSkills = p.varSkills) (ht : q.varStats = p.varStats)
    (hc : q.conditions = p.conditions) : Carries start q v a b where
  baseSpeed := hb.trans h.baseSpeed
  speed := hs.trans h.speed
  given := by rw [hk, ht, h.given]
  mount type := hc ▸ h.mount type
  outfit type := hc ▸ h.outfit type
  others id type hm ho := hc ▸ h.others id type hm ho

/-! ### Outfits -/

/-- The look type of the request is that of an outfit, or there is no outfit with look type 0 in its place. -/
def Known (env : Env) (outfit : Outfit_t) : Prop :=
  outfit.lookAddons = 3 →
    env.getOutfitByLookType (env.getOutfitId outfit.lookType) = env.getOutfitByLookType outfit.lookType

/-- What taking an outfit off and putting one on leave alone. -/
structure Unmoved (p q : Player) : Prop where
  mountAttributes : q.mountAttributes = p.mountAttributes
  currentMount : q.currentMount = p.currentMount
  mountsMap : q.mountsMap = p.mountsMap
  currentOutfit : q.currentOutfit = p.currentOutfit

theorem takeOffOutfit_spec (hw : Wears start p m o) (ho : Outfitted env p o) (hm : ∀ x ∈ m, x ∈ env.mounts)
    (hs : Unclamped env start) : Wears start (p.takeOffOutfit env) m none ∧ Unmoved p (p.takeOffOutfit env) := by
  have hb := hs.wears hm ho.mem
  unfold Player.takeOffOutfit
  cases o with
  | none =>
    rw [if_neg (by rw [ho.outfitAttributes]; simp)]
    exact ⟨hw, rfl, rfl, rfl, rfl⟩
  | some x =>
    have hx := ho.worn x rfl
    unfold Player.wornOutfit at hx
    split at hx
    case isFalse => cases hx
    case isTrue hadd =>
      have hoff := (hw.changeSpeedIf (c := x.speed ≠ 0) (d := -x.speed) hb (by omega)).removeOutfit
      obtain ⟨w, he⟩ := changeSpeedIf_eq (x.speed ≠ 0) (-x.speed) p
      rw [if_pos ⟨by rw [ho.outfitAttributes]; rfl, hadd⟩, getOutfitId_of_some hx]
      simp only [Env.removeOutfitAttributes, hx]
      rw [he] at hoff ⊢
      refine ⟨?_, rfl, rfl, rfl, rfl⟩
      have hsum : m.elim 0 (·.speed) + x.speed + -x.speed = m.elim 0 (·.speed) + 0 := by omega
      rw [Option.elim_some, hsum] at hoff
      exact hoff.congr rfl rfl rfl rfl rfl

theorem putOnOutfit_spec {outfit : Outfit_t} (hw : Wears start p m none) (hk : Known env outfit)
    (hm : ∀ x ∈ m, x ∈ env.mounts) (hs : Unclamped env start) :
    ∃ o, Wears start (p.putOnOutfit env outfit) m o ∧ Outfitted env (p.putOnOutfit env outfit) o ∧
      Unmoved p (p.putOnOutfit env outfit) ∧ (p.putOnOutfit env outfit).defaultOutfit = outfit := by
  have hb := hs.wears (o := none) hm (by simp)
  unfold Player.putOnOutfit
  by_cases hadd : outfit.lookAddons = 3
  · rw [if_pos hadd]
    have hlook := hk hadd
    cases hx : env.getOutfitByLookType outfit.lookType with
    | none =>
      simp only [Env.addOutfitAttributes, hlook, hx]
      refine ⟨none, hw.congr rfl rfl rfl rfl rfl, ⟨rfl, by simp, ?_⟩, ⟨rfl, rfl, rfl, rfl⟩, trivial⟩
      intro _ x hworn
      simp [Player.wornOutfit, hadd, hx] at hworn
    | some x =>
      simp only [Env.addOutfitAttributes, hlook, hx]
      have hw' : Wears start { p with defaultOutfit := outfit } m none := hw.congr rfl rfl rfl rfl rfl
      have hon := (hw'.changeSpeedIf (c := x.speed ≠ 0) (d := x.speed) hb (by omega)).addOutfit x.attributes
      obtain ⟨w, he⟩ := changeSpeedIf_eq (x.speed ≠ 0) x.speed { p with defaultOutfit := outfit }
      rw [he] at hon ⊢
      refine ⟨some x, ?_, ⟨rfl, ?_, by simp⟩, ⟨rfl, rfl, rfl, rfl⟩, rfl⟩
      · have hsum : m.elim 0 (·.speed) + 0 + x.speed = m.elim 0 (·.speed) + x.speed := by omega
        rw [Option.elim_none, hsum] at hon
        exact hon.congr rfl rfl rfl rfl rfl
      · intro y hy
        cases hy
        show (if outfit.lookAddons = 3 then env.getOutfitByLookType outfit.lookType else none) = some x
        rw [if_pos hadd, hx]
  · rw [if_neg hadd]
    refine ⟨none, hw.congr rfl rfl rfl rfl rfl, ⟨rfl, by simp, ?_⟩, ⟨rfl, rfl, rfl, rfl⟩, rfl⟩
    intro _ x hworn
    simp [Player.wornOutfit, hadd] at hworn

theorem Unmoved.trans {r : Player} (h : Unmoved p q) (h' : Unmoved q r) : Unmoved p r where
  mountAttributes := h'.mountAttributes.trans h.mountAttributes
  currentMount := h'.currentMount.trans h.currentMount
  mountsMap := h'.mountsMap.trans h.mountsMap
  currentOutfit := h'.currentOutfit.trans h.currentOutfit

theorem changeOutfit_spec {outfit : Outfit_t} (hw : Wears start p m o) (ho : Outfitted env p o)
    (hk : Known env outfit) (hm : ∀ x ∈ m, x ∈ env.mounts) (hs : Unclamped env start)
    (hq : p.changeOutfit env outfit true = some q) :
    ∃ o, Wears start q m o ∧ Outfitted env q o ∧ Unmoved p q ∧ q.defaultOutfit = outfit := by
  unfold Player.changeOutfit at hq
  split at hq
  case isTrue => cases hq
  case isFalse =>
    cases hq
    have hw' : Wears start { p with requestedOutfit := false } m o := hw.congr rfl rfl rfl rfl rfl
    obtain ⟨hoff, hun⟩ := takeOffOutfit_spec hw' (ho.congr rfl rfl rfl) hm hs
    obtain ⟨o', hon, hout, hun', hd⟩ := putOnOutfit_spec hoff hk hm hs
    exact ⟨o', hon, hout, Unmoved.trans ⟨hun.1, hun.2, hun.3, hun.4⟩ hun', hd⟩

/-! ### Mounts -/

/-- What getting on and off leaves alone. -/
structure Unchanged (p q : Player) : Prop where
  mountsMap : q.mountsMap = p.mountsMap
  outfitAttributes : q.outfitAttributes = p.outfitAttributes

theorem Ridden.of_some {x : Mount} (hflag : p.mountAttributes = true) (hcur : env.getMountByID p.currentMount = some x)
    (hfits : env.getMountByID x.id.toUInt8.toUInt16 = some x) : Ridden env p (some x) := by
  refine ⟨hflag, ?_, ?_⟩ <;> rintro y ⟨⟩
  · exact hcur
  · exact hfits

/-- A speed that `dismount` takes off is positive, one that it leaves is not there to be taken off. -/
theorem dismount_spec (hw : Wears start p m o) (hr : Ridden env p m) (ho : ∀ x ∈ o, x ∈ env.outfits)
    (hs : Unclamped env start)
    (hd : ∀ x, env.getMountByID p.currentMount = some x → if m.isSome then 0 ≤ x.speed else x.speed ≤ 0) :
    Wears start (p.dismount env) none o ∧ Ridden env (p.dismount env) none ∧ Unchanged p (p.dismount env) ∧
      (p.dismount env).defaultOutfit = { p.defaultOutfit with lookMount := 0 } := by
  have hb := hs.wears hr.mem ho
  have hnone : ∀ q : Player, q.mountAttributes = false → Ridden env q none := fun q h => ⟨h, by simp, by simp⟩
  unfold Player.dismount
  cases m with
  | none =>
    have hflag : p.mountAttributes = false := hr.mountAttributes
    cases hx : env.getMountByID p.currentMount with
    | none => exact ⟨hw.congr rfl rfl rfl rfl rfl, hnone _ rfl, ⟨rfl, rfl⟩, rfl⟩
    | some x =>
      have hle : x.speed ≤ 0 := hd x hx
      simp only [if_neg (not_lt.mpr hle), hflag, Bool.false_eq_true, if_false]
      exact ⟨hw.congr rfl rfl rfl rfl rfl, hnone _ rfl, ⟨rfl, rfl⟩, trivial⟩
  | some x =>
    have hx := hr.current x rfl
    have hge : 0 ≤ x.speed := hd x hx
    have hflag : p.mountAttributes = true := hr.mountAttributes
    have hoff := (hw.changeSpeedIf (c := x.speed > 0) (d := -x.speed) hb (by omega)).removeMount
    obtain ⟨w, he⟩ := changeSpeedIf_eq (x.speed > 0) (-x.speed) p
    simp only [hx]
    rw [he] at hoff ⊢
    simp only [hflag, if_true, Env.removeMountAttributes, hr.fits x rfl]
    refine ⟨?_, hnone _ rfl, ⟨rfl, rfl⟩, rfl⟩
    have hsum : x.speed + o.elim 0 (·.speed) + -x.speed = 0 + o.elim 0 (·.speed) := by omega
    rw [Option.elim_some, hsum] at hoff
    exact hoff.congr rfl rfl rfl rfl rfl

/-- What `changeMount` does with a mount that the player has. -/
theorem changeMount_spec {v : ℤ} {b : Option Attributes} {x : Mount}
    (hw : Carries start p v (m.map (·.attributes)) b) (hflag : p.mountAttributes = m.isSome)
    (hcur : ∀ y ∈ m, env.getMountByID p.currentMount = some y ∧ env.getMountByID y.id.toUInt8.toUInt16 = some y)
    (hx : env.getMountByID x.id.toUInt8.toUInt16 = some x) (hown : p.hasMount env x) :
    Carries start (p.changeMount env x.id.toUInt8 true).2 v (some x.attributes) b ∧
      (p.changeMount env x.id.toUInt8 true).2.mountAttributes = true ∧
      Unchanged p (p.changeMount env x.id.toUInt8 true).2 ∧
      (p.changeMount env x.id.toUInt8 true).2.defaultOutfit = p.defaultOutfit ∧
      (p.changeMount env x.id.toUInt8 true).2.currentMount = p.currentMount := by
  unfold Player.changeMount
  simp only [hx, hown, Bool.not_true, Bool.and_false, Bool.false_eq_true, if_false]
  cases m with
  | none =>
    simp only [hflag, Option.isSome_none, Bool.false_eq_true, if_false, Env.addMountAttributes, hx]
    exact ⟨(hw.addMount x.attributes).congr rfl rfl rfl rfl rfl, trivial, ⟨rfl, rfl⟩, rfl, rfl⟩
  | some y =>
    obtain ⟨hy, hfits⟩ := hcur y rfl
    simp only [hflag, Option.isSome_some, if_true, hy, Env.removeMountAttributes, Env.addMountAttributes, hfits, hx]
    exact ⟨(hw.removeMount.addMount x.attributes).congr rfl rfl rfl rfl rfl, trivial, ⟨rfl, rfl⟩, rfl, rfl⟩

/-- The mount that is asked for is there, the player has it, and its id is that of a byte. -/
def Rideable (env : Env) (now : Now) (p : Player) (lookMount : UInt16) : Prop :=
  ∃ x, env.getMountByClientID lookMount = some x ∧ p.hasMount env x ∧
    env.getMountByID x.id.toUInt8.toUInt16 = some x ∧
    (now.getTile = some false ∨ now.getTile = some true ∧ env.TOGGLE_MOUNT_IN_PZ)

/-- The speed that the change takes off is the one that is there. Whether a mount was ridden, the code reads off the outfit
that is asked for, `q`. -/
def KeptRide (env : Env) (now : Now) (p : Player) (mounted : Bool) (q : Outfit_t) (lookMount : UInt16) : Prop :=
  if lookMount ≠ 0 then
    Rideable env now p lookMount ∧ (mounted ∨ ∀ x, env.getMountByID p.currentMount = some x → x.speed = 0)
  else if mounted then q.lookMount ≠ 0 ∧ ∀ x, env.getMountByID p.currentMount = some x → 0 ≤ x.speed
  else q.lookMount ≠ 0 → ∀ x, env.getMountByID p.currentMount = some x → x.speed ≤ 0

theorem KeptRide.congr {mounted : Bool} {outfit : Outfit_t} {lookMount : UInt16}
    (h : KeptRide env now p mounted outfit lookMount) (hc : q.currentMount = p.currentMount)
    (hq : q.mountsMap = p.mountsMap) : KeptRide env now q mounted outfit lookMount := by
  have hown : q.hasMount env = p.hasMount env := funext fun x => hasMount_congr hq x
  unfold KeptRide Rideable at h ⊢
  rw [hc, hown]
  exact h

theorem ride_mount {lookMount : UInt16} (hw : Wears start p m o) (hr : Ridden env p m) (ho : ∀ x ∈ o, x ∈ env.outfits)
    (hs : Unclamped env start) (h0 : lookMount ≠ 0) (hq : p.isMounted) (hk : Rideable env now p lookMount)
    (hprev : m = none → ∀ x, env.getMountByID p.currentMount = some x → x.speed = 0) :
    ∃ q x, p.ride env now lookMount = some (q, x.clientId) ∧ Wears start q (some x) o ∧ Ridden env q (some x) ∧
      x.clientId ≠ 0 ∧ p.hasMount env x ∧ Unchanged p q := by
  have hb := hs.wears hr.mem ho
  obtain ⟨x, hx, hown, hfits, htile⟩ := hk
  have hid := clientId_of_getMountByClientID hx
  obtain ⟨hcar, hflag, hun, hdef, hcur⟩ := changeMount_spec (x := x) hw hr.mountAttributes
    (fun y hy => ⟨hr.current y hy, hr.fits y hy⟩) hfits hown
  unfold Player.ride
  simp only [h0, ne_eq, not_false_eq_true, if_true, hx, hown, Bool.not_true, Bool.false_eq_true, if_false, hq]
  generalize (p.changeMount env x.id.toUInt8 true).2 = q at hcar hflag hun hdef hcur
  have hbyte : env.getMountByID x.id = some x := by
    have he : x.id.toUInt8.toUInt16 = x.id := (id_of_getMountByID hfits).symm
    rw [← he]
    exact hfits
  have hsum : m.elim 0 (·.speed) + o.elim 0 (·.speed) +
      (x.speed - (env.getMountByID p.currentMount).elim 0 (·.speed)) = x.speed + o.elim 0 (·.speed) := by
    cases m with
    | none =>
      cases hy : env.getMountByID p.currentMount with
      | none => simp [add_comm]
      | some y => simp [hprev rfl y hy, add_comm]
    | some y =>
      rw [hr.current y rfl]
      simp only [Option.elim_some]
      abel
  have hcar' : Carries start { q with currentMount := x.id } (m.elim 0 (·.speed) + o.elim 0 (·.speed)) (some x.attributes)
      (o.map (·.attributes)) := hcar.congr rfl rfl rfl rfl rfl
  have hspeed := hcar'.changeSpeed hb (x.speed - (env.getMountByID p.currentMount).elim 0 (·.speed))
  rw [hsum] at hspeed
  obtain ⟨w, he⟩ := changeSpeed_eq (x.speed - (env.getMountByID p.currentMount).elim 0 (·.speed))
    { q with currentMount := x.id }
  rw [he] at hspeed ⊢
  have hridden : Ridden env { q with currentMount := x.id, varSpeed := w } (some x) :=
    Ridden.of_some hflag hbyte hfits
  have hne : x.clientId ≠ 0 := hid ▸ h0
  rcases htile with ht | ⟨ht, htoggle⟩
  · simp only [ht, Bool.and_false, Bool.false_eq_true, if_false]
    exact ⟨_, x, by rw [hid], hspeed, hridden, hne, hown, hun.mountsMap, hun.outfitAttributes⟩
  · simp only [ht, htoggle, Bool.not_true, Bool.false_and, Bool.false_eq_true, if_false]
    exact ⟨_, x, by rw [hid], hspeed, hridden, hne, hown, hun.mountsMap, hun.outfitAttributes⟩

theorem ride_spec {lookMount : UInt16} (hw : Wears start p m o) (hr : Ridden env p m) (ho : ∀ x ∈ o, x ∈ env.outfits)
    (hs : Unclamped env start) (hq : lookMount ≠ 0 → p.isMounted)
    (hk : KeptRide env now p m.isSome p.defaultOutfit lookMount) :
    ∃ q m', p.ride env now lookMount = some (q, m'.elim 0 (·.clientId)) ∧ Wears start q m' o ∧ Ridden env q m' ∧
      (∀ x ∈ m', x.clientId ≠ 0 ∧ p.hasMount env x) ∧ Unchanged p q ∧
      (lookMount ≠ 0 ∨ m' = none ∧ q.defaultOutfit = { p.defaultOutfit with lookMount := 0 }) := by
  unfold KeptRide at hk
  by_cases h0 : lookMount ≠ 0
  · rw [if_pos h0] at hk
    have hprev : m = none → ∀ x, env.getMountByID p.currentMount = some x → x.speed = 0 := by
      rintro rfl
      exact hk.2.resolve_left (by simp)
    obtain ⟨q, x, hride, hwear, hridden, hne, hown, hun⟩ := ride_mount hw hr ho hs h0 (hq h0) hk.1 hprev
    refine ⟨q, some x, hride, hwear, hridden, ?_, hun, .inl h0⟩
    rintro y ⟨⟩
    exact ⟨hne, hown⟩
  · rw [if_neg h0] at hk
    have hride : p.ride env now lookMount = some (if p.isMounted then p.dismount env else p, 0) := by
      unfold Player.ride
      rw [if_neg h0, not_not.mp h0]
    by_cases hm : p.isMounted
    · have hlook : p.defaultOutfit.lookMount ≠ 0 := of_decide_eq_true hm
      obtain ⟨hwear, hridden, hun, hdef⟩ := dismount_spec hw hr ho hs fun x hx => by
        cases m with
        | none => exact hk hlook x hx
        | some y => exact hk.2 x hx
      exact ⟨p.dismount env, none, by rw [hride, if_pos hm]; rfl, hwear, hridden, by simp, hun, .inr ⟨rfl, hdef⟩⟩
    · have hlook : p.defaultOutfit.lookMount = 0 := by simpa [Player.isMounted] using hm
      cases m with
      | some y => exact absurd hlook hk.1
      | none =>
        refine ⟨p, none, by rw [hride, if_neg hm]; rfl, hw, hr, by simp, ⟨rfl, rfl⟩, .inr ⟨rfl, ?_⟩⟩
        rw [← hlook]

theorem Sound.isMounted (h : Sound env start p m o) : p.isMounted = m.isSome := by
  unfold Player.isMounted
  rw [h.looks]
  cases m with
  | none => rfl
  | some x => simp [h.mounted x rfl]

theorem Sound.wornMount (h : Sound env start p m o) : p.wornMount env = m := by
  unfold Player.wornMount
  rw [h.isMounted]
  cases m with
  | none => rfl
  | some x => exact h.ridden.current x rfl

end
end CrystalServer.Appearance

/-! ## Histories

What the player has after any changes. -/

namespace CrystalServer.Appearance
open Lib

section
variable {env : Env} {now : Now} {start p q : Player} {m : Option Mount} {o : Option Outfit}

/-! ### The calls -/

theorem lookMountOf_congr (hc : q.currentOutfit = p.currentOutfit) (hq : q.mountsMap = p.mountsMap) (outfit : Outfit_t)
    (isMounted randomizeMount : Bool) :
    q.lookMountOf env now outfit isMounted randomizeMount = p.lookMountOf env now outfit isMounted randomizeMount := by
  have hown : q.hasMount env = p.hasMount env := funext fun x => hasMount_congr hq x
  have hsupport : q.isWearingSupportOutfit = p.isWearingSupportOutfit := by
    unfold Player.isWearingSupportOutfit
    rw [hc]
  unfold Player.lookMountOf Player.randomizes Player.hasAnyMount Player.getRandomMountId
  rw [hsupport, hown]

/-- A mount is looked up only where one is asked for, with an outfit of the table. -/
theorem asked_of_lookMountOf {outfit : Outfit_t} {isMounted randomizeMount : Bool}
    (h : p.lookMountOf env now outfit isMounted randomizeMount ≠ 0) :
    outfit.lookMount ≠ 0 ∧ (env.getOutfitByLookType outfit.lookType).isSome := by
  unfold Player.lookMountOf at h
  cases hx : env.getOutfitByLookType outfit.lookType with
  | none => simp [hx] at h
  | some x =>
    refine ⟨fun h0 => h ?_, rfl⟩
    simp [hx, h0]

/-- The request is one that `playerChangeOutfit` goes on with. -/
def Accepts (env : Env) (p : Player) (outfit : Outfit_t) : Prop :=
  env.ALLOW_CHANGEOUTFIT ∧ Player.canWearOutfit env (env.getOutfitId outfit.lookType) outfit.lookAddons ∧ p.requestedOutfit

/-- The calls that take off what they have put on. -/
def Kept (env : Env) (p : Player) : Call → Prop
  | .playerChangeOutfit now outfit isMounted randomizeMount =>
    Accepts env p outfit →
      Known env outfit ∧
        KeptRide env now p p.isMounted outfit (p.lookMountOf env now outfit isMounted randomizeMount)
  | .toggleMount now true =>
    ∀ x, (p.toggleMountId env now).bind (env.getMountByID ·.toUInt16) = some x → x.clientId ≠ 0
  | .toggleMount _ false => ∀ x, p.wornMount env = some x → 0 ≤ x.speed
  | .tameMount _ => True
  | .untameMount _ mountId => p.currentMount = mountId → ∀ x, p.wornMount env = some x → 0 ≤ x.speed
  | .sendOutfitWindow => True

theorem wear_eq (now : Now) (outfit : Outfit_t)
    (h : Player.canWearOutfit env outfit.lookType outfit.lookAddons ∨ p.defaultOutfit = outfit) :
    ∃ currentOutfit, p.wear env now outfit = { p with defaultOutfit := outfit, currentOutfit } := by
  unfold Player.wear Player.internalCreatureChangeOutfit
  split
  · split
    · exact ⟨p.currentOutfit, rfl⟩
    · split
      · exact ⟨outfit, rfl⟩
      · exact ⟨p.currentOutfit, rfl⟩
  case isFalse hn =>
    have hd := h.resolve_left hn
    exact ⟨p.currentOutfit, by subst hd; rfl⟩

theorem accepts_of_changeOutfit {outfit : Outfit_t} (hen : env.ALLOW_CHANGEOUTFIT)
    (hq : p.changeOutfit env outfit true = some q) : Accepts env p outfit := by
  unfold Player.changeOutfit at hq
  split at hq
  case isTrue => cases hq
  case isFalse hn =>
    simp only [true_and, not_or, not_not] at hn
    exact ⟨hen, hn.1, hn.2⟩

theorem Sound.playerChangeOutfit {outfit : Outfit_t} {isMounted randomizeMount : Bool} (h : Sound env start p m o)
    (hs : Unclamped env start) (hk : Kept env p (.playerChangeOutfit now outfit isMounted randomizeMount)) :
    ∃ m o, Sound env start (p.playerChangeOutfit env now outfit isMounted randomizeMount) m o := by
  unfold Player.playerChangeOutfit
  split
  case isTrue => exact ⟨m, o, h⟩
  case isFalse hen =>
    cases hq : p.changeOutfit env outfit true with
    | none => exact ⟨m, o, h⟩
    | some q =>
      dsimp only
      have hacc := accepts_of_changeOutfit (by simpa using hen) hq
      obtain ⟨hknown, hride⟩ := hk hacc
      obtain ⟨o', hw, hout, hun, hdef⟩ := changeOutfit_spec h.wears h.outfitted hknown h.ridden.mem hs hq
      set r : Player := { q with randomMount := q.randomizes isMounted randomizeMount }
      have hlook : r.lookMountOf env now outfit isMounted randomizeMount =
          p.lookMountOf env now outfit isMounted randomizeMount :=
        lookMountOf_congr hun.currentOutfit hun.mountsMap outfit isMounted randomizeMount
      have hasked : p.lookMountOf env now outfit isMounted randomizeMount ≠ 0 →
          outfit.lookMount ≠ 0 ∧ (env.getOutfitByLookType outfit.lookType).isSome := asked_of_lookMountOf
      rw [← hlook] at hride hasked
      generalize r.lookMountOf env now outfit isMounted randomizeMount = lookMount at hride hasked ⊢
      have hdef' : r.defaultOutfit = outfit := hdef
      have hmounted : lookMount ≠ 0 → r.isMounted := fun h0 => by
        unfold Player.isMounted
        rw [hdef']
        exact decide_eq_true (hasked h0).1
      have hkept : KeptRide env now r m.isSome r.defaultOutfit lookMount := by
        rw [hdef', ← h.isMounted]
        exact hride.congr hun.currentMount hun.mountsMap
      obtain ⟨q', m', hq', hwear, hridden, hown, hsame, hlast⟩ := ride_spec (p := r) (hw.congr rfl rfl rfl rfl rfl)
        (h.ridden.congr hun.mountAttributes hun.currentMount) hout.mem hs hmounted hkept
      have hcan : Player.canWearOutfit env outfit.lookType outfit.lookAddons ∨
          q'.defaultOutfit = { outfit with lookMount := m'.elim 0 (·.clientId) } := by
        rcases hlast with h0 | ⟨rfl, hd⟩
        · obtain ⟨x, hx⟩ := Option.isSome_iff_exists.mp (hasked h0).2
          exact .inl (getOutfitId_of_some hx ▸ hacc.2.1)
        · exact .inr (by rw [hd, hdef']; rfl)
      obtain ⟨c, hc⟩ := wear_eq now { outfit with lookMount := m'.elim 0 (·.clientId) } hcan
      rw [hq']
      show ∃ m o, Sound env start (q'.wear env now { outfit with lookMount := m'.elim 0 (·.clientId) }) m o
      rw [hc]
      refine ⟨m', o', hwear.congr rfl rfl rfl rfl rfl, hridden.congr rfl rfl, ?_, rfl, fun x hx => (hown x hx).1,
        fun x hx => (hasMount_congr (p := r) hsame.mountsMap x).trans (hown x hx).2⟩
      exact hout.congr hsame.outfitAttributes (by rw [hdef]) (by rw [hdef])

theorem internalCreatureChangeOutfit_eq (now : Now) (outfit : Outfit_t) (p : Player) :
    ∃ currentOutfit, p.internalCreatureChangeOutfit now outfit = { p with currentOutfit } := by
  unfold Player.internalCreatureChangeOutfit
  split
  · exact ⟨outfit, rfl⟩
  · exact ⟨p.currentOutfit, rfl⟩

/-- The state of the mounts and outfits is all that counts. -/
theorem Sound.congr (h : Sound env start p m o) (hw : Wears start q m o) (ha : q.mountAttributes = p.mountAttributes)
    (hc : q.currentMount = p.currentMount) (ho : q.outfitAttributes = p.outfitAttributes)
    (hd : q.defaultOutfit = p.defaultOutfit) (hown : ∀ x ∈ m, q.hasMount env x) : Sound env start q m o where
  wears := hw
  ridden := h.ridden.congr ha hc
  outfitted := h.outfitted.congr ho (by rw [hd]) (by rw [hd])
  looks := by rw [hd, h.looks]
  mounted := h.mounted
  owned := hown

theorem Sound.sendOutfitWindow (h : Sound env start p m o) : Sound env start p.sendOutfitWindow m o :=
  h.congr (h.wears.congr rfl rfl rfl rfl rfl) rfl rfl rfl rfl h.owned

theorem Sound.mountUp {x : Mount} (h : Sound env start p none o) (hs : Unclamped env start)
    (hx : env.getMountByID x.id.toUInt8.toUInt16 = some x) (hown : p.hasMount env x) (hne : x.clientId ≠ 0) :
    Sound env start (p.mountUp env now x) (some x) o := by
  have hb := hs.wears (m := none) (by simp) h.outfitted.mem
  have hspeed := ((h.wears.congr (q := { p with defaultOutfit.lookMount := x.clientId, currentMount := x.id })
    rfl rfl rfl rfl rfl).changeSpeedIf (c := x.speed ≠ 0) (d := x.speed) hb (by omega))
  obtain ⟨w, hw⟩ := changeSpeedIf_eq (x.speed ≠ 0) x.speed
    { p with defaultOutfit.lookMount := x.clientId, currentMount := x.id }
  unfold Player.mountUp
  dsimp only
  rw [hw] at hspeed ⊢
  obtain ⟨hcar, hflag, hun, hdef, hcur⟩ := changeMount_spec (m := none) (x := x) hspeed h.ridden.mountAttributes (by simp)
    hx hown
  generalize (Player.changeMount env _ x.id.toUInt8 true).2 = q at hcar hflag hun hdef hcur ⊢
  obtain ⟨c, hc⟩ := internalCreatureChangeOutfit_eq now q.defaultOutfit q
  rw [hc]
  have hsum : (none : Option Mount).elim 0 (·.speed) + o.elim 0 (·.speed) + x.speed = x.speed + o.elim 0 (·.speed) := by
    simp [add_comm]
  rw [hsum] at hcar
  have hid : x.id.toUInt8.toUInt16 = x.id := (id_of_getMountByID hx).symm
  refine ⟨hcar.congr rfl rfl rfl rfl rfl, Ridden.of_some hflag ?_ hx, ?_, ?_, ?_, ?_⟩
  · show env.getMountByID q.currentMount = some x
    rw [hcur, ← hx, hid]
  · exact h.outfitted.congr hun.outfitAttributes (by rw [hdef]) (by rw [hdef])
  · rw [hdef]
    rfl
  · rintro y ⟨⟩
    exact hne
  · rintro y ⟨⟩
    exact (hasMount_congr (p := p) hun.mountsMap x).trans hown

theorem Sound.toggleMountOn (h : Sound env start p m o) (hs : Unclamped env start)
    (hk : Kept env p (.toggleMount now true)) : ∃ m o, Sound env start (p.toggleMountOn env now).2 m o := by
  unfold Player.toggleMountOn
  by_cases hm : p.isMounted
  · rw [if_pos hm]
    exact ⟨m, o, h⟩
  · rw [if_neg hm]
    have hnone : m = none := by
      cases m with
      | none => rfl
      | some x => exact absurd h.isMounted hm
    subst hnone
    split
    · exact ⟨none, o, h⟩
    split
    · exact ⟨none, o, h⟩
    split
    · exact ⟨none, o, h.sendOutfitWindow⟩
    cases hx : (p.toggleMountId env now).bind (env.getMountByID ·.toUInt16) with
    | none => exact ⟨none, o, h⟩
    | some x =>
      dsimp only
      split
      · have hz : Sound env start { p with currentMount := 0 } none o :=
          ⟨h.wears.congr rfl rfl rfl rfl rfl, ⟨h.ridden.mountAttributes, by simp, by simp⟩, h.outfitted.congr rfl rfl rfl,
            h.looks, by simp, by simp⟩
        exact ⟨none, o, hz.sendOutfitWindow⟩
      case isFalse hown =>
        split
        · exact ⟨none, o, h⟩
        split
        · exact ⟨none, o, h⟩
        obtain ⟨i, -, hi⟩ := Option.bind_eq_some_iff.mp hx
        have hbyte : env.getMountByID x.id.toUInt8.toUInt16 = some x := by
          rw [id_of_getMountByID hi]
          simpa using hi
        exact ⟨some x, o, h.mountUp hs hbyte (by simpa using hown) (hk x hx)⟩

theorem dismount_sound {x : Mount} (hw : Wears start p (some x) o) (hr : Ridden env p (some x)) (ho : Outfitted env p o)
    (hs : Unclamped env start) (hx : 0 ≤ x.speed) : Sound env start (p.dismount env) none o := by
  obtain ⟨hwear, hridden, hun, hdef⟩ := dismount_spec hw hr ho.mem hs fun y hy => by
    have he : x = y := Option.some.inj ((hr.current x rfl).symm.trans hy)
    exact he ▸ hx
  refine ⟨hwear, hridden, ho.congr hun.outfitAttributes (by rw [hdef]) (by rw [hdef]), ?_, by simp, by simp⟩
  rw [hdef]
  rfl

theorem Sound.toggleMount {mount : Bool} (h : Sound env start p m o) (hs : Unclamped env start)
    (hk : Kept env p (.toggleMount now mount)) : ∃ m o, Sound env start (p.toggleMount env now mount).2 m o := by
  unfold Player.toggleMount
  split
  · exact ⟨m, o, h⟩
  split
  · exact ⟨m, o, h⟩
  cases mount with
  | true =>
    rw [if_pos rfl]
    exact h.toggleMountOn hs hk
  | false =>
    rw [if_neg Bool.false_ne_true]
    have hworn := h.wornMount
    cases m with
    | none =>
      rw [if_pos (by rw [h.isMounted]; rfl)]
      exact ⟨none, o, h⟩
    | some x =>
      rw [if_neg (by rw [h.isMounted]; simp)]
      have hoff := dismount_sound h.wears h.ridden h.outfitted hs (hk x hworn)
      obtain ⟨c, hc⟩ := internalCreatureChangeOutfit_eq now (p.dismount env).defaultOutfit (p.dismount env)
      refine ⟨none, o, ?_⟩
      dsimp only
      rw [hc]
      exact hoff.congr (hoff.wears.congr rfl rfl rfl rfl rfl) rfl rfl rfl rfl (by simp)

theorem Sound.tameMount {mountId : UInt16} (h : Sound env start p m o) : Sound env start (p.tameMount env mountId).2 m o := by
  unfold Player.tameMount
  split
  · exact h
  split
  · exact h
  refine h.congr (h.wears.congr rfl rfl rfl rfl rfl) rfl rfl rfl rfl fun x hx => ?_
  have hown := h.owned x hx
  unfold Player.hasMount at hown ⊢
  dsimp only
  by_cases he : x.id = mountId
  · rw [he, Function.update_self]
    grind
  · rw [Function.update_of_ne he]
    exact hown

theorem Sound.untameMount {mountId : UInt16} (h : Sound env start p m o) (hs : Unclamped env start)
    (hk : Kept env p (.untameMount now mountId)) : ∃ m o, Sound env start (p.untameMount env now mountId).2 m o := by
  unfold Player.untameMount
  split
  · exact ⟨m, o, h⟩
  split
  · exact ⟨m, o, h⟩
  dsimp only
  set q : Player := { p with mountsMap := Function.update p.mountsMap mountId false }
  have hw : Wears start q m o := h.wears.congr rfl rfl rfl rfl rfl
  have hr : Ridden env q m := h.ridden.congr rfl rfl
  have ho : Outfitted env q o := h.outfitted.congr rfl rfl rfl
  by_cases hid : q.currentMount = mountId
  · rw [if_pos hid]
    have hforget : ∀ r : Player, Sound env start r none o → Sound env start { r with currentMount := 0 } none o :=
      fun r hr => ⟨hr.wears.congr rfl rfl rfl rfl rfl, ⟨hr.ridden.mountAttributes, by simp, by simp⟩,
        hr.outfitted.congr rfl rfl rfl, hr.looks, by simp, by simp⟩
    have hworn := h.wornMount
    cases m with
    | none =>
      have hmounted : ¬q.isMounted := by
        have hp := h.isMounted
        unfold Player.isMounted at hp ⊢
        rw [hp]
        simp
      rw [if_neg hmounted]
      exact ⟨none, o, hforget q (h.congr hw rfl rfl rfl rfl (by simp))⟩
    | some x =>
      have hmounted : q.isMounted := by
        have hp := h.isMounted
        unfold Player.isMounted at hp ⊢
        rw [hp]
        rfl
      rw [if_pos hmounted]
      have hoff := dismount_sound hw hr ho hs (hk hid x hworn)
      obtain ⟨c, hc⟩ := internalCreatureChangeOutfit_eq now (q.dismount env).defaultOutfit (q.dismount env)
      rw [hc]
      exact ⟨none, o, hforget _ (hoff.congr (hoff.wears.congr rfl rfl rfl rfl rfl) rfl rfl rfl rfl (by simp))⟩
  · rw [if_neg hid]
    refine ⟨m, o, h.congr hw rfl rfl rfl rfl fun x hx => ?_⟩
    have hne : x.id ≠ mountId := by
      rw [id_of_getMountByID (hr.current x hx)]
      exact hid
    have hown := h.owned x hx
    unfold Player.hasMount at hown ⊢
    rw [show q.mountsMap x.id = p.mountsMap x.id from Function.update_of_ne hne ..]
    exact hown

/-- One call that takes off what it puts on. -/
theorem Sound.step {call : Call} (h : Sound env start p m o) (hs : Unclamped env start) (hk : Kept env p call) :
    ∃ m o, Sound env start (step env p call) m o := by
  cases call with
  | playerChangeOutfit now outfit isMounted randomizeMount => exact h.playerChangeOutfit hs hk
  | toggleMount now mount => exact h.toggleMount hs hk
  | tameMount mountId => exact ⟨m, o, h.tameMount⟩
  | untameMount now mountId => exact h.untameMount hs hk
  | sendOutfitWindow => exact ⟨m, o, h.sendOutfitWindow⟩

end

/-! ### Runs -/

/-- The player starts unmounted and without bonuses; what he wears gives nothing. -/
structure Plain (env : Env) (start : Player) : Prop where
  isMounted : start.isMounted = false
  mountAttributes : start.mountAttributes = false
  outfitAttributes : start.outfitAttributes = false
  mount : ∀ type, start.conditions (.MOUNT, type) = none
  outfit : ∀ type, start.conditions (.OUTFIT, type) = none
  idle : ∀ o, start.wornOutfit env = some o → o.bonus = 0 ∧ ∀ type, o.attributes.condition type = none

/-- What the player has beside what he started with is what the mount and the outfit that he wears give, and he has the
mount. -/
structure Exact (env : Env) (start p : Player) : Prop where
  gained : p.gained = start.gained + (p.wornMount env).elim 0 Mount.bonus + (p.wornOutfit env).elim 0 Outfit.bonus
  mount : ∀ type, p.conditions (.MOUNT, type) = (p.wornMount env).bind (·.attributes.condition type)
  outfit : ∀ type, p.conditions (.OUTFIT, type) = (p.wornOutfit env).bind (·.attributes.condition type)
  others : ∀ id type, id ≠ .MOUNT → id ≠ .OUTFIT → p.conditions (id, type) = start.conditions (id, type)
  owned : p.isMounted →
    ∃ x, p.wornMount env = some x ∧ x.clientId = p.defaultOutfit.lookMount ∧ p.hasMount env x

section
variable {env : Env} {start p : Player} {m : Option Mount} {o : Option Outfit}

theorem Plain.sound (h : Plain env start) : Sound env start start none none where
  wears := by
    refine ⟨rfl, by simp, by simp, fun type => ?_, fun type => ?_, fun _ _ _ _ => rfl⟩
    · exact h.mount type
    · exact h.outfit type
  ridden := ⟨h.mountAttributes, by simp, by simp⟩
  outfitted := ⟨h.outfitAttributes, by simp, fun _ => h.idle⟩
  looks := by simpa [Player.isMounted] using h.isMounted
  mounted := by simp
  owned := by simp

theorem Sound.exact (h : Sound env start p m o) : Exact env start p := by
  have hm := h.wornMount
  have ho : (p.wornOutfit env).elim 0 Outfit.bonus = o.elim 0 Outfit.bonus ∧
      ∀ type, (p.wornOutfit env).bind (·.attributes.condition type) = o.bind (·.attributes.condition type) := by
    cases o with
    | some x =>
      rw [h.outfitted.worn x rfl]
      exact ⟨rfl, fun _ => rfl⟩
    | none =>
      cases hx : p.wornOutfit env with
      | none => exact ⟨rfl, fun _ => rfl⟩
      | some x => exact h.outfitted.idle rfl x hx
  refine ⟨?_, fun type => ?_, fun type => ?_, h.wears.others, fun hmounted => ?_⟩
  · rw [hm, ho.1]
    have hspeed := h.wears.speed
    have hgiven := h.wears.given
    refine Prod.ext ?_ ?_
    · show p.varSpeed = _
      rw [hspeed]
      cases m <;> cases o <;> simp [Mount.bonus, Outfit.bonus, Player.gained, add_assoc]
    · show (p.varSkills, p.varStats) = _
      rw [hgiven]
      cases m <;> cases o <;> simp [Mount.bonus, Outfit.bonus, Player.gained]
  · rw [hm, h.wears.mount type]
    cases m <;> rfl
  · rw [ho.2, h.wears.outfit type]
    cases o <;> rfl
  · cases m with
    | none => exact absurd (h.isMounted.symm.trans hmounted) (by simp)
    | some x => exact ⟨x, hm, h.looks.symm, h.owned x rfl⟩

/-- In every run whose calls all take off what they have put on, the bonuses are exact in every state. -/
theorem exact_of_kept (env : Env) (start : Player) (calls : List Call) (hplain : Plain env start)
    (hs : Unclamped env start) (hk : Meets (step env) (Kept env) start calls) :
    ∀ done, done <+: calls → Exact env start (run (step env) start done) := by
  rintro done ⟨rest, rfl⟩
  obtain ⟨m, o, h⟩ := run_invariant (fun p => ∃ m o, Sound env start p m o)
    (fun p call ⟨m, o, h⟩ hcall => h.step hs hcall) ⟨none, none, hplain.sound⟩ hk.of_append
  exact h.exact

end

/-! ### A mount that is left and taken again -/

def widowQueen : Mount := { id := 1, clientId := 368, premium := false, speed := 10, attributes := {} }

def citizen : Outfit := { lookType := 128, premium := false, unlocked := true, speed := 0, attributes := {} }

def stable : Env where
  mounts := [widowQueen]
  outfits := [citizen]
  ALLOW_CHANGEOUTFIT := true
  WARN_UNSAFE_SCRIPTS := false
  UNLOCK_ALL_OUTFITS := false
  UNLOCK_ALL_MOUNTS := false
  TOGGLE_MOUNT_IN_PZ := false
  isLookTypeRegistered := fun _ => true
  access := false
  isPremium := true
  CanWearAllMounts := false
  CONDITION_OUTFIT := false
  outfitsMap := []

def rider : Player where
  defaultOutfit := ⟨128, 0, 0⟩
  currentOutfit := ⟨128, 0, 0⟩
  mountsMap := fun id => id = 1
  baseSpeed := 220

def field : Now := { OTSYS_TIME := 10000, getTile := some false, onChangeOutfit := true, uniform_random := 0 }

/-- The outfit window, with the widow queen. -/
def rideOut : List Call := [.sendOutfitWindow, .playerChangeOutfit field ⟨128, 0, 368⟩ true false]

theorem plain_rider : Plain stable rider := by
  refine ⟨rfl, rfl, rfl, fun _ => rfl, fun _ => rfl, fun o ho => ?_⟩
  simp [Player.wornOutfit, rider] at ho

theorem unclamped_rider : Unclamped stable rider := by
  rintro a b (rfl | ⟨x, hx, rfl⟩) (rfl | ⟨y, hy, rfl⟩) <;> simp_all [stable, widowQueen, citizen, rider, Player.PLAYER_MAX_SPEED]

theorem exact_of_kept_rideOut :
    Exact stable rider (run (step stable) rider (rideOut ++ [.toggleMount field false])) := by
  refine exact_of_kept stable rider _ plain_rider unclamped_rider ?_ _ (List.prefix_refl _)
  refine ⟨trivial, fun _ => ⟨fun h => absurd h (by decide), ?_⟩, ?_, trivial⟩
  · have hlook : (step stable rider .sendOutfitWindow).lookMountOf stable field ⟨128, 0, 368⟩ true false = 368 := by
      decide +kernel
    rw [hlook]
    refine ⟨⟨widowQueen, rfl, by decide +kernel, rfl, .inl rfl⟩, .inr fun x hx => ?_⟩
    have hnone : stable.getMountByID 0 = none := rfl
    exact absurd (hnone.symm.trans hx) nofun
  · intro x hx
    have hq : (run (step stable) rider rideOut).wornMount stable = some widowQueen := rfl
    cases hq.symm.trans hx
    decide

/-- The speed of the mount that was left is taken off again. -/
theorem not_exact_remount :
    Plain stable rider ∧ Unclamped stable rider ∧
      ¬Exact stable rider (run (step stable) rider (rideOut ++ [.toggleMount field false] ++ rideOut)) := by
  refine ⟨plain_rider, unclamped_rider, fun h => ?_⟩
  have hspeed := congrArg Prod.fst h.gained
  revert hspeed
  decide +kernel

end CrystalServer.Appearance
