import Mathlib.Data.UInt

/-! # VIP lists

`PlayerVIP` (`creatures/players/vip/player_vip.cpp`), the statements of `IOLoginData` on the rows of the account
(`io/iologindata.cpp`, `schema.sql`), all of which succeed, and `loadPlayerVip` (`io/functions/iologindata_load_player.cpp`).
The messages to the client are left out. -/

namespace CrystalServer.Vip

structure VIPGroup where
  id : UInt8
  name : String
  customizable : Bool
  vipGroupGuids : Finset UInt32

structure PlayerVIP where
  vipGuids : Finset UInt32
  vipGroups : List VIPGroup

/-! ### The tables -/

/-- A row of `account_viplist`. -/
structure VIPEntry where
  guid : UInt32
  description : String
  icon : UInt32
  notify : Bool

/-- A row of `account_vipgroups`. -/
structure VIPGroupEntry where
  id : UInt8
  name : String
  customizable : Bool
  deriving DecidableEq

/-- The rows of an account, each table in the order of its keys. A row of `account_vipgrouplist` is a player and a group. -/
structure Tables where
  viplist : List VIPEntry
  vipgroups : List VIPGroupEntry
  vipgrouplist : List (UInt32 × UInt8)

namespace IOLoginData

def addVIPEntry (guid : UInt32) (description : String) (icon : UInt32) (notify : Bool) (t : Tables) : Tables :=
  { t with viplist := t.viplist ++ [⟨guid, description, icon, notify⟩] }

def editVIPEntry (guid : UInt32) (description : String) (icon : UInt32) (notify : Bool) (t : Tables) : Tables :=
  { t with viplist := t.viplist.map fun e => if e.guid = guid then ⟨guid, description, icon, notify⟩ else e }

def removeVIPEntry (guid : UInt32) (t : Tables) : Tables :=
  { t with viplist := t.viplist.filter fun e => e.guid ≠ guid }

/-- The memberships go with the group: their key refers to it `ON DELETE CASCADE`. -/
def removeVIPGroupEntry (groupId : UInt8) (t : Tables) : Tables :=
  { t with
    vipgroups := t.vipgroups.filter fun e => e.id ≠ groupId
    vipgrouplist := t.vipgrouplist.filter fun row => row.2 ≠ groupId }

/-- A row is there once at most. -/
def addGuidVIPGroupEntry (groupId : UInt8) (guid : UInt32) (t : Tables) : Tables :=
  if (guid, groupId) ∈ t.vipgrouplist then t else { t with vipgrouplist := t.vipgrouplist ++ [(guid, groupId)] }

def removeGuidVIPGroupEntry (guid : UInt32) (t : Tables) : Tables :=
  { t with vipgrouplist := t.vipgrouplist.filter fun row => row.1 ≠ guid }

end IOLoginData

/-! ### The list in memory -/

namespace PlayerVIP

def firstID : Nat := 1

def lastID : Nat := 8

def getGroupByID (groupId : UInt8) (vip : PlayerVIP) : Option VIPGroup := vip.vipGroups.find? fun g => g.id = groupId

def getGroupByName (name : String) (vip : PlayerVIP) : Option VIPGroup := vip.vipGroups.find? fun g => g.name = name

def getFreeId (vip : PlayerVIP) : UInt8 :=
  (((List.range' firstID (lastID - firstID + 1)).map UInt8.ofNat).find? fun i => (vip.getGroupByID i).isNone).getD 0

def getGroupsIdGuidBelongs (guid : UInt32) (vip : PlayerVIP) : List UInt8 :=
  (vip.vipGroups.filter fun g => guid ∈ g.vipGroupGuids).map VIPGroup.id

/-- No more entries come in, where `getMaxEntries` gives `maxEntries`. -/
def full (maxEntries : Nat) (vip : PlayerVIP) : Bool := vip.vipGuids.card ≥ maxEntries || vip.vipGuids.card = 200

def addInternal (maxEntries : Nat) (vip : PlayerVIP) (vipGuid : UInt32) : PlayerVIP :=
  if vip.full maxEntries then vip else { vip with vipGuids := insert vipGuid vip.vipGuids }

/-- The id that is given is not read. -/
def addGroupInternal (vip : PlayerVIP) (_groupId : UInt8) (name : String) (customizable : Bool) : PlayerVIP :=
  if (vip.getGroupByName name).isSome then vip
  else if vip.getFreeId = 0 then vip
  else { vip with vipGroups := vip.vipGroups ++ [⟨vip.getFreeId, name, customizable, ∅⟩] }

/-- The player comes into the first group with the id. -/
def insertGuid (groupId : UInt8) (guid : UInt32) : List VIPGroup → List VIPGroup
  | [] => []
  | g :: groups =>
    if g.id = groupId then { g with vipGroupGuids := insert guid g.vipGroupGuids } :: groups
    else g :: insertGuid groupId guid groups

def addGuidToGroupInternal (vip : PlayerVIP) (groupId : UInt8) (guid : UInt32) : PlayerVIP :=
  { vip with vipGroups := insertGuid groupId guid vip.vipGroups }

end PlayerVIP

/-! ### The operations -/

/-- What a player has in memory, and the rows of the account. -/
structure State where
  vip : PlayerVIP
  tables : Tables

namespace State

/-- `PlayerVIP::remove`. -/
def remove (vipGuid : UInt32) (s : State) : State :=
  if vipGuid ∉ s.vip.vipGuids then s
  else ⟨{ s.vip with vipGuids := s.vip.vipGuids.erase vipGuid }, IOLoginData.removeVIPEntry vipGuid s.tables⟩

/-- `PlayerVIP::add`. -/
def add (maxEntries : Nat) (vipGuid : UInt32) (s : State) : State :=
  if s.vip.full maxEntries then s
  else if vipGuid ∈ s.vip.vipGuids then s
  else
    ⟨{ s.vip with vipGuids := insert vipGuid s.vip.vipGuids }, IOLoginData.addVIPEntry vipGuid "" 0 false s.tables⟩

/-- The loop of `edit`, for a group. -/
def joinGroup (vipGuid : UInt32) (s : State) (groupId : UInt8) : State :=
  match s.vip.getGroupByID groupId with
  | none => s
  | some group =>
    ⟨s.vip.addGuidToGroupInternal groupId vipGuid, IOLoginData.addGuidVIPGroupEntry group.id vipGuid s.tables⟩

/-- `PlayerVIP::edit`. -/
def edit (vipGuid : UInt32) (description : String) (icon : UInt32) (notify : Bool) (groupsId : List UInt8) (s : State) :
    State :=
  if vipGuid ∉ s.vip.vipGuids then s
  else
    let tables := IOLoginData.editVIPEntry vipGuid description icon notify s.tables
    let tables := IOLoginData.removeGuidVIPGroupEntry vipGuid tables
    groupsId.foldl (joinGroup vipGuid) ⟨s.vip, tables⟩

/-- `PlayerVIP::removeGroup`. -/
def removeGroup (groupId : UInt8) (s : State) : State :=
  if (s.vip.getGroupByID groupId).isNone then s
  else
    ⟨{ s.vip with vipGroups := s.vip.vipGroups.eraseP fun g => g.id = groupId },
      IOLoginData.removeVIPGroupEntry groupId s.tables⟩

end State

inductive Operation where
  | add (vipGuid : UInt32)
  | remove (vipGuid : UInt32)
  | edit (vipGuid : UInt32) (description : String) (icon : UInt32) (notify : Bool) (groupsId : List UInt8)
  | removeGroup (groupId : UInt8)

def step (maxEntries : Nat) (s : State) : Operation → State
  | .add vipGuid => s.add maxEntries vipGuid
  | .remove vipGuid => s.remove vipGuid
  | .edit vipGuid description icon notify groupsId => s.edit vipGuid description icon notify groupsId
  | .removeGroup groupId => s.removeGroup groupId

/-- `IOLoginDataLoad::loadPlayerVip`. -/
def loadPlayerVip (maxEntries : Nat) (t : Tables) : PlayerVIP :=
  let vip := (t.viplist.map VIPEntry.guid).foldl (PlayerVIP.addInternal maxEntries) ⟨∅, []⟩
  let vip := t.vipgroups.foldl (fun vip e => vip.addGroupInternal e.id e.name e.customizable) vip
  t.vipgrouplist.foldl (fun vip row => vip.addGuidToGroupInternal row.2 row.1) vip

end CrystalServer.Vip
