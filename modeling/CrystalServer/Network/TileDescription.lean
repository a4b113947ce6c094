import CrystalServer.Items.Tile

/-! # What a client is shown of a tile

`ProtocolGame::GetTileDescription` (`server/network/protocol/protocolgame.cpp`) writes the things of a tile in a
sequence, ten at most. `Tile::getStackposOfItem` and `Tile::getStackposOfCreature` (`items/tile.cpp`) count them again.
Every creature on the tile is alive and not removed. -/

namespace CrystalServer

/-- What is read of the player: whether the position of the tile is that of the player, and `canSeeCreature`. -/
structure Viewer where
  id : CreatureRef
  isHere : Bool
  canSeeCreature : CreatureRef → Bool
  canSeeCreature_self : canSeeCreature id = true

/-! ### The description

Each loop goes on with what follows it, unless it returns. -/

namespace ProtocolGame
variable (player : Viewer)

def describeTopItems (after : Nat → List Thing) : Nat → List Ref → List Thing
  | count, [] => after count
  | count, item :: items =>
    .item item ::
      if count + 1 = 9 ∧ player.isHere then after (count + 1)
      else if count + 1 = 10 then []
      else describeTopItems after (count + 1) items

def describeCreatures (after : Nat → List Thing) : Bool → Nat → List CreatureRef → List Thing
  | _, count, [] => after count
  | playerAdded, count, creature :: creatures =>
    if !player.canSeeCreature creature then describeCreatures after playerAdded count creatures
    else
      -- the tenth place of the own tile is for the player
      let creature := if player.isHere ∧ count = 9 ∧ !playerAdded then player.id else creature
      let playerAdded := playerAdded || creature = player.id
      .creature creature :: if count + 1 = 10 then [] else describeCreatures after playerAdded (count + 1) creatures

def describeDownItems : Nat → List Ref → List Thing
  | _, [] => []
  | count, item :: items => .item item :: if count + 1 = 10 then [] else describeDownItems (count + 1) items

/-- `ProtocolGame::GetTileDescription`. -/
def GetTileDescription (tile : Tile) : List Thing :=
  tile.ground.toList.map .item ++
    describeTopItems player
      (fun count => describeCreatures player (fun count => describeDownItems count tile.downItems) false count
        tile.creatures.reverse)
      tile.ground.toList.length tile.topItems

end ProtocolGame

/-! ### The stack positions -/

namespace TileWorld
variable (env : TileEnv) (w : TileWorld) (player : Viewer)

def stackposOfTopItem (item : Ref) (after : Int → Int) : Int → List Ref → Int
  | n, [] => after n
  | n, x :: items => if x = item then n else if n + 1 = 10 then -1 else stackposOfTopItem item after (n + 1) items

/-- The loop of `getStackposOfItem` over the creatures. -/
def passCreatures (after : Int → Int) : Int → List CreatureRef → Int
  | n, [] => after n
  | n, creature :: creatures =>
    if player.canSeeCreature creature then
      if n + 1 ≥ 10 then -1 else passCreatures after (n + 1) creatures
    else passCreatures after n creatures

def stackposOfDownItem (item : Ref) : Int → List Ref → Int
  | _, [] => -1
  | n, x :: items => if x = item then n else if n + 1 ≥ 10 then -1 else stackposOfDownItem item (n + 1) items

/-- `Tile::getStackposOfItem`. -/
def getStackposOfItem (item : Ref) : Int :=
  let n : Int := w.ground.toList.length
  if w.ground = some item then 0
  else if w.isAlwaysOnTop env item then
    stackposOfTopItem item (fun n => passCreatures player (fun _ => -1) n w.creatures) n w.topItems
  else
    let n := n + w.getTopItemCount
    if n ≥ 10 then -1
    else passCreatures player (fun n => stackposOfDownItem item n w.downItems) n w.creatures

def stackposOfCreature (creature : CreatureRef) : Int → List CreatureRef → Int
  | _, [] => -1
  | n, x :: creatures =>
    if x = creature then n
    else if player.canSeeCreature x then
      if n + 1 ≥ 10 then -1 else stackposOfCreature creature (n + 1) creatures
    else stackposOfCreature creature n creatures

/-- `Tile::getStackposOfCreature`. -/
def getStackposOfCreature (creature : CreatureRef) : Int :=
  let n : Int := w.ground.toList.length + w.getTopItemCount
  if n ≥ 10 then -1 else stackposOfCreature player creature n w.creatures.reverse

end TileWorld
end CrystalServer
