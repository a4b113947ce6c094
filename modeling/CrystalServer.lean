import CrystalServer.Theorems.Kv.Map
import CrystalServer.Theorems.Io.FileStream
import CrystalServer.Theorems.Game.Bank
import CrystalServer.Theorems.Market.Steps
import CrystalServer.Theorems.Items.SaveLoad
import CrystalServer.Theorems.Game.SaveManager
import CrystalServer.Theorems.Database.Transaction
import CrystalServer.Theorems.Creatures.Speed
import CrystalServer.Theorems.Io.PlayerItems
import CrystalServer.Theorems.Creatures.ConditionStream
import CrystalServer.Theorems.Creatures.Party
import CrystalServer.Theorems.Game.HouseSettle
import CrystalServer.Theorems.Creatures.WheelGems
import CrystalServer.Theorems.Game.Trade
import CrystalServer.Theorems.Creatures.WheelBonus
import CrystalServer.Theorems.Game.ScheduledTasks
import CrystalServer.Theorems.Items.TileFlags
import CrystalServer.Theorems.Network.TileDescription
import CrystalServer.Theorems.Creatures.CombatDamage
import CrystalServer.Theorems.Io.MapSerialize
import CrystalServer.Theorems.Creatures.Appearance
import CrystalServer.Theorems.Io.Bosstiary
import CrystalServer.Theorems.Io.LootBonus
import CrystalServer.Theorems.Creatures.ConditionDamage
import CrystalServer.Theorems.Creatures.HealthChange
import CrystalServer.Theorems.Io.PreyGrid
import CrystalServer.Theorems.Creatures.NpcSells
import CrystalServer.Theorems.Utils.ArrayList
import CrystalServer.Theorems.Game.Merge
import CrystalServer.Theorems.Game.ItemCount
import CrystalServer.Theorems.Map.SightLine
import CrystalServer.Theorems.Map.SpectatorsFilter
import CrystalServer.Theorems.Map.PathFinding
import CrystalServer.Theorems.Utils.WildcardTree
import CrystalServer.Theorems.Utils.VectorSet
import CrystalServer.Theorems.Items.FreeSlots
import CrystalServer.Theorems.Network.MapDescription
import CrystalServer.Theorems.Creatures.AreaCombat
import CrystalServer.Theorems.Creatures.ChainCombat
import CrystalServer.Theorems.Creatures.Monster
import CrystalServer.Theorems.Map.AccessList
import CrystalServer.Theorems.Creatures.Training
import CrystalServer.Theorems.Creatures.DamageShares
import CrystalServer.Theorems.Creatures.SpawnMonster
import CrystalServer.Theorems.Creatures.Vip
import CrystalServer.Theorems.Game.Zones
import CrystalServer.Theorems.Security.Rsa
import CrystalServer.Theorems.Network.Sending
import CrystalServer.Theorems.Creatures.CreatureChecks
import CrystalServer.Theorems.Utils.Checksums
