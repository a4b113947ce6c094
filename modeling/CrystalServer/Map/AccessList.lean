import CrystalServer.Utils.Tools
import Mathlib.Data.Finset.Insert

/-! # Access lists of houses

`AccessList` (`map/house/house.cpp`) and the lookups that it rests on. The database compares names without the case of
letters. A guild that is not loaded is loaded with the ranks that it has. -/

namespace CrystalServer

def NETWORKMESSAGE_PLAYERNAME_MAXLENGTH : Nat := 30

structure GuildRank where
  id : UInt32
  name : List UInt8
  deriving DecidableEq

structure Guild where
  id : UInt32
  name : List UInt8
  ranks : List GuildRank

/-- `Guild::getRankByName`. -/
def Guild.getRankByName (guild : Guild) (guildName : List UInt8) : Option GuildRank :=
  guild.ranks.find? fun rank => rank.name = guildName

/-- The tables of players and of guilds with their ranks, whose keys are unique as the names of players and of guilds
    are, and the players online. -/
structure Registry where
  players : List (UInt32 × List UInt8)
  online : List UInt32
  guilds : List Guild
  guids : (players.map Prod.fst).Nodup
  guid_ne_zero : ∀ row ∈ players, row.1 ≠ 0
  names : (players.map fun row => asLowerCaseString row.2).Nodup
  guildIds : (guilds.map Guild.id).Nodup
  guildId_ne_zero : ∀ guild ∈ guilds, guild.id ≠ 0
  guildNames : (guilds.map fun guild => asLowerCaseString guild.name).Nodup
  rankIds : ((guilds.flatMap Guild.ranks).map GuildRank.id).Nodup

namespace Registry
variable (registry : Registry)

/-- `Game::getPlayerByName`, as far as the guid of who is online. -/
def getPlayerByName (s : List UInt8) : Option UInt32 :=
  if s = [] then none
  else ((registry.players.filter fun row => registry.online.contains row.1).find? fun row =>
    asLowerCaseString row.2 = asLowerCaseString s).map Prod.fst

/-- `IOLoginData::getGuidByName`. -/
def getGuidByName (name : List UInt8) : UInt32 :=
  ((registry.players.find? fun row => asLowerCaseString row.2 = asLowerCaseString name).map Prod.fst).getD 0

/-- `IOGuild::getGuildIdByName`. -/
def getGuildIdByName (name : List UInt8) : UInt32 :=
  ((registry.guilds.find? fun guild => asLowerCaseString guild.name = asLowerCaseString name).map Guild.id).getD 0

/-- `Game::getGuild`, or else `IOGuild::loadGuild`. -/
def getGuild (guildId : UInt32) : Option Guild := registry.guilds.find? fun guild => guild.id = guildId

def getGuildByName (name : List UInt8) : Option Guild :=
  let guildId := registry.getGuildIdByName name
  if guildId = 0 then none else registry.getGuild guildId

end Registry

/-- A player of the table, with the rank in a guild. -/
structure Resident (registry : Registry) where
  guid : UInt32
  name : List UInt8
  mem : (guid, name) ∈ registry.players
  guildRank : Option GuildRank
  guildRank_mem : ∀ rank ∈ guildRank, rank ∈ registry.guilds.flatMap Guild.ranks

structure AccessList where
  list : List UInt8
  playerList : Finset UInt32
  guildRankList : Finset UInt32
  allowEveryone : Bool

namespace AccessList
variable (registry : Registry)

def addPlayer (this : AccessList) (name : List UInt8) : AccessList :=
  match registry.getPlayerByName name with
  | some guid => { this with playerList := insert guid this.playerList }
  | none =>
    let guid := registry.getGuidByName name
    if guid ≠ 0 then { this with playerList := insert guid this.playerList } else this

def addGuild (this : AccessList) (name : List UInt8) : AccessList :=
  match registry.getGuildByName name with
  | some guild =>
    { this with guildRankList := guild.ranks.foldl (fun guildRankList rank => insert rank.id guildRankList) this.guildRankList }
  | none => this

def addGuildRank (this : AccessList) (name guildName : List UInt8) : AccessList :=
  match (registry.getGuildByName guildName).bind (·.getRankByName name) with
  | some rank => { this with guildRankList := insert rank.id this.guildRankList }
  | none => this

def isInList (this : AccessList) (player : Resident registry) : Bool :=
  this.allowEveryone || decide (player.guid ∈ this.playerList) ||
    player.guildRank.any fun rank => rank.id ∈ this.guildRankList

def getList (this : AccessList) : List UInt8 := this.list

/-- The characters that `regexValidChars` leaves. -/
def isValidChar (c : UInt8) : Bool :=
  ('a'.toUInt8 ≤ c ∧ c ≤ 'z'.toUInt8) ∨ ('A'.toUInt8 ≤ c ∧ c ≤ 'Z'.toUInt8) ∨ c = '\''.toUInt8 ∨ c = ' '.toUInt8 ∨
    c = '\n'.toUInt8 ∨ c = '*'.toUInt8 ∨ c = '!'.toUInt8 ∨ c = '@'.toUInt8 ∨ c = '#'.toUInt8

/-- The lines that `std::getline` gives one after the other. -/
def getlines : List UInt8 → List (List UInt8)
  | [] => []
  | c :: text =>
    if c = '\n'.toUInt8 then [] :: getlines text
    else match getlines text with
      | [] => [[c]]
      | line :: lines => (c :: line) :: lines

/-- The loop that removes empty lines. -/
def withoutEmptyLines (text : List UInt8) : List UInt8 :=
  ((getlines text).filter fun line => !line.isEmpty).flatMap fun line => line ++ ['\n'.toUInt8]

/-- How a line is trimmed: of spaces, of tabs, and of spaces again. -/
def trimLine (m_line : List UInt8) : List UInt8 :=
  trimString (trim_right (trim_left (trimString m_line) '\t'.toUInt8) '\t'.toUInt8)

/-- A line that the loop skips. -/
def isSkipped (m_line : List UInt8) : Bool :=
  m_line.isEmpty || m_line.head? = some '#'.toUInt8 || m_line.length > 100

/-- What a line that is trimmed and in lower case adds. -/
def addLine (this : AccessList) (m_line : List UInt8) : AccessList :=
  match m_line.findIdx? (· = '@'.toUInt8) with
  | some 0 => this.addGuild registry (m_line.drop 1)
  | some (n + 1) => this.addGuildRank registry (m_line.take n) (m_line.drop (n + 2))
  | none =>
    if m_line = ['*'.toUInt8] then { this with allowEveryone := true }
    else if m_line.any fun c => c = '!'.toUInt8 ∨ c = '*'.toUInt8 ∨ c = '?'.toUInt8 then this
    else if m_line.length ≤ NETWORKMESSAGE_PLAYERNAME_MAXLENGTH then this.addPlayer registry m_line
    else this

/-- The loop over the lines. -/
def parseLine (this : AccessList) (m_line : List UInt8) : AccessList :=
  let m_line := trimLine m_line
  if isSkipped m_line then this else this.addLine registry (asLowerCaseString m_line)

/-- `AccessList::parseList`. -/
def parseList (_this : AccessList) (list : List UInt8) : AccessList :=
  let validList := withoutEmptyLines (list.filter isValidChar)
  let this : AccessList := ⟨validList, ∅, ∅, false⟩
  if list.isEmpty then this
  else (explodeString '\n'.toUInt8 100 validList).foldl (parseLine registry) this

end AccessList
end CrystalServer
