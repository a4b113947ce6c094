import CrystalServer.Lib.Keyed
import CrystalServer.Map.AccessList

/-! # What an access list of a house grants

A text becomes its lines, trimmed and in lower case, and each line adds what it names. A line `rank@guild` is cut one
character before the `@`, and what is left is compared with the names of the ranks as they are spelt. -/

namespace CrystalServer
namespace AccessList

/-! ### Lines -/

/-- The lines of a text that are kept. -/
def lines (text : List UInt8) : List (List UInt8) :=
  (getlines (text.filter isValidChar)).filter fun line => !line.isEmpty

/-- A line that counts: no comment, and of at most 100 characters. -/
def counts (line : List UInt8) : Bool := line ≠ [] ∧ line.head? ≠ some '#'.toUInt8 ∧ line.length ≤ 100

/-- The lines that count, trimmed and in lower case. -/
def entries (text : List UInt8) : List (List UInt8) :=
  (((lines text).map trimString).filter counts).map asLowerCaseString

theorem getlines_append {line : List UInt8} (h : '\n'.toUInt8 ∉ line) (text : List UInt8) :
    getlines (line ++ '\n'.toUInt8 :: text) = line :: getlines text := by
  induction line with
  | nil => rw [List.nil_append, getlines, if_pos rfl]
  | cons c line ih =>
    obtain ⟨hc, hline⟩ := not_or.mp (List.mem_cons.not.mp h)
    rw [List.cons_append, getlines, if_neg (Ne.symm hc), ih hline]

theorem getlines_flatMap {lines : List (List UInt8)} (h : ∀ line ∈ lines, '\n'.toUInt8 ∉ line) :
    getlines (lines.flatMap fun line => line ++ ['\n'.toUInt8]) = lines := by
  induction lines with
  | nil => rfl
  | cons line lines ih =>
    obtain ⟨hline, hlines⟩ := List.forall_mem_cons.mp h
    rw [List.flatMap_cons, List.append_assoc, List.singleton_append, getlines_append hline, ih hlines]

theorem explodeString_flatMap {separator : UInt8} {lines : List (List UInt8)} (h : ∀ line ∈ lines, separator ∉ line)
    {limit : Nat} (hlimit : lines.length ≤ limit) :
    explodeString separator limit (lines.flatMap fun line => line ++ [separator]) = lines ++ [[]] := by
  induction lines generalizing limit with
  | nil => cases limit <;> rfl
  | cons line lines ih =>
    obtain ⟨hline, hlines⟩ := List.forall_mem_cons.mp h
    obtain ⟨limit, rfl⟩ : ∃ n, limit = n + 1 := ⟨limit - 1, by rw [List.length_cons] at hlimit; omega⟩
    have hne : ∀ c ∈ line, decide (c ≠ separator) = true := fun c hc => decide_eq_true fun heq => hline (heq ▸ hc)
    rw [List.flatMap_cons, List.append_assoc, List.singleton_append, explodeString, if_pos (by simp),
      List.takeWhile_append_of_pos hne, List.dropWhile_append_of_pos hne, List.takeWhile_cons_of_neg (by simp),
      List.dropWhile_cons_of_neg (by simp), List.append_nil, List.tail_cons,
      ih hlines (Nat.le_of_succ_le_succ hlimit), List.cons_append]

/-- The lines hold what the text holds, but for the ends of the lines. -/
theorem mem_of_mem_getlines {text line : List UInt8} (h : line ∈ getlines text) {c : UInt8} (hc : c ∈ line) :
    c ∈ text ∧ c ≠ '\n'.toUInt8 := by
  induction text generalizing line c with
  | nil => exact absurd h List.not_mem_nil
  | cons d text ih =>
    rw [getlines] at h
    split at h
    · rcases List.mem_cons.mp h with rfl | h
      · exact absurd hc List.not_mem_nil
      · exact ⟨List.mem_cons_of_mem d (ih h hc).1, (ih h hc).2⟩
    · rename_i hd
      cases hl : getlines text with
      | nil =>
        simp only [hl, List.mem_singleton] at h
        subst h
        obtain rfl := List.mem_singleton.mp hc
        exact ⟨List.mem_cons_self, hd⟩
      | cons first rest =>
        rw [hl] at ih h
        rcases List.mem_cons.mp h with rfl | h
        · rcases List.mem_cons.mp hc with rfl | hc
          · exact ⟨List.mem_cons_self, hd⟩
          · obtain ⟨hmem, hne⟩ := ih List.mem_cons_self hc
            exact ⟨List.mem_cons_of_mem d hmem, hne⟩
        · obtain ⟨hmem, hne⟩ := ih (List.mem_cons_of_mem first h) hc
          exact ⟨List.mem_cons_of_mem d hmem, hne⟩

theorem mem_lines {text line : List UInt8} (h : line ∈ lines text) {c : UInt8} (hc : c ∈ line) :
    isValidChar c ∧ c ≠ '\n'.toUInt8 := by
  obtain ⟨hmem, hne⟩ := mem_of_mem_getlines (List.mem_filter.mp h).1 hc
  exact ⟨(List.mem_filter.mp hmem).2, hne⟩

theorem newline_notMem_lines {text : List UInt8} : ∀ line ∈ lines text, '\n'.toUInt8 ∉ line :=
  fun _ hline hc => (mem_lines hline hc).2 rfl

/-! ### The text that the list keeps -/

theorem withoutEmptyLines_filter (text : List UInt8) :
    withoutEmptyLines (text.filter isValidChar) = (lines text).flatMap fun line => line ++ ['\n'.toUInt8] := rfl

/-- The text that is kept has nothing left to take out. -/
theorem lines_withoutEmptyLines (text : List UInt8) : lines (withoutEmptyLines (text.filter isValidChar)) = lines text := by
  have hvalid : (withoutEmptyLines (text.filter isValidChar)).filter isValidChar =
      withoutEmptyLines (text.filter isValidChar) := by
    refine List.filter_eq_self.mpr fun c hc => ?_
    rw [withoutEmptyLines_filter, List.mem_flatMap] at hc
    obtain ⟨line, hline, hc⟩ := hc
    rcases List.mem_append.mp hc with hc | hc
    · exact (mem_lines hline hc).1
    · rw [List.mem_singleton.mp hc]
      decide
  have hlines : getlines (withoutEmptyLines (text.filter isValidChar)) = lines text := by
    rw [withoutEmptyLines_filter]
    exact getlines_flatMap newline_notMem_lines
  rw [lines, hvalid, hlines, lines, List.filter_filter]
  simp

/-! ### Trimming -/

theorem trimString_subset {str : List UInt8} {c : UInt8} (hc : c ∈ trimString str) : c ∈ str :=
  (List.rdropWhile_prefix _ str).subset ((List.dropWhile_suffix _).subset hc)

theorem trim_left_eq_self {source : List UInt8} {t : UInt8} (h : t ∉ source) : trim_left source t = source := by
  cases source with
  | nil => rfl
  | cons c source =>
    have hc : c ≠ t := fun heq => h (heq ▸ List.mem_cons_self)
    exact List.dropWhile_cons_of_neg (by simpa using hc)

theorem trim_right_eq_self {source : List UInt8} {t : UInt8} (h : t ∉ source) : trim_right source t = source := by
  refine List.rdropWhile_eq_self_iff.mpr fun hne heq => h ?_
  exact of_decide_eq_true heq ▸ List.getLast_mem hne

/-- Spaces are trimmed once for all. -/
theorem trimString_trimString (str : List UInt8) : trimString (trimString str) = trimString str := by
  have hright : trim_right (trimString str) ' '.toUInt8 = trimString str := by
    refine List.rdropWhile_eq_self_iff.mpr fun hne => ?_
    have hsuffix : trimString str <:+ trim_right str ' '.toUInt8 := List.dropWhile_suffix _
    have hne' : trim_right str ' '.toUInt8 ≠ [] := fun hnil => hne (List.suffix_nil.mp (hnil ▸ hsuffix))
    rw [List.IsSuffix.getLast hsuffix hne]
    exact List.rdropWhile_last_not _ str hne'
  calc trimString (trimString str)
      = trim_left (trim_right (trimString str) ' '.toUInt8) ' '.toUInt8 := rfl
    _ = trim_left (trimString str) ' '.toUInt8 := by rw [hright]
    _ = trimString str := List.dropWhile_idempotent _ _

theorem trimLine_eq {m_line : List UInt8} (h : '\t'.toUInt8 ∉ m_line) : trimLine m_line = trimString m_line := by
  have hnot : '\t'.toUInt8 ∉ trimString m_line := fun hc => h (trimString_subset hc)
  rw [trimLine, trim_left_eq_self hnot, trim_right_eq_self hnot, trimString_trimString]

theorem tab_notMem_lines {text : List UInt8} : ∀ line ∈ lines text, '\t'.toUInt8 ∉ line := fun _ hline hc => by
  have hvalid := (mem_lines hline hc).1
  exact absurd hvalid (by decide)

/-! ### The loop over the lines -/

section Loop
variable {registry : Registry}

theorem isSkipped_eq (line : List UInt8) : isSkipped line = !counts line := by
  rw [Bool.eq_iff_iff]
  simp only [isSkipped, counts, Bool.or_eq_true, Bool.not_eq_true', decide_eq_true_eq, decide_eq_false_iff_not,
    List.isEmpty_iff, gt_iff_lt, not_and_or, not_not, ne_eq, Nat.not_le, or_assoc]

theorem foldl_parseLine {lines : List (List UInt8)} (h : ∀ line ∈ lines, '\t'.toUInt8 ∉ line) (this : AccessList) :
    lines.foldl (parseLine registry) this =
      (((lines.map trimString).filter counts).map asLowerCaseString).foldl (addLine registry) this := by
  induction lines generalizing this with
  | nil => rfl
  | cons line lines ih =>
    obtain ⟨hline, hlines⟩ := List.forall_mem_cons.mp h
    rw [List.foldl_cons, List.map_cons, parseLine, trimLine_eq hline, isSkipped_eq, ih hlines]
    by_cases hcounts : counts (trimString line)
    · rw [List.filter_cons_of_pos hcounts, List.map_cons, List.foldl_cons, hcounts, if_neg (by simp)]
    · rw [List.filter_cons_of_neg hcounts, Bool.eq_false_iff.mpr hcounts, if_pos (by simp)]

/-- An empty text has no line that adds anything. -/
theorem parseList_eq_foldl (this : AccessList) (text : List UInt8) :
    parseList registry this text =
      (explodeString '\n'.toUInt8 100 (withoutEmptyLines (text.filter isValidChar))).foldl (parseLine registry)
        ⟨withoutEmptyLines (text.filter isValidChar), ∅, ∅, false⟩ := by
  cases text <;> rfl

theorem parseList_eq {text : List UInt8} (h : (lines text).length ≤ 100) (this : AccessList) :
    parseList registry this text =
      (entries text).foldl (addLine registry) ⟨withoutEmptyLines (text.filter isValidChar), ∅, ∅, false⟩ := by
  have hexplode : explodeString '\n'.toUInt8 100 (withoutEmptyLines (text.filter isValidChar)) = lines text ++ [[]] := by
    rw [withoutEmptyLines_filter]
    exact explodeString_flatMap newline_notMem_lines h
  have hempty : ∀ that : AccessList, parseLine registry that [] = that := fun _ => rfl
  rw [parseList_eq_foldl, hexplode, List.foldl_append, foldl_parseLine tab_notMem_lines, List.foldl_cons, List.foldl_nil,
    hempty, entries]

end Loop

/-! ### What a line names -/

section Names
variable {registry : Registry} (player : Resident registry) (entry : List UInt8)

def HasRankIn (guild : Guild) : Prop := ∃ rank ∈ player.guildRank, rank ∈ guild.ranks

/-- The line is the name of the player. -/
def NamesPlayer : Prop :=
  entry = asLowerCaseString player.name ∧ entry.length ≤ NETWORKMESSAGE_PLAYERNAME_MAXLENGTH ∧ '!'.toUInt8 ∉ entry ∧
    '*'.toUInt8 ∉ entry

/-- The line is `@guild`, for the guild of the player. -/
def NamesGuild : Prop :=
  ∃ guild ∈ registry.guilds, HasRankIn player guild ∧ entry = '@'.toUInt8 :: asLowerCaseString guild.name

/-- The line is `rank@guild`, for the rank of the player in the guild. -/
def NamesRank : Prop :=
  ∃ guild ∈ registry.guilds, ∃ rank ∈ player.guildRank, rank ∈ guild.ranks ∧
    entry = asLowerCaseString rank.name ++ '@'.toUInt8 :: asLowerCaseString guild.name

/-- The line without the character before its first `@` begins with the name of the rank of the player, as it is spelt,
    and the name of the guild follows the `@`. -/
def NamesRankCut : Prop :=
  ∃ n, entry.findIdx? (· = '@'.toUInt8) = some (n + 1) ∧ ∃ guild ∈ registry.guilds,
    asLowerCaseString guild.name = entry.drop (n + 2) ∧ ∃ rank ∈ player.guildRank,
      guild.getRankByName (entry.take n) = some rank

/-- The line admits the player, and nothing is cut off. -/
def AdmitsUncut : Prop :=
  entry = ['*'.toUInt8] ∨ ('@'.toUInt8 ∉ entry ∧ NamesPlayer player entry) ∨ NamesGuild player entry

/-- What the line has to say for the player to be in the list. -/
def Admits : Prop :=
  entry = ['*'.toUInt8] ∨ NamesPlayer player entry ∨ NamesGuild player entry ∨ NamesRank player entry

end Names

/-! ### Who is found under a name -/

section Found
variable {registry : Registry} {player : Resident registry} {name : List UInt8}

theorem isInList_iff {this : AccessList} :
    this.isInList registry player ↔
      this.allowEveryone ∨ player.guid ∈ this.playerList ∨ ∃ rank ∈ player.guildRank, rank.id ∈ this.guildRankList := by
  cases hrank : player.guildRank <;> simp [isInList, hrank, or_assoc]

theorem asLowerCaseString_idem (source : List UInt8) :
    asLowerCaseString (asLowerCaseString source) = asLowerCaseString source := by
  have htwice : ∀ c, tolower (tolower c) = tolower c := fun c => by
    unfold tolower
    grind
  simp [asLowerCaseString, htwice]

theorem find?_players_iff {row : UInt32 × List UInt8} :
    (registry.players.find? fun row => asLowerCaseString row.2 = asLowerCaseString name) = some row ↔
      row ∈ registry.players ∧ asLowerCaseString row.2 = asLowerCaseString name :=
  Lib.find?_eq_some_iff_mem (fun row : UInt32 × List UInt8 => asLowerCaseString row.2) registry.names

theorem find?_guilds_iff {guild : Guild} :
    (registry.guilds.find? fun guild => asLowerCaseString guild.name = asLowerCaseString name) = some guild ↔
      guild ∈ registry.guilds ∧ asLowerCaseString guild.name = asLowerCaseString name :=
  Lib.find?_eq_some_iff_mem (fun guild : Guild => asLowerCaseString guild.name) registry.guildNames

/-- The player is the row of the table under this name. -/
theorem getGuidByName_eq_iff :
    registry.getGuidByName name = player.guid ↔ asLowerCaseString player.name = asLowerCaseString name := by
  have hzero : player.guid ≠ 0 := registry.guid_ne_zero _ player.mem
  unfold Registry.getGuidByName
  constructor
  · intro h
    cases hfind : registry.players.find? fun row => asLowerCaseString row.2 = asLowerCaseString name with
    | none =>
      rw [hfind] at h
      exact absurd h.symm hzero
    | some row =>
      obtain ⟨hrow, hname⟩ := find?_players_iff.mp hfind
      rw [hfind] at h
      have hsame : row = (player.guid, player.name) := List.inj_on_of_nodup_map registry.guids hrow player.mem h
      rw [hsame] at hname
      exact hname
  · intro h
    rw [find?_players_iff.mpr ⟨player.mem, h⟩]
    rfl

/-- Who is online under a name has it in the table. -/
theorem getGuidByName_of_online {guid : UInt32} (h : registry.getPlayerByName name = some guid) :
    registry.getGuidByName name = guid ∧ guid ≠ 0 := by
  unfold Registry.getPlayerByName at h
  split at h
  · exact absurd h (by simp)
  · obtain ⟨row, hfind, rfl⟩ := Option.map_eq_some_iff.mp h
    have hrow := (List.mem_filter.mp (List.mem_of_find?_eq_some hfind)).1
    have hname : asLowerCaseString row.2 = asLowerCaseString name := by simpa using List.find?_some hfind
    rw [Registry.getGuidByName, find?_players_iff.mpr ⟨hrow, hname⟩]
    exact ⟨rfl, registry.guid_ne_zero row hrow⟩

theorem getGuildByName_eq_some_iff {guild : Guild} :
    registry.getGuildByName name = some guild ↔
      guild ∈ registry.guilds ∧ asLowerCaseString guild.name = asLowerCaseString name := by
  unfold Registry.getGuildByName Registry.getGuildIdByName Registry.getGuild
  cases hfind : registry.guilds.find? fun guild => asLowerCaseString guild.name = asLowerCaseString name with
  | none =>
    have hnone : ¬(guild ∈ registry.guilds ∧ asLowerCaseString guild.name = asLowerCaseString name) := fun h =>
      absurd (find?_guilds_iff.mpr h) (by rw [hfind]; simp)
    simpa using hnone
  | some found =>
    have hfound := (find?_guilds_iff.mp hfind).1
    have hzero : found.id ≠ 0 := registry.guildId_ne_zero found hfound
    have hbyId : (registry.guilds.find? fun guild => guild.id = found.id) = some found :=
      (Lib.find?_eq_some_iff_mem Guild.id registry.guildIds).mpr ⟨hfound, rfl⟩
    rw [← find?_guilds_iff, hfind]
    simp [hzero, hbyId]

/-- A rank of a guild that has the id of the player's rank is this rank. -/
theorem rank_eq_of_id {guild : Guild} (hguild : guild ∈ registry.guilds) {rank other : GuildRank}
    (hrank : rank ∈ player.guildRank) (hother : other ∈ guild.ranks) (hid : rank.id = other.id) : rank = other :=
  List.inj_on_of_nodup_map registry.rankIds (player.guildRank_mem rank hrank)
    (List.mem_flatMap.mpr ⟨guild, hguild, hother⟩) hid

end Found

/-! ### What a line adds -/

section Adds
variable {registry : Registry} {player : Resident registry} {name guildName : List UInt8}

theorem mem_foldl_insert {ranks : List GuildRank} {id : UInt32} (guildRankList : Finset UInt32) :
    id ∈ ranks.foldl (fun guildRankList rank => insert rank.id guildRankList) guildRankList ↔
      id ∈ guildRankList ∨ ∃ rank ∈ ranks, id = rank.id := by
  induction ranks generalizing guildRankList with
  | nil => simp
  | cons rank ranks ih =>
    rw [List.foldl_cons, ih, Finset.mem_insert, List.exists_mem_cons_iff, ← or_assoc, or_comm (a := id = rank.id)]

theorem isInList_addPlayer (this : AccessList) :
    (this.addPlayer registry name).isInList registry player ↔
      this.isInList registry player ∨ asLowerCaseString player.name = asLowerCaseString name := by
  have hadd : this.addPlayer registry name =
      if registry.getGuidByName name ≠ 0 then
        { this with playerList := insert (registry.getGuidByName name) this.playerList } else this := by
    unfold addPlayer
    split
    · rename_i guid hguid
      obtain ⟨heq, hzero⟩ := getGuidByName_of_online hguid
      rw [heq, if_pos hzero]
    · rfl
  rw [hadd, ← getGuidByName_eq_iff]
  by_cases hzero : registry.getGuidByName name = 0
  · have hne : registry.getGuidByName name ≠ player.guid := fun heq =>
      registry.guid_ne_zero _ player.mem (heq.symm.trans hzero)
    rw [if_neg (not_not_intro hzero), or_iff_left hne]
  · rw [if_pos hzero, isInList_iff, isInList_iff, Finset.mem_insert, eq_comm (a := player.guid), or_assoc, or_left_comm,
      or_comm]

theorem isInList_addGuild (this : AccessList) :
    (this.addGuild registry name).isInList registry player ↔ this.isInList registry player ∨
      ∃ guild ∈ registry.guilds, asLowerCaseString guild.name = asLowerCaseString name ∧ HasRankIn player guild := by
  unfold addGuild
  cases hfind : registry.getGuildByName name with
  | none =>
    refine (or_iff_left ?_).symm
    rintro ⟨guild, hguild, hname, -⟩
    rw [getGuildByName_eq_some_iff.mpr ⟨hguild, hname⟩] at hfind
    exact absurd hfind (by simp)
  | some found =>
    obtain ⟨hfound, hname⟩ := getGuildByName_eq_some_iff.mp hfind
    have hrank : (∃ rank ∈ player.guildRank, ∃ other ∈ found.ranks, rank.id = other.id) ↔
        ∃ guild ∈ registry.guilds, asLowerCaseString guild.name = asLowerCaseString name ∧ HasRankIn player guild := by
      constructor
      · rintro ⟨rank, hrank, other, hother, hid⟩
        exact ⟨found, hfound, hname, rank, hrank, rank_eq_of_id hfound hrank hother hid ▸ hother⟩
      · rintro ⟨guild, hguild, hsame, rank, hrank, hmem⟩
        have heq : some guild = some found := (getGuildByName_eq_some_iff.mpr ⟨hguild, hsame⟩).symm.trans hfind
        exact ⟨rank, hrank, rank, Option.some.inj heq ▸ hmem, rfl⟩
    rw [← hrank, isInList_iff, isInList_iff]
    simp only [mem_foldl_insert, and_or_left, exists_or, or_assoc]

theorem isInList_addGuildRank (this : AccessList) :
    (this.addGuildRank registry name guildName).isInList registry player ↔ this.isInList registry player ∨
      ∃ guild ∈ registry.guilds, asLowerCaseString guild.name = asLowerCaseString guildName ∧
        ∃ rank ∈ player.guildRank, guild.getRankByName name = some rank := by
  unfold addGuildRank
  have hfound : ∀ rank, ((registry.getGuildByName guildName).bind (·.getRankByName name)) = some rank ↔
      ∃ guild ∈ registry.guilds, asLowerCaseString guild.name = asLowerCaseString guildName ∧
        guild.getRankByName name = some rank := fun rank => by
    simp only [Option.bind_eq_some_iff, getGuildByName_eq_some_iff, and_assoc]
  have hrank : (∃ guild ∈ registry.guilds, asLowerCaseString guild.name = asLowerCaseString guildName ∧
      ∃ rank ∈ player.guildRank, guild.getRankByName name = some rank) ↔
      ∃ rank ∈ player.guildRank, ((registry.getGuildByName guildName).bind (·.getRankByName name)) = some rank := by
    simp only [hfound]
    grind
  rw [hrank]
  cases hfind : (registry.getGuildByName guildName).bind (·.getRankByName name) with
  | none => simp
  | some found =>
    obtain ⟨guild, hguild, -, hget⟩ := (hfound found).mp hfind
    have hmem : found ∈ guild.ranks := List.mem_of_find?_eq_some hget
    have hid : (∃ rank ∈ player.guildRank, rank.id = found.id) ↔ ∃ rank ∈ player.guildRank, some found = some rank := by
      constructor
      · rintro ⟨rank, hrank, hid⟩
        exact ⟨rank, hrank, congrArg some (rank_eq_of_id hguild hrank hmem hid).symm⟩
      · rintro ⟨rank, hrank, heq⟩
        exact ⟨rank, hrank, congrArg GuildRank.id (Option.some.inj heq).symm⟩
    rw [← hid, isInList_iff, isInList_iff]
    simp only [Finset.mem_insert, and_or_left, exists_or, or_assoc]
    rw [or_comm (a := ∃ rank ∈ player.guildRank, rank.id = found.id)]

/-- A line without an `@` stands for everybody, or for the player that it names. -/
theorem isInList_addLine_plain {entry : List UInt8} (hlower : asLowerCaseString entry = entry)
    (hmark : '?'.toUInt8 ∉ entry) (hat : entry.findIdx? (· = '@'.toUInt8) = none) (this : AccessList) :
    (this.addLine registry entry).isInList registry player ↔
      this.isInList registry player ∨ entry = ['*'.toUInt8] ∨ NamesPlayer player entry := by
  unfold addLine
  simp only [hat]
  split
  · rename_i hstar
    simp [isInList_iff, hstar]
  · rename_i hstar
    rw [or_iff_right hstar]
    split
    · rename_i hany
      refine (or_iff_left ?_).symm
      rintro ⟨-, -, hbang, hasterisk⟩
      obtain ⟨c, hc, hsign⟩ := List.any_eq_true.mp hany
      rcases of_decide_eq_true hsign with rfl | rfl | rfl
      · exact hbang hc
      · exact hasterisk hc
      · exact hmark hc
    · rename_i hany
      have hclean : '!'.toUInt8 ∉ entry ∧ '*'.toUInt8 ∉ entry := by
        constructor <;> intro hc <;> exact hany (List.any_eq_true.mpr ⟨_, hc, by simp⟩)
      have hnames : NamesPlayer player entry ↔
          entry = asLowerCaseString player.name ∧ entry.length ≤ NETWORKMESSAGE_PLAYERNAME_MAXLENGTH := by
        simp [NamesPlayer, hclean]
      rw [hnames]
      split
      · rename_i hlen
        rw [isInList_addPlayer, hlower, and_iff_left hlen, eq_comm (a := asLowerCaseString player.name)]
      · rename_i hlen
        exact (or_iff_left fun h => hlen h.2).symm

/-- A line adds the player if it admits him with nothing cut off, or names his rank when it is cut. -/
theorem isInList_addLine {entry : List UInt8} (hlower : asLowerCaseString entry = entry) (hmark : '?'.toUInt8 ∉ entry)
    (this : AccessList) :
    (this.addLine registry entry).isInList registry player ↔
      this.isInList registry player ∨ AdmitsUncut player entry ∨ NamesRankCut player entry := by
  have hdrop : ∀ n, asLowerCaseString (entry.drop n) = entry.drop n := fun n => by
    conv_rhs => rw [← hlower]
    exact List.map_drop
  unfold AdmitsUncut
  cases hat : entry.findIdx? (· = '@'.toUInt8) with
  | none =>
    have hno : '@'.toUInt8 ∉ entry := fun h => by simpa using List.findIdx?_eq_none_iff.mp hat _ h
    have hguild : ¬NamesGuild player entry := by
      rintro ⟨guild, -, -, heq⟩
      exact hno (heq ▸ List.mem_cons_self)
    have hcut : ¬NamesRankCut player entry := by
      rintro ⟨n, hn, -⟩
      rw [hat] at hn
      exact absurd hn (by simp)
    rw [isInList_addLine_plain hlower hmark hat, and_iff_right hno, or_iff_left hguild, or_iff_left hcut]
  | some k =>
    obtain ⟨hlt, hk, hbefore⟩ := List.findIdx?_eq_some_iff_getElem.mp hat
    have hmem : '@'.toUInt8 ∈ entry := of_decide_eq_true hk ▸ List.getElem_mem hlt
    have hstar : entry ≠ ['*'.toUInt8] := fun heq => absurd (heq ▸ hmem) (by decide)
    have hname : ¬('@'.toUInt8 ∉ entry ∧ NamesPlayer player entry) := fun h => h.1 hmem
    rw [or_iff_right hstar, or_iff_right hname]
    unfold addLine
    simp only [hat]
    cases k with
    | zero =>
      obtain ⟨c, rest, rfl⟩ := List.exists_cons_of_length_pos hlt
      obtain rfl : c = '@'.toUInt8 := of_decide_eq_true hk
      have hcut : ¬NamesRankCut player ('@'.toUInt8 :: rest) := by
        rintro ⟨n, hn, -⟩
        rw [hat] at hn
        exact absurd hn (by simp)
      have hguild : NamesGuild player ('@'.toUInt8 :: rest) ↔
          ∃ guild ∈ registry.guilds, asLowerCaseString guild.name = rest ∧ HasRankIn player guild := by
        simp only [NamesGuild, List.cons.injEq, true_and, eq_comm (a := rest), and_comm]
      rw [isInList_addGuild, hdrop, hguild, or_iff_left hcut, List.drop_one, List.tail_cons]
    | succ n =>
      have hguild : ¬NamesGuild player entry := by
        rintro ⟨guild, -, -, heq⟩
        subst heq
        exact hbefore 0 (Nat.succ_pos n) (by simp)
      have hcut : NamesRankCut player entry ↔ ∃ guild ∈ registry.guilds, asLowerCaseString guild.name = entry.drop (n + 2) ∧
          ∃ rank ∈ player.guildRank, guild.getRankByName (entry.take n) = some rank := by
        simp [NamesRankCut, hat]
      rw [isInList_addGuildRank, hdrop, hcut, or_iff_right hguild]

/-- Each line adds whom it names, by itself. -/
theorem isInList_foldl {entries : List (List UInt8)}
    (h : ∀ entry ∈ entries, asLowerCaseString entry = entry ∧ '?'.toUInt8 ∉ entry) (this : AccessList) :
    (entries.foldl (addLine registry) this).isInList registry player ↔
      this.isInList registry player ∨ ∃ entry ∈ entries, AdmitsUncut player entry ∨ NamesRankCut player entry := by
  induction entries generalizing this with
  | nil => simp
  | cons entry entries ih =>
    obtain ⟨⟨hlower, hmark⟩, hentries⟩ := List.forall_mem_cons.mp h
    rw [List.foldl_cons, ih hentries, isInList_addLine hlower hmark, List.exists_mem_cons_iff, or_assoc]

end Adds

/-! ### The whole list -/

theorem eq_mark_of_tolower {c : UInt8} (h : tolower c = '?'.toUInt8) : c = '?'.toUInt8 := by
  unfold tolower at h
  split at h
  · rename_i hupper
    have hc : c = '?'.toUInt8 - 32 := by
      rw [← h]
      simp
    rw [hc] at hupper
    exact absurd hupper (by decide)
  · exact h

theorem entry_clean {text entry : List UInt8} (h : entry ∈ entries text) :
    asLowerCaseString entry = entry ∧ '?'.toUInt8 ∉ entry := by
  obtain ⟨kept, hkept, rfl⟩ := List.mem_map.mp h
  obtain ⟨line, hline, rfl⟩ := List.mem_map.mp (List.mem_filter.mp hkept).1
  refine ⟨asLowerCaseString_idem _, fun hmark => ?_⟩
  obtain ⟨c, hc, hlower⟩ := List.mem_map.mp hmark
  have hvalid := (mem_lines hline (trimString_subset hc)).1
  rw [eq_mark_of_tolower hlower] at hvalid
  exact absurd hvalid (by decide)

theorem list_addLine (registry : Registry) (this : AccessList) (entry : List UInt8) :
    (this.addLine registry entry).list = this.list := by
  unfold addLine addGuild addGuildRank addPlayer
  split
  · split <;> rfl
  · split <;> rfl
  · split
    · rfl
    · split
      · rfl
      · split
        · split
          · rfl
          · dsimp only
            split <;> rfl
        · rfl

theorem list_foldl (registry : Registry) (entries : List (List UInt8)) (this : AccessList) :
    (entries.foldl (addLine registry) this).list = this.list := by
  induction entries generalizing this with
  | nil => rfl
  | cons entry entries ih => rw [List.foldl_cons, ih, list_addLine]

/-- The text that is kept gives the same list again. -/
theorem parseList_getList (registry : Registry) {text : List UInt8} (h : (lines text).length ≤ 100)
    (this that : AccessList) :
    parseList registry that (getList (parseList registry this text)) = parseList registry this text := by
  have hlines := lines_withoutEmptyLines text
  have hkept : withoutEmptyLines ((withoutEmptyLines (text.filter isValidChar)).filter isValidChar) =
      withoutEmptyLines (text.filter isValidChar) := by
    rw [withoutEmptyLines_filter, hlines, withoutEmptyLines_filter]
  have hget : getList (parseList registry this text) = withoutEmptyLines (text.filter isValidChar) := by
    rw [getList, parseList_eq h, list_foldl]
  have hlength : (lines (withoutEmptyLines (text.filter isValidChar))).length ≤ 100 := hlines.symm ▸ h
  rw [hget, parseList_eq hlength, parseList_eq h, hkept, entries, hlines, entries]

theorem isInList_parseList {registry : Registry} (player : Resident registry) {text : List UInt8}
    (h : (lines text).length ≤ 100) (this : AccessList) :
    (parseList registry this text).isInList registry player ↔
      ∃ entry ∈ entries text, AdmitsUncut player entry ∨ NamesRankCut player entry := by
  have hempty : ¬(⟨withoutEmptyLines (text.filter isValidChar), ∅, ∅, false⟩ : AccessList).isInList registry player := by
    simp [isInList_iff]
  rw [parseList_eq h, isInList_foldl fun _ => entry_clean, or_iff_right hempty]

theorem admits_iff {registry : Registry} {player : Resident registry} {entry : List UInt8} :
    Admits player entry ↔ AdmitsUncut player entry ∨
      (NamesRank player entry ∨ ('@'.toUInt8 ∈ entry ∧ NamesPlayer player entry)) := by
  unfold Admits AdmitsUncut
  tauto

/-- The list says what its lines say, when a line admits the player and nothing is cut off, or else when a line that is
    cut names his rank just as some line does in full. -/
theorem isInList_means_iff {registry : Registry} (player : Resident registry) {text : List UInt8}
    (h : (lines text).length ≤ 100) (this that : AccessList) :
    (((parseList registry this text).isInList registry player ↔ ∃ entry ∈ entries text, Admits player entry) ∧
        parseList registry that (getList (parseList registry this text)) = parseList registry this text) ↔
      (∃ entry ∈ entries text, AdmitsUncut player entry) ∨
        ((∃ entry ∈ entries text, NamesRankCut player entry) ↔
          ∃ entry ∈ entries text, NamesRank player entry ∨ ('@'.toUInt8 ∈ entry ∧ NamesPlayer player entry)) := by
  have hagain := parseList_getList registry h this that
  rw [and_iff_left hagain, isInList_parseList player h]
  simp only [admits_iff, and_or_left, exists_or]
  generalize (∃ entry ∈ entries text, AdmitsUncut player entry) = uncut
  grind

/-! ### A rank that is cut -/

def member : GuildRank := ⟨1, ['m', 'e', 'm', 'b', 'e', 'r'].map Char.toUInt8⟩

def ants : Guild := ⟨1, ['a', 'n', 't', 's'].map Char.toUInt8, [member]⟩

def colony : Registry where
  players := [(1, ['b', 'u', 'g'].map Char.toUInt8)]
  online := []
  guilds := [ants]
  guids := by decide
  guid_ne_zero := by decide
  names := by decide
  guildIds := by decide
  guildId_ne_zero := by decide
  guildNames := by decide
  rankIds := by decide

def bug : Resident colony where
  guid := 1
  name := ['b', 'u', 'g'].map Char.toUInt8
  mem := by decide
  guildRank := some member
  guildRank_mem := by decide

def memberLine : List UInt8 := ['m', 'e', 'm', 'b', 'e', 'r', '@', 'a', 'n', 't', 's'].map Char.toUInt8

theorem isInList_means_bug :
    (((parseList colony ⟨[], ∅, ∅, false⟩ memberLine).isInList colony bug ↔
          ∃ entry ∈ entries memberLine, Admits bug entry) ∧
        parseList colony ⟨[], ∅, ∅, false⟩ (getList (parseList colony ⟨[], ∅, ∅, false⟩ memberLine)) =
          parseList colony ⟨[], ∅, ∅, false⟩ memberLine) ↔
      (∃ entry ∈ entries memberLine, AdmitsUncut bug entry) ∨
        ((∃ entry ∈ entries memberLine, NamesRankCut bug entry) ↔
          ∃ entry ∈ entries memberLine, NamesRank bug entry ∨ ('@'.toUInt8 ∈ entry ∧ NamesPlayer bug entry)) :=
  isInList_means_iff bug (by decide) ⟨[], ∅, ∅, false⟩ ⟨[], ∅, ∅, false⟩

/-- The line `member@ants` is cut to `membe`, so that it does not let the member of the ants in. -/
theorem isInList_rank_cut :
    ¬((lines memberLine).length ≤ 100 →
      ((parseList colony ⟨[], ∅, ∅, false⟩ memberLine).isInList colony bug ↔
        ∃ entry ∈ entries memberLine, Admits bug entry)) := by
  intro h
  have hnot : (parseList colony ⟨[], ∅, ∅, false⟩ memberLine).isInList colony bug = false := by decide
  have hrank : NamesRank bug memberLine := ⟨ants, List.mem_singleton.mpr rfl, member, rfl, by decide, by decide⟩
  have hin := (h (by decide)).mpr ⟨memberLine, by decide, Or.inr (Or.inr (Or.inr hrank))⟩
  exact absurd hin (by rw [hnot]; simp)

end AccessList
end CrystalServer
