import CrystalServer.Items.Item

/-! # Parties

Who is in a party and who is invited (`creatures/players/grouping/party.cpp`, the party lists of `Player`, and
the calls of `Game`). Scripts answer yes. Shared experience, the analyzer and what is sent to clients are left out. -/

namespace CrystalServer

/-- A pointer to a party. -/
abbrev PartyRef := Nat

namespace Party

/-- The fields of the players and of the parties, of which none was made from `next` on. -/
structure State where
  m_party : PlayerRef → Option PartyRef
  invitePartyList : PlayerRef → List PartyRef
  m_leader : PartyRef → Option PlayerRef
  memberList : PartyRef → List PlayerRef
  inviteList : PartyRef → List PlayerRef
  next : PartyRef

/-- Before anybody invited anybody. -/
def State.start : State := ⟨fun _ => none, fun _ => [], fun _ => none, fun _ => [], fun _ => [], 0⟩

/-! ### The players -/

def setParty (s : State) (player : PlayerRef) (newParty : Option PartyRef) : State :=
  { s with m_party := Function.update s.m_party player newParty }

def addPartyInvitation (s : State) (player : PlayerRef) (newParty : PartyRef) : State :=
  if newParty ∈ s.invitePartyList player then s
  else { s with invitePartyList := Function.update s.invitePartyList player (s.invitePartyList player ++ [newParty]) }

/-- `Player::removePartyInvitation`, which erases every occurrence. -/
def removePartyInvitation (s : State) (player : PlayerRef) (remParty : PartyRef) : State :=
  { s with invitePartyList :=
      Function.update s.invitePartyList player ((s.invitePartyList player).filter (· ≠ remParty)) }

/-- `Party::isPlayerInvited`. -/
def isPlayerInvited (s : State) (party : PartyRef) (player : PlayerRef) : Bool := player ∈ s.inviteList party

/-- `Player::isInviting`. -/
def isInviting (s : State) (this player : PlayerRef) : Bool :=
  match s.m_party this with
  | none => false
  | some party => s.m_leader party = some this && isPlayerInvited s party player

/-- `Player::isPartner`. -/
def isPartner (s : State) (this player : PlayerRef) : Bool :=
  match s.m_party this with
  | none => false
  | some party => player ≠ this && s.m_party player = some party

/-! ### The parties -/

/-- `Party::create`, with the new party. -/
def create (s : State) (leader : PlayerRef) : State × PartyRef :=
  let s' := { s with m_leader := Function.update s.m_leader s.next (some leader)
                     next := s.next + 1 }
  (setParty s' leader (some s.next), s.next)

def empty (s : State) (party : PartyRef) : Bool := (s.memberList party).isEmpty && (s.inviteList party).isEmpty

/-- `Party::disband`. -/
def disband (s : State) (party : PartyRef) : State :=
  match s.m_leader party with
  | none => s
  | some currentLeader =>
    let s := { s with m_leader := Function.update s.m_leader party none }
    let s := setParty s currentLeader none
    let s := (s.inviteList party).foldl (fun s invitee => removePartyInvitation s invitee party) s
    let s := { s with inviteList := Function.update s.inviteList party [] }
    let s := (s.memberList party).foldl (fun s member => setParty s member none) s
    { s with memberList := Function.update s.memberList party [] }

/-- `Party::passPartyLeadership`. -/
def passPartyLeadership (s : State) (party : PartyRef) (player : PlayerRef) : State :=
  match s.m_leader party with
  | none => s
  | some leader =>
    if leader = player ∨ s.m_party player ≠ some party then s
    else
      { s with memberList := Function.update s.memberList party (leader :: (s.memberList party).erase player)
               m_leader := Function.update s.m_leader party (some player) }

/-- `Party::leaveParty`. -/
def leaveParty (s : State) (party : PartyRef) (player : PlayerRef) : State :=
  match s.m_leader party with
  | none => s
  | some leader =>
    if s.m_party player ≠ some party ∧ leader ≠ player then s
    else
      let (s, missingLeader) :=
        if leader = player then
          match s.memberList party with
          | [] => (s, true)
          | newLeader :: rest =>
            if rest.isEmpty ∧ (s.inviteList party).isEmpty then (s, true)
            else (passPartyLeadership s party newLeader, false)
        else (s, false)
      -- since the leadership was passed, the player is in the list
      let s := { s with memberList := Function.update s.memberList party ((s.memberList party).erase player) }
      let s := setParty s player none
      if missingLeader ∨ empty s party then disband s party else s

/-- `Party::joinParty`. -/
def joinParty (s : State) (party : PartyRef) (player : PlayerRef) : State :=
  if s.m_leader party = none then s
  else if player ∉ s.inviteList party then s
  else
    let s := { s with inviteList := Function.update s.inviteList party ((s.inviteList party).erase player) }
    let s := setParty s player (some party)
    let s := { s with memberList := Function.update s.memberList party (s.memberList party ++ [player]) }
    removePartyInvitation s player party

/-- `Party::removeInvite`, which also removes from the player. -/
def removeInvite (s : State) (party : PartyRef) (player : PlayerRef) : State :=
  if s.m_leader party = none then s
  else if player ∉ s.inviteList party then s
  else
    let s := { s with inviteList := Function.update s.inviteList party ((s.inviteList party).erase player) }
    let s := removePartyInvitation s player party
    if empty s party then disband s party else s

/-- `Party::revokeInvitation`. -/
def revokeInvitation (s : State) (party : PartyRef) (player : PlayerRef) : State :=
  if s.m_leader party = none then s else removeInvite s party player

/-- `Party::invitePlayer`. -/
def invitePlayer (s : State) (party : PartyRef) (player : PlayerRef) : State :=
  if s.m_leader party = none then s
  else if isPlayerInvited s party player then s
  else
    addPartyInvitation { s with inviteList := Function.update s.inviteList party (s.inviteList party ++ [player]) }
      player party

/-! ### The calls of the game

Players are named by their ids; `online` says which ones `getPlayerByID` finds. -/

section
variable (online : PlayerRef → Bool) (s : State)

def playerInviteToParty (playerId invitedId : PlayerRef) : State :=
  if playerId = invitedId then s
  else if !online playerId then s
  else if !online invitedId ∨ isInviting s invitedId playerId then s
  else if s.m_party invitedId ≠ none then s
  else match s.m_party playerId with
    | none =>
      let (s, party) := create s playerId
      invitePlayer s party invitedId
    | some party => if s.m_leader party ≠ some playerId then s else invitePlayer s party invitedId

def playerJoinParty (playerId leaderId : PlayerRef) : State :=
  if !online playerId then s
  else if !online leaderId ∨ !isInviting s leaderId playerId then s
  else match s.m_party leaderId with
    | none => s
    | some party =>
      if s.m_leader party ≠ some leaderId then s
      else if s.m_party playerId ≠ none then s
      else joinParty s party playerId

def playerRevokePartyInvitation (playerId invitedId : PlayerRef) : State :=
  if !online playerId then s
  else match s.m_party playerId with
    | none => s
    | some party =>
      if s.m_leader party ≠ some playerId then s
      else if !online invitedId ∨ !isInviting s playerId invitedId then s
      else revokeInvitation s party invitedId

def playerPassPartyLeadership (playerId newLeaderId : PlayerRef) : State :=
  if !online playerId then s
  else match s.m_party playerId with
    | none => s
    | some party =>
      if s.m_leader party ≠ some playerId then s
      else if !online newLeaderId ∨ !isPartner s playerId newLeaderId then s
      else passPartyLeadership s party newLeaderId

/-- `Game::playerLeaveParty`; a fight may keep a player in the party. -/
def playerLeaveParty (playerId : PlayerRef) (infight : Bool) : State :=
  if !online playerId then s
  else match s.m_party playerId with
    | none => s
    | some party => if infight then s else leaveParty s party playerId

end

inductive Op where
  | playerInviteToParty (playerId invitedId : PlayerRef)
  | playerJoinParty (playerId leaderId : PlayerRef)
  | playerRevokePartyInvitation (playerId invitedId : PlayerRef)
  | playerPassPartyLeadership (playerId newLeaderId : PlayerRef)
  | playerLeaveParty (playerId : PlayerRef) (infight : Bool)
  | removeInvite (party : PartyRef) (player : PlayerRef)
  | disband (party : PartyRef)

def step (online : PlayerRef → Bool) (s : State) : Op → State
  | .playerInviteToParty playerId invitedId => playerInviteToParty online s playerId invitedId
  | .playerJoinParty playerId leaderId => playerJoinParty online s playerId leaderId
  | .playerRevokePartyInvitation playerId invitedId => playerRevokePartyInvitation online s playerId invitedId
  | .playerPassPartyLeadership playerId newLeaderId => playerPassPartyLeadership online s playerId newLeaderId
  | .playerLeaveParty playerId infight => playerLeaveParty online s playerId infight
  | .removeInvite party player => removeInvite s party player
  | .disband party => disband s party

end Party
end CrystalServer
