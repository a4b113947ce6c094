import CrystalServer.Creatures.Party
import CrystalServer.Lib.Run

/-! # Parties: who is in them

The pointers of the players and the lists of the parties agree. What each elementary change keeps is `Linked`; a
party may be empty only between two of them. -/

namespace CrystalServer.Party

/-- The player leads the party or is one of its members. -/
def State.Belongs (s : State) (x : PlayerRef) (P : PartyRef) : Prop := s.m_leader P = some x ∨ x ∈ s.memberList P

/-- Players and parties agree on who is in and who is invited. -/
structure Consistent (s : State) : Prop where
  party_iff : ∀ x P, s.m_party x = some P ↔ s.Belongs x P
  nodup : ∀ P, (s.memberList P).Nodup
  leader : ∀ P x, s.m_leader P = some x → x ∉ s.memberList P
  one : ∀ x P Q, s.Belongs x P → s.Belongs x Q → P = Q
  invitee : ∀ P x, x ∈ s.inviteList P → ¬s.Belongs x P
  invited_iff : ∀ x P, x ∈ s.inviteList P ↔ P ∈ s.invitePartyList x
  occupied : ∀ P x, s.m_leader P = some x → s.memberList P ≠ [] ∨ s.inviteList P ≠ []

/-- The same, and what the changes need, but for parties that nobody is left in. -/
structure Linked (s : State) : Prop where
  party_iff : ∀ x P, s.m_party x = some P ↔ s.m_leader P = some x ∨ x ∈ s.memberList P
  nodup : ∀ P, (s.memberList P).Nodup
  leader : ∀ P x, s.m_leader P = some x → x ∉ s.memberList P
  invitee : ∀ P x, x ∈ s.inviteList P → s.m_party x ≠ some P
  invited_iff : ∀ x P, x ∈ s.inviteList P ↔ P ∈ s.invitePartyList x
  inviteNodup : ∀ P, (s.inviteList P).Nodup
  leaderless : ∀ P, s.m_leader P = none → s.memberList P = [] ∧ s.inviteList P = []
  made : ∀ P, s.next ≤ P → s.m_leader P = none

/-- The party has somebody beside its leader. -/
def Occupied (s : State) (P : PartyRef) : Prop := s.m_leader P ≠ none → s.memberList P ≠ [] ∨ s.inviteList P ≠ []

/-- What holds between the calls. -/
structure Good (s : State) : Prop where
  linked : Linked s
  occupied : ∀ P, Occupied s P

variable {s : State} {P Q : PartyRef} {x y l : PlayerRef}

theorem Linked.consistent (h : Linked s) (ho : ∀ P, Occupied s P) : Consistent s where
  party_iff := h.party_iff
  nodup := h.nodup
  leader := h.leader
  one x P Q hP hQ := Option.some.inj (((h.party_iff x P).mpr hP).symm.trans ((h.party_iff x Q).mpr hQ))
  invitee P x hx hb := h.invitee P x hx ((h.party_iff x P).mpr hb)
  invited_iff := h.invited_iff
  occupied P x hx := ho P (by rw [hx]; exact nofun)

theorem linked_start : Linked .start where
  party_iff x P := by simp [State.start]
  nodup P := List.nodup_nil
  leader P x h := nomatch h
  invitee P x h := absurd h List.not_mem_nil
  invited_iff x P := by simp [State.start]
  inviteNodup P := List.nodup_nil
  leaderless P _ := ⟨rfl, rfl⟩
  made P _ := rfl

/-! ### Making and breaking up -/

theorem linked_create (h : Linked s) (hx : s.m_party x = none) : Linked (create s x).1 := by
  have hnext : s.m_leader s.next = none := h.made _ le_rfl
  obtain ⟨hm, hi⟩ := h.leaderless _ hnext
  constructor <;> simp only [create, setParty]
  case party_iff =>
    intro y P
    by_cases hP : P = s.next
    · subst hP
      have := h.party_iff y s.next
      simp only [hm, hnext] at this
      by_cases hy : y = x
      · simp [hy]
      · simp [Function.update_of_ne hy, hm, this, Ne.symm hy]
    · rw [Function.update_of_ne hP, ← h.party_iff]
      by_cases hy : y = x
      · subst hy
        simp [hx, Ne.symm hP]
      · rw [Function.update_of_ne hy]
  case nodup => exact h.nodup
  case leader =>
    intro P y hy
    by_cases hP : P = s.next
    · rw [hP, hm]
      exact List.not_mem_nil
    · rw [Function.update_of_ne hP] at hy
      exact h.leader P y hy
  case invitee =>
    intro P y hy
    by_cases hP : P = s.next
    · rw [hP, hi] at hy
      exact absurd hy List.not_mem_nil
    · by_cases hyx : y = x
      · simp [hyx, Ne.symm hP]
      · rw [Function.update_of_ne hyx]
        exact h.invitee P y hy
  case invited_iff => exact h.invited_iff
  case inviteNodup => exact h.inviteNodup
  case leaderless =>
    intro P hP
    by_cases hPn : P = s.next
    · simp [hPn] at hP
    · rw [Function.update_of_ne hPn] at hP
      exact h.leaderless P hP
  case made =>
    intro P hP
    have hlt : s.next < P := hP
    rw [Function.update_of_ne hlt.ne']
    exact h.made P hlt.le

theorem foldl_setParty (l : List PlayerRef) (s : State) :
    l.foldl (fun s member => setParty s member none) s =
      { s with m_party := fun x => if x ∈ l then none else s.m_party x } := by
  induction l generalizing s with
  | nil => simp
  | cons y l ih =>
    rw [List.foldl_cons, ih]
    simp only [setParty]
    congr 1
    funext x
    by_cases hx : x ∈ l
    · simp [hx]
    · by_cases hxy : x = y
      · simp [hxy]
      · simp [hx, hxy]

theorem foldl_removePartyInvitation (l : List PlayerRef) (s : State) (P : PartyRef) :
    l.foldl (fun s invitee => removePartyInvitation s invitee P) s =
      { s with invitePartyList := fun x =>
          if x ∈ l then (s.invitePartyList x).filter (· ≠ P) else s.invitePartyList x } := by
  induction l generalizing s with
  | nil => simp
  | cons y l ih =>
    rw [List.foldl_cons, ih]
    simp only [removePartyInvitation]
    congr 1
    funext x
    by_cases hxy : x = y
    · subst hxy
      by_cases hx : x ∈ l <;> simp [hx]
    · by_cases hx : x ∈ l <;> simp [hx, hxy]

theorem disband_eq (hl : s.m_leader P = some l) : disband s P =
    { s with m_party := fun x => if x ∈ s.memberList P then none else Function.update s.m_party l none x
             invitePartyList := fun x =>
               if x ∈ s.inviteList P then (s.invitePartyList x).filter (· ≠ P) else s.invitePartyList x
             m_leader := Function.update s.m_leader P none
             memberList := Function.update s.memberList P []
             inviteList := Function.update s.inviteList P [] } := by
  rw [disband, hl]
  dsimp only
  rw [foldl_removePartyInvitation, foldl_setParty]
  rfl

/-- Where players and parties agree, the party is gone for those who were in it, and from the lists of all. -/
theorem disband_eq_of_linked (h : Linked s) (hl : s.m_leader P = some l) : disband s P =
    { s with m_party := fun x => if s.m_party x = some P then none else s.m_party x
             invitePartyList := fun x => (s.invitePartyList x).filter (· ≠ P)
             m_leader := Function.update s.m_leader P none
             memberList := Function.update s.memberList P []
             inviteList := Function.update s.inviteList P [] } := by
  have hmem : ∀ x, (if x ∈ s.memberList P then none else Function.update s.m_party l none x) =
      if s.m_party x = some P then none else s.m_party x := by
    intro x
    have hx := h.party_iff x P
    rw [hl, Option.some_inj] at hx
    by_cases hm : x ∈ s.memberList P
    · rw [if_pos hm, if_pos (hx.mpr (.inr hm))]
    · by_cases hxl : x = l
      · rw [if_neg hm, if_pos (hx.mpr (.inl hxl.symm)), hxl, Function.update_self]
      · have : ¬s.m_party x = some P := fun he => (hx.mp he).elim (fun he => hxl he.symm) hm
        rw [if_neg hm, if_neg this, Function.update_of_ne hxl]
  have hinv : ∀ x, (if x ∈ s.inviteList P then (s.invitePartyList x).filter (· ≠ P) else s.invitePartyList x) =
      (s.invitePartyList x).filter (· ≠ P) := by
    intro x
    split
    · rfl
    · rename_i hx
      rw [List.filter_eq_self.mpr]
      intro Q hQ
      have : Q ≠ P := by
        rintro rfl
        exact hx ((h.invited_iff x Q).mpr hQ)
      simpa using this
  rw [disband_eq hl]
  simp only [hmem, hinv]

theorem linked_disband (h : Linked s) (P : PartyRef) : Linked (disband s P) := by
  cases hl : s.m_leader P with
  | none =>
    rw [disband, hl]
    exact h
  | some l =>
    rw [disband_eq_of_linked h hl]
    constructor <;> dsimp only
    case party_iff =>
      intro x Q
      by_cases hQ : Q = P
      · subst hQ
        simp
      · rw [Function.update_of_ne hQ, Function.update_of_ne hQ, ← h.party_iff]
        split
        · rename_i hx
          simp [hx, Ne.symm hQ]
        · rfl
    case nodup =>
      intro Q
      by_cases hQ : Q = P
      · simp [hQ]
      · rw [Function.update_of_ne hQ]
        exact h.nodup Q
    case leader =>
      intro Q x hx
      by_cases hQ : Q = P
      · simp [hQ] at hx
      · rw [Function.update_of_ne hQ] at hx ⊢
        exact h.leader Q x hx
    case invitee =>
      intro Q x hx
      by_cases hQ : Q = P
      · simp [hQ] at hx
      · rw [Function.update_of_ne hQ] at hx
        have := h.invitee Q x hx
        split
        · exact nofun
        · exact this
    case invited_iff =>
      intro x Q
      by_cases hQ : Q = P
      · simp [hQ]
      · rw [Function.update_of_ne hQ, h.invited_iff]
        simp [hQ]
    case inviteNodup =>
      intro Q
      by_cases hQ : Q = P
      · simp [hQ]
      · rw [Function.update_of_ne hQ]
        exact h.inviteNodup Q
    case leaderless =>
      intro Q hn
      by_cases hQ : Q = P
      · simp [hQ]
      · rw [Function.update_of_ne hQ] at hn ⊢
        rw [Function.update_of_ne hQ]
        exact h.leaderless Q hn
    case made =>
      intro Q hn
      by_cases hQ : Q = P
      · simp [hQ]
      · rw [Function.update_of_ne hQ]
        exact h.made Q hn

theorem occupied_disband (P Q : PartyRef) (h : Occupied s Q) : Occupied (disband s P) Q := by
  cases hl : s.m_leader P with
  | none =>
    rw [disband, hl]
    exact h
  | some l =>
    rw [disband_eq hl]
    intro hQ
    by_cases hQP : Q = P
    · simp [hQP] at hQ
    · simp only [Function.update_of_ne hQP] at hQ ⊢
      exact h hQ

/-- Nobody leads a party that was broken up. -/
theorem occupied_disband_self (P : PartyRef) : Occupied (disband s P) P := by
  cases hl : s.m_leader P with
  | none =>
    rw [disband, hl]
    exact fun hP => absurd hl hP
  | some l =>
    rw [disband_eq hl]
    intro hP
    simp at hP

/-! ### Inviting -/

/-- A player is taken from the list of a party, and the party from his. -/
def uninvited (s : State) (P : PartyRef) (x : PlayerRef) : State :=
  removePartyInvitation { s with inviteList := Function.update s.inviteList P ((s.inviteList P).erase x) } x P

theorem mem_inviteList_uninvited (h : Linked s) :
    y ∈ (uninvited s P x).inviteList Q ↔ y ∈ s.inviteList Q ∧ ¬(y = x ∧ Q = P) := by
  simp only [uninvited, removePartyInvitation]
  by_cases hQ : Q = P
  · subst hQ
    rw [Function.update_self, (h.inviteNodup Q).mem_erase_iff]
    tauto
  · rw [Function.update_of_ne hQ]
    tauto

theorem mem_invitePartyList_uninvited :
    Q ∈ (uninvited s P x).invitePartyList y ↔ Q ∈ s.invitePartyList y ∧ ¬(y = x ∧ Q = P) := by
  simp only [uninvited, removePartyInvitation]
  by_cases hy : y = x
  · subst hy
    simp
  · simp [hy]

theorem linked_uninvited (h : Linked s) (P : PartyRef) (x : PlayerRef) : Linked (uninvited s P x) where
  party_iff := h.party_iff
  nodup := h.nodup
  leader := h.leader
  invitee Q y hy := h.invitee Q y ((mem_inviteList_uninvited h).mp hy).1
  invited_iff y Q := by rw [mem_inviteList_uninvited h, mem_invitePartyList_uninvited, h.invited_iff]
  inviteNodup Q := by
    simp only [uninvited, removePartyInvitation]
    by_cases hQ : Q = P
    · rw [hQ, Function.update_self]
      exact (h.inviteNodup P).erase x
    · rw [Function.update_of_ne hQ]
      exact h.inviteNodup Q
  leaderless Q hQ := by
    obtain ⟨hm, hi⟩ := h.leaderless Q hQ
    refine ⟨hm, List.eq_nil_iff_forall_not_mem.mpr fun y hy => ?_⟩
    have := ((mem_inviteList_uninvited h).mp hy).1
    rw [hi] at this
    exact List.not_mem_nil this
  made := h.made

theorem occupied_uninvited (hQ : Q ≠ P) (h : Occupied s Q) : Occupied (uninvited s P x) Q := by
  intro hl
  refine (h hl).imp_right fun hi => ?_
  simp only [uninvited, removePartyInvitation]
  rwa [Function.update_of_ne hQ]

/-- A party that is empty is broken up, where the others are not. -/
theorem disband_empty_good (h : Linked s) (ho : ∀ Q, Q ≠ P → Occupied s Q) :
    Good (if empty s P then disband s P else s) := by
  split
  · refine ⟨linked_disband h P, fun Q => ?_⟩
    by_cases hQ : Q = P
    · rw [hQ]
      exact occupied_disband_self P
    · exact occupied_disband P Q (ho Q hQ)
  · rename_i hempty
    refine ⟨h, fun Q => ?_⟩
    by_cases hQ : Q = P
    · rw [hQ]
      intro _
      by_contra hboth
      obtain ⟨hm, hi⟩ := not_or.mp hboth
      refine hempty ?_
      rw [empty, not_not.mp hm, not_not.mp hi]
      rfl
    · exact ho Q hQ

theorem removeInvite_good (h : Linked s) (ho : ∀ Q, Occupied s Q) (P : PartyRef) (x : PlayerRef) :
    Good (removeInvite s P x) := by
  unfold removeInvite
  split
  · exact ⟨h, ho⟩
  split
  · exact ⟨h, ho⟩
  exact disband_empty_good (linked_uninvited h P x) fun Q hQ => occupied_uninvited hQ (ho Q)

theorem linked_invitePlayer (h : Linked s) (hP : s.m_leader P ≠ none) (hx : s.m_party x ≠ some P) :
    Linked (invitePlayer s P x) ∧ (invitePlayer s P x).inviteList P ≠ [] := by
  rw [invitePlayer, if_neg hP]
  by_cases hin : x ∈ s.inviteList P
  · rw [if_pos (by simpa [isPlayerInvited] using hin)]
    exact ⟨h, List.ne_nil_of_mem hin⟩
  · have hnew : P ∉ s.invitePartyList x := fun hm => hin ((h.invited_iff x P).mpr hm)
    rw [if_neg (by simpa [isPlayerInvited] using hin), addPartyInvitation, if_neg hnew]
    refine ⟨?_, by simp⟩
    constructor <;> dsimp only
    case party_iff => exact h.party_iff
    case nodup => exact h.nodup
    case leader => exact h.leader
    case invitee =>
      intro Q y hy
      by_cases hQ : Q = P
      · subst hQ
        rw [Function.update_self] at hy
        rcases List.mem_append.mp hy with hy | hy
        · exact h.invitee Q y hy
        · rwa [List.mem_singleton.mp hy]
      · rw [Function.update_of_ne hQ] at hy
        exact h.invitee Q y hy
    case invited_iff =>
      intro y Q
      by_cases hQ : Q = P
      · subst hQ
        by_cases hy : y = x
        · simp [hy]
        · simp [hy, h.invited_iff]
      · by_cases hy : y = x
        · simp [hy, hQ, h.invited_iff]
        · simp [hy, hQ, h.invited_iff]
    case inviteNodup =>
      intro Q
      by_cases hQ : Q = P
      · subst hQ
        rw [Function.update_self]
        exact List.nodup_append.mpr ⟨h.inviteNodup Q, List.nodup_singleton x, fun a ha b hb => by
          rw [List.mem_singleton.mp hb]
          rintro rfl
          exact hin ha⟩
      · rw [Function.update_of_ne hQ]
        exact h.inviteNodup Q
    case leaderless =>
      intro Q hQ
      have hQP : Q ≠ P := by
        rintro rfl
        exact hP hQ
      rw [Function.update_of_ne hQP]
      exact h.leaderless Q hQ
    case made => exact h.made

theorem occupied_invitePlayer (hQ : Q ≠ P) (h : Occupied s Q) : Occupied (invitePlayer s P x) Q := by
  unfold invitePlayer addPartyInvitation
  split
  · exact h
  split
  · exact h
  split
  · exact fun hl => (h hl).imp_right fun hi => by simpa [hQ] using hi
  · exact fun hl => (h hl).imp_right fun hi => by simpa [hQ] using hi

/-! ### Coming in, passing the leadership, going -/

/-- An invited player becomes a member. -/
theorem linked_joined (h : Linked s) (hP : s.m_leader P ≠ none) (hx : s.m_party x = none) :
    Linked { uninvited s P x with
      m_party := Function.update s.m_party x (some P)
      memberList := Function.update s.memberList P (s.memberList P ++ [x]) } := by
  have hu : Linked (uninvited s P x) := linked_uninvited h P x
  have hout : ∀ Q, x ∉ s.memberList Q := fun Q hm => by
    rw [(h.party_iff x Q).mpr (.inr hm)] at hx
    exact nomatch hx
  have hnl : ∀ Q, s.m_leader Q ≠ some x := fun Q hl => by
    rw [(h.party_iff x Q).mpr (.inl hl)] at hx
    exact nomatch hx
  constructor <;> dsimp only
  case party_iff =>
    intro y Q
    by_cases hy : y = x
    · subst hy
      by_cases hQ : Q = P
      · simp [hQ]
      · simp [hQ, Ne.symm hQ, hout Q, show (uninvited s P y).m_leader Q ≠ some y from hnl Q]
    · rw [Function.update_of_ne hy]
      refine (h.party_iff y Q).trans (or_congr_right ?_)
      by_cases hQ : Q = P
      · subst hQ
        simp [hy]
      · rw [Function.update_of_ne hQ]
  case nodup =>
    intro Q
    by_cases hQ : Q = P
    · subst hQ
      rw [Function.update_self]
      exact List.nodup_append.mpr ⟨h.nodup Q, List.nodup_singleton x, fun a ha b hb => by
        rw [List.mem_singleton.mp hb]
        rintro rfl
        exact hout Q ha⟩
    · rw [Function.update_of_ne hQ]
      exact h.nodup Q
  case leader =>
    intro Q y hy
    have hyx : y ≠ x := by
      rintro rfl
      exact hnl Q hy
    by_cases hQ : Q = P
    · subst hQ
      simpa [hyx] using h.leader Q y hy
    · rw [Function.update_of_ne hQ]
      exact h.leader Q y hy
  case invitee =>
    intro Q y hy
    obtain ⟨hy, hne⟩ := (mem_inviteList_uninvited h).mp hy
    by_cases hyx : y = x
    · subst hyx
      rw [Function.update_self]
      intro he
      exact hne ⟨rfl, (Option.some.inj he).symm⟩
    · rw [Function.update_of_ne hyx]
      exact h.invitee Q y hy
  case invited_iff => exact hu.invited_iff
  case inviteNodup => exact hu.inviteNodup
  case leaderless =>
    intro Q hQ
    have hQP : Q ≠ P := by
      rintro rfl
      exact hP hQ
    rw [Function.update_of_ne hQP]
    exact hu.leaderless Q hQ
  case made => exact hu.made

theorem joinParty_good (h : Linked s) (ho : ∀ Q, Occupied s Q) (hx : s.m_party x = none) :
    Good (joinParty s P x) := by
  unfold joinParty
  split
  · exact ⟨h, ho⟩
  rename_i hP
  split
  · exact ⟨h, ho⟩
  refine ⟨linked_joined h hP hx, fun Q hl => ?_⟩
  by_cases hQ : Q = P
  · subst hQ
    exact .inl (by simp [removePartyInvitation, setParty])
  · refine (ho Q hl).imp ?_ ?_
    · intro hm
      simpa [removePartyInvitation, setParty, hQ] using hm
    · intro hi
      simpa [removePartyInvitation, setParty, hQ] using hi

theorem passPartyLeadership_eq (hl : s.m_leader P = some l) (hne : l ≠ x) (hx : s.m_party x = some P) :
    passPartyLeadership s P x =
      { s with memberList := Function.update s.memberList P (l :: (s.memberList P).erase x)
               m_leader := Function.update s.m_leader P (some x) } := by
  rw [passPartyLeadership, hl]
  exact if_neg (not_or.mpr ⟨hne, not_not.mpr hx⟩)

theorem linked_passPartyLeadership (h : Linked s) (hl : s.m_leader P = some l) (hne : l ≠ x) (hx : s.m_party x = some P) :
    Linked (passPartyLeadership s P x) := by
  have hxm : x ∈ s.memberList P := by
    rcases (h.party_iff x P).mp hx with he | hm
    · exact absurd (Option.some.inj (hl.symm.trans he)) hne
    · exact hm
  have hlm : l ∉ s.memberList P := h.leader P l hl
  rw [passPartyLeadership_eq hl hne hx]
  constructor <;> dsimp only
  case party_iff =>
    intro y Q
    rw [h.party_iff]
    by_cases hQ : Q = P
    · subst hQ
      rw [hl, Function.update_self, Function.update_self, List.mem_cons, (h.nodup Q).mem_erase_iff, Option.some_inj,
        Option.some_inj]
      by_cases hy : y = x
      · subst hy
        simp [hxm]
      · simp [hy, Ne.symm hy, eq_comm]
    · rw [Function.update_of_ne hQ, Function.update_of_ne hQ]
  case nodup =>
    intro Q
    by_cases hQ : Q = P
    · subst hQ
      rw [Function.update_self]
      exact List.nodup_cons.mpr ⟨fun hm => hlm (List.mem_of_mem_erase hm), (h.nodup Q).erase x⟩
    · rw [Function.update_of_ne hQ]
      exact h.nodup Q
  case leader =>
    intro Q y hy
    by_cases hQ : Q = P
    · subst hQ
      rw [Function.update_self] at hy ⊢
      cases hy
      rw [List.mem_cons, (h.nodup Q).mem_erase_iff]
      rintro (he | ⟨hxx, -⟩)
      · exact hne he.symm
      · exact hxx rfl
    · rw [Function.update_of_ne hQ] at hy ⊢
      exact h.leader Q y hy
  case invitee => exact h.invitee
  case invited_iff => exact h.invited_iff
  case inviteNodup => exact h.inviteNodup
  case leaderless =>
    intro Q hQ
    by_cases hQP : Q = P
    · simp [hQP] at hQ
    · rw [Function.update_of_ne hQP] at hQ ⊢
      exact h.leaderless Q hQ
  case made =>
    intro Q hQ
    have hQP : Q ≠ P := by
      rintro rfl
      exact nomatch hl.symm.trans (h.made Q hQ)
    rw [Function.update_of_ne hQP]
    exact h.made Q hQ

theorem passPartyLeadership_good (h : Linked s) (ho : ∀ Q, Occupied s Q) (P : PartyRef) (x : PlayerRef) :
    Good (passPartyLeadership s P x) := by
  cases hl : s.m_leader P with
  | none =>
    rw [passPartyLeadership, hl]
    exact ⟨h, ho⟩
  | some l =>
    by_cases hne : l = x
    · rw [passPartyLeadership, hl]
      dsimp only
      rw [if_pos (.inl hne)]
      exact ⟨h, ho⟩
    by_cases hx : s.m_party x = some P
    swap
    · rw [passPartyLeadership, hl]
      dsimp only
      rw [if_pos (.inr hx)]
      exact ⟨h, ho⟩
    refine ⟨linked_passPartyLeadership h hl hne hx, ?_⟩
    rw [passPartyLeadership_eq hl hne hx]
    intro Q hQ
    by_cases hQP : Q = P
    · subst hQP
      exact .inl (by simp)
    · simp only [Function.update_of_ne hQP] at hQ ⊢
      exact ho Q hQ

/-- A member goes. -/
def left (s : State) (P : PartyRef) (x : PlayerRef) : State :=
  setParty { s with memberList := Function.update s.memberList P ((s.memberList P).erase x) } x none

theorem linked_left (h : Linked s) (hx : s.m_party x = some P) (hl : s.m_leader P ≠ some x) : Linked (left s P x) := by
  have hmem : ∀ y Q, y ∈ (left s P x).memberList Q ↔ y ∈ s.memberList Q ∧ y ≠ x := by
    intro y Q
    simp only [left, setParty]
    by_cases hQ : Q = P
    · subst hQ
      rw [Function.update_self, (h.nodup Q).mem_erase_iff, and_comm]
    · rw [Function.update_of_ne hQ]
      refine (and_iff_left_of_imp ?_).symm
      rintro hm rfl
      have := hx.symm.trans ((h.party_iff y Q).mpr (.inr hm))
      exact hQ (Option.some.inj this).symm
  constructor
  case party_iff =>
    intro y Q
    rw [hmem]
    simp only [left, setParty]
    by_cases hy : y = x
    · subst hy
      rw [Function.update_self]
      refine iff_of_false nofun ?_
      rintro (hlq | ⟨-, hne⟩)
      · have hQ := hx.symm.trans ((h.party_iff y Q).mpr (.inl hlq))
        cases hQ
        exact hl hlq
      · exact hne rfl
    · rw [Function.update_of_ne hy, h.party_iff]
      exact or_congr_right (and_iff_left hy).symm
  case nodup =>
    intro Q
    simp only [left, setParty]
    by_cases hQ : Q = P
    · subst hQ
      rw [Function.update_self]
      exact (h.nodup Q).erase x
    · rw [Function.update_of_ne hQ]
      exact h.nodup Q
  case leader =>
    intro Q y hy hm
    exact h.leader Q y hy ((hmem y Q).mp hm).1
  case invitee =>
    intro Q y hy
    simp only [left, setParty]
    by_cases hyx : y = x
    · simp [hyx]
    · rw [Function.update_of_ne hyx]
      exact h.invitee Q y hy
  case invited_iff => exact h.invited_iff
  case inviteNodup => exact h.inviteNodup
  case leaderless =>
    intro Q hQ
    obtain ⟨hm, hi⟩ := h.leaderless Q hQ
    refine ⟨List.eq_nil_iff_forall_not_mem.mpr fun y hy => ?_, hi⟩
    have := ((hmem y Q).mp hy).1
    rw [hm] at this
    exact List.not_mem_nil this
  case made => exact h.made

theorem occupied_left (hQ : Q ≠ P) (h : Occupied s Q) : Occupied (left s P x) Q := by
  intro hl
  refine (h hl).imp_left fun hm => ?_
  simp only [left, setParty]
  rwa [Function.update_of_ne hQ]

/-- A member who does not lead goes, and an empty party is broken up. -/
theorem left_good (h : Linked s) (ho : ∀ Q, Q ≠ P → Occupied s Q) (hx : s.m_party x = some P)
    (hl : s.m_leader P ≠ some x) :
    Good (if empty (left s P x) P then disband (left s P x) P else left s P x) :=
  disband_empty_good (linked_left h hx hl) fun Q hQ => occupied_left hQ (ho Q hQ)

/-- A leader who goes with his party broken up. -/
theorem disband_leader (hl : s.m_leader P = some x) (hx : x ∉ s.memberList P) :
    disband (left s P x) P = disband s P := by
  have hleft : left s P x = { s with m_party := Function.update s.m_party x none } := by
    rw [left, List.erase_of_not_mem hx, Function.update_eq_self]
    rfl
  rw [hleft, disband_eq hl]
  refine (@disband_eq { s with m_party := Function.update s.m_party x none } P x hl).trans ?_
  simp

theorem leaveParty_good (h : Linked s) (ho : ∀ Q, Occupied s Q) (hx : s.m_party x = some P) :
    Good (leaveParty s P x) := by
  cases hl : s.m_leader P with
  | none =>
    rw [leaveParty, hl]
    exact ⟨h, ho⟩
  | some l =>
    rw [leaveParty, hl]
    dsimp only
    rw [if_neg fun hn => hn.1 hx]
    have hbreak (hlx : s.m_leader P = some x) : Good (disband (left s P x) P) := by
      rw [disband_leader hlx (h.leader P x hlx)]
      exact ⟨linked_disband h P, fun Q => occupied_disband P Q (ho Q)⟩
    by_cases hlx : l = x
    · subst hlx
      rw [if_pos rfl]
      cases hm : s.memberList P with
      | nil =>
        dsimp only
        rw [if_pos (.inl rfl)]
        exact hbreak hl
      | cons newLeader rest =>
        by_cases hone : rest.isEmpty ∧ (s.inviteList P).isEmpty
        · simp only [hone, and_self, if_true, true_or]
          exact hbreak hl
        · simp only [hone, if_false]
          have hmem : newLeader ∈ s.memberList P := hm ▸ List.mem_cons_self
          have hnp : s.m_party newLeader = some P := (h.party_iff newLeader P).mpr (.inr hmem)
          have hne : l ≠ newLeader := by
            rintro rfl
            exact h.leader P l hl hmem
          obtain ⟨hlinked, hocc⟩ := passPartyLeadership_good h ho P newLeader
          have hpass := passPartyLeadership_eq hl hne hnp
          have hx' : (passPartyLeadership s P newLeader).m_party l = some P := by rw [hpass]; exact hx
          have hl' : (passPartyLeadership s P newLeader).m_leader P ≠ some l := by
            rw [hpass]
            simpa using hne.symm
          simp only [Bool.false_eq_true, false_or]
          exact left_good hlinked (fun Q _ => hocc Q) hx' hl'
    · rw [if_neg hlx]
      have hnl : s.m_leader P ≠ some x := by
        rw [hl]
        simpa using hlx
      simp only [Bool.false_eq_true, false_or]
      exact left_good h (fun Q _ => ho Q) hx hnl

/-! ### Runs -/

theorem invitePlayer_good (h : Linked s) (ho : ∀ Q, Q ≠ P → Occupied s Q) (hP : s.m_leader P ≠ none)
    (hx : s.m_party x ≠ some P) : Good (invitePlayer s P x) := by
  obtain ⟨hlinked, hinv⟩ := linked_invitePlayer h hP hx
  refine ⟨hlinked, fun Q => ?_⟩
  by_cases hQ : Q = P
  · rw [hQ]
    exact fun _ => .inr hinv
  · exact occupied_invitePlayer hQ (ho Q hQ)

/-- A call that is turned away changes nothing. -/
theorem Good.unless {c : Prop} [Decidable c] {t : State} (h : Good s) (ht : ¬c → Good t) : Good (if c then s else t) := by
  split
  · exact h
  · rename_i hc
    exact ht hc

theorem playerInviteToParty_good (online : PlayerRef → Bool) (h : Good s) (playerId invitedId : PlayerRef) :
    Good (playerInviteToParty online s playerId invitedId) := by
  unfold playerInviteToParty
  refine h.unless fun hne => h.unless fun _ => h.unless fun _ => h.unless fun hfree => ?_
  have hfree : s.m_party invitedId = none := not_not.mp hfree
  obtain ⟨hl, ho⟩ := h
  split
  · rename_i hp
    refine invitePlayer_good (linked_create hl hp) (fun Q hQ => ?_) ?_ ?_
    · intro hlead
      have hQ' : Q ≠ s.next := hQ
      refine ho Q ?_
      simpa [create, setParty, hQ'] using hlead
    · simp [setParty]
    · simp [setParty, Ne.symm hne, hfree]
  · rename_i P hp
    refine Good.unless ⟨hl, ho⟩ fun hlead => invitePlayer_good hl (fun Q _ => ho Q) ?_ ?_
    · rw [not_not.mp hlead]
      exact nofun
    · rw [hfree]
      exact nofun

theorem step_good (online : PlayerRef → Bool) (h : Good s) (op : Op) : Good (step online s op) := by
  cases op with
  | playerInviteToParty playerId invitedId => exact playerInviteToParty_good online h playerId invitedId
  | playerJoinParty playerId leaderId =>
    simp only [step, playerJoinParty]
    refine h.unless fun _ => h.unless fun _ => ?_
    split
    · exact h
    · exact h.unless fun _ => h.unless fun hfree => joinParty_good h.1 h.2 (not_not.mp hfree)
  | playerRevokePartyInvitation playerId invitedId =>
    simp only [step, playerRevokePartyInvitation]
    refine h.unless fun _ => ?_
    split
    · exact h
    · refine h.unless fun _ => h.unless fun _ => ?_
      unfold revokeInvitation
      exact h.unless fun _ => removeInvite_good h.1 h.2 _ invitedId
  | playerPassPartyLeadership playerId newLeaderId =>
    simp only [step, playerPassPartyLeadership]
    refine h.unless fun _ => ?_
    split
    · exact h
    · exact h.unless fun _ => h.unless fun _ => passPartyLeadership_good h.1 h.2 _ newLeaderId
  | playerLeaveParty playerId infight =>
    simp only [step, playerLeaveParty]
    refine h.unless fun _ => ?_
    split
    · exact h
    · rename_i hp
      exact h.unless fun _ => leaveParty_good h.1 h.2 hp
  | removeInvite party player => exact removeInvite_good h.1 h.2 party player
  | disband party => exact ⟨linked_disband h.1 party, fun Q => occupied_disband party Q (h.2 Q)⟩

/-- In every state that the calls reach, whoever is online at each, players and parties agree, and no party is empty. -/
theorem consistent_run (ops : List ((PlayerRef → Bool) × Op)) :
    Consistent (Lib.run (fun s op => step op.1 s op.2) .start ops) := by
  have hstart : Good .start := ⟨linked_start, fun P hP => absurd rfl hP⟩
  obtain ⟨hl, ho⟩ := Lib.run_induction Good (fun s op h => step_good op.1 h op.2) ops hstart
  exact hl.consistent ho

end CrystalServer.Party
