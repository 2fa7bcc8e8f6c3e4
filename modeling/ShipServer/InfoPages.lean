import ShipServer.LabelledRuns

set_option autoImplicit false

/-! The pages of `lobby_info_reply`: which one of them a request for information on a team gets, and
when a page looks for what is not there. -/

namespace ShipServer.InfoPages

open LabelledRuns

abbrev LobbyId := BitVec 32

/-- A team: `LOBBY_FLAG_LEGIT_MODE`, whether it has a list of limits, and its quest while it has
`LOBBY_FLAG_QUESTING`. -/
structure Team where
  legit : Bool
  limitsList : Bool
  quest : Option ℕ
  deriving DecidableEq

/-- The teams of a block by their ids, the quests that `quest_lookup` finds, and `last_info_req` of
each client. -/
structure Block where
  teams : LobbyId → Option Team
  known : ℕ → Bool
  lastInfoReq : ℕ → LobbyId

/-- The bit of `last_info_req` for the third page. -/
def third : LobbyId := 0x80000000

inductive Page where
  | noLongerActive
  | members
  | settings
  | limits
  deriving DecidableEq

/-- The quest of a team, if there is one, can be looked up. -/
def Team.found (l : Team) (known : ℕ → Bool) : Bool :=
  match l.quest with
  | none => true
  | some qid => known qid

/-- `lobby_info_reply`: the page, and the new `last_info_req`. It has no result where it goes
through a null pointer, to a quest or to the name of a list. -/
def lobbyInfoReply (limitsCount : ℕ) (b : Block) (c : ℕ) (lobby : LobbyId) :
    Option (LobbyId × Page) :=
  let last := b.lastInfoReq c
  match b.teams lobby with
  | none => some (last, .noLongerActive)
  | some l =>
    if last = lobby then
      if l.found b.known then
        some (if limitsCount ≠ 0 ∧ l.legit then last ||| third else 0, .settings)
      else none
    else if last = lobby ||| third then
      if l.limitsList then some (0, .limits) else none
    else some (lobby, .members)

/-- A team takes its creator's list if it is in legit mode; `/normal` leaves the list with it. A
quest is looked up when it starts, and it does not end before the team does. A client that walks in
the lobby has been away from the counter. -/
inductive Event where
  | opens (id : LobbyId) (legit : Bool)
  | closes (id : LobbyId)
  | normal (id : LobbyId)
  | quest (id : LobbyId) (qid : ℕ)
  | refresh (known : ℕ → Bool)
  | walks (c : ℕ)
  | asks (c : ℕ) (lobby : LobbyId)

def Block.setTeam (b : Block) (id : LobbyId) (l : Option Team) : Block :=
  { b with teams := Function.update b.teams id l }

def Block.modTeam (b : Block) (id : LobbyId) (f : Team → Team) : Block :=
  b.setTeam id ((b.teams id).map f)

def next (limitsCount : ℕ) (b : Block) : Event → Block
  | .opens id legit =>
    if b.teams id = none ∧ id ≠ 0 ∧ id &&& third = 0 then
      b.setTeam id (some ⟨legit, legit, none⟩)
    else b
  | .closes id => b.setTeam id none
  | .normal id => b.modTeam id fun l => { l with legit := false }
  | .quest id qid =>
    if b.known qid then b.modTeam id fun l => { l with quest := some qid } else b
  | .refresh known => { b with known := known }
  | .walks c => { b with lastInfoReq := Function.update b.lastInfoReq c 0 }
  | .asks c lobby =>
    match lobbyInfoReply limitsCount b c lobby with
    | none => b
    | some (last, _) => { b with lastInfoReq := Function.update b.lastInfoReq c last }

/-- No request for information takes the server down. -/
def Answers (limitsCount : ℕ) (b : Block) : Prop :=
  ∀ c lobby, lobbyInfoReply limitsCount b c lobby ≠ none

/-- A new team without a list does not get an id whose third page somebody is about to ask for, and
nobody is about to ask for the second page of a team with a quest that is gone. -/
def Safe (b : Block) : Event → Prop
  | .opens id legit => b.teams id = none → id ≠ 0 → id &&& third = 0 → legit = false →
      ∀ c, b.lastInfoReq c ≠ id ||| third
  | .refresh known => ∀ id l, b.teams id = some l → l.found known = false →
      ∀ c, b.lastInfoReq c ≠ id
  | .asks c lobby => ∀ l, b.teams lobby = some l → l.found b.known = false →
      b.lastInfoReq c = lobby ||| third
  | _ => True

/-- Before anybody asks. -/
def started (known : ℕ → Bool) : Block where
  teams _ := none
  known := known
  lastInfoReq _ := 0

section Pages

variable {limitsCount : ℕ} {b : Block}

/-- What holds of the teams by themselves. -/
structure Sound (b : Block) : Prop where
  nonzero : b.teams 0 = none
  low : ∀ id l, b.teams id = some l → id &&& third = 0
  listed : ∀ id l, b.teams id = some l → l.legit = true → l.limitsList = true

/-- Whoever is about to ask for a page finds it. -/
structure Ready (b : Block) : Prop where
  second : ∀ c l, b.teams (b.lastInfoReq c) = some l → l.found b.known = true
  third : ∀ c id l, b.lastInfoReq c = id ||| third → b.teams id = some l → l.limitsList = true

theorem third_and (id : LobbyId) : (id ||| third) &&& third = third := by
  ext i hi
  simp only [BitVec.getElem_and, BitVec.getElem_or]
  cases id[i] <;> cases third[i] <;> rfl

theorem ne_or_third {id : LobbyId} (h : id &&& third = 0) (id' : LobbyId) : id ≠ id' ||| third := by
  rintro rfl
  rw [third_and] at h
  exact absurd h (by decide)

theorem or_third_inj {id id' : LobbyId} (h : id &&& third = 0) (h' : id' &&& third = 0)
    (heq : id ||| third = id' ||| third) : id = id' := by
  have hclear : ∀ x : LobbyId, x &&& third = 0 → (x ||| third) ^^^ third = x := by
    intro x hx
    ext i hi
    have hbit : (x[i] && third[i]) = false := by
      have hsame := congrArg (fun y : LobbyId => y[i]) hx
      simpa using hsame
    simp only [BitVec.getElem_xor, BitVec.getElem_or]
    revert hbit
    cases x[i] <;> cases third[i] <;> decide
  rw [← hclear id h, heq, hclear id' h']

theorem Sound.second_ne (h : Sound b) {id : LobbyId} {l : Team} (hl : b.teams id = some l)
    (id' : LobbyId) : id ≠ id' ||| third :=
  ne_or_third (h.low id l hl) id'

theorem Sound.teams_third (h : Sound b) (id : LobbyId) : b.teams (id ||| third) = none := by
  cases hl : b.teams (id ||| third) with
  | none => rfl
  | some l => exact absurd rfl (h.second_ne hl id)

theorem answers_iff (h : Sound b) : Answers limitsCount b ↔ Ready b := by
  constructor
  · intro hall
    refine ⟨fun c l hl => ?_, fun c id l hlast hl => ?_⟩
    · have hreply := hall c (b.lastInfoReq c)
      rw [lobbyInfoReply, hl] at hreply
      dsimp only at hreply
      rw [if_pos rfl] at hreply
      by_contra hfound
      exact hreply (if_neg hfound)
    · have hreply := hall c id
      rw [lobbyInfoReply, hl, hlast] at hreply
      dsimp only at hreply
      rw [if_neg (h.second_ne hl id).symm, if_pos rfl] at hreply
      by_contra hlist
      exact hreply (if_neg hlist)
  · intro hready c lobby
    rw [lobbyInfoReply]
    split
    next => exact Option.some_ne_none _
    next l hl =>
      by_cases hlast : b.lastInfoReq c = lobby
      · rw [if_pos hlast, if_pos (hready.second c l (by rwa [hlast]))]
        exact Option.some_ne_none _
      · rw [if_neg hlast]
        by_cases hthird : b.lastInfoReq c = lobby ||| third
        · rw [if_pos hthird, if_pos (hready.third c lobby l hthird hl)]
          exact Option.some_ne_none _
        · rw [if_neg hthird]
          exact Option.some_ne_none _

theorem setTeam_some {id id' : LobbyId} {t : Option Team} {l : Team} :
    (b.setTeam id t).teams id' = some l ↔
      id' = id ∧ t = some l ∨ id' ≠ id ∧ b.teams id' = some l := by
  change Function.update b.teams id t id' = some l ↔ _
  by_cases hid : id' = id
  · rw [hid, Function.update_self]
    simp
  · rw [Function.update_of_ne hid]
    simp [hid]

theorem Sound.setTeam (h : Sound b) {id : LobbyId} {t : Option Team}
    (ht : ∀ l, t = some l → id ≠ 0 ∧ id &&& third = 0 ∧ (l.legit = true → l.limitsList = true)) :
    Sound (b.setTeam id t) := by
  refine ⟨?_, fun id' l hl => ?_, fun id' l hl => ?_⟩
  · cases hzero : (b.setTeam id t).teams 0 with
    | none => rfl
    | some l =>
      rcases setTeam_some.1 hzero with ⟨hid, hl⟩ | ⟨-, hl⟩
      · exact absurd hid.symm (ht l hl).1
      · rw [h.nonzero] at hl
        cases hl
  · rcases setTeam_some.1 hl with ⟨hid, hnew⟩ | ⟨-, hold⟩
    · rw [hid]
      exact (ht l hnew).2.1
    · exact h.low id' l hold
  · rcases setTeam_some.1 hl with ⟨-, hnew⟩ | ⟨-, hold⟩
    · exact (ht l hnew).2.2
    · exact h.listed id' l hold

/-- A change of a team matters to those who are about to ask for its second or third page. -/
theorem Ready.setTeam_iff (h : Ready b) {id : LobbyId} {t : Option Team} :
    Ready (b.setTeam id t) ↔ ∀ l, t = some l → ∀ c,
      (b.lastInfoReq c = id → l.found b.known = true) ∧
        (b.lastInfoReq c = id ||| InfoPages.third → l.limitsList = true) := by
  constructor
  · intro hready l hl c
    refine ⟨fun hlast => ?_, fun hlast => ?_⟩
    · exact hready.second c l (setTeam_some.2 (.inl ⟨hlast, hl⟩))
    · exact hready.third c id l hlast (setTeam_some.2 (.inl ⟨rfl, hl⟩))
  · intro ht
    refine ⟨fun c l hl => ?_, fun c id' l hlast hl => ?_⟩
    · rcases setTeam_some.1 hl with ⟨hid, hnew⟩ | ⟨-, hold⟩
      · exact (ht l hnew c).1 hid
      · exact h.second c l hold
    · rcases setTeam_some.1 hl with ⟨hid, hnew⟩ | ⟨-, hold⟩
      · rw [hid] at hlast
        exact (ht l hnew c).2 hlast
      · exact h.third c id' l hlast hold

theorem modTeam_sound (h : Sound b) (id : LobbyId) {f : Team → Team}
    (hlegit : ∀ l, (f l).legit = true → l.legit = true)
    (hlist : ∀ l, (f l).limitsList = l.limitsList) : Sound (b.modTeam id f) := by
  refine h.setTeam fun l hl => ?_
  obtain ⟨l₀, hl₀, rfl⟩ := Option.map_eq_some_iff.1 hl
  refine ⟨?_, h.low id l₀ hl₀, fun hf => ?_⟩
  · rintro rfl
    rw [h.nonzero] at hl₀
    cases hl₀
  · rw [hlist]
    exact h.listed id l₀ hl₀ (hlegit l₀ hf)

theorem next_sound (h : Sound b) (e : Event) : Sound (next limitsCount b e) := by
  cases e with
  | opens id legit =>
    rw [next]
    split
    next hid =>
      refine h.setTeam fun l hl => ?_
      cases hl
      exact ⟨hid.2.1, hid.2.2, fun hlegit => hlegit⟩
    next => exact h
  | closes id =>
    refine h.setTeam fun l hl => ?_
    cases hl
  | normal id =>
    exact modTeam_sound h id (f := fun l => { l with legit := false }) (fun _ hl => by cases hl)
      fun _ => rfl
  | quest id qid =>
    rw [next]
    split
    next =>
      exact modTeam_sound h id (f := fun l => { l with quest := some qid }) (fun _ hl => hl)
        fun _ => rfl
    next => exact h
  | refresh known => exact ⟨h.nonzero, h.low, h.listed⟩
  | walks c => exact ⟨h.nonzero, h.low, h.listed⟩
  | asks c lobby =>
    rw [next]
    split
    next => exact h
    next => exact ⟨h.nonzero, h.low, h.listed⟩

/-- A change of a team that keeps its list. -/
theorem modTeam_ready (h : Ready b) {id : LobbyId} {f : Team → Team}
    (hlist : ∀ l, (f l).limitsList = l.limitsList)
    (hfound : ∀ l, b.teams id = some l → ∀ c, b.lastInfoReq c = id →
      (f l).found b.known = true) :
    Ready (b.modTeam id f) := by
  refine h.setTeam_iff.2 fun l' hl' c => ?_
  obtain ⟨l, hl, rfl⟩ := Option.map_eq_some_iff.1 hl'
  exact ⟨hfound l hl c, fun hlast => (hlist l).trans (h.third c id l hlast hl)⟩

/-- A client may go on with a page that it finds. -/
theorem setLast_ready (h : Ready b) {c : ℕ} {last : LobbyId}
    (hsecond : ∀ l, b.teams last = some l → l.found b.known = true)
    (hthird : ∀ id l, last = id ||| InfoPages.third → b.teams id = some l → l.limitsList = true) :
    Ready { b with lastInfoReq := Function.update b.lastInfoReq c last } := by
  refine ⟨fun d l hl => ?_, fun d id l hlast hl => ?_⟩
  · by_cases hd : d = c
    · rw [hd] at hl
      exact hsecond l (by simpa using hl)
    · exact h.second d l (by simpa [Function.update_of_ne hd] using hl)
  · by_cases hd : d = c
    · rw [hd] at hlast
      exact hthird id l (by simpa using hlast) hl
    · exact h.third d id l (by simpa [Function.update_of_ne hd] using hlast) hl

theorem next_ready_iff (hsound : Sound b) (h : Ready b) (e : Event) :
    Ready (next limitsCount b e) ↔ Safe b e := by
  cases e with
  | opens id legit =>
    rw [next]
    split
    next hid =>
      rw [h.setTeam_iff]
      constructor
      · intro ht _ _ _ hlegit c hlast
        have hlist := (ht _ rfl c).2 hlast
        rw [hlegit] at hlist
        cases hlist
      · intro hsafe l hl c
        cases hl
        refine ⟨fun _ => rfl, fun hlast => ?_⟩
        by_contra hlegit
        exact hsafe hid.1 hid.2.1 hid.2.2 (eq_false_of_ne_true hlegit) c hlast
    next hid => exact ⟨fun _ hnone hzero hlow => absurd ⟨hnone, hzero, hlow⟩ hid, fun _ => h⟩
  | closes id =>
    refine ⟨fun _ => trivial, fun _ => ?_⟩
    refine ⟨fun c l hl => ?_, fun c id' l hlast hl => ?_⟩
    · rcases setTeam_some.1 hl with ⟨-, hl⟩ | ⟨-, hl⟩
      · cases hl
      · exact h.second c l hl
    · rcases setTeam_some.1 hl with ⟨-, hl⟩ | ⟨-, hl⟩
      · cases hl
      · exact h.third c id' l hlast hl
  | normal id =>
    refine ⟨fun _ => trivial, fun _ => ?_⟩
    refine modTeam_ready (f := fun l => { l with legit := false }) h (fun _ => rfl) ?_
    exact fun l hl c hlast => h.second c l (by rwa [hlast])
  | quest id qid =>
    refine ⟨fun _ => trivial, fun _ => ?_⟩
    rw [next]
    split
    next hknown =>
      exact modTeam_ready (f := fun l => { l with quest := some qid }) h (fun _ => rfl)
        fun _ _ _ _ => hknown
    next => exact h
  | refresh known =>
    constructor
    · intro hready id l hl hfound c hlast
      have hnew := hready.second c l (by rw [next, hlast]; exact hl)
      exact absurd (hnew.symm.trans hfound) (by decide)
    · intro hsafe
      refine ⟨fun c l hl => ?_, h.third⟩
      by_contra hfound
      exact hsafe _ l hl (eq_false_of_ne_true hfound) c rfl
  | walks c =>
    refine ⟨fun _ => trivial, fun _ => setLast_ready h ?_ fun id l hid hl => ?_⟩
    · intro l hl
      rw [hsound.nonzero] at hl
      cases hl
    · exact absurd hid (ne_or_third (by decide) id)
  | asks c lobby =>
    cases hteam : b.teams lobby with
    | none =>
      have hsame : next limitsCount b (.asks c lobby) = b := by
        rw [next, lobbyInfoReply, hteam]
        dsimp only
        rw [Function.update_eq_self]
      rw [hsame]
      exact ⟨fun _ l hl => absurd (hteam.symm.trans hl) (Option.some_ne_none l).symm, fun _ => h⟩
    | some l =>
      have hzero : Ready { b with lastInfoReq := Function.update b.lastInfoReq c 0 } :=
        setLast_ready h
          (fun l hl => absurd (hsound.nonzero.symm.trans hl) (Option.some_ne_none l).symm)
          fun id l hid hl => absurd hid (ne_or_third (by decide) id)
      by_cases hlast : b.lastInfoReq c = lobby
      · have hfound : l.found b.known = true := h.second c l (by rwa [hlast])
        refine ⟨fun _ l' hl' hlost => ?_, fun _ => ?_⟩
        · rw [hteam] at hl'
          cases hl'
          exact absurd (hfound.symm.trans hlost) (by decide)
        · rw [next, lobbyInfoReply, hteam]
          dsimp only
          rw [if_pos hlast, if_pos hfound, hlast]
          dsimp only
          split
          next hmode =>
            refine setLast_ready h (fun l' hl' => ?_) fun id l' hid hl' => ?_
            · exact absurd ((hsound.teams_third lobby).symm.trans hl') (Option.some_ne_none l').symm
            · have hlow := hsound.low
              have hsame := or_third_inj (hlow lobby l hteam) (hlow id l' hl') hid
              rw [← hsame, hteam] at hl'
              cases hl'
              exact hsound.listed lobby l hteam hmode.2
          next => exact hzero
      · by_cases hthird : b.lastInfoReq c = lobby ||| third
        · refine ⟨fun _ _ _ _ => hthird, fun _ => ?_⟩
          rw [next, lobbyInfoReply, hteam]
          dsimp only
          rw [if_neg hlast, if_pos hthird, if_pos (h.third c lobby l hthird hteam)]
          exact hzero
        · have hnext : next limitsCount b (.asks c lobby) =
              { b with lastInfoReq := Function.update b.lastInfoReq c lobby } := by
            rw [next, lobbyInfoReply, hteam]
            dsimp only
            rw [if_neg hlast, if_neg hthird]
          rw [hnext]
          constructor
          · intro hready l' hl' hlost
            have hfound := hready.second c l' (by simpa using hl')
            exact absurd (hfound.symm.trans hlost) (by decide)
          · intro hsafe
            refine setLast_ready h (fun l' hl' => ?_) fun id l' hid hl' => ?_
            · by_contra hlost
              exact hthird (hsafe l' hl' (eq_false_of_ne_true hlost))
            · exact absurd hid (hsound.second_ne hteam id)

-- a team in legit mode ends after its first two pages, and another one gets its id
example : lobbyInfoReply 1 ([.opens 0x21 true, .asks 0 0x21, .asks 0 0x21, .closes 0x21,
    .opens 0x21 false].foldl (next 1) (started fun _ => true)) 0 0x21 = none := by decide

end Pages

end ShipServer.InfoPages
