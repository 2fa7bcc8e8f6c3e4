import ShipServer.LabelledRuns
import ShipServer.QuestSetup
import ShipServer.Teams

set_option autoImplicit false

namespace ShipServer.QuestSelection

open LabelledRuns Seatings Versions LobbyRooms QuestSetup Teams

/-- A game whose members choose quests. It is `live` until it is destroyed, and `listOpen` is
history: who has asked for the list and has not cancelled, selected or left since. -/
structure SelectingTeam extends Team where
  challenge : Bool
  battle : Bool
  questing : Bool
  questSel : Bool
  quest : LobbyQuest
  live : Bool
  listOpen : ClientId → Bool

namespace SelectingTeam

def setList (t : SelectingTeam) (c : ClientId) (v : Bool) : SelectingTeam :=
  { t with listOpen := Function.update t.listOpen c v }

def processQlist (t : SelectingTeam) (c : ClientId) (configured : Bool) : SelectingTeam :=
  if configured then { t.setList c true with questSel := true } else t

def processQlistEnd (t : SelectingTeam) (c : ClientId) : SelectingTeam :=
  { t.setList c false with questSel := false }

def setupLobby (t : SelectingTeam) : SetupLobby :=
  { version := t.version, challenge := t.challenge, battle := t.battle }

/-- `lobby_setup_quest`. All its exits clear the flag but the one without any quests. -/
def lobbySetupQuest (t : SelectingTeam) (env : SetupEnv) (qid : BitVec 32) : SelectingTeam :=
  if env.configured = false then t
  else
    match QuestSetup.lobbySetupQuest env t.setupLobby qid t.quest with
    | none => { t with questSel := false }
    | some quest => { t with questing := true, questSel := false, quest := quest }

/-- `MENU_ID_QUEST` in `process_menu`. -/
def processMenuQuest (t : SelectingTeam) (c : ClientId) (env : SetupEnv) (qid : BitVec 32) :
    SelectingTeam :=
  let t := t.setList c false
  if t.bursting then t else t.lobbySetupQuest env qid

/-- `/quest`. -/
def handleQuest (t : SelectingTeam) (env : SetupEnv) (qid : BitVec 32) : SelectingTeam :=
  if t.bursting then t
  else if env.configured = false ∨ env.questLookup qid = none then t
  else t.lobbySetupQuest env qid

/-- What in `lobby_change_lobby` keeps a client out because of the others' doings. -/
def joinRefusal (t : SelectingTeam) : Option Int :=
  if t.bursting then some (-3)
  else if t.questing = true ∧ t.quest.flagJoin = false then some (-7)
  else if t.questSel then some (-8)
  else none

/-- A client that gets in starts to burst. -/
def join (t : SelectingTeam) (c : ClientId) : SelectingTeam :=
  if t.live = false ∨ t.joinRefusal ≠ none then t
  else
    match t.add c with
    | none => t
    | some (m, _) => { t.setList c false with toTeam := { m with bursting := true } }

/-- The last one to leave destroys the game. -/
def leave (t : SelectingTeam) (c : ClientId) (lastPreGc : Bool) : SelectingTeam :=
  match t.remove c lastPreGc with
  | none => t
  | some (m, _) =>
    { t.setList c false with toTeam := m, live := t.live && decide (m.numClients ≠ 0) }

end SelectingTeam

inductive Event where
  | qlist (c : ClientId) (configured : Bool)
  | qlistEnd (c : ClientId)
  | selectQuest (c : ClientId) (env : SetupEnv) (qid : BitVec 32)
  | gmQuest (c : ClientId) (env : SetupEnv) (qid : BitVec 32)
  | join (c : ClientId)
  | doneBurst (c : ClientId)
  | leave (c : ClientId) (lastPreGc : Bool)

/-- Packets of clients that are not in the game do not concern it. -/
def next (t : SelectingTeam) : Event → SelectingTeam
  | .qlist c configured => if (t.place c).isSome then t.processQlist c configured else t
  | .qlistEnd c => if (t.place c).isSome then t.processQlistEnd c else t
  | .selectQuest c env qid => if (t.place c).isSome then t.processMenuQuest c env qid else t
  | .gmQuest c env qid => if (t.place c).isSome then t.handleQuest env qid else t
  | .join c => if t.place c = none then t.join c else t
  | .doneBurst c => if (t.place c).isSome then { t with bursting := false } else t
  | .leave c lastPreGc => t.leave c lastPreGc

/-- A member other than `c` has the list open. -/
def OtherList (t : SelectingTeam) (c : ClientId) : Prop :=
  ∃ d, d ≠ c ∧ (t.place d).isSome = true ∧ t.listOpen d = true

def OpenList (t : SelectingTeam) : Prop :=
  ∃ d, (t.place d).isSome = true ∧ t.listOpen d = true

/-- The flag of a game that exists has an owner. -/
def Owned (t : SelectingTeam) : Prop :=
  t.live = true → t.questSel = true → OpenList t

/-- Where the flag is set, nobody leaves and nobody makes a selection in vain whose list is the
only one that is open, unless the game ends. -/
def Careful (t : SelectingTeam) : Event → Prop
  | .leave c _ => t.questSel = true → (t.place c).isSome = true →
      OtherList t c ∨ ∀ d, d ≠ c → t.place d = none
  | .selectQuest c env _ => t.questSel = true → (t.place c).isSome = true →
      t.bursting = true ∨ env.configured = false → OtherList t c
  | _ => True

/-- A game as it is created. -/
structure Created (t : SelectingTeam) : Prop where
  sound : t.Sound
  live : t.live = true
  unselected : t.questSel = false

structure Invariant (t : SelectingTeam) : Prop where
  sound : t.Sound
  gone : t.live = false → ∀ c, t.place c = none
  owned : Owned t

theorem Created.invariant {t : SelectingTeam} (h : Created t) : Invariant t where
  sound := h.sound
  gone := by
    intro hgone
    rw [h.live] at hgone
    cases hgone
  owned := by
    intro _ hsel
    rw [h.unselected] at hsel
    cases hsel

theorem joinRefusal_questSel {t : SelectingTeam} (h : t.joinRefusal = some (-8)) :
    t.questSel = true := by
  unfold SelectingTeam.joinRefusal at h
  split_ifs at h with hburst hquest hsel
  · simp at h
  · simp at h
  · exact hsel

theorem listOpen_setList_self (t : SelectingTeam) (c : ClientId) (v : Bool) :
    (t.setList c v).listOpen c = v :=
  Function.update_self ..

theorem listOpen_setList_other (t : SelectingTeam) {c d : ClientId} (v : Bool) (hd : d ≠ c) :
    (t.setList c v).listOpen d = t.listOpen d :=
  Function.update_of_ne hd ..

/-- The setup of a quest leaves members and lists alone. -/
theorem lobbySetupQuest_cases (t : SelectingTeam) (env : SetupEnv) (qid : BitVec 32) :
    (env.configured = false ∧ t.lobbySetupQuest env qid = t) ∨
      (env.configured = true ∧ ∃ questing quest, t.lobbySetupQuest env qid =
        { t with questing := questing, questSel := false, quest := quest }) := by
  unfold SelectingTeam.lobbySetupQuest
  cases hconf : env.configured with
  | false => exact Or.inl ⟨rfl, if_pos rfl⟩
  | true =>
    refine Or.inr ⟨rfl, ?_⟩
    rw [if_neg (by decide)]
    cases QuestSetup.lobbySetupQuest env t.setupLobby qid t.quest with
    | none => exact ⟨t.questing, t.quest, rfl⟩
    | some quest => exact ⟨true, quest, rfl⟩

theorem openList_setList_false (t : SelectingTeam) (c : ClientId) :
    OpenList (t.setList c false) ↔ OtherList t c := by
  constructor
  · rintro ⟨d, hplace, hopen⟩
    have hd : d ≠ c := by
      rintro rfl
      rw [listOpen_setList_self] at hopen
      cases hopen
    rw [listOpen_setList_other _ _ hd] at hopen
    exact ⟨d, hd, hplace, hopen⟩
  · rintro ⟨d, hd, hplace, hopen⟩
    refine ⟨d, hplace, ?_⟩
    rw [listOpen_setList_other _ _ hd]
    exact hopen

/-- A flag that is cleared needs no owner. -/
theorem Invariant.unselect {t t' : SelectingTeam} (h : Invariant t) (hteam : t'.toTeam = t.toTeam)
    (hlive : t'.live = t.live) (hsel : t'.questSel = false) : Invariant t' := by
  refine ⟨?_, ?_, ?_⟩
  · rw [hteam]
    exact h.sound
  · rw [hteam, hlive]
    exact h.gone
  · intro _ hsel'
    rw [hsel] at hsel'
    cases hsel'

theorem Invariant.lobbySetupQuest {t : SelectingTeam} (h : Invariant t) (env : SetupEnv)
    (qid : BitVec 32) : Invariant (t.lobbySetupQuest env qid) := by
  rcases lobbySetupQuest_cases t env qid with ⟨-, heq⟩ | ⟨-, questing, quest, heq⟩
  · rw [heq]
    exact h
  · rw [heq]
    exact h.unselect rfl rfl rfl

theorem Invariant.processQlist {t : SelectingTeam} (h : Invariant t) {c : ClientId}
    (hc : (t.place c).isSome = true) (configured : Bool) :
    Invariant (t.processQlist c configured) := by
  unfold SelectingTeam.processQlist
  split_ifs
  · exact ⟨h.sound, h.gone, fun _ _ => ⟨c, hc, Function.update_self ..⟩⟩
  · exact h

/-- A member that selects a quest in vain has no list any more, but the flag stays. -/
theorem processMenuQuest_invariant {t : SelectingTeam} (h : Invariant t) {c : ClientId}
    (hc : (t.place c).isSome = true) (env : SetupEnv) (qid : BitVec 32) :
    Invariant (t.processMenuQuest c env qid) ↔
      (t.questSel = true → t.bursting = true ∨ env.configured = false → OtherList t c) := by
  have hlive : t.live = true := by
    cases hl : t.live with
    | true => rfl
    | false =>
      rw [h.gone hl c] at hc
      cases hc
  have hvain : Invariant (t.setList c false) ↔ (t.questSel = true → OtherList t c) := by
    rw [← openList_setList_false]
    exact ⟨fun h' => h'.owned hlive, fun howned => ⟨h.sound, h.gone, fun _ => howned⟩⟩
  unfold SelectingTeam.processMenuQuest
  by_cases hburst : t.bursting = true
  · rw [if_pos (show (t.setList c false).bursting = true from hburst), hvain]
    exact ⟨fun hgood hsel _ => hgood hsel, fun hgood hsel => hgood hsel (Or.inl hburst)⟩
  · rw [if_neg (show ¬(t.setList c false).bursting = true from hburst)]
    rcases lobbySetupQuest_cases (t.setList c false) env qid with
      ⟨hconf, heq⟩ | ⟨hconf, questing, quest, heq⟩
    · rw [heq, hvain]
      exact ⟨fun hgood hsel _ => hgood hsel, fun hgood hsel => hgood hsel (Or.inr hconf)⟩
    · rw [heq]
      constructor
      · rintro - - (hb | hfalse)
        · exact absurd hb hburst
        · rw [hconf] at hfalse
          cases hfalse
      · intro _
        exact h.unselect rfl rfl rfl

theorem Invariant.handleQuest {t : SelectingTeam} (h : Invariant t) (env : SetupEnv)
    (qid : BitVec 32) : Invariant (t.handleQuest env qid) := by
  unfold SelectingTeam.handleQuest
  split_ifs
  · exact h
  · exact h
  · exact h.lobbySetupQuest env qid

theorem Invariant.join {t : SelectingTeam} (h : Invariant t) {c : ClientId}
    (hc : t.place c = none) : Invariant (t.join c) := by
  unfold SelectingTeam.join
  split_ifs with hrefused
  · exact h
  cases hadd : t.add c with
  | none => exact h
  | some r =>
    obtain ⟨m, i⟩ := r
    have hlive : t.live = true := by
      cases hl : t.live with
      | true => rfl
      | false => exact absurd (Or.inl hl) hrefused
    have hsound := (h.sound.add hc hadd).1
    obtain ⟨-, rfl⟩ := Team.add_eq_some hadd
    refine ⟨⟨⟨hsound.room.count, hsound.room.below, hsound.room.roomy⟩, hsound.game, hsound.size,
      hsound.seated⟩, ?_, ?_⟩
    · intro hgone
      rw [show t.live = false from hgone] at hlive
      cases hlive
    · intro hl hsel
      obtain ⟨d, hplace, hopen⟩ := h.owned hl hsel
      have hd : d ≠ c := by
        rintro rfl
        rw [hc] at hplace
        cases hplace
      refine ⟨d, ?_, ?_⟩
      · change (Function.update t.place c (some i) d).isSome = true
        rw [Function.update_of_ne hd]
        exact hplace
      · change Function.update t.listOpen c false d = true
        rw [Function.update_of_ne hd]
        exact hopen

theorem numClients_eq_zero_iff {t : Team} (h : t.Sound) :
    t.numClients = 0 ↔ ∀ c, t.place c = none := by
  constructor
  · intro hzero c
    cases hplace : t.place c with
    | none => rfl
    | some i =>
      have hi := (h.seated i c).mpr hplace
      rw [h.room.empty_of_count hzero i] at hi
      cases hi
  · intro hnobody
    have hempty : t.clients = fun _ => none := by
      funext i
      cases hi : t.clients i with
      | none => rfl
      | some c =>
        have hplace := (h.seated i c).mp hi
        rw [hnobody c] at hplace
        cases hplace
    rw [h.room.count, hempty]
    rfl

/-- Leaving the game does not look at the flag. -/
theorem leave_invariant {t : SelectingTeam} (h : Invariant t) (c : ClientId) (lastPreGc : Bool) :
    Invariant (t.leave c lastPreGc) ↔ Careful t (.leave c lastPreGc) := by
  unfold SelectingTeam.leave
  cases hremove : t.remove c lastPreGc with
  | none =>
    refine ⟨fun _ _ hc => ?_, fun _ => h⟩
    obtain ⟨i, hi⟩ := Option.isSome_iff_exists.mp hc
    rw [h.sound.remove_of_place hi] at hremove
    cases hremove
  | some r =>
    obtain ⟨m, i⟩ := r
    have hsound := h.sound.remove hremove
    obtain ⟨hplace, -, rfl⟩ := Team.remove_eq_some hremove
    have hmember : (t.place c).isSome = true := by
      rw [hplace]
      rfl
    have hlive : t.live = true := by
      cases hl : t.live with
      | true => rfl
      | false =>
        rw [h.gone hl c] at hplace
        cases hplace
    have hothers : ∀ d, d ≠ c → Function.update t.place c none d = t.place d :=
      fun d hd => Function.update_of_ne hd ..
    have hlast : (∀ d, Function.update t.place c none d = none) ↔
        ∀ d, d ≠ c → t.place d = none := by
      constructor
      · intro hall d hd
        rw [← hothers d hd]
        exact hall d
      · intro hall d
        by_cases hd : d = c
        · rw [hd, Function.update_self]
        · rw [hothers d hd]
          exact hall d hd
    have hzero := (numClients_eq_zero_iff hsound).trans hlast
    have hopen : (∃ d, (Function.update t.place c none d).isSome = true ∧
        Function.update t.listOpen c false d = true) ↔ OtherList t c := by
      constructor
      · rintro ⟨d, hd, hlist⟩
        have hne : d ≠ c := by
          rintro rfl
          rw [Function.update_self] at hlist
          cases hlist
        rw [hothers d hne] at hd
        rw [Function.update_of_ne hne] at hlist
        exact ⟨d, hne, hd, hlist⟩
      · rintro ⟨d, hne, hd, hlist⟩
        refine ⟨d, ?_, ?_⟩
        · rw [hothers d hne]
          exact hd
        · rw [Function.update_of_ne hne]
          exact hlist
    constructor
    · intro hafter hsel _
      by_cases hempty : ∀ d, d ≠ c → t.place d = none
      · exact Or.inr hempty
      · refine Or.inl (hopen.mp (hafter.owned ?_ hsel))
        dsimp only
        rw [Bool.and_eq_true, decide_eq_true_eq]
        exact ⟨hlive, fun hnum => hempty (hzero.mp hnum)⟩
    · intro hgood
      refine ⟨hsound, ?_, ?_⟩
      · intro hgone d
        dsimp only at hgone
        rw [hlive, Bool.true_and, decide_eq_false_iff_not, not_not] at hgone
        exact hlast.mpr (hzero.mp hgone) d
      · intro hleft hsel
        dsimp only at hleft
        rw [Bool.and_eq_true, decide_eq_true_eq] at hleft
        rcases hgood hsel hmember with hother | hempty
        · exact hopen.mpr hother
        · exact absurd (hzero.mpr hempty) hleft.2

/-- A step keeps the flag owned exactly when it is a careful one. -/
theorem next_invariant {t : SelectingTeam} (h : Invariant t) (e : Event) :
    Invariant (next t e) ↔ Careful t e := by
  cases e with
  | qlist c configured =>
    refine ⟨fun _ => trivial, fun _ => ?_⟩
    simp only [next]
    split_ifs with hc
    · exact h.processQlist hc configured
    · exact h
  | qlistEnd c =>
    refine ⟨fun _ => trivial, fun _ => ?_⟩
    simp only [next]
    split_ifs
    · exact h.unselect rfl rfl rfl
    · exact h
  | selectQuest c env qid =>
    simp only [next, Careful]
    split_ifs with hc
    · rw [processMenuQuest_invariant h hc]
      exact ⟨fun hgood hsel _ => hgood hsel, fun hgood hsel => hgood hsel hc⟩
    · exact ⟨fun _ _ hc' => absurd hc' hc, fun _ => h⟩
  | gmQuest c env qid =>
    refine ⟨fun _ => trivial, fun _ => ?_⟩
    simp only [next]
    split_ifs
    · exact h.handleQuest env qid
    · exact h
  | join c =>
    refine ⟨fun _ => trivial, fun _ => ?_⟩
    simp only [next]
    split_ifs with hc
    · exact h.join hc
    · exact h
  | doneBurst c =>
    refine ⟨fun _ => trivial, fun _ => ?_⟩
    simp only [next]
    split_ifs
    · exact ⟨⟨⟨h.sound.room.count, h.sound.room.below, h.sound.room.roomy⟩, h.sound.game,
        h.sound.size, h.sound.seated⟩, h.gone, h.owned⟩
    · exact h
  | leave c lastPreGc => exact leave_invariant h c lastPreGc

/-- Whoever is refused because of a selection is refused while somebody has the list open. -/
structure Selecting (t : SelectingTeam) : Prop where
  owned : Owned t
  refused : t.live = true → t.joinRefusal = some (-8) → OpenList t

/-- In a game in which nobody leaves with the only open list, and nobody loses it to a selection
that comes to nothing, the flag is set only while a member has the list open. -/
theorem questSel_owned {t t' : SelectingTeam} {es : List Event} (ht : Created t)
    (hrun : Run (StepOf next) Careful t es t') : Selecting t' := by
  have hinv : Invariant t' := by
    refine hrun.invariant Invariant ht.invariant ?_
    rintro t₀ e t₁ h₀ hgood rfl
    exact (next_invariant h₀ e).mpr hgood
  exact ⟨hinv.owned, fun hlive href => hinv.owned hlive (joinRefusal_questSel href)⟩

/-- A Gamecube game that has just been created. -/
def emptyGame : SelectingTeam where
  type := .game
  version := .gc
  maxClients := 4
  numClients := 0
  clients _ := none
  bursting := false
  passwd := []
  place _ := none
  challenge := false
  battle := false
  questing := false
  questSel := false
  quest := LobbyQuest.blank
  live := true
  listOpen _ := false

theorem emptyGame_created : Created emptyGame where
  sound :=
    { room := ⟨by decide, by decide, by decide⟩
      game := rfl
      size := le_rfl
      seated := seated_empty }
  live := rfl
  unselected := rfl

/-- Two players come in, and one of them asks for the list. -/
def browsing : List Event :=
  [.join 0, .doneBurst 0, .join 1, .doneBurst 1, .qlist 1 true]

/-- The one who has asked for the list closes it and leaves. -/
theorem questSel_owned_browsing :
    Selecting ((browsing ++ [Event.qlistEnd 1, Event.leave 1 false]).foldl next emptyGame) := by
  have hrun : Run (StepOf next) Careful emptyGame
      [.join 0, .doneBurst 0, .join 1, .doneBurst 1, .qlist 1 true, .qlistEnd 1, .leave 1 false]
      ((browsing ++ [Event.qlistEnd 1, Event.leave 1 false]).foldl next emptyGame) := by
    refine .move trivial rfl (.move trivial rfl (.move trivial rfl (.move trivial rfl
      (.move trivial rfl (.move trivial rfl (.move ?_ rfl (.stop _)))))))
    intro hsel
    cases hsel
  exact questSel_owned emptyGame_created hrun

/-- The one who has asked for the list leaves with the list open. -/
theorem questSel_not_owned :
    ¬ ∀ (t : SelectingTeam), Created t → ∀ es : List Event, Owned (es.foldl next t) := by
  intro h
  obtain ⟨d, hplace, hopen⟩ := h emptyGame emptyGame_created (browsing ++ [Event.leave 1 false]) rfl rfl
  have hnobody : ((browsing ++ [Event.leave 1 false]).foldl next emptyGame).listOpen d = false := by
    change Function.update (Function.update (Function.update (Function.update
      (fun _ => false) 0 false) 1 false) 1 true) 1 false d = false
    by_cases hd : d = 1
    · rw [hd, Function.update_self]
    · simp only [Function.update_idem, Function.update_of_ne hd]
      by_cases hd₀ : d = 0
      · rw [hd₀, Function.update_self]
      · rw [Function.update_of_ne hd₀]
  rw [hnobody] at hopen
  cases hopen

end ShipServer.QuestSelection
