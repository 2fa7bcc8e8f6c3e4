import ShipServer.BlockPackets
import ShipServer.LobbyRefinement

set_option autoImplicit false

namespace ShipServer.BlockEffects

open Versions LobbyRooms LobbyState LobbyFunctions DeferredPackets BlockPackets LobbyRefinement

/-- A block whose rooms, queues and history are those of another. -/
def SameBlock (b b' : Block) : Prop :=
  b'.rooms = b.rooms ∧ b'.ledger = b.ledger

theorem setAccount_same (b : Block) (c : ClientId) (f : Account → Account) :
    SameBlock b (setAccount b c f) :=
  ⟨b.rooms_modClient_same rfl, rfl⟩

theorem SameBlock.trans {b b' b'' : Block} (h : SameBlock b b') (h' : SameBlock b' b'') :
    SameBlock b b'' :=
  ⟨h'.1.trans h.1, h'.2.trans h.2⟩

theorem SameBlock.sound {b b' : Block} (h : SameBlock b b') (hb : BlockSound b) :
    BlockSound b' := by
  refine ⟨?_, ?_⟩
  · rw [h.1]
    exact hb.rooms
  · rw [h.2]
    exact hb.sane

/-- The outcome of `lobby_change_lobby` for the client that a new game was made for: if it does
not get in, the game is destroyed. -/
def EnterNew (accepted : Prop) (r : Rooms) (m : Ledger) (c : ClientId) (l : LobbyHandle)
    (r' : Rooms) (m' : Ledger) : Prop :=
  ∃ rv r₁ m₁, Enter accepted r m c l rv r₁ m₁ ∧ r' = (if rv = 0 then r₁ else r₁.unlist l) ∧
    m' = if rv = 0 then m₁ else m₁.clear l

/-- Neither the guildcard protection nor `lobby_change_lobby` refuses the client. -/
def JoinAccepted (b : Block) (env : Env) (c : ClientId) (l : LobbyHandle) : Prop :=
  (b.client c).account.gcProtect = false ∧ ChangeAccepted b env c l

theorem joinGame_enter {b : Block} (hb : b.rooms.Sound) (env : Env) (c : ClientId)
    (l : LobbyHandle) :
    Enter (JoinAccepted b env c l) b.rooms b.ledger c l (joinGame b env c l).2
      (joinGame b env c l).1.rooms (joinGame b env c l).1.ledger := by
  rw [joinGame]
  by_cases hprotect : (b.client c).account.gcProtect = true
  · rw [if_pos hprotect]
    exact .refused (show (-1 : ℤ) < 0 by decide)
  · rw [if_neg hprotect]
    have henter := (lobbyChangeLobby_enter hb env c l).mono
      (fun hok => (⟨Bool.eq_false_iff.mpr hprotect, hok⟩ : JoinAccepted b env c l))
    generalize lobbyChangeLobby b env c l = t at *
    dsimp only
    by_cases hrv : t.2 < 0 ∧ t.2 ≠ -15
    · rw [if_pos hrv]
      exact henter
    · rw [if_neg hrv]
      obtain ⟨hrooms, hledger⟩ := setAccount_same t.1 c (fun a => { a with legit := false })
      rw [hrooms, hledger]
      exact henter

/-- The end of the handlers that make a game: who cannot join it loses it. -/
theorem joinMade_enterNew {b : Block} (hb : b.rooms.Sound) (env : Env) (c : ClientId)
    (l : LobbyHandle) :
    EnterNew (JoinAccepted b env c l) b.rooms b.ledger c l (joinMade env c (b, .ok l)).1.rooms
      (joinMade env c (b, .ok l)).1.ledger := by
  have henter := joinGame_enter hb env c l
  rw [joinMade]
  generalize joinGame b env c l = t at *
  refine ⟨t.2, _, _, henter, ?_, ?_⟩
  · dsimp only
    split_ifs
    · rfl
    · exact lobbyDestroyLocked_rooms t.1 l
  · dsimp only
    split_ifs
    · rfl
    · exact lobbyDestroyLocked_ledger t.1 l

/-- A password that a client gives for a lobby. -/
def Ledger.submit (m : Ledger) (c : ClientId) (l : LobbyHandle) (passwd : List UInt8) : Ledger :=
  { m with submitted :=
      Function.update m.submitted c (Function.update (m.submitted c) l (some passwd)) }

/-- The room of a game that has just been made. -/
structure NewRoom (m : Room) : Prop where
  sound : m.Sound
  empty : m.clients = fun _ => none
  calm : m.bursting = false
  isGame : m.type ≠ .lobby
  small : m.maxClients ≤ 12

theorem takeId_same (b : Block) (id : ℕ) : SameBlock b (takeId b id) :=
  ⟨rfl, rfl⟩

theorem stealLimits_same (b : Block) (c : ClientId) : SameBlock b (stealLimits b c) := by
  rw [stealLimits]
  split_ifs
  · exact setAccount_same b c _
  · exact ⟨rfl, rfl⟩

theorem addLobby_rooms (b : Block) (c : ClientId) (l : Lobby) :
    (addLobby b c l).rooms = b.rooms.addRoom l.toRoom := by
  have hroom : (fun k => (Function.update b.lobby b.nextLobby l k).toRoom) =
      Function.update (fun k => (b.lobby k).toRoom) b.nextLobby l.toRoom := by
    funext k
    by_cases hk : k = b.nextLobby
    · subst hk
      simp
    · simp [hk]
  simp only [addLobby, Block.rooms, hroom]
  rfl

theorem addLobby_ledger (b : Block) (c : ClientId) {l : Lobby} (hl : l.pktQueue = []) :
    (addLobby b c l).ledger =
      (Ledger.submit b.ledger c b.nextLobby l.passwd).clear b.nextLobby := by
  have hqueue : (fun k => (Function.update b.lobby b.nextLobby l k).pktQueue) =
      Function.update (fun k => (b.lobby k).pktQueue) b.nextLobby [] := by
    funext k
    by_cases hk : k = b.nextLobby
    · subst hk
      simp [hl]
    · simp [hk]
  simp only [addLobby, Block.ledger, hqueue]
  rfl

theorem newGame_newRoom {a : GameArgs} (ha : a.singlePlayer = true → a.version = .bb) (id : ℕ)
    (legit : Bool) : NewRoom (newGame a id legit).toRoom where
  sound := by
    refine ⟨?_, ?_, ?_⟩
    · simp [newGame, Lobby.zero, headcount]
    · rintro i c ⟨⟩
    · intro _ hlt
      cases hsingle : a.singlePlayer with
      | false =>
        change 1 < if a.singlePlayer then 1 else 4
        rw [hsingle]
        decide
      | true =>
        have hplatform : a.platform = .bb := by
          rw [GameArgs.platform, ha hsingle]
          rfl
        have hversion : (newGame a id legit).version = .bb := by
          simp [newGame, hplatform]
        rw [hversion] at hlt
        exact absurd hlt (by decide)
  empty := rfl
  calm := rfl
  isGame := by
    intro htype
    cases htype
  small := by
    change (if a.singlePlayer then 1 else 4) ≤ 12
    split_ifs <;> decide

theorem newEp3Game_newRoom (passwd : List UInt8) (id : ℕ) :
    NewRoom (newEp3Game passwd id).toRoom where
  sound := by
    refine ⟨?_, ?_, ?_⟩
    · simp [newEp3Game, Lobby.zero, headcount]
    · rintro i c ⟨⟩
    · intro htype
      cases htype
  empty := rfl
  calm := rfl
  isGame := by
    intro htype
    cases htype
  small := by
    change 4 ≤ 12
    decide

/-- A block on which a game has been made, whose room is `m`. -/
structure Made (b : Block) (c : ClientId) (m : Room) (listed : Bool) (b' : Block) : Prop where
  newRoom : NewRoom m
  rooms : b'.rooms =
    if listed then (b.rooms.addRoom m).list b.rooms.nextLobby else b.rooms.addRoom m
  ledger : b'.ledger = (Ledger.submit b.ledger c b.rooms.nextLobby m.passwd).clear
    b.rooms.nextLobby

theorem addLobby_made {b b₀ : Block} {c : ClientId} {l : Lobby} (listed : Prop)
    [Decidable listed] (hsame : SameBlock b b₀) (hl : NewRoom l.toRoom)
    (hqueue : l.pktQueue = []) :
    Made b c l.toRoom (decide listed)
      (if listed then listLobby (addLobby b₀ c l) b₀.nextLobby else addLobby b₀ c l) := by
  have hnext : b₀.nextLobby = b.rooms.nextLobby := by
    rw [← hsame.1]
    rfl
  have hrooms := addLobby_rooms b₀ c l
  have hledger := addLobby_ledger b₀ c hqueue
  rw [hsame.1] at hrooms
  rw [hsame.2, hnext] at hledger
  have hlist : ∀ h, (listLobby (addLobby b₀ c l) h).rooms = (addLobby b₀ c l).rooms.list h :=
    fun _ => rfl
  refine ⟨hl, ?_, ?_⟩
  · by_cases hlisted : listed
    · rw [if_pos hlisted, if_pos (decide_eq_true hlisted), hlist, hrooms, hnext]
    · rw [if_neg hlisted, if_neg (by simp [hlisted]), hrooms]
  · split_ifs
    · exact hledger
    · exact hledger

theorem makeGame_cases (b : Block) (env : Env) (c : ClientId) {a : GameArgs}
    (ha : a.singlePlayer = true → a.version = .bb) :
    (∃ rv b', makeGame b env c a = (b', .error rv) ∧ SameBlock b b') ∨
    ∃ b' id legit, makeGame b env c a = (b', .ok b.rooms.nextLobby) ∧
      Made b c (newGame a id legit).toRoom (decide (ListedAtOnce (b.client c).account a)) b' := by
  simp only [makeGame, lobbyCreateGame]
  generalize unusedId b _ _ b.nextId = id
  have hsame := (takeId_same b id).trans (stealLimits_same (takeId b id) c)
  generalize stealLimits (takeId b id) c = b₀ at *
  by_cases hloaded : env.enemiesLoaded = false
  · left
    rw [if_pos hloaded]
    exact ⟨0, b₀, rfl, hsame⟩
  · right
    rw [if_neg hloaded]
    have hnext : b₀.nextLobby = b.rooms.nextLobby := by
      rw [← hsame.1]
      rfl
    generalize ((b.client c).account.legit && (b.client c).account.limits) = legit
    have hmade := addLobby_made (c := c) (ListedAtOnce (b.client c).account a) hsame
      (newGame_newRoom ha id legit) rfl
    rw [← hnext]
    exact ⟨_, id, legit, rfl, hmade⟩

/-- What the game creation handlers do up to the call of `join_game`: nothing, a game that is on
the list, or a game that waits for its type. -/
inductive Creation (b : Block) (c : ClientId) : Block × Except Int LobbyHandle → Prop where
  | refused {rv : Int} {b' : Block} (same : SameBlock b b') : Creation b c (b', .error rv)
  | listed {m : Room} {b' : Block} (made : Made b c m true b') :
      Creation b c (b', .ok b.rooms.nextLobby)
  | pending {m : Room} {rv : Int} {b₁ b' : Block} (made : Made b c m false b₁)
      (large : 1 < m.maxClients)
      (rooms : b'.rooms = b₁.rooms.setPresence c
        { b₁.rooms.presence c with createLobby := some b.rooms.nextLobby })
      (ledger : b'.ledger = b₁.ledger) : Creation b c (b', .error rv)

/-- Only PC games wait for their type. -/
theorem makeGame_creation (b : Block) (env : Env) (c : ClientId) {a : GameArgs}
    (ha : a.singlePlayer = true → a.version = .bb) (hlisted : ListedAtOnce (b.client c).account a) :
    Creation b c (makeGame b env c a) := by
  rcases makeGame_cases b env c ha with ⟨rv, b', heq, hsame⟩ | ⟨b', id, legit, heq, hmade⟩
  · rw [heq]
    exact .refused hsame
  · rw [heq]
    rw [decide_eq_true hlisted] at hmade
    exact .listed hmade

theorem listedAtOnce_of_version {x : Account} {a : GameArgs} (h : a.version ≠ .pc) :
    ListedAtOnce x a := by
  left
  rw [GameArgs.platform]
  split_ifs
  · decide
  · exact h

theorem SameBlock.refl (b : Block) : SameBlock b b :=
  ⟨rfl, rfl⟩

theorem dcnteProcessGameCreate_creation {b : Block} (env : Env) {c : ClientId} (pkt : CreatePkt)
    (hversion : (b.client c).account.version ≠ .pc) :
    Creation b c (dcnteProcessGameCreate b env c pkt) := by
  rw [dcnteProcessGameCreate]
  split_ifs
  · exact .refused (.refl b)
  · exact makeGame_creation b env c (fun h => nomatch h) (listedAtOnce_of_version hversion)

theorem dcProcessGameCreate_creation {b : Block} (env : Env) {c : ClientId} (pkt : CreatePkt)
    (hversion : (b.client c).account.version ≠ .pc) :
    Creation b c (dcProcessGameCreate b env c pkt) := by
  rw [dcProcessGameCreate]
  split_ifs
  · exact .refused (.refl b)
  · exact .refused (.refl b)
  · exact makeGame_creation b env c (fun h => nomatch h) (listedAtOnce_of_version hversion)

theorem gcProcessGameCreate_creation {b : Block} (env : Env) {c : ClientId} (pkt : CreatePkt)
    (hversion : (b.client c).account.version ≠ .pc) :
    Creation b c (gcProcessGameCreate b env c pkt) := by
  rw [gcProcessGameCreate]
  split_ifs
  · exact .refused (.refl b)
  · exact .refused (.refl b)
  · exact makeGame_creation b env c (fun h => nomatch h) (listedAtOnce_of_version hversion)

/-- Only Blue Burst makes games for one player, which have no slot 1. -/
theorem bbProcessGameCreate_creation {b : Block} (env : Env) {c : ClientId} (pkt : CreatePkt)
    (hversion : (b.client c).account.version = .bb) :
    Creation b c (bbProcessGameCreate b env c pkt) := by
  rw [bbProcessGameCreate]
  split_ifs
  · exact .refused (.refl b)
  · exact .refused (.refl b)
  · exact .refused (.refl b)
  · refine makeGame_creation b env c (fun _ => hversion) (listedAtOnce_of_version ?_)
    simp [hversion]

/-- A PC game is put on the list right away unless the client is asked for its type. -/
theorem listedAtOnce_pc {x : Account} (pkt : CreatePkt) (hversion : x.version = .pc) :
    ListedAtOnce x (GameArgs.mk pkt.passwd pkt.difficulty pkt.battle pkt.challenge true
      x.version 0 false) ↔ ¬ AsksGameType x pkt := by
  rw [ListedAtOnce, AsksGameType, GameArgs.platform, hversion]
  grind

theorem pcProcessGameCreate_creation {b : Block} (env : Env) {c : ClientId} (pkt : CreatePkt)
    (hversion : (b.client c).account.version = .pc) :
    Creation b c (pcProcessGameCreate b env c pkt) := by
  rw [pcProcessGameCreate]
  by_cases hchar : (b.client c).gotChar = false
  · rw [if_pos hchar]
    exact .refused (.refl b)
  rw [if_neg hchar]
  by_cases hlow : tooLow (b.client c) pkt.difficulty = true
  · rw [if_pos hlow]
    exact .refused (.refl b)
  rw [if_neg hlow]
  generalize hargs : GameArgs.mk pkt.passwd pkt.difficulty pkt.battle pkt.challenge true
    (b.client c).account.version 0 false = args
  have hsingle : args.singlePlayer = false := by rw [← hargs]
  have hlisted : ListedAtOnce (b.client c).account args ↔
      ¬ AsksGameType (b.client c).account pkt := by
    rw [← hargs]
    exact listedAtOnce_pc pkt hversion
  rcases makeGame_cases b env c (a := args) (fun h => by simp [hsingle] at h) with
    ⟨rv, b', heq, hsame⟩ | ⟨b', id, legit, heq, hmade⟩
  · rw [heq]
    exact .refused hsame
  · rw [heq]
    dsimp only
    by_cases hasks : AsksGameType (b.client c).account pkt
    · have hunlisted : ¬ ListedAtOnce (b.client c).account args := fun h => hlisted.mp h hasks
      rw [decide_eq_false hunlisted] at hmade
      rw [if_pos hasks]
      refine .pending hmade ?_ ?_ rfl
      · change 1 < if args.singlePlayer then 1 else 4
        rw [hsingle]
        decide
      · rw [Block.rooms_modClient]
        rfl
    · rw [decide_eq_true (hlisted.mpr hasks)] at hmade
      rw [if_neg hasks]
      exact .listed hmade

theorem gameCreate_creation (b : Block) (env : Env) (c : ClientId) (pkt : CreatePkt) :
    Creation b c (gameCreate b env c pkt) := by
  rw [gameCreate]
  split
  · exact bbProcessGameCreate_creation env pkt (by assumption)
  · refine dcnteProcessGameCreate_creation env pkt ?_
    simp [*]
  · exact pcProcessGameCreate_creation env pkt (by assumption)
  · refine gcProcessGameCreate_creation env pkt ?_
    simp [*]
  · refine gcProcessGameCreate_creation env pkt ?_
    simp [*]
  · refine dcProcessGameCreate_creation env pkt ?_
    simp [*]
  · refine dcProcessGameCreate_creation env pkt ?_
    simp [*]
  · refine dcProcessGameCreate_creation env pkt ?_
    simp [*]

theorem ep3ProcessGameCreate_creation (b : Block) (c : ClientId) (passwd : List UInt8) :
    Creation b c (ep3ProcessGameCreate b c passwd) := by
  rw [ep3ProcessGameCreate]
  split_ifs
  · exact .refused (.refl b)
  · exact .refused (.refl b)
  · have hmade := addLobby_made (c := c) True (.refl b)
      (newEp3Game_newRoom passwd (unusedId b (· + 1) (b.lobbies.length + 1) 0x21)) rfl
    rw [decide_eq_true trivial, if_pos trivial] at hmade
    exact .listed hmade

theorem joinRequest_eq_some {c c' : ClientId} {t : Block × Except Int LobbyHandle} {b : Block}
    {l : LobbyHandle} (h : joinRequest c t = some (b, c', l)) : c' = c := by
  obtain ⟨b₀, r⟩ := t
  cases r with
  | error rv => cases h
  | ok l₀ =>
    rw [joinRequest] at h
    split_ifs at h
    cases h
    rfl

/-- The call of `lobby_change_lobby` that an event leads to, where nothing refuses it. -/
def Granted (b : Block) (e : Event) (b₁ : Block) (c : ClientId) (l : LobbyHandle) : Prop :=
  changeRequest b e = some (b₁, c, l) ∧ ChangeAccepted b₁ e.env c l

theorem JoinAccepted.granted {b b₁ : Block} {e : Event} {c : ClientId} {l : LobbyHandle}
    (h : JoinAccepted b₁ e.env c l) (hrequest : changeRequest b e = joinRequest c (b₁, .ok l)) :
    Granted b e b₁ c l := by
  refine ⟨?_, h.2⟩
  rw [hrequest, joinRequest, h.1]
  rfl

/-- The packets that end the burst of a lobby and have its queue drained. -/
inductive DoneBurst (b : Block) (e : Event) (c : ClientId) (h : LobbyHandle) : Prop where
  | packet (action : e.action = .doneBurst c) (cur : (b.client c).curLobby = some h)
      (game : (b.lobby h).type ≠ .lobby) (ready : (b.client c).gotChar = true)
      (quiet : (b.lobby h).settings.questing = false)
  | ping (action : e.action = .ping c) (cur : (b.client c).curLobby = some h)
      (older : (b.client c).account.version ≠ .bb) (goOn : (pingLegitCheck b e.env c).2 = true)
      (waited : (b.client c).waitQping = true)

/-- A trial edition packet that opens a game again. -/
structure FinishesLoad (b : Block) (e : Event) (c : ClientId) (h : LobbyHandle) : Prop where
  action : ∃ p, e.action = .gamePkt c p ∧ FinishLoad p
  trial : IsDcnte (b.client c)
  cur : (b.client c).curLobby = some h
  game : (b.lobby h).type ≠ .lobby

/-- The events that take a client off the block, by `lobby_remove_player`. -/
inductive Leaves (b : Block) (e : Event) (c : ClientId) : Prop where
  | disconnected (action : e.action = .disconnect c)
  | leftGame {pl : PlayerData} (action : e.action = .charData c true pl)
      (level : (b.client c).account.version = .bb ∨ pl.level ≤ 199)

/-- All that an event can do to the rooms, the queues and the history of a block. -/
inductive Effect (b : Block) (e : Event) : Rooms → Ledger → Prop where
  | quiet : Effect b e b.rooms b.ledger
  | repassworded {c : ClientId} {h : LobbyHandle} (passwd : List UInt8)
      (cur : (b.rooms.presence c).curLobby = some h) (game : (b.rooms.room h).type ≠ .lobby) :
      Effect b e (b.rooms.setRoom h { b.rooms.room h with passwd := passwd }) b.ledger
  | lounged {c : ClientId} {r' : Rooms} (nowhere : (b.rooms.presence c).curLobby = none)
      (arrived : Lounged b.rooms c r') : Effect b e r' b.ledger
  | removed {c : ClientId} {b₁ : Block} (leaves : Leaves b e c) (same : SameBlock b b₁) :
      Effect b e (lobbyRemovePlayer b₁ e.env c).1.rooms (lobbyRemovePlayer b₁ e.env c).1.ledger
  | disconnected {c : ClientId} {m' : Ledger} (leaves : Leaves b e c)
      (ledger : m' = (lobbyRemovePlayer b e.env c).1.ledger ∨
        ∃ l, (b.rooms.presence c).createLobby = some l ∧
          m' = (lobbyRemovePlayer b e.env c).1.ledger.clear l) :
      Effect b e ((lobbyRemovePlayer b e.env c).1.rooms.setPresence c
        ShipClient.fresh.toPresence) m'
  | changed {c : ClientId} {req : LobbyHandle} {rv : Int} {r' : Rooms} {m' : Ledger}
      (action : ∃ itemId, e.action = .changeLobby c itemId) (listed : req ∈ b.rooms.lobbies)
      (enter : Enter (Granted b e b c req) b.rooms b.ledger c req rv r' m') : Effect b e r' m'
  | submitted {c : ClientId} {l : LobbyHandle} (passwd : List UInt8)
      (listed : l ∈ b.rooms.lobbies) : Effect b e b.rooms (Ledger.submit b.ledger c l passwd)
  | selected {c : ClientId} {l : LobbyHandle} {passwd : List UInt8} {rv : Int} {r' : Rooms}
      {m' : Ledger} (listed : l ∈ b.rooms.lobbies)
      (right : (b.client c).overrideGame = true ∨ (b.rooms.room l).passwd = [] ∨
        passwd = (b.rooms.room l).passwd)
      (enter : Enter (Granted b e (submit b c l passwd) c l) b.rooms
        (Ledger.submit b.ledger c l passwd) c l rv r' m') : Effect b e r' m'
  | created {c : ClientId} {m : Room} {b₁ : Block} {r' : Rooms} {m' : Ledger}
      (made : Made b c m true b₁)
      (enter : EnterNew (Granted b e b₁ c b.rooms.nextLobby) b₁.rooms b₁.ledger c
        b.rooms.nextLobby r' m') : Effect b e r' m'
  | waiting {c : ClientId} {m : Room} {b₁ : Block} (made : Made b c m false b₁)
      (large : 1 < m.maxClients) :
      Effect b e (b₁.rooms.setPresence c
        { b₁.rooms.presence c with createLobby := some b.rooms.nextLobby }) b₁.ledger
  | typed {c : ClientId} {l : LobbyHandle} {v : ClientVersion} {b₁ : Block} {r' : Rooms}
      {m' : Ledger} (pending : (b.rooms.presence c).createLobby = some l)
      (version : v = (b.rooms.room l).version ∨ v = .dcv1)
      (rooms : b₁.rooms = ((b.rooms.setRoom l { b.rooms.room l with version := v }).list
        l).setPresence c { b.rooms.presence c with createLobby := none })
      (ledger : b₁.ledger = b.ledger)
      (enter : EnterNew (Granted b e b₁ c l) b₁.rooms b₁.ledger c l r' m') : Effect b e r' m'
  | burstEnded {c : ClientId} {h : LobbyHandle} {b₁ : Block} (ends : DoneBurst b e c h)
      (rooms : b₁.rooms = b.rooms.endBurst c h) (ledger : b₁.ledger = b.ledger) :
      Effect b e (lobbyHandleDoneBurst b₁ e.env h).1.rooms
        (lobbyHandleDoneBurst b₁ e.env h).1.ledger
  | loaded {c : ClientId} {h : LobbyHandle} (ends : FinishesLoad b e c h) :
      Effect b e (b.rooms.endBurst c h) b.ledger
  | sent {c : ClientId} {p : GamePkt} {m' : Ledger} (plain : ¬ FinishLoad p)
      (queued : Queued b.rooms b.ledger c p m') : Effect b e b.rooms m'

theorem blockGetLobby_mem {b : Block} {id : ℕ} {l : LobbyHandle}
    (h : blockGetLobby b id = some l) : l ∈ b.rooms.lobbies :=
  List.mem_of_find?_eq_some h

theorem SameBlock.effect {b b' : Block} {e : Event} (h : SameBlock b b') :
    Effect b e b'.rooms b'.ledger := by
  rw [h.1, h.2]
  exact .quiet

theorem lobbyDestroyNoremove_rooms (b : Block) (h : LobbyHandle) :
    (lobbyDestroyNoremove b h).rooms = b.rooms := by
  rw [lobbyDestroyNoremove, Block.rooms_modLobby_same]
  rfl

theorem lobbyDestroyNoremove_ledger (b : Block) (h : LobbyHandle) :
    (lobbyDestroyNoremove b h).ledger = b.ledger.clear h := by
  rw [lobbyDestroyNoremove, Block.ledger_modLobby]
  rfl

theorem disconnect_effect {b : Block} (hb : BlockSound b) {e : Event} {c : ClientId}
    (haction : e.action = .disconnect c) :
    Effect b e (disconnect b e.env c).rooms (disconnect b e.env c).ledger := by
  have hpending := lobbyRemovePlayer_createLobby hb e.env c c
  rw [disconnect]
  cases hcreate : ((lobbyRemovePlayer b e.env c).1.client c).createLobby with
  | none =>
    rw [Block.rooms_modClient, Block.ledger_modClient]
    exact .disconnected (.disconnected haction) (Or.inl rfl)
  | some l =>
    rw [Block.rooms_modClient, Block.ledger_modClient, lobbyDestroyNoremove_rooms,
      lobbyDestroyNoremove_ledger]
    exact .disconnected (.disconnected haction) (Or.inr ⟨l, hpending.symm.trans hcreate, rfl⟩)

/-- The end of the character data handlers changes nothing or puts the client into a lobby. -/
theorem arriveWithChar_cases {b : Block} (hb : b.rooms.Sound) (env : Env) (c : ClientId) :
    SameBlock b (arriveWithChar b env c).1 ∨
    ((b.rooms.presence c).curLobby = none ∧ Lounged b.rooms c (arriveWithChar b env c).1.rooms ∧
      (arriveWithChar b env c).1.ledger = b.ledger) := by
  have hgot : ∀ b' : Block, SameBlock b' (b'.modClient c (fun x => { x with gotChar := true })) :=
    fun b' => ⟨b'.rooms_modClient_same rfl, rfl⟩
  rw [arriveWithChar]
  cases hcur : (b.client c).curLobby with
  | some l =>
    left
    exact hgot b
  | none =>
    have hledger := lobbyAddToAny_ledger b env.now c (b.client c).lobbyReq
    dsimp only
    rcases lobbyAddToAny_attempted hb env.now c (b.client c).lobbyReq with
      ⟨hrv, hsame⟩ | ⟨hrv, hlounged⟩
    · left
      rw [if_pos hrv]
      exact ⟨hsame, hledger⟩
    · right
      refine ⟨hcur, ?_⟩
      generalize lobbyAddToAny b env.now c (b.client c).lobbyReq = t at *
      obtain ⟨hrooms, hledger'⟩ := hgot t.1
      split_ifs
      · exact ⟨hlounged, hledger⟩
      · exact ⟨hlounged, hledger⟩
      · exact ⟨hlounged, hledger⟩
      · rw [hrooms, hledger']
        exact ⟨hlounged, hledger⟩

theorem arriveWithChar_effect {b b₁ : Block} (hb : b.rooms.Sound) (hsame : SameBlock b b₁)
    (e : Event) (c : ClientId) :
    Effect b e (arriveWithChar b₁ e.env c).1.rooms (arriveWithChar b₁ e.env c).1.ledger := by
  rw [← hsame.1] at hb
  rcases arriveWithChar_cases hb e.env c with hquiet | ⟨hcur, hlounged, hledger⟩
  · exact (hsame.trans hquiet).effect
  · rw [hsame.1] at hcur hlounged
    rw [hledger, hsame.2]
    exact .lounged hcur hlounged

theorem charData_effect {b : Block} (hb : b.rooms.Sound) {e : Event} {c : ClientId}
    {leaveGame : Bool} {pl : PlayerData} (haction : e.action = .charData c leaveGame pl) :
    Effect b e (next b e).rooms (next b e).ledger := by
  have hset := setAccount_same b c (fun a => { a with player := pl })
  rw [next, haction]
  dsimp only
  by_cases hbb : (b.client c).account.version = .bb
  · rw [if_pos hbb, bbProcessChar]
    cases leaveGame with
    | true => exact .removed (.leftGame haction (Or.inl hbb)) hset
    | false => exact arriveWithChar_effect hb hset e c
  · rw [if_neg hbb, dcProcessChar]
    by_cases hlevel : 199 < pl.level
    · rw [if_pos hlevel]
      exact .quiet
    · rw [if_neg hlevel]
      cases leaveGame with
      | true =>
        exact .removed (.leftGame haction (Or.inr (not_lt.mp hlevel)))
          (hset.trans (setAccount_same _ c _))
      | false => exact arriveWithChar_effect hb hset e c

theorem changeLobby_effect {b : Block} (hb : b.rooms.Sound) {e : Event} {c : ClientId}
    {itemId : ℕ} (haction : e.action = .changeLobby c itemId) :
    Effect b e (processChangeLobby b e.env c itemId).1.rooms
      (processChangeLobby b e.env c itemId).1.ledger := by
  rw [processChangeLobby]
  by_cases hprotect : (b.client c).account.gcProtect = true
  · rw [if_pos hprotect]
    exact .quiet
  · rw [if_neg hprotect]
    cases hreq : blockGetLobby b itemId with
    | none => exact .quiet
    | some req =>
      refine .changed ⟨itemId, haction⟩ (blockGetLobby_mem hreq)
        ((lobbyChangeLobby_enter hb e.env c req).mono fun hok => ?_)
      refine JoinAccepted.granted ⟨Bool.eq_false_iff.mpr hprotect, hok⟩ ?_
      rw [changeRequest, haction]
      dsimp only
      rw [hreq]
      rfl

/-- The choice of a game in a menu: the password that the client gives goes on record. -/
theorem processMenuGame_cases (b : Block) (env : Env) (c : ClientId) (itemId : ℕ)
    (passwd : List UInt8) :
    (∃ rv, processMenuGame b env c itemId passwd = (b, .error rv)) ∨
    ∃ l cmp, l ∈ b.rooms.lobbies ∧
      ((∃ rv, processMenuGame b env c itemId passwd = (submit b c l cmp, .error rv)) ∨
        processMenuGame b env c itemId passwd = (submit b c l cmp, .ok l) ∧
          ((b.client c).overrideGame = true ∨ (b.rooms.room l).passwd = [] ∨
            cmp = (b.rooms.room l).passwd)) := by
  rw [processMenuGame]
  split_ifs
  · exact Or.inl ⟨-1, rfl⟩
  · cases passwdCmp env (b.client c) passwd with
    | none => exact Or.inl ⟨-1, rfl⟩
    | some cmp =>
      dsimp only
      cases hl : blockGetLobby b itemId with
      | none => exact Or.inl ⟨0, rfl⟩
      | some l =>
        right
        refine ⟨l, cmp, blockGetLobby_mem hl, ?_⟩
        dsimp only
        split_ifs with hwrong
        · exact Or.inl ⟨0, rfl⟩
        · right
          refine ⟨rfl, ?_⟩
          by_contra hnone
          rw [not_or, not_or] at hnone
          exact hwrong ⟨Bool.eq_false_iff.mpr hnone.1, hnone.2⟩

theorem menuGame_effect {b : Block} (hb : b.rooms.Sound) {e : Event} {c : ClientId} {itemId : ℕ}
    {passwd : List UInt8} (haction : e.action = .menuGame c itemId passwd) :
    Effect b e (joinSelected e.env c (processMenuGame b e.env c itemId passwd)).1.rooms
      (joinSelected e.env c (processMenuGame b e.env c itemId passwd)).1.ledger := by
  rcases processMenuGame_cases b e.env c itemId passwd with
    ⟨rv, heq⟩ | ⟨l, cmp, hlisted, ⟨rv, heq⟩ | ⟨heq, hright⟩⟩
  · rw [heq]
    exact .quiet
  · rw [heq]
    exact .submitted cmp hlisted
  · rw [heq]
    have hrequest : changeRequest b e = joinRequest c (submit b c l cmp, .ok l) := by
      rw [changeRequest, haction, ← heq]
    have henter := (joinGame_enter (b := submit b c l cmp) hb e.env c l).mono
      (fun hok => hok.granted hrequest)
    exact .selected hlisted hright henter

/-- The end of the game creation handlers. -/
theorem Creation.effect {b : Block} (hb : b.rooms.Sound) {e : Event} {c : ClientId}
    {t : Block × Except Int LobbyHandle} (h : Creation b c t)
    (hrequest : changeRequest b e = joinRequest c t) :
    Effect b e (joinMade e.env c t).1.rooms (joinMade e.env c t).1.ledger := by
  cases h with
  | refused same => exact same.effect
  | @listed m b₁ made =>
    have hb₁ : b₁.rooms.Sound := by
      rw [made.rooms, if_pos rfl]
      exact (hb.addRoom made.newRoom.sound made.newRoom.empty).list _
    obtain ⟨rv, r₁, m₁, henter, hr', hm'⟩ := joinMade_enterNew hb₁ e.env c b.rooms.nextLobby
    exact .created made ⟨rv, r₁, m₁, henter.mono fun hok => hok.granted hrequest, hr', hm'⟩
  | @pending m rv b₁ b' made large rooms ledger =>
    rw [joinMade, rooms, ledger]
    exact .waiting made large

/-- Compatibility with version 1 is all that the type of a game changes about its room. -/
theorem setGameType_room (itemId : ℕ) (l : Lobby) :
    ∃ v, (v = l.version ∨ v = .dcv1) ∧
      (setGameType itemId l).toRoom = { l.toRoom with version := v } := by
  rw [setGameType]
  split_ifs
  · exact ⟨.dcv1, Or.inr rfl, rfl⟩
  · exact ⟨l.version, Or.inl rfl, rfl⟩
  · exact ⟨l.version, Or.inl rfl, rfl⟩

theorem setGameType_pktQueue (itemId : ℕ) (l : Lobby) :
    (setGameType itemId l).pktQueue = l.pktQueue := by
  rw [setGameType]
  split_ifs <;> rfl

/-- The game whose type a client chooses goes on the list, and no longer waits. -/
theorem processGameType_cases (b : Block) (c : ClientId) (itemId : ℕ) :
    (∃ rv, processGameType b c itemId = (b, .error rv)) ∨
    ∃ l v b₁, processGameType b c itemId = (b₁, .ok l) ∧
      (b.rooms.presence c).createLobby = some l ∧
      (v = (b.rooms.room l).version ∨ v = .dcv1) ∧
      b₁.rooms = ((b.rooms.setRoom l { b.rooms.room l with version := v }).list l).setPresence c
        { b.rooms.presence c with createLobby := none } ∧
      b₁.ledger = b.ledger := by
  rw [processGameType]
  split_ifs
  · exact Or.inl ⟨-1, rfl⟩
  · cases hcreate : (b.client c).createLobby with
    | none => exact Or.inl ⟨0, rfl⟩
    | some l =>
      right
      obtain ⟨v, hv, hroom⟩ := setGameType_room itemId (b.lobby l)
      have hrooms := b.rooms_modLobby l (setGameType itemId)
      rw [hroom] at hrooms
      refine ⟨l, v, _, rfl, hcreate, hv, ?_, ?_⟩
      · have hlist : (listLobby (b.modLobby l (setGameType itemId)) l).rooms =
            (b.modLobby l (setGameType itemId)).rooms.list l := rfl
        rw [Block.rooms_modClient, hlist, hrooms]
        rfl
      · rw [Block.ledger_modClient]
        exact b.ledger_modLobby_same (setGameType_pktQueue itemId _)

/-- A pending game is large enough for either version. -/
theorem sound_typed {r : Rooms} (hr : r.Sound) {c : ClientId} {l : LobbyHandle}
    {v : ClientVersion} (hcreate : (r.presence c).createLobby = some l) :
    (((r.setRoom l { r.room l with version := v }).list l).setPresence c
      { r.presence c with createLobby := none }).Sound := by
  have hroom := hr.room l
  have hsound : ({ r.room l with version := v } : Room).Sound :=
    ⟨hroom.count, hroom.below, fun _ _ => hr.limits.pending c l hcreate⟩
  have hlisted := (hr.setRoom hsound rfl rfl).list l
  exact hlisted.setPresence rfl (fun _ hnone => nomatch hnone)

theorem gameType_effect {b : Block} (hb : b.rooms.Sound) {e : Event} {c : ClientId}
    {itemId : ℕ} (haction : e.action = .gameType c itemId) :
    Effect b e (joinMade e.env c (processGameType b c itemId)).1.rooms
      (joinMade e.env c (processGameType b c itemId)).1.ledger := by
  have hrequest : changeRequest b e = joinRequest c (processGameType b c itemId) := by
    rw [changeRequest, haction]
  rcases processGameType_cases b c itemId with
    ⟨rv, heq⟩ | ⟨l, v, b₁, heq, hcreate, hv, hrooms, hledger⟩
  · rw [heq]
    exact .quiet
  · rw [heq] at hrequest ⊢
    have hb₁ : b₁.rooms.Sound := by
      rw [hrooms]
      exact sound_typed hb hcreate
    obtain ⟨rv, r₁, m₁, henter, hr', hm'⟩ := joinMade_enterNew hb₁ e.env c l
    exact .typed hcreate hv hrooms hledger
      ⟨rv, r₁, m₁, henter.mono fun hok => hok.granted hrequest, hr', hm'⟩

/-- Both ends of a burst open the lobby and clear the client's flag before the queue is drained. -/
theorem openLobby_rooms (b : Block) (c : ClientId) (h : LobbyHandle) {f : ShipClient → ShipClient}
    (hf : (f (b.client c)).toPresence = { b.rooms.presence c with bursting := false }) :
    ((b.modLobby h (fun l => { l with bursting := false })).modClient c f).rooms =
      b.rooms.endBurst c h := by
  rw [Block.rooms_modClient, setBursting_rooms, Block.client_modLobby, hf]
  rfl

theorem doneBurst_effect {b : Block} {e : Event} {c : ClientId}
    (haction : e.action = .doneBurst c) :
    Effect b e (dcProcessDoneBurst b e.env c).1.rooms (dcProcessDoneBurst b e.env c).1.ledger := by
  rw [dcProcessDoneBurst]
  cases hcur : (b.client c).curLobby with
  | none => exact .quiet
  | some h =>
    dsimp only
    split_ifs with hbad hquest
    · exact .quiet
    · rw [Block.rooms_modClient_same _ rfl, Block.ledger_modClient]
      exact .quiet
    · rw [not_or] at hbad
      refine .burstEnded (.packet haction hcur hbad.1 (Bool.eq_true_of_not_eq_false hbad.2)
        (Bool.eq_false_iff.mpr hquest)) (openLobby_rooms b c h rfl) ?_
      rw [Block.ledger_modClient, setBursting_ledger]

theorem pingLegitCheck_same (b : Block) (env : Env) (c : ClientId) :
    SameBlock b (pingLegitCheck b env c).1 ∧
      ((pingLegitCheck b env c).1.client c).waitQping = (b.client c).waitQping ∧
      ((pingLegitCheck b env c).1.client c).curLobby = (b.client c).curLobby := by
  have hset : ∀ f, SameBlock b (setAccount b c f) ∧
      ((setAccount b c f).client c).waitQping = (b.client c).waitQping ∧
      ((setAccount b c f).client c).curLobby = (b.client c).curLobby := by
    intro f
    exact ⟨setAccount_same b c f, by simp [setAccount], by simp [setAccount]⟩
  rw [pingLegitCheck]
  split_ifs
  · exact hset (fun a => { a with alwaysLegit := false })
  · exact hset (fun a => { a with alwaysLegit := false })
  · exact hset (fun a => { a with legit := true, limits := true })
  · exact ⟨.refl b, rfl, rfl⟩

theorem lobbyResendBurst_same (b : Block) (h : LobbyHandle) :
    SameBlock b (lobbyResendBurst b h) :=
  ⟨b.rooms_modLobby_same rfl, b.ledger_modLobby_same rfl⟩

theorem ping_effect {b : Block} {e : Event} {c : ClientId} (haction : e.action = .ping c)
    (hversion : (b.client c).account.version ≠ .bb) :
    Effect b e (processPing b e.env c).1.rooms (processPing b e.env c).1.ledger := by
  obtain ⟨hsame, hwait, hcur⟩ := pingLegitCheck_same b e.env c
  have hends : (pingLegitCheck b e.env c).2 = true → (b.client c).waitQping = true →
      ∀ h, (b.client c).curLobby = some h → DoneBurst b e c h :=
    fun hgo hwaited h hcurLobby => .ping haction hcurLobby hversion hgo hwaited
  rw [processPing]
  generalize pingLegitCheck b e.env c = t at *
  obtain ⟨b₀, goOn⟩ := t
  dsimp only at *
  by_cases hstop : goOn = false ∨ (b₀.client c).waitQping = false
  · rw [if_pos hstop]
    exact hsame.effect
  · rw [if_neg hstop]
    rw [not_or, Bool.not_eq_false, Bool.not_eq_false, hwait] at hstop
    cases hcur₀ : (b₀.client c).curLobby with
    | none => exact hsame.effect
    | some h =>
      dsimp only
      generalize hb₁ : (b₀.modLobby h (fun l => { l with bursting := false })).modClient c
        (fun x => { x with bursting := false, waitQping := false }) = b₁
      have hopen : b₁.rooms = b₀.rooms.endBurst c h := by
        rw [← hb₁]
        exact openLobby_rooms b₀ c h rfl
      have hledger : b₁.ledger = b₀.ledger := by
        rw [← hb₁, Block.ledger_modClient, setBursting_ledger]
      obtain ⟨hrooms', hledger'⟩ := lobbyResendBurst_same b₁ h
      refine .burstEnded (hends hstop.1 hstop.2 h (hcur ▸ hcur₀)) ?_ ?_
      · rw [hrooms', hopen, hsame.1]
      · rw [hledger', hledger, hsame.2]

theorem gamePkt_effect {b : Block} {e : Event} {c : ClientId} {p : GamePkt}
    (haction : e.action = .gamePkt c p) :
    Effect b e (processGamePkt b e.env c p).1.rooms (processGamePkt b e.env c p).1.ledger := by
  rw [processGamePkt]
  split_ifs with hbb htype htype'
  · exact .quiet
  · have hqueued := subcmdHandleBcast_queued b e.env 0 c p
    rcases subcmdHandleBcast_rooms b e.env 0 c p with
      hsame | ⟨h, hcur, hgame, hload, htrial, hrooms⟩
    · rw [hsame]
      rcases hqueued with hledger | ⟨hother, hqueued⟩
      · rw [hledger]
        exact .quiet
      · exact .sent (fun hload => hother hload.2) hqueued
    · rw [hrooms]
      rcases hqueued with hledger | ⟨hother, -⟩
      · rw [hledger]
        exact .loaded ⟨⟨p, haction, htype, hload⟩, htrial, hcur, hgame⟩
      · exact absurd hload hother
  · rw [subcmdHandleOne_rooms]
    exact .sent (fun hload => htype hload.1) (subcmdHandleOne_queued b e.env 0 c p)
  · exact .quiet

theorem meetTheUser_same (b : Block) (c : ClientId) (menu : ℕ) :
    SameBlock b (meetTheUser b c menu) := by
  rw [meetTheUser]
  split
  · exact .refl b
  · exact ⟨b.rooms_modClient_same rfl, rfl⟩

theorem handleOverride_same (b : Block) (c : ClientId) : SameBlock b (handleOverride b c) := by
  rw [handleOverride]
  split
  · exact .refl b
  · split_ifs
    · exact ⟨b.rooms_modClient_same rfl, rfl⟩
    · exact .refl b

theorem handlePasswd_effect (b : Block) (e : Event) (c : ClientId) (params : List UInt8) :
    Effect b e (handlePasswd b c params).rooms (handlePasswd b c params).ledger := by
  rw [handlePasswd]
  cases hcur : (b.client c).curLobby with
  | none => exact .quiet
  | some h =>
    dsimp only
    split_ifs with hset
    · rw [Block.rooms_modLobby, Block.ledger_modLobby_same _ rfl]
      exact .repassworded params hcur hset.1
    · exact .quiet

/-- Every event has one of the effects. -/
theorem next_effect {b : Block} (hb : BlockSound b) (e : Event) :
    Effect b e (next b e).rooms (next b e).ledger := by
  have hcharData : ∀ c leaveGame pl, e.action = .charData c leaveGame pl →
      Effect b e (next b e).rooms (next b e).ledger :=
    fun _ _ _ haction => charData_effect hb.rooms haction
  rw [next] at *
  cases haction : e.action with
  | disconnect c => exact disconnect_effect hb haction
  | account c a => exact (setAccount_same b c _).effect
  | meetTheUser c menu => exact (meetTheUser_same b c menu).effect
  | settings h s =>
    exact SameBlock.effect ⟨b.rooms_modLobby_same rfl, b.ledger_modLobby_same rfl⟩
  | passwd c params => exact handlePasswd_effect b e c params
  | override c => exact (handleOverride_same b c).effect
  | logout c => exact SameBlock.effect ⟨b.rooms_modClient_same rfl, rfl⟩
  | charData c leaveGame pl =>
    rw [haction] at hcharData
    exact hcharData c leaveGame pl rfl
  | changeLobby c itemId => exact changeLobby_effect hb.rooms haction
  | menuGame c itemId passwd => exact menuGame_effect hb.rooms haction
  | gameCreate c pkt =>
    refine (gameCreate_creation b e.env c pkt).effect hb.rooms ?_
    rw [changeRequest, haction]
  | ep3GameCreate c passwd =>
    refine (ep3ProcessGameCreate_creation b c passwd).effect hb.rooms ?_
    rw [changeRequest, haction]
  | gameType c itemId => exact gameType_effect hb.rooms haction
  | doneBurst c => exact doneBurst_effect haction
  | ping c =>
    dsimp only
    split_ifs with hversion
    · exact .quiet
    · exact ping_effect haction hversion
  | gamePkt c p => exact gamePkt_effect haction

end ShipServer.BlockEffects
