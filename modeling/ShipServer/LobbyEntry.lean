import ShipServer.PasswordEntry

set_option autoImplicit false

namespace ShipServer.LobbyEntry

open LobbyRooms LobbyState LobbyFunctions DeferredPackets LobbyRefinement BlockPackets BlockEffects
open PasswordEntry

/-- The client that an action may take into a lobby. -/
def seeker : Action → Option ClientId
  | .charData c false _ => some c
  | .changeLobby c _ => some c
  | .menuGame c _ _ => some c
  | .gameCreate c _ => some c
  | .ep3GameCreate c _ => some c
  | .gameType c _ => some c
  | _ => none

/-- Nobody but the client, if there is one, gets into a lobby that it was not in. -/
def EntersOnly (o : Option ClientId) (r r' : Rooms) : Prop :=
  ∀ d l, Entered r r' d l → o = some d

theorem entersOnly_of_curLobby {o : Option ClientId} {r r' : Rooms}
    (h : ∀ d k, (r'.presence d).curLobby = some k → (r.presence d).curLobby = some k) :
    EntersOnly o r r' :=
  fun d l hin => absurd (h d l hin.1) hin.2

theorem entersOnly_of_presence {o : Option ClientId} {r r' : Rooms}
    (h : r'.presence = r.presence) : EntersOnly o r r' := by
  refine entersOnly_of_curLobby fun d k hcur => ?_
  rwa [h] at hcur

theorem entersOnly_of_same {o : Option ClientId} {b b' : Block} (h : SameBlock b b') :
    EntersOnly o b.rooms b'.rooms :=
  entersOnly_of_presence (congrArg Rooms.presence h.1)

theorem EntersOnly.of_curLobby {o : Option ClientId} {r r₁ r' : Rooms} (h : EntersOnly o r₁ r')
    (hsame : ∀ d, (r₁.presence d).curLobby = (r.presence d).curLobby) : EntersOnly o r r' := by
  intro d l hin
  refine h d l ⟨hin.1, ?_⟩
  rw [hsame]
  exact hin.2

theorem EntersOnly.trans {o : Option ClientId} {r r₁ r' : Rooms} (h : EntersOnly o r r₁)
    (h' : EntersOnly o r₁ r') : EntersOnly o r r' := by
  intro d l hin
  by_cases hbetween : (r₁.presence d).curLobby = some l
  · exact h d l ⟨hbetween, hin.2⟩
  · exact h' d l ⟨hin.1, hbetween⟩

theorem entersOnly_of_lounged {r r' : Rooms} {c : ClientId} (h : Lounged r c r') :
    EntersOnly (some c) r r' := by
  obtain ⟨k, i, rfl, -⟩ := h
  intro d l hin
  have hcur := hin.1
  rw [Rooms.curLobby_sit] at hcur
  split_ifs at hcur with hd
  · rw [hd]
  · exact absurd hcur hin.2

theorem entersOnly_of_enter {accepted : Prop} {r r' : Rooms} {m m' : Ledger} {c : ClientId}
    {req : LobbyHandle} {rv : Int} (h : Enter accepted r m c req rv r' m') :
    EntersOnly (some c) r r' := by
  cases h with
  | refused _ => exact entersOnly_of_presence rfl
  | lounged _ arrived => exact entersOnly_of_lounged arrived
  | stayed _ _ _ =>
    refine entersOnly_of_curLobby fun d k hcur => ?_
    rwa [Rooms.curLobby_settle] at hcur
  | moved _ _ _ _ _ _ _ _ gone =>
    intro d l hin
    have hcur := hin.1
    rw [Rooms.curLobby_settle, Rooms.presence_close, gone, Rooms.presence_vacate,
      Rooms.curLobby_sit] at hcur
    split_ifs at hcur with hd
    · rw [hd]
    · exact absurd hcur hin.2

theorem entersOnly_of_enterNew {accepted : Prop} {r r' : Rooms} {m m' : Ledger} {c : ClientId}
    {req : LobbyHandle} (h : EnterNew accepted r m c req r' m') : EntersOnly (some c) r r' := by
  obtain ⟨rv, r₁, m₁, henter, rfl, -⟩ := h
  intro d l hin
  refine entersOnly_of_enter henter d l ⟨?_, hin.2⟩
  have hcur := hin.1
  split_ifs at hcur
  · exact hcur
  · exact hcur

theorem entersOnly_creation {b : Block} (hb : b.rooms.Sound) (env : Env) {c : ClientId}
    {t : Block × Except Int LobbyHandle} (h : Creation b c t) :
    EntersOnly (some c) b.rooms (joinMade env c t).1.rooms := by
  cases h with
  | refused same => exact entersOnly_of_same same
  | @listed m b₁ made =>
    have hb₁ : b₁.rooms.Sound := by
      rw [made.rooms, if_pos rfl]
      exact (hb.addRoom made.newRoom.sound made.newRoom.empty).list _
    refine (entersOnly_of_enterNew (joinMade_enterNew hb₁ env c b.rooms.nextLobby)).of_curLobby ?_
    intro d
    rw [presence_made made]
  | @pending m rv b₁ b' made large rooms ledger =>
    refine entersOnly_of_curLobby fun d k hcur => ?_
    rw [joinMade, rooms] at hcur
    rw [← presence_made made]
    by_cases hd : d = c
    · rw [hd, Rooms.presence_setPresence] at hcur
      rwa [hd]
    · rwa [Rooms.presence_setPresence_ne _ hd] at hcur

theorem entersOnly_charData {b : Block} (hb : BlockSound b) (e : Event) (c : ClientId)
    (leaveGame : Bool) (pl : PlayerData) (haction : e.action = .charData c leaveGame pl) :
    EntersOnly (seeker e.action) b.rooms (next b e).rooms := by
  have hset := setAccount_same b c (fun a => { a with player := pl })
  have harrive : EntersOnly (some c) b.rooms
      (arriveWithChar (setAccount b c fun a => { a with player := pl }) e.env c).1.rooms := by
    have hsound := (hset.sound hb).rooms
    rcases arriveWithChar_cases hsound e.env c with hquiet | ⟨-, hlounged, -⟩
    · exact entersOnly_of_same (hset.trans hquiet)
    · rw [hset.1] at hlounged
      exact entersOnly_of_lounged hlounged
  have hremove : ∀ b₁, SameBlock b b₁ →
      EntersOnly none b.rooms (lobbyRemovePlayer b₁ e.env c).1.rooms := by
    intro b₁ hsame
    refine entersOnly_of_curLobby fun d k hcur => ?_
    rw [← hsame.1]
    exact remove_curLobby (hsame.sound hb) e.env c d hcur
  rw [next, haction]
  dsimp only
  by_cases hbb : (b.client c).account.version = .bb
  · rw [if_pos hbb, bbProcessChar]
    cases leaveGame with
    | true => exact hremove _ hset
    | false => exact harrive
  · rw [if_neg hbb, dcProcessChar]
    by_cases hlevel : 199 < pl.level
    · rw [if_pos hlevel]
      exact entersOnly_of_presence rfl
    · rw [if_neg hlevel]
      cases leaveGame with
      | true => exact hremove _ (hset.trans (setAccount_same _ c _))
      | false => exact harrive

theorem entersOnly_endBurst {b b₁ : Block} (hb : BlockSound b) {env : Env} {c : ClientId}
    {h : LobbyHandle} (rooms : b₁.rooms = b.rooms.endBurst c h) (ledger : b₁.ledger = b.ledger) :
    EntersOnly none b.rooms (lobbyHandleDoneBurst b₁ env h).1.rooms := by
  have hsane := hb.sane
  rw [← ledger] at hsane
  rw [lobbyHandleDoneBurst_rooms env h hsane, rooms]
  refine entersOnly_of_curLobby fun d k hcur => ?_
  rwa [Rooms.curLobby_endBurst] at hcur

theorem entersOnly_doneBurst {b : Block} (hb : BlockSound b) (env : Env) (c : ClientId) :
    EntersOnly none b.rooms (dcProcessDoneBurst b env c).1.rooms := by
  rw [dcProcessDoneBurst]
  cases (b.client c).curLobby with
  | none => exact entersOnly_of_presence rfl
  | some h =>
    dsimp only
    split_ifs
    · exact entersOnly_of_presence rfl
    · rw [Block.rooms_modClient_same _ rfl]
      exact entersOnly_of_presence rfl
    · refine entersOnly_endBurst hb (openLobby_rooms b c h rfl) ?_
      rw [Block.ledger_modClient, setBursting_ledger]

theorem entersOnly_ping {b : Block} (hb : BlockSound b) (env : Env) (c : ClientId) :
    EntersOnly none b.rooms (processPing b env c).1.rooms := by
  obtain ⟨hsame, -, -⟩ := pingLegitCheck_same b env c
  rw [processPing]
  generalize pingLegitCheck b env c = t at *
  obtain ⟨b₀, goOn⟩ := t
  dsimp only at *
  by_cases hstop : goOn = false ∨ (b₀.client c).waitQping = false
  · rw [if_pos hstop]
    exact entersOnly_of_same hsame
  · rw [if_neg hstop]
    cases (b₀.client c).curLobby with
    | none => exact entersOnly_of_same hsame
    | some h =>
      dsimp only
      generalize hb₁ : (b₀.modLobby h (fun l => { l with bursting := false })).modClient c
        (fun x => { x with bursting := false, waitQping := false }) = b₁
      obtain ⟨hrooms', hledger'⟩ := lobbyResendBurst_same b₁ h
      refine entersOnly_endBurst (c := c) hb ?_ ?_
      · rw [hrooms', ← hb₁, openLobby_rooms b₀ c h rfl, hsame.1]
      · rw [hledger', ← hb₁, Block.ledger_modClient, setBursting_ledger, hsame.2]

theorem entersOnly_gamePkt (b : Block) (env : Env) (c : ClientId) (p : GamePkt) :
    EntersOnly none b.rooms (processGamePkt b env c p).1.rooms := by
  rw [processGamePkt]
  split_ifs
  · exact entersOnly_of_presence rfl
  · rcases subcmdHandleBcast_rooms b env 0 c p with hsame | ⟨h, -, -, -, -, hrooms⟩
    · rw [hsame]
      exact entersOnly_of_presence rfl
    · rw [hrooms]
      refine entersOnly_of_curLobby fun d k hcur => ?_
      rwa [Rooms.curLobby_endBurst] at hcur
  · rw [subcmdHandleOne_rooms]
    exact entersOnly_of_presence rfl
  · exact entersOnly_of_presence rfl

theorem entersOnly_handlePasswd (b : Block) (c : ClientId) (params : List UInt8) :
    EntersOnly none b.rooms (handlePasswd b c params).rooms := by
  rw [handlePasswd]
  cases (b.client c).curLobby with
  | none => exact entersOnly_of_presence rfl
  | some h =>
    dsimp only
    split_ifs
    · rw [Block.rooms_modLobby]
      exact entersOnly_of_presence rfl
    · exact entersOnly_of_presence rfl

theorem entersOnly_changeLobby {b : Block} (hb : BlockSound b) (env : Env) (c : ClientId)
    (itemId : ℕ) : EntersOnly (some c) b.rooms (processChangeLobby b env c itemId).1.rooms := by
  rw [processChangeLobby]
  split_ifs
  · exact entersOnly_of_presence rfl
  · cases blockGetLobby b itemId with
    | none => exact entersOnly_of_presence rfl
    | some req => exact entersOnly_of_enter (lobbyChangeLobby_enter hb.rooms env c req)

theorem entersOnly_menuGame {b : Block} (hb : BlockSound b) (env : Env) (c : ClientId)
    (itemId : ℕ) (passwd : List UInt8) :
    EntersOnly (some c) b.rooms
      (joinSelected env c (processMenuGame b env c itemId passwd)).1.rooms := by
  rcases processMenuGame_cases b env c itemId passwd with
    ⟨rv, heq⟩ | ⟨l, cmp, -, ⟨rv, heq⟩ | ⟨heq, -⟩⟩
  · rw [heq]
    exact entersOnly_of_presence rfl
  · rw [heq]
    exact entersOnly_of_presence rfl
  · rw [heq]
    have hb' : (submit b c l cmp).rooms.Sound := hb.rooms
    exact entersOnly_of_enter (joinGame_enter hb' env c l)

theorem entersOnly_gameType {b : Block} (hb : BlockSound b) (env : Env) (c : ClientId)
    (itemId : ℕ) :
    EntersOnly (some c) b.rooms (joinMade env c (processGameType b c itemId)).1.rooms := by
  rcases processGameType_cases b c itemId with ⟨rv, heq⟩ | ⟨l, v, b₁, heq, hcreate, -, hrooms, -⟩
  · rw [heq]
    exact entersOnly_of_presence rfl
  · rw [heq]
    have hb₁ : b₁.rooms.Sound := by
      rw [hrooms]
      exact sound_typed hb.rooms hcreate
    refine (entersOnly_of_enterNew (joinMade_enterNew hb₁ env c l)).of_curLobby ?_
    intro d
    rw [hrooms]
    by_cases hd : d = c
    · rw [hd, Rooms.presence_setPresence]
    · rw [Rooms.presence_setPresence_ne _ hd]
      rfl

theorem entersOnly_disconnect {b : Block} (hb : BlockSound b) (env : Env) (c : ClientId) :
    EntersOnly none b.rooms (disconnect b env c).rooms := by
  have hrooms : (disconnect b env c).rooms =
      (lobbyRemovePlayer b env c).1.rooms.setPresence c ShipClient.fresh.toPresence := by
    rw [disconnect]
    cases ((lobbyRemovePlayer b env c).1.client c).createLobby with
    | none => rw [Block.rooms_modClient]
    | some l => rw [Block.rooms_modClient, lobbyDestroyNoremove_rooms]
  rw [hrooms]
  refine entersOnly_of_curLobby fun d k hcur => ?_
  by_cases hd : d = c
  · rw [hd, Rooms.presence_setPresence] at hcur
    cases hcur
  · rw [Rooms.presence_setPresence_ne _ hd] at hcur
    exact remove_curLobby hb env c d hcur

/-- A client gets into a lobby by a request of its own only. -/
theorem next_entersOnly {b : Block} (hb : BlockSound b) (e : Event) :
    EntersOnly (seeker e.action) b.rooms (next b e).rooms := by
  have hcharData := fun c leaveGame pl => entersOnly_charData hb e c leaveGame pl
  rw [next] at *
  cases haction : e.action with
  | disconnect c => exact entersOnly_disconnect hb e.env c
  | account c a => exact entersOnly_of_same (setAccount_same b c _)
  | meetTheUser c menu => exact entersOnly_of_same (meetTheUser_same b c menu)
  | settings h s =>
    exact entersOnly_of_same ⟨b.rooms_modLobby_same rfl, b.ledger_modLobby_same rfl⟩
  | passwd c params => exact entersOnly_handlePasswd b c params
  | override c => exact entersOnly_of_same (handleOverride_same b c)
  | logout c => exact entersOnly_of_same ⟨b.rooms_modClient_same rfl, rfl⟩
  | charData c leaveGame pl =>
    rw [haction] at hcharData
    exact hcharData c leaveGame pl rfl
  | changeLobby c itemId => exact entersOnly_changeLobby hb e.env c itemId
  | menuGame c itemId passwd => exact entersOnly_menuGame hb e.env c itemId passwd
  | gameCreate c pkt => exact entersOnly_creation hb.rooms e.env (gameCreate_creation b e.env c pkt)
  | ep3GameCreate c passwd =>
    exact entersOnly_creation hb.rooms e.env (ep3ProcessGameCreate_creation b c passwd)
  | gameType c itemId => exact entersOnly_gameType hb e.env c itemId
  | doneBurst c => exact entersOnly_doneBurst hb e.env c
  | ping c =>
    dsimp only
    split_ifs
    · exact entersOnly_of_presence rfl
    · exact entersOnly_ping hb e.env c
  | gamePkt c p => exact entersOnly_gamePkt b e.env c p

end ShipServer.LobbyEntry
