import ShipServer.RefusedJoins

set_option autoImplicit false

namespace ShipServer.GameSelection

open LabelledRuns Versions LobbyRooms LobbyState LobbyFunctions LobbyRefinement
open BlockPackets BlockInvariants LobbyMembership
open RefusedJoins (Vacancy changeFromNowhere_of_vacancy changeToOther_full changeRefusal_cases)

/-- A block with the flags that only the game lists look at: `LOBBY_FLAG_NTE` and
`CLIENT_FLAG_SHOW_DCPC_ON_GC`. -/
structure ListState where
  block : Block
  nte : LobbyHandle → Bool
  showDcpc : ClientId → Bool

/-- What `send_dc_game_list` does not pass over. -/
abbrev ShowsDc (x : Account) (l : Lobby) (nte : Bool) : Prop :=
  l.type = .game ∧ l.episode = 0 ∧ ¬(x.version = .dcv1 ∧ l.v2 = true) ∧
    ¬(x.version = .dcv2 ∧ l.settings.v1Only = true) ∧ l.settings.pcOnly = false ∧
    l.settings.singlePlayer = false ∧ (if x.isNte then nte = true else nte = false)

/-- What `send_pc_game_list` does not pass over. -/
abbrev ShowsPc (x : Account) (l : Lobby) (nte : Bool) : Prop :=
  l.type = .game ∧ l.episode = 0 ∧ l.settings.v1Only = false ∧ l.settings.dcOnly = false ∧
    l.settings.singlePlayer = false ∧
    (if x.isNte then nte = true ∧ l.version = .pc else nte = false)

/-- What `send_gc_game_list` does not pass over. -/
abbrev ShowsGc (showDcpc : Bool) (l : Lobby) (nte : Bool) : Prop :=
  l.type = .game ∧ l.version ≠ .bb ∧
    (l.episode = 0 → showDcpc = true ∧ l.settings.gcAllowed = true) ∧
    l.settings.singlePlayer = false ∧ nte = false

/-- `send_game_list`, as a test of one lobby. -/
def Shows (x : Account) (showDcpc : Bool) (l : Lobby) (nte : Bool) : ClientVersion → Prop
  | .dcv1 | .dcv2 => ShowsDc x l nte
  | .pc => ShowsPc x l nte
  | .gc | .xbox => ShowsGc showDcpc l nte
  | .ep3 => l.type = .ep3Game
  | .bb => l.type = .game ∧ l.version = .bb

instance (x : Account) (showDcpc : Bool) (l : Lobby) (nte : Bool) (v : ClientVersion) :
    Decidable (Shows x showDcpc l nte v) :=
  match v with
  | .dcv1 | .dcv2 => inferInstanceAs (Decidable (ShowsDc x l nte))
  | .pc => inferInstanceAs (Decidable (ShowsPc x l nte))
  | .gc | .xbox => inferInstanceAs (Decidable (ShowsGc showDcpc l nte))
  | .ep3 => inferInstanceAs (Decidable (l.type = .ep3Game))
  | .bb => inferInstanceAs (Decidable (l.type = .game ∧ l.version = .bb))

/-- The list shows the lobby to the client. -/
abbrev ShownTo (s : ListState) (c : ClientId) (l : LobbyHandle) : Prop :=
  Shows (s.block.client c).account (s.showDcpc c) (s.block.lobby l) (s.nte l)
    (s.block.client c).account.version

def sendGameList (s : ListState) (c : ClientId) : List LobbyHandle :=
  s.block.lobbies.filter fun l => ShownTo s c l

/-- What `lobby_change_lobby` returns to a game selection that gets that far. -/
def changeCode (b : Block) (env : Env) (c : ClientId) (itemId : ℕ) (passwd : List UInt8) :
    Option Int :=
  match processMenuGame b env c itemId passwd with
  | (_, .error _) => none
  | (b, .ok l) =>
    if (b.client c).account.gcProtect then none else some (lobbyChangeLobby b env c l).2

/-- The selection takes the client into the lobby. -/
def Enters (b : Block) (env : Env) (c : ClientId) (itemId : ℕ) (passwd : List UInt8)
    (l : LobbyHandle) : Prop :=
  (b.client c).curLobby ≠ some l ∧
    ((joinSelected env c (processMenuGame b env c itemId passwd)).1.client c).curLobby = some l

/-- The codes of `lobby_change_lobby` that stand for a platform, a version or a single player. -/
def platformCodes : List Int :=
  [-6, -11, -12, -13, -14]

/-- The list and the admission of the selected game agree. -/
structure Respects (s : ListState) (env : Env) (c : ClientId) (itemId : ℕ) (passwd : List UInt8)
    (l : LobbyHandle) : Prop where
  entered : Enters s.block env c itemId passwd l →
    l ∈ sendGameList s c ∨ (s.block.client c).overrideGame = true
  admitted : l ∈ sendGameList s c → ∀ rv, changeCode s.block env c itemId passwd = some rv →
    rv ∉ platformCodes

/-- Games that the client's list passes over, but none of the checks on the way in: those for
other platforms, for a single player, and of the trial edition or not of it. -/
def Overlooked (x : Account) (showDcpc : Bool) (l : Lobby) (nte : Bool) : ClientVersion → Prop
  | .dcv1 | .dcv2 =>
    l.type = .ep3Game ∨ l.episode ≠ 0 ∨ l.settings.singlePlayer = true ∨ nte ≠ x.isNte
  | .pc =>
    l.type = .ep3Game ∨ l.episode ≠ 0 ∨ l.settings.singlePlayer = true ∨
      (if x.isNte then nte = false ∨ l.version ≠ .pc else nte = true)
  | .gc | .xbox =>
    l.type = .ep3Game ∨ l.version = .bb ∨
      (l.episode = 0 ∧ (showDcpc = false ∨ l.settings.gcAllowed = false)) ∨
      l.settings.singlePlayer = true ∨ nte = true
  | .ep3 => l.type = .game
  | .bb => l.type = .ep3Game ∨ l.version ≠ .bb

/-- Flags of a game that the lists of the later versions do not look at. -/
def Reserved (l : Lobby) (override : Bool) : ClientVersion → Prop
  | .dcv1 | .dcv2 | .pc => False
  | .gc | .xbox | .ep3 | .bb =>
    (l.settings.singlePlayer = true ∧ l.numClients ≠ 0) ∨
      (override = false ∧ (l.settings.pcOnly = true ∨ l.settings.v1Only = true ∨
        l.settings.dcOnly = true))

/-- A character of a class that version 1 does not have, and a game for version 1. -/
abbrev WrongClass (x : Account) (l : Lobby) : Prop :=
  l.type = .game ∧ l.version = .dcv1 ∧ 8 < x.player.chClass

/-- The cases in which list and admission agree. -/
structure Agrees (s : ListState) (env : Env) (c : ClientId) (l : LobbyHandle) : Prop where
  placed : (s.block.client c).curLobby = none → ShownTo s c l →
    Vacancy s.block c l ∧ env.joinSent = true ∧ env.arrivalSent = true
  looked : ∀ k, (s.block.client c).curLobby = some k → k ≠ l →
    (s.block.client c).overrideGame = false → ChangeAccepted s.block env c l →
    (s.block.lobby l).numClients < (s.block.lobby l).maxClients →
    ¬Overlooked (s.block.client c).account (s.showDcpc c) (s.block.lobby l) (s.nte l)
      (s.block.client c).account.version
  unreserved : (s.block.client c).curLobby ≠ none → ShownTo s c l →
    ¬WrongClass (s.block.client c).account (s.block.lobby l) →
    ¬Reserved (s.block.lobby l) (s.block.client c).overrideGame
      (s.block.client c).account.version

theorem mem_sendGameList {s : ListState} {c : ClientId} {l : LobbyHandle}
    (hl : l ∈ s.block.lobbies) : l ∈ sendGameList s c ↔ ShownTo s c l := by
  rw [sendGameList, List.mem_filter]
  simp [hl]

/-- What a client that is let in without the override has passed. -/
theorem accepted_spec {env : Env} {x : ShipClient} {l : Lobby}
    (h : changeRefusal env x false l = none) :
    (l.settings.pcOnly = true → x.account.version = .pc) ∧
      (l.settings.v1Only = true → x.account.version = .dcv1) ∧
      (l.settings.dcOnly = true → x.account.version = .dcv1 ∨ x.account.version = .dcv2) ∧
      (x.account.version = .dcv1 → l.v2 = false) := by
  rw [changeRefusal, Option.map_eq_none_iff, List.find?_eq_none] at h
  simp only [changeChecks, List.mem_cons, List.not_mem_nil, or_false, forall_eq_or_imp,
    forall_eq] at h
  obtain ⟨-, -, hpc, hv1, hdc, -, -, -, -, -, -, hv2, -⟩ := h
  simp only [Bool.not_false, and_true, decide_eq_true_eq, not_and, not_not, ne_eq] at hpc hv1 hdc hv2
  refine ⟨hpc, hv1, ?_, ?_⟩
  · intro hflag
    by_cases hv : x.account.version = .dcv1
    · exact Or.inl hv
    · exact Or.inr (hdc hflag hv)
  · intro hv
    simpa using hv2 hv

/-- Past the checks, the list shows a game unless it is one of those that are overlooked. -/
theorem shows_iff {env : Env} {x : ShipClient} {l : Lobby} (hgame : l.type ≠ .lobby)
    (h : changeRefusal env x false l = none) (showDcpc nte : Bool) :
    Shows x.account showDcpc l nte x.account.version ↔
      ¬Overlooked x.account showDcpc l nte x.account.version := by
  obtain ⟨hpc, hv1, hdc, hv2⟩ := accepted_spec h
  have htype : l.type = .game ∨ l.type = .ep3Game := by
    cases hl : l.type with
    | lobby => exact absurd hl hgame
    | game => exact Or.inl rfl
    | ep3Game => exact Or.inr rfl
  cases hv : x.account.version with
  | dcv1 => grind [Shows, Overlooked]
  | dcv2 => grind [Shows, Overlooked]
  | pc => grind [Shows, Overlooked]
  | gc => grind [Shows, Overlooked]
  | xbox => grind [Shows, Overlooked]
  | ep3 => grind [Shows, Overlooked]
  | bb => grind [Shows, Overlooked]

/-- A game that the list shows is refused with one of the codes for its reserved flags only. -/
theorem refused_code_iff (env : Env) {x : ShipClient} {override : Bool} {l : Lobby}
    {showDcpc nte : Bool} (h : Shows x.account showDcpc l nte x.account.version) :
    (∃ rv, changeRefusal env x override l = some rv ∧ rv ∈ platformCodes) ↔
      ¬WrongClass x.account l ∧ Reserved l override x.account.version := by
  constructor
  · rintro ⟨rv, hrv, hcode⟩
    constructor
    · intro hwrong
      rcases changeRefusal_cases env x override l with ⟨-, hbarred⟩ | ⟨hfree, -⟩
      · rw [hrv] at hbarred
        cases hbarred
        exact absurd hcode (by decide)
      · exact hfree hwrong
    · obtain ⟨check, hfind, rfl⟩ := Option.map_eq_some_iff.mp hrv
      have htrue := List.find?_some hfind
      have hmem := List.mem_of_find?_eq_some hfind
      simp only [changeChecks, List.mem_cons, List.not_mem_nil, or_false] at hmem
      simp only [platformCodes, List.mem_cons, List.not_mem_nil, or_false] at hcode
      rcases hmem with rfl | rfl | rfl | rfl | rfl | rfl | rfl | rfl | rfl | rfl | rfl | rfl | rfl <;>
        simp only [decide_eq_true_eq, Bool.not_eq_true', Int.reduceNeg, Int.reduceEq,
          or_self, or_false, false_or] at hcode htrue
      all_goals
        cases hv : x.account.version <;> grind [Shows, Reserved]
  · rintro ⟨hclass, hreserved⟩
    have hsome : ((changeChecks env x override l).take 5).find? Prod.fst ≠ none := by
      rw [ne_eq, List.find?_eq_none]
      intro hall
      simp only [changeChecks, List.take_succ_cons, List.take_zero, List.mem_cons,
        List.not_mem_nil, or_false, forall_eq_or_imp, forall_eq, decide_eq_true_eq] at hall
      cases hv : x.account.version <;> grind [Shows, Reserved]
    obtain ⟨check, hfind⟩ := Option.ne_none_iff_exists'.mp hsome
    refine ⟨check.2, ?_, ?_⟩
    · rw [changeRefusal, ← List.take_append_drop 5 (changeChecks env x override l),
        List.find?_append, hfind]
      rfl
    · have htrue := List.find?_some hfind
      have hmem := List.mem_of_find?_eq_some hfind
      simp only [changeChecks, List.take_succ_cons, List.take_zero, List.mem_cons,
        List.not_mem_nil, or_false] at hmem
      rcases hmem with rfl | rfl | rfl | rfl | rfl
      · exact absurd (of_decide_eq_true htrue) hclass
      all_goals simp [platformCodes]

/-- A selection that gets through to `lobby_change_lobby`. -/
def Selects (b : Block) (env : Env) (c : ClientId) (itemId : ℕ) (passwd : List UInt8)
    (l : LobbyHandle) : Prop :=
  (processMenuGame b env c itemId passwd).2 = .ok l

theorem processMenuGame_selects {b : Block} {env : Env} {c : ClientId} {itemId : ℕ}
    {passwd : List UInt8} {l : LobbyHandle} (h : Selects b env c itemId passwd l) :
    l ∈ b.lobbies ∧ ∃ cmp, processMenuGame b env c itemId passwd = (submit b c l cmp, .ok l) := by
  unfold Selects processMenuGame at *
  split_ifs at h ⊢ with hchar
  cases hcmp : passwdCmp env (b.client c) passwd with
  | none => simp [hcmp] at h
  | some cmp =>
    cases hfind : blockGetLobby b itemId with
    | none => simp [hcmp, hfind] at h
    | some k =>
      simp only [hcmp, hfind] at h ⊢
      split_ifs at h ⊢
      cases h
      exact ⟨List.mem_of_find?_eq_some hfind, cmp, rfl⟩

/-- What `lobby_change_lobby` returns to a client that is in a lobby. -/
theorem lobbyChangeLobby_code {b : Block} (hb : b.rooms.Sound) (hcap : Capped b.rooms) (env : Env)
    {c : ClientId} {k : LobbyHandle} (hcur : (b.client c).curLobby = some k) (l : LobbyHandle) :
    (lobbyChangeLobby b env c l).2 =
      (changeRefusal env (b.client c) (b.client c).overrideGame (b.lobby l)).getD
        (if k = l ∨ (b.lobby l).numClients < (b.lobby l).maxClients then 0 else -1) := by
  have hrooms : (b.modClient c (fun x => { x with overrideGame := false })).rooms = b.rooms :=
    b.rooms_modClient_same rfl
  have hlobby : (b.modClient c (fun x => { x with overrideGame := false })).lobby = b.lobby := rfl
  have hx : (b.modClient c (fun x => { x with overrideGame := false })).client c =
      { b.client c with overrideGame := false } := b.client_modClient c _
  have hsame : changeRefusal env { b.client c with overrideGame := false }
      (b.client c).overrideGame (b.lobby l) =
      changeRefusal env (b.client c) (b.client c).overrideGame (b.lobby l) := rfl
  rw [lobbyChangeLobby, hx, hlobby, hcur, hsame]
  rw [← hrooms] at hb hcap
  generalize b.modClient c (fun x => { x with overrideGame := false }) = b₀ at *
  have hcur₀ : (b₀.client c).curLobby = some k := by
    rw [hx]
    exact hcur
  cases changeRefusal env (b.client c) (b.client c).overrideGame (b.lobby l) with
  | some rv => rfl
  | none =>
    dsimp only [Option.getD_none]
    by_cases hkl : k = l
    · rw [if_pos hkl, if_pos (Or.inl hkl)]
    · rw [if_neg hkl, ← hlobby]
      rcases changeToOther_full hb hcap env hcur₀ hkl with ⟨hspare, hok⟩ | ⟨hfull, hnone⟩
      · rw [hok, if_pos (Or.inr hspare)]
      · rw [hnone, if_neg (not_or.mpr ⟨hkl, hfull⟩)]

/-- A client that is in no lobby gets the code of another platform if there is no place for it. -/
theorem lobbyChangeLobby_code_nowhere {b : Block} (hb : b.rooms.Sound) (hcap : Capped b.rooms)
    (env : Env) {c : ClientId} (hcur : (b.client c).curLobby = none) (l : LobbyHandle) :
    (lobbyChangeLobby b env c l).2 ∈ platformCodes ↔
      ¬(Vacancy b c l ∧ env.joinSent = true ∧ env.arrivalSent = true) := by
  have hrooms : (b.modClient c (fun x => { x with overrideGame := false })).rooms = b.rooms :=
    b.rooms_modClient_same rfl
  have hvacancy : Vacancy (b.modClient c (fun x => { x with overrideGame := false })) c l ↔
      Vacancy b c l := by
    simp only [Vacancy, RefusedJoins.OpenTo, Block.client_modClient, Block.lobby_modClient,
      Block.lobbies_modClient]
  have hx : ((b.modClient c (fun x => { x with overrideGame := false })).client c).curLobby =
      none := by
    rw [Block.client_modClient]
    exact hcur
  rw [lobbyChangeLobby, ← hvacancy]
  rw [← hrooms] at hb hcap
  generalize b.modClient c (fun x => { x with overrideGame := false }) = b₀ at *
  rw [hx]
  dsimp only
  rcases changeFromNowhere_of_vacancy hb hcap env c l with
    ⟨hv, hsent, hrv⟩ | ⟨hv, hsent, hrv, -⟩ | ⟨hv, hrv⟩
  · rw [hrv]
    exact ⟨fun h => absurd h (by decide), fun h => absurd ⟨hv, hsent⟩ h⟩
  · rw [hrv]
    exact ⟨fun _ h => hsent h.2, fun _ => by decide⟩
  · rw [hrv]
    exact ⟨fun _ h => hv h.1, fun _ => by simp [platformCodes]⟩

/-- A client gets into a game just if it is somewhere else, is let in and finds room. -/
theorem lobbyChangeLobby_enters {b : Block} (hb : b.rooms.Sound) (hcap : Capped b.rooms) (env : Env)
    (c : ClientId) {l : LobbyHandle} (hgame : (b.lobby l).type ≠ .lobby) :
    (b.client c).curLobby ≠ some l ∧
        ((lobbyChangeLobby b env c l).1.client c).curLobby = some l ↔
      ∃ k, (b.client c).curLobby = some k ∧ k ≠ l ∧ ChangeAccepted b env c l ∧
        (b.lobby l).numClients < (b.lobby l).maxClients := by
  have henter := lobbyChangeLobby_enter hb env c l
  constructor
  · rintro ⟨hout, hin⟩
    change ((lobbyChangeLobby b env c l).1.rooms.presence c).curLobby = some l at hin
    change (b.rooms.presence c).curLobby ≠ some l at hout
    generalize (lobbyChangeLobby b env c l).1.rooms = r' at henter hin
    generalize (lobbyChangeLobby b env c l).1.ledger = m' at henter
    generalize (lobbyChangeLobby b env c l).2 = rv at henter
    cases henter with
    | refused failed => exact absurd hin hout
    | lounged nowhere arrived =>
      obtain ⟨k, i, rfl, htype, -, -⟩ := arrived
      rw [Rooms.curLobby_sit, if_pos rfl, Option.some_inj] at hin
      rw [hin] at htype
      exact absurd htype hgame
    | stayed ok cur calm => exact absurd cur hout
    | moved ok cur other calm spare free below version gone => exact ⟨_, cur, other, ok, spare⟩
  · rintro ⟨k, hcur, hne, hok, hspare⟩
    have hcode := lobbyChangeLobby_code hb hcap env hcur l
    rw [show changeRefusal env (b.client c) (b.client c).overrideGame (b.lobby l) = none from hok,
      Option.getD_none, if_pos (Or.inr hspare)] at hcode
    have hout : (b.client c).curLobby ≠ some l := by
      rw [hcur]
      exact fun h => hne (Option.some_inj.mp h)
    refine ⟨hout, ?_⟩
    change ((lobbyChangeLobby b env c l).1.rooms.presence c).curLobby = some l
    generalize (lobbyChangeLobby b env c l).1.rooms = r' at henter
    generalize (lobbyChangeLobby b env c l).1.ledger = m' at henter
    rw [hcode] at henter
    cases henter with
    | refused failed => exact absurd failed (by decide)
    | lounged nowhere arrived =>
      rw [show (b.rooms.presence c).curLobby = some k from hcur] at nowhere
      cases nowhere
    | stayed ok cur calm => exact absurd cur hout
    | moved ok cur other calm spare free below version gone =>
      rw [Rooms.curLobby_settle, gone, Rooms.presence_close, Rooms.presence_vacate,
        Rooms.curLobby_sit, if_pos rfl]

theorem joinGame_curLobby {b : Block} {env : Env} {c : ClientId} {l : LobbyHandle}
    (h : (b.client c).account.gcProtect = false) :
    ((joinGame b env c l).1.client c).curLobby =
      ((lobbyChangeLobby b env c l).1.client c).curLobby := by
  rw [joinGame, if_neg (by simp [h])]
  dsimp only
  split_ifs
  · rfl
  · rw [setAccount, Block.client_modClient]

/-- On every block that a run reaches, and for every selection that gets through, a client that
`join_game` does not turn away at once is treated as the list says just if the selection is none of
those that list and checks classify differently. -/
theorem gameSelection_respects {s : ListState} {calls : List CallEvent}
    (hrun : Run (StepOf callNext) Always Block.start calls s.block) {env : Env} {c : ClientId}
    {itemId : ℕ} {passwd : List UInt8} {l : LobbyHandle}
    (hsel : Selects s.block env c itemId passwd l) (hgame : (s.block.lobby l).type ≠ .lobby) :
    Respects s env c itemId passwd l ↔
      (s.block.client c).account.gcProtect = true ∨ Agrees s env c l := by
  have hinv : BlockSound s.block ∧ Capped s.block.rooms := by
    refine hrun.invariant (fun b => BlockSound b ∧ Capped b.rooms)
      ⟨initial_invariant.toBlockSound, initial_capped⟩ ?_
    rintro b₀ e b₁ ⟨hb₀, hcap₀⟩ - rfl
    exact ⟨callNext_sound hb₀ e, callNext_capped hb₀ hcap₀ e⟩
  obtain ⟨hlisted, cmp, hmenu⟩ := processMenuGame_selects hsel
  have hb : (submit s.block c l cmp).rooms.Sound := hinv.1.rooms
  have hcap : Capped (submit s.block c l cmp).rooms := hinv.2
  have hmem := mem_sendGameList (c := c) hlisted
  cases hprotect : (s.block.client c).account.gcProtect with
  | true =>
    have hprotect' : ((submit s.block c l cmp).client c).account.gcProtect = true := hprotect
    refine ⟨fun _ => Or.inl rfl, fun _ => ⟨?_, ?_⟩⟩
    · rintro ⟨hout, hin⟩
      rw [hmenu, joinSelected, joinGame, if_pos hprotect'] at hin
      exact absurd hin hout
    · intro _ rv hrv
      rw [changeCode, hmenu] at hrv
      dsimp only at hrv
      rw [if_pos hprotect'] at hrv
      cases hrv
  | false =>
    have hprotect' : ((submit s.block c l cmp).client c).account.gcProtect = false := hprotect
    rw [or_iff_right Bool.false_ne_true]
    have henters := lobbyChangeLobby_enters hb hcap env c
      (show ((submit s.block c l cmp).lobby l).type ≠ .lobby from hgame)
    have hin : Enters s.block env c itemId passwd l ↔ ∃ k,
        (s.block.client c).curLobby = some k ∧ k ≠ l ∧ ChangeAccepted s.block env c l ∧
          (s.block.lobby l).numClients < (s.block.lobby l).maxClients := by
      rw [Enters, hmenu, joinSelected, joinGame_curLobby hprotect']
      exact henters
    have hcode : changeCode s.block env c itemId passwd =
        some (lobbyChangeLobby (submit s.block c l cmp) env c l).2 := by
      rw [changeCode, hmenu]
      dsimp only
      rw [if_neg (by simp [hprotect'])]
    constructor
    · intro hrespects
      refine ⟨?_, ?_, ?_⟩
      · intro hnowhere hshown
        have hnot := hrespects.admitted (hmem.mpr hshown) _ hcode
        rwa [lobbyChangeLobby_code_nowhere hb hcap env hnowhere l, not_not] at hnot
      · intro k hcur hne hoverride hok hspare
        have hlist := hrespects.entered (hin.mpr ⟨k, hcur, hne, hok, hspare⟩)
        rw [hmem, hoverride, or_iff_left Bool.false_ne_true] at hlist
        rw [ChangeAccepted, hoverride] at hok
        exact (shows_iff hgame hok _ _).mp hlist
      · intro hin' hshown hclass hreserved
        obtain ⟨k, hcur⟩ := Option.ne_none_iff_exists'.mp hin'
        obtain ⟨rv, hrv, hmember⟩ := (refused_code_iff env hshown).mpr ⟨hclass, hreserved⟩
        have hnot := hrespects.admitted (hmem.mpr hshown) _ hcode
        rw [lobbyChangeLobby_code hb hcap env hcur l] at hnot
        rw [show changeRefusal env ((submit s.block c l cmp).client c)
          ((submit s.block c l cmp).client c).overrideGame ((submit s.block c l cmp).lobby l) =
            some rv from hrv] at hnot
        exact hnot hmember
    · intro hagrees
      refine ⟨?_, ?_⟩
      · intro henter
        obtain ⟨k, hcur, hne, hok, hspare⟩ := hin.mp henter
        rw [hmem]
        cases hoverride : (s.block.client c).overrideGame with
        | true => exact Or.inr rfl
        | false =>
          have hlooked := hagrees.looked k hcur hne hoverride hok hspare
          rw [ChangeAccepted, hoverride] at hok
          exact Or.inl ((shows_iff hgame hok _ _).mpr hlooked)
      · intro hshown rv hrv hmember
        rw [hmem] at hshown
        rw [hcode, Option.some_inj] at hrv
        rw [← hrv] at hmember
        cases hcur : (s.block.client c).curLobby with
        | none =>
          exact (lobbyChangeLobby_code_nowhere hb hcap env hcur l).mp hmember
            (hagrees.placed hcur hshown)
        | some k =>
          have hin' : (s.block.client c).curLobby ≠ none := by
            rw [hcur]
            exact Option.some_ne_none k
          rw [lobbyChangeLobby_code hb hcap env hcur l] at hmember
          cases hrefusal : changeRefusal env ((submit s.block c l cmp).client c)
              ((submit s.block c l cmp).client c).overrideGame
              ((submit s.block c l cmp).lobby l) with
          | some rv =>
            rw [hrefusal] at hmember
            obtain ⟨hclass, hreserved⟩ := (refused_code_iff env hshown).mp
              ⟨rv, hrefusal, hmember⟩
            exact hagrees.unreserved hin' hshown hclass hreserved
          | none =>
            rw [hrefusal, Option.getD_none] at hmember
            split_ifs at hmember
            · exact absurd hmember (by decide)
            · exact absurd hmember (by decide)

/-- Client 0 plays version 2 and is in a game; client 1 plays on a Gamecube and is in a lobby. -/
def crossSelection : List CallEvent :=
  (obliging [.account 0 { ShipClient.fresh.account with version := .dcv2 },
    .charData 0 false newcomer, .gameCreate 0 (gameWith []), .doneBurst 0,
    .account 1 { ShipClient.fresh.account with version := .gc },
    .charData 1 false newcomer]).map (fun e => ⟨e.env, .packet e.action⟩)

/-- Neither game nor client belongs to a trial edition, and client 1 has not asked for the games
of the older versions. -/
def crossState : ListState where
  block := crossSelection.foldl callNext Block.start
  nte _ := false
  showDcpc _ := false

/-- Client 0 selects the game that it is in. -/
theorem gameSelection_respects_host : Respects crossState obligingEnv 0 0x20 [] 20 ↔
    (crossState.block.client 0).account.gcProtect = true ∨ Agrees crossState obligingEnv 0 20 :=
  gameSelection_respects (run_foldl callNext Block.start crossSelection)
    (show (processMenuGame crossState.block obligingEnv 0 0x20 []).2 = .ok 20 by decide) (by decide)

/-- Client 1 gets into the game, which its list does not show. -/
theorem gameSelection_not_respects :
    ¬ ∀ (s : ListState) (calls : List CallEvent),
      Run (StepOf callNext) Always Block.start calls s.block →
        ∀ env c itemId passwd l, Selects s.block env c itemId passwd l →
          (s.block.lobby l).type ≠ .lobby → Respects s env c itemId passwd l := by
  intro hall
  have hrespects := hall crossState crossSelection (run_foldl callNext Block.start crossSelection)
    obligingEnv 1 0x20 [] 20
    (show (processMenuGame crossState.block obligingEnv 1 0x20 []).2 = .ok 20 by decide) (by decide)
  have hlist := hrespects.entered ⟨by decide, by decide⟩
  revert hlist
  decide

end ShipServer.GameSelection
