import ShipServer.LabelledRuns
import ShipServer.NumberText
import ShipServer.LobbyRefinement
import ShipServer.BlockPackets

set_option autoImplicit false

/-! Who may be in a game, and the commands that change it. -/

namespace ShipServer.GameRestrictions

open LabelledRuns NumberText Versions LobbyRooms LobbyState LobbyFunctions LobbyRefinement
open BlockPackets

/-- A game, with `c->client_id` and the versions of the clients in it. -/
structure RestrictedGame extends Lobby where
  difficulty : Fin 4
  battle : Bool
  place : ClientId → Option Slot
  memberVersion : ClientId → ClientVersion

/-- How a game is made. Only Blue Burst has games for one player, only PC has the choice of the
game type. -/
inductive Creation where
  | game (a : GameArgs) (lobbyId : ℕ) (legit : Bool) (gameType : Option ℕ)
      (single : a.singlePlayer = true → a.version = .bb)
  | ep3Game (passwd : List UInt8) (lobbyId : ℕ)

/-- `lobby_create_game`, with the choice of the game type, and `lobby_create_ep3_game`. -/
def Creation.lobby : Creation → Lobby
  | .game a lobbyId legit gameType _ =>
    match gameType with
    | some itemId =>
      if a.version = .pc then setGameType itemId (newGame a lobbyId legit)
      else newGame a lobbyId legit
    | none => newGame a lobbyId legit
  | .ep3Game passwd lobbyId => newEp3Game passwd lobbyId

def created (k : Creation) : RestrictedGame where
  toLobby := k.lobby
  difficulty := match k with
    | .game a _ _ _ _ => a.difficulty
    | .ep3Game _ _ => 0
  battle := match k with
    | .game a _ _ _ _ => a.battle
    | .ep3Game _ _ => false
  place _ := none
  memberVersion _ := .dcv1

/-- `strtoul` with the base 10, for 64 bits: nothing if it sets `errno`. -/
def strtoulTen (s : String) : Option ℕ :=
  let n : Bool × ℕ :=
    match s.toList.dropWhile isSpace with
    | '-' :: cs => (true, readDigits 10 cs 0)
    | '+' :: cs => (false, readDigits 10 cs 0)
    | cs => (false, readDigits 10 cs 0)
  if 2 ^ 64 ≤ n.2 then none
  else some (if n.1 then (2 ^ 64 - n.2) % 2 ^ 64 else n.2)

/-- The level that a command names: a number of 32 bits from 1 to 200. -/
def commandLevel (params : String) : Option ℕ :=
  (strtoulTen params).bind fun n =>
    let lvl := Int.bmod n (2 ^ 32)
    if 200 < lvl ∨ lvl < 1 then none else some lvl.toNat

namespace RestrictedGame

def modSettings (g : RestrictedGame) (f : LobbySettings → LobbySettings) : RestrictedGame :=
  { g with settings := f g.settings }

/-- `/minlvl` of the client in a slot. -/
def handleMinLevel (g : RestrictedGame) (i : Slot) (params : String) : RestrictedGame :=
  if g.type = .lobby then g
  else if g.leaderId ≠ i then g
  else
    match commandLevel params with
    | none => g
    | some lvl =>
      if lvl < gameRequiredLevel g.difficulty then g
      else if g.settings.maxLevel < lvl then g
      else g.modSettings fun s => { s with minLevel := lvl }

/-- `/maxlvl`. -/
def handleMaxLevel (g : RestrictedGame) (i : Slot) (params : String) : RestrictedGame :=
  if g.type = .lobby then g
  else if g.leaderId ≠ i then g
  else
    match commandLevel params with
    | none => g
    | some lvl =>
      if lvl < g.settings.minLevel then g
      else g.modSettings fun s => { s with maxLevel := lvl }

/-- All clients of the game have versions of a kind. -/
def AllAre (g : RestrictedGame) (allowed : ClientVersion → Bool) : Prop :=
  ∀ i ∈ slots g.toRoom, ∀ c ∈ g.clients i, allowed (g.memberVersion c) = true

instance (g : RestrictedGame) (allowed : ClientVersion → Bool) : Decidable (g.AllAre allowed) :=
  inferInstanceAs (Decidable (∀ i ∈ slots g.toRoom, ∀ c ∈ g.clients i, _))

/-- The commands that keep other versions out: the versions that they allow, and the flag. -/
def restrictTo (g : RestrictedGame) (allowed : ClientVersion → Bool)
    (set : Bool → LobbySettings → LobbySettings) (i : Slot) (params : String) : RestrictedGame :=
  if g.type ≠ .game then g
  else if g.leaderId ≠ i then g
  else if params = "off" then g.modSettings (set false)
  else if g.AllAre allowed then g.modSettings (set true)
  else g

end RestrictedGame

def onDreamcast : ClientVersion → Bool
  | .dcv1 | .dcv2 => true
  | _ => false

def onV1 : ClientVersion → Bool
  | .dcv1 => true
  | _ => false

def setDcOnly (on : Bool) (s : LobbySettings) : LobbySettings :=
  { s with dcOnly := on }

def setV1Only (on : Bool) (s : LobbySettings) : LobbySettings :=
  { s with v1Only := on }

namespace RestrictedGame

/-- `/dconly`. -/
def handleDconly (g : RestrictedGame) (i : Slot) (params : String) : RestrictedGame :=
  g.restrictTo onDreamcast setDcOnly i params

/-- `/v1only`. -/
def handleV1only (g : RestrictedGame) (i : Slot) (params : String) : RestrictedGame :=
  g.restrictTo onV1 setV1Only i params

/-- `/allowgc`. -/
def handleAllowgc (g : RestrictedGame) (i : Slot) (localGm : Bool) (params : String) :
    RestrictedGame :=
  if localGm = false then g
  else if g.type ≠ .game then g
  else if g.leaderId ≠ i then g
  else if params = "off" then g.modSettings fun s => { s with gcAllowed := false }
  else if g.settings.dcOnly || g.settings.pcOnly || g.settings.v1Only then g
  else g.modSettings fun s => { s with gcAllowed := true }

/-- The slot that a number stands for. -/
def slotAt (g : RestrictedGame) (k : ℤ) : Option Slot :=
  (slots g.toRoom).find? fun j => (j : ℤ) = k

/-- The number of the NPC, its slot and the client to follow, out of what `sscanf` has read. -/
def npcArgs (g : RestrictedGame) (i : Slot) : List ℤ → Option (ℤ × Option Slot × Option Slot)
  | [] => none
  | [npc] => some (npc, (slots g.toRoom).reverse.find? (fun j => g.clients j = none), some i)
  | [npc, id] => some (npc, g.slotAt id, some i)
  | npc :: id :: follow :: _ => some (npc, g.slotAt id, g.slotAt follow)

/-- `/npc`, up to the flags that it sets. -/
def handleNpc (g : RestrictedGame) (i : Slot) (curArea : ℕ) (scanned : List ℤ) : RestrictedGame :=
  if g.type ≠ .game then g
  else if g.numClients ≠ 1 then g
  else if g.battle || g.challenge then g
  else if g.settings.questing then g
  else if curArea ≠ 0 then g
  else
    match g.npcArgs i scanned with
    | some (npc, some id, some follow) =>
      if npc < 0 ∨ 63 < npc then g
      else if (g.clients id).isSome then g
      else if g.clients follow = none then g
      else g.modSettings fun s => { s with singlePlayer := true }
    | _ => g

/-- `lobby_setSinglePlayer_lua`. -/
def setSinglePlayer (g : RestrictedGame) : RestrictedGame :=
  if g.numClients = 1 then g.modSettings fun s => { s with singlePlayer := true } else g

/-- `lobby_change_lobby` of a client that has no override, into the game. -/
def join (g : RestrictedGame) (env : Env) (c : ClientId) (x : ShipClient) : RestrictedGame :=
  match changeRefusal env x false g.toLobby with
  | some _ => g
  | none =>
    if (g.maxClients : ℤ) ≤ g.numClients then g
    else
      match freeSlot g.toRoom with
      | none => g
      | some i =>
        { g with
          toRoom := g.toRoom.enter c i
          leaderId := if g.numClients = 0 then i else g.leaderId
          place := Function.update g.place c (some i)
          memberVersion := Function.update g.memberVersion c x.account.version }

/-- The election of a new leader: on Dreamcast or PC, if there is one, and of any version. -/
structure Election where
  preGc : Option Slot
  any : Option Slot

/-- The leader has gone. Without a leader on Dreamcast or PC the game stops being a cross-platform
one. -/
def replaceLeader (g : RestrictedGame) (e : Election) : RestrictedGame :=
  if g.version < .gc ∧ g.settings.gcAllowed = true then
    match e.preGc with
    | some j => { g with leaderId := j }
    | none =>
      { g with
        version := .gc
        episode := 1
        settings := { g.settings with gcAllowed := false }
        leaderId := e.any.elim 0 Fin.val }
  else { g with leaderId := e.any.elim 0 Fin.val }

/-- `lobby_remove_client_locked`. -/
def leave (g : RestrictedGame) (c : ClientId) (e : Election) : RestrictedGame :=
  match g.place c with
  | none => g
  | some i =>
    if g.clients i = some c then
      let g := if (i : ℕ) = g.leaderId then g.replaceLeader e else g
      { g with
        toRoom := g.toRoom.release i g.version
        place := Function.update g.place c none }
    else g

end RestrictedGame

open RestrictedGame

inductive Event where
  | join (env : Env) (c : ClientId) (x : ShipClient)
  | leave (c : ClientId) (e : Election)
  | minLevel (c : ClientId) (params : String)
  | maxLevel (c : ClientId) (params : String)
  | dconly (c : ClientId) (params : String)
  | v1only (c : ClientId) (params : String)
  | allowgc (c : ClientId) (localGm : Bool) (params : String)
  | npc (c : ClientId) (curArea : ℕ) (scanned : List ℤ)
  | setSinglePlayer
  | quest (bursting questing questSel tempUnavail qJoin : Bool)

/-- A command of a client that is in the game. -/
def RestrictedGame.command (g : RestrictedGame) (c : ClientId) (f : Slot → RestrictedGame) :
    RestrictedGame :=
  match g.place c with
  | none => g
  | some i => f i

def next (g : RestrictedGame) : Event → RestrictedGame
  | .join env c x => if g.place c = none then g.join env c x else g
  | .leave c e => g.leave c e
  | .minLevel c params => g.command c fun i => g.handleMinLevel i params
  | .maxLevel c params => g.command c fun i => g.handleMaxLevel i params
  | .dconly c params => g.command c fun i => g.handleDconly i params
  | .v1only c params => g.command c fun i => g.handleV1only i params
  | .allowgc c localGm params => g.command c fun i => g.handleAllowgc i localGm params
  | .npc c curArea scanned => g.command c fun i => g.handleNpc i curArea scanned
  | .setSinglePlayer => g.setSinglePlayer
  | .quest bursting questing questSel tempUnavail qJoin =>
    { g with
      bursting := bursting
      settings := { g.settings with
        questing := questing, questSel := questSel, tempUnavail := tempUnavail, qJoin := qJoin } }

/-- The restrictions are those of the clients that are in the game. -/
structure Described (g : RestrictedGame) : Prop where
  gcAllowed : g.settings.gcAllowed = true →
    g.settings.dcOnly = false ∧ g.settings.pcOnly = false ∧ g.settings.v1Only = false
  dcOnly : g.settings.dcOnly = true →
    ∀ i c, g.clients i = some c → onDreamcast (g.memberVersion c) = true
  pcOnly : g.settings.pcOnly = true → ∀ i c, g.clients i = some c → g.memberVersion c = .pc
  v1Only : g.settings.v1Only = true →
    ∀ i c, g.clients i = some c → onV1 (g.memberVersion c) = true
  single : g.settings.singlePlayer = true → g.numClients ≤ 1
  required : gameRequiredLevel g.difficulty ≤ g.settings.minLevel
  ordered : g.settings.minLevel ≤ g.settings.maxLevel
  highest : g.settings.maxLevel ≤ 200

/-- A command that turns a restriction on finds Gamecube players not allowed. -/
def RestrictedGame.ClearToRestrict (g : RestrictedGame) (allowed : ClientVersion → Bool)
    (c : ClientId) (params : String) : Prop :=
  ∀ i, g.place c = some i → g.type = .game → g.leaderId = i → params ≠ "off" →
    g.AllAre allowed → g.settings.gcAllowed = false

def Clear (g : RestrictedGame) : Event → Prop
  | .dconly c params => g.ClearToRestrict onDreamcast c params
  | .v1only c params => g.ClearToRestrict onV1 c params
  | _ => True

structure Sound (g : RestrictedGame) : Prop extends Described g where
  room : g.toRoom.Sound

variable {g : RestrictedGame} {c : ClientId} {i : Slot}

theorem Sound.modSettings (h : Sound g) {f : LobbySettings → LobbySettings}
    (hf : Described (g.modSettings f)) : Sound (g.modSettings f) :=
  ⟨hf, h.room⟩

/-- The settings that a lobby is made with. -/
theorem creation_settings (k : Creation) :
    k.lobby.settings.dcOnly = false ∧ k.lobby.settings.v1Only = false ∧
      k.lobby.settings.gcAllowed = false ∧
      k.lobby.settings.minLevel = gameRequiredLevel (created k).difficulty ∧
      k.lobby.settings.maxLevel = 200 := by
  cases k with
  | ep3Game passwd lobbyId => exact ⟨rfl, rfl, rfl, rfl, rfl⟩
  | game a lobbyId legit gameType single =>
    cases gameType with
    | none => exact ⟨rfl, rfl, rfl, rfl, rfl⟩
    | some itemId =>
      simp only [Creation.lobby, setGameType]
      split_ifs <;> exact ⟨rfl, rfl, rfl, rfl, rfl⟩

theorem creation_empty (k : Creation) :
    k.lobby.clients = (fun _ => none) ∧ k.lobby.numClients = 0 := by
  cases k with
  | ep3Game passwd lobbyId => exact ⟨rfl, rfl⟩
  | game a lobbyId legit gameType single =>
    cases gameType with
    | none => exact ⟨rfl, rfl⟩
    | some itemId =>
      simp only [Creation.lobby, setGameType]
      split_ifs <;> exact ⟨rfl, rfl⟩

/-- Only a Blue Burst game may be too small for slot 1. -/
theorem newGame_roomy {a : GameArgs} (single : a.singlePlayer = true → a.version = .bb)
    (lobbyId : ℕ) (legit : Bool) (hlt : (newGame a lobbyId legit).version < .gc) :
    1 < (newGame a lobbyId legit).maxClients := by
  cases hs : a.singlePlayer with
  | false => simp [newGame, Lobby.zero, hs]
  | true =>
    have hbb := single hs
    have hversion : (newGame a lobbyId legit).version = .bb := by
      simp [newGame, GameArgs.platform, hbb]
    rw [hversion] at hlt
    exact absurd hlt (by decide)

theorem creation_roomy (k : Creation) (hgame : k.lobby.type = .game)
    (hlt : k.lobby.version < .gc) : 1 < k.lobby.maxClients := by
  cases k with
  | ep3Game passwd lobbyId => cases hgame
  | game a lobbyId legit gameType single =>
    cases gameType with
    | none => exact newGame_roomy single lobbyId legit hlt
    | some itemId =>
      simp only [Creation.lobby] at hlt ⊢
      split_ifs at hlt ⊢ with hpc
      · -- a PC game is for four
        have hsingle : a.singlePlayer = false := by
          rw [← Bool.not_eq_true]
          intro hs
          rw [single hs] at hpc
          cases hpc
        have hfour : (newGame a lobbyId legit).maxClients = 4 := by
          simp [newGame, Lobby.zero, hsingle]
        rw [setGameType]
        split_ifs
        · change 1 < (newGame a lobbyId legit).maxClients
          omega
        · change 1 < (newGame a lobbyId legit).maxClients
          omega
        · omega
      · exact newGame_roomy single lobbyId legit hlt

theorem created_sound (k : Creation) : Sound (created k) := by
  obtain ⟨hdc, hv1, hgc, hmin, hmax⟩ := creation_settings k
  obtain ⟨hclients, hcount⟩ := creation_empty k
  have hnobody : ∀ i c, (created k).clients i ≠ some c := by
    intro i c
    change k.lobby.clients i ≠ some c
    rw [hclients]
    exact Option.some_ne_none c |>.symm
  have hlevel : gameRequiredLevel (created k).difficulty ≤ 200 := by
    generalize (created k).difficulty = d
    revert d
    decide
  refine
    { gcAllowed := fun h => ?_
      dcOnly := fun _ i c hc => absurd hc (hnobody i c)
      pcOnly := fun _ i c hc => absurd hc (hnobody i c)
      v1Only := fun _ i c hc => absurd hc (hnobody i c)
      single := fun _ => ?_
      required := hmin.ge
      ordered := ?_
      highest := hmax.le
      room := ⟨?_, fun i c hc => absurd hc (hnobody i c), creation_roomy k⟩ }
  · exact absurd (hgc.symm.trans h) Bool.false_ne_true
  · exact hcount.le.trans zero_le_one
  · exact (hmin.trans_le hlevel).trans hmax.ge
  · change k.lobby.numClients = (headcount k.lobby.clients : ℤ)
    rw [hclients, hcount]
    decide

/-- The check of the slots that a game has is one of all its clients. -/
theorem Sound.allAre (h : Sound g) {allowed : ClientVersion → Bool} (hall : g.AllAre allowed)
    (hi : g.clients i = some c) : allowed (g.memberVersion c) = true := by
  refine hall i ?_ c hi
  rw [slots, List.mem_filter, decide_eq_true_eq]
  exact ⟨List.mem_finRange i, h.room.below i c hi⟩

theorem restrictTo_keeps (h : Sound g) {allowed : ClientVersion → Bool}
    {set : Bool → LobbySettings → LobbySettings} (hi : g.place c = some i) (params : String)
    (hoff : Described (g.modSettings (set false)))
    (hon : g.AllAre allowed → g.settings.gcAllowed = false → Described (g.modSettings (set true)))
    (hflag : Described (g.modSettings (set true)) → g.settings.gcAllowed = false) :
    Keeps Sound Described (g.restrictTo allowed set i params)
      (g.ClearToRestrict allowed c params) := by
  rw [restrictTo]
  split_ifs with htype hleader hparams hall
  · exact keeps_of_invariant h fun j hj hgame => absurd hgame htype
  · refine keeps_of_invariant h fun j hj _ hlead => ?_
    rw [Option.some_inj.mp (hi.symm.trans hj)] at hleader
    exact absurd hlead hleader
  · exact keeps_of_invariant (h.modSettings hoff) fun j hj _ _ hne => absurd hparams hne
  · rw [ne_eq, not_not] at htype hleader
    constructor
    · intro hclear
      exact h.modSettings (hon hall (hclear i hi htype hleader hparams hall))
    · intro hdescribed j hj _ _ _ _
      exact hflag hdescribed
  · exact keeps_of_invariant h fun j hj _ _ _ hall' => absurd hall' hall

theorem handleDconly_keeps (h : Sound g) (hi : g.place c = some i) (params : String) :
    Keeps Sound Described (g.handleDconly i params)
      (g.ClearToRestrict onDreamcast c params) := by
  refine restrictTo_keeps h hi params ?_ (fun hall hgc => ?_) fun hdescribed => ?_
  · exact
      { h.toDescribed with
        gcAllowed := fun hgc => ⟨rfl, (h.gcAllowed hgc).2⟩
        dcOnly := fun hdc => nomatch hdc }
  · exact
      { h.toDescribed with
        gcAllowed := fun hgc' => absurd (hgc.symm.trans hgc') Bool.false_ne_true
        dcOnly := fun _ j d hd => h.allAre hall hd }
  · rw [← Bool.not_eq_true]
    intro hgc
    exact absurd (hdescribed.gcAllowed hgc).1 Bool.true_eq_false.mp

theorem handleV1only_keeps (h : Sound g) (hi : g.place c = some i) (params : String) :
    Keeps Sound Described (g.handleV1only i params) (g.ClearToRestrict onV1 c params) := by
  refine restrictTo_keeps h hi params ?_ (fun hall hgc => ?_) fun hdescribed => ?_
  · exact
      { h.toDescribed with
        gcAllowed := fun hgc => ⟨(h.gcAllowed hgc).1, (h.gcAllowed hgc).2.1, rfl⟩
        v1Only := fun hv1 => nomatch hv1 }
  · exact
      { h.toDescribed with
        gcAllowed := fun hgc' => absurd (hgc.symm.trans hgc') Bool.false_ne_true
        v1Only := fun _ j d hd => h.allAre hall hd }
  · rw [← Bool.not_eq_true]
    intro hgc
    exact absurd (hdescribed.gcAllowed hgc).2.2 Bool.true_eq_false.mp

/-- The level limits of a game that keeps its other settings. -/
theorem Sound.levels (h : Sound g) {minLevel maxLevel : ℕ}
    (hrequired : gameRequiredLevel g.difficulty ≤ minLevel) (hordered : minLevel ≤ maxLevel)
    (hhighest : maxLevel ≤ 200) :
    Sound (g.modSettings fun s => { s with minLevel := minLevel, maxLevel := maxLevel }) :=
  h.modSettings
    { h.toDescribed with
      required := hrequired
      ordered := hordered
      highest := hhighest }

theorem commandLevel_le {params : String} {lvl : ℕ} (h : commandLevel params = some lvl) :
    lvl ≤ 200 := by
  obtain ⟨n, -, hn⟩ := Option.bind_eq_some_iff.mp h
  generalize Int.bmod n (2 ^ 32) = level at hn
  by_cases hrange : 200 < level ∨ level < 1
  · rw [if_pos hrange] at hn
    cases hn
  · rw [if_neg hrange, Option.some_inj] at hn
    omega

theorem handleMinLevel_sound (h : Sound g) (i : Slot) (params : String) :
    Sound (g.handleMinLevel i params) := by
  rw [handleMinLevel]
  split_ifs with htype hleader
  · exact h
  · exact h
  · split
    · exact h
    · split_ifs with hrequired hordered
      · exact h
      · exact h
      · exact h.levels (not_lt.mp hrequired) (not_lt.mp hordered) h.highest

theorem handleMaxLevel_sound (h : Sound g) (i : Slot) (params : String) :
    Sound (g.handleMaxLevel i params) := by
  rw [handleMaxLevel]
  split_ifs with htype hleader
  · exact h
  · exact h
  · split
    · exact h
    · rename_i lvl hlevel
      split_ifs with hordered
      · exact h
      · exact h.levels h.required (not_lt.mp hordered) (commandLevel_le hlevel)

theorem handleAllowgc_sound (h : Sound g) (i : Slot) (localGm : Bool) (params : String) :
    Sound (g.handleAllowgc i localGm params) := by
  rw [handleAllowgc]
  split_ifs with hgm htype hleader hparams hconflict
  · exact h
  · exact h
  · exact h
  · exact h.modSettings { h.toDescribed with gcAllowed := fun hgc => nomatch hgc }
  · exact h
  · rw [Bool.or_eq_true, Bool.or_eq_true, not_or, not_or, Bool.not_eq_true, Bool.not_eq_true,
      Bool.not_eq_true] at hconflict
    obtain ⟨⟨hdc, hpc⟩, hv1⟩ := hconflict
    exact h.modSettings { h.toDescribed with gcAllowed := fun _ => ⟨hdc, hpc, hv1⟩ }

/-- A game with one client in it can be made a game for one. -/
theorem Sound.alone (h : Sound g) (hone : g.numClients = 1) :
    Sound (g.modSettings fun s => { s with singlePlayer := true }) :=
  h.modSettings { h.toDescribed with single := fun _ => hone.le }

theorem handleNpc_sound (h : Sound g) (i : Slot) (curArea : ℕ) (scanned : List ℤ) :
    Sound (g.handleNpc i curArea scanned) := by
  rw [handleNpc]
  by_cases hone : g.numClients = 1
  · have halone := h.alone hone
    repeat' split
    all_goals first | exact h | exact halone
  · rw [if_pos (c := g.numClients ≠ 1) hone]
    split_ifs
    · exact h
    · exact h

theorem setSinglePlayer_sound (h : Sound g) : Sound g.setSinglePlayer := by
  rw [setSinglePlayer]
  split_ifs with hone
  · exact h.alone hone
  · exact h

/-- What the checks of `lobby_change_lobby` let through. -/
structure Admitted (g : RestrictedGame) (v : ClientVersion) : Prop where
  single : g.settings.singlePlayer = true → g.numClients = 0
  pcOnly : g.settings.pcOnly = true → v = .pc
  v1Only : g.settings.v1Only = true → onV1 v = true
  dcOnly : g.settings.dcOnly = true → onDreamcast v = true

theorem admitted_of_changeRefusal {env : Env} {x : ShipClient}
    (h : changeRefusal env x false g.toLobby = none) : Admitted g x.account.version := by
  rw [changeRefusal, Option.map_eq_none_iff, List.find?_eq_none] at h
  simp only [changeChecks, List.mem_cons, List.not_mem_nil, or_false, forall_eq_or_imp,
    forall_eq, decide_eq_true_eq, not_and, Bool.not_false, not_true_eq_false, imp_false,
    not_not] at h
  obtain ⟨-, hsingle, hpc, hv1, hdc, -⟩ := h
  refine ⟨hsingle, hpc, fun hflag => ?_, fun hflag => ?_⟩
  · rw [hv1 hflag]
    rfl
  · have hold := hdc hflag
    cases hversion : x.account.version with
    | dcv1 => rfl
    | dcv2 => rfl
    | pc | gc | ep3 | bb | xbox =>
      rw [hversion] at hold
      exact absurd (hold (by decide)) (by decide)

theorem join_sound (h : Sound g) (env : Env) (x : ShipClient) : Sound (g.join env c x) := by
  rw [RestrictedGame.join]
  split
  · exact h
  · rename_i hrefusal
    have hadmitted := admitted_of_changeRefusal hrefusal
    by_cases hfull : (g.maxClients : ℤ) ≤ g.numClients
    · rw [if_pos hfull]
      exact h
    · rw [if_neg hfull]
      split
      · exact h
      · rename_i i hfree
        obtain ⟨hnone, hlt⟩ := freeSlot_spec h.room hfree
        -- whoever is in the game now was in it before, or is the newcomer
        have hversions : ∀ P : ClientVersion → Prop, P x.account.version →
            (∀ j d, g.clients j = some d → P (g.memberVersion d)) →
            ∀ j d, (g.toRoom.enter c i).clients j = some d →
              P (Function.update g.memberVersion c x.account.version d) := by
          intro P hx hold j d hd
          by_cases hdc : d = c
          · rw [hdc, Function.update_self]
            exact hx
          · rw [Function.update_of_ne hdc]
            change Function.update g.clients i (some c) j = some d at hd
            by_cases hj : j = i
            · rw [hj, Function.update_self] at hd
              exact absurd (Option.some_inj.mp hd).symm hdc
            · rw [Function.update_of_ne hj] at hd
              exact hold j d hd
        exact
          { h.toDescribed with
            dcOnly := fun hdc => hversions (onDreamcast · = true) (hadmitted.dcOnly hdc)
              (h.dcOnly hdc)
            pcOnly := fun hpc => hversions (· = .pc) (hadmitted.pcOnly hpc) (h.pcOnly hpc)
            v1Only := fun hv1 => hversions (onV1 · = true) (hadmitted.v1Only hv1) (h.v1Only hv1)
            single := fun hsingle => by
              change g.numClients + 1 ≤ 1
              rw [hadmitted.single hsingle]
              exact le_rfl
            room := h.room.enter hnone hlt }

theorem replaceLeader_sound (h : Sound g) (e : Election) :
    Sound (g.replaceLeader e) ∧ ((g.replaceLeader e).version = g.version ∨
      (g.replaceLeader e).version = .gc) ∧ (g.replaceLeader e).clients = g.clients := by
  rw [RestrictedGame.replaceLeader]
  split_ifs with hcross
  · split
    · exact ⟨⟨{ h.toDescribed with }, h.room⟩, Or.inl rfl, rfl⟩
    · refine ⟨⟨{ h.toDescribed with gcAllowed := fun hgc => nomatch hgc }, ?_⟩, Or.inr rfl, rfl⟩
      exact ⟨h.room.count, h.room.below, fun _ hlt => absurd hlt (Nat.lt_irrefl _)⟩
  · exact ⟨⟨{ h.toDescribed with }, h.room⟩, Or.inl rfl, rfl⟩

/-- A client that leaves takes no restriction away from the others. -/
theorem Sound.release (h : Sound g) (hi : g.clients i = some c) :
    Sound { g with
      toRoom := g.toRoom.release i g.version
      place := Function.update g.place c none } := by
  have hold : ∀ j d, (g.toRoom.release i g.version).clients j = some d →
      g.clients j = some d := by
    intro j d hd
    change Function.update g.clients i none j = some d at hd
    by_cases hj : j = i
    · rw [hj, Function.update_self] at hd
      cases hd
    · rw [Function.update_of_ne hj] at hd
      exact hd
  exact
    { h.toDescribed with
      dcOnly := fun hdc j d hd => h.dcOnly hdc j d (hold j d hd)
      pcOnly := fun hpc j d hd => h.pcOnly hpc j d (hold j d hd)
      v1Only := fun hv1 j d hd => h.v1Only hv1 j d (hold j d hd)
      single := fun hsingle => (sub_le_self g.numClients zero_le_one).trans (h.single hsingle)
      room := h.room.release hi (Or.inl rfl) }

theorem leave_sound (h : Sound g) (e : Election) : Sound (g.leave c e) := by
  rw [RestrictedGame.leave]
  split
  · exact h
  · rename_i i hplace
    split_ifs with hi hleader
    · obtain ⟨hsound, -, hclients⟩ := replaceLeader_sound h e
      refine hsound.release ?_
      rw [hclients]
      exact hi
    · exact h.release hi
    · exact h

theorem command_keeps {f : Slot → RestrictedGame} {condition : Prop} (h : Sound g)
    (hcondition : g.place c = none → condition)
    (hf : ∀ i, g.place c = some i → Keeps Sound Described (f i) condition) :
    Keeps Sound Described (g.command c f) condition := by
  rw [command]
  cases hplace : g.place c with
  | none => exact keeps_of_invariant h (hcondition hplace)
  | some i => exact hf i hplace

theorem next_keeps (h : Sound g) (e : Event) : Keeps Sound Described (next g e) (Clear g e) := by
  cases e with
  | join env c x =>
    rw [next]
    split_ifs
    · exact keeps_of_invariant (join_sound h env x) trivial
    · exact keeps_of_invariant h trivial
  | leave c e => exact keeps_of_invariant (leave_sound h e) trivial
  | minLevel c params =>
    refine command_keeps h (fun _ => trivial) fun i _ => ?_
    exact keeps_of_invariant (handleMinLevel_sound h i params) trivial
  | maxLevel c params =>
    refine command_keeps h (fun _ => trivial) fun i _ => ?_
    exact keeps_of_invariant (handleMaxLevel_sound h i params) trivial
  | dconly c params =>
    refine command_keeps h (fun hplace i hi => ?_) fun i hi => handleDconly_keeps h hi params
    rw [hplace] at hi
    cases hi
  | v1only c params =>
    refine command_keeps h (fun hplace i hi => ?_) fun i hi => handleV1only_keeps h hi params
    rw [hplace] at hi
    cases hi
  | allowgc c localGm params =>
    refine command_keeps h (fun _ => trivial) fun i _ => ?_
    exact keeps_of_invariant (handleAllowgc_sound h i localGm params) trivial
  | npc c curArea scanned =>
    refine command_keeps h (fun _ => trivial) fun i _ => ?_
    exact keeps_of_invariant (handleNpc_sound h i curArea scanned) trivial
  | setSinglePlayer => exact keeps_of_invariant (setSinglePlayer_sound h) trivial
  | quest bursting questing questSel tempUnavail qJoin =>
    exact keeps_of_invariant
      ⟨{ h.toDescribed with }, ⟨h.room.count, h.room.below, h.room.roomy⟩⟩ trivial

/-- The restrictions describe the members in all states of a run exactly when no step of the run
turns a restriction on where Gamecube players are allowed. -/
theorem restrictions_described (k : Creation) (es : List Event) :
    Run (StepOf next) Clear (created k) es (es.foldl next (created k)) ↔
      ∀ fs, fs <+: es → Described (fs.foldl next (created k)) :=
  run_iff_prefixes_of_keeps (I := Sound) (fun _ h => h.toDescribed) (fun _ e h => next_keeps h e)
    (created_sound k) es

/-- A player on Dreamcast, of version 1. -/
def v1Player : ShipClient :=
  ShipClient.fresh

/-- The leader of a game of version 1, a game master, allows Gamecube players and then turns the
Dreamcast restriction on. -/
def allowedAndRestricted : List Event :=
  [.join obligingEnv 0 v1Player, .allowgc 0 true "", .dconly 0 ""]

theorem restrictions_not_described :
    ¬∀ (k : Creation) (es : List Event), Described (es.foldl next (created k)) := by
  intro h
  have hgc := (h (.game
    { passwd := [], difficulty := 0, battle := false, chal := false, v2 := false,
      version := .dcv1, episode := 0, singlePlayer := false } 0x20 false none (by decide))
    allowedAndRestricted).gcAllowed (by decide)
  exact absurd hgc.1 (by decide)

end ShipServer.GameRestrictions
