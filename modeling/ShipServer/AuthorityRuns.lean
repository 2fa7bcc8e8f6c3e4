import ShipServer.CommandChecks

set_option autoImplicit false

/-! The commands of a client over whole runs. -/

namespace ShipServer.AuthorityRuns

open LabelledRuns CommandState CommandHandlers PlayerCommands CommandAuthority CommandChecks

variable {Lim : Type} {o : Outside Lim} {s : Ship Lim} {c : ClientId} {params : List Char}

def banCommands : List String := ["ban:d", "ban:w", "ban:m", "ban:p"]

def gbanCommands : List String := ["gban:d", "gban:w", "gban:m", "gban:p"]

/-- A command hits nobody who has a privilege that its client has not, apart from those whom the
comparison of the numbers saves. -/
def Rightful (o : Outside Lim) (s : Ship Lim) (c : ClientId) (cmd : String)
    (params : List Char) : Prop :=
  if cmd = "kill" then
    localGm (s.clients c) = true → ∀ gc ∈ (scanGuildcard params).1, FairKill s c gc
  else if cmd = "stfu" then
    localGm (s.clients c) = true → ∀ gc ∈ (scanGuildcard params).1, FairMute s c gc
  else if cmd = "ib" then
    localGm (s.clients c) = true → o.banAllocated = true → o.bansSaved = true →
      ∀ addr ∈ (strtok (strtok params).2).1.bind o.pton4, FairBan s c (hasAddress addr)
  else if cmd ∈ banCommands then
    localGm (s.clients c) = true → o.banAllocated = true → o.bansSaved = true →
      ∀ gc ∈ (scanGuildcard params).1, FairBan s c (hasGuildcard gc)
  else if cmd ∈ gbanCommands then
    globalGm (s.clients c) = true → o.gateSends = true →
      ∀ gc ∈ (scanGuildcard params).1, FairGlobalBan s c gc
  else True

/-- The same of the text of a command. -/
def RightfulText (o : Outside Lim) (s : Ship Lim) (c : ClientId) (txt : List Char) : Prop :=
  Rightful o s c (String.ofList (splitCommand 9 (txt.drop 3)).1)
    (splitCommand 9 (txt.drop 3)).2.tail

/-- An entry of the table of commands does what its client may do. -/
def Sound (e : String × Handler Lim) : Prop :=
  ∀ (o : Outside Lim) (s : Ship Lim) (c : ClientId) (params : List Char),
    Rightful o s c e.1 params → Proper c s (e.2 o s c params)

theorem sound_of_proper {name : String} {f : Handler Lim}
    (h : ∀ {o : Outside Lim} {s : Ship Lim} {c : ClientId} {params : List Char},
      Proper c s (f o s c params)) : Sound (name, f) :=
  fun _ _ _ _ _ => h

theorem sound_kill : Sound ("kill", (handleKill : Handler Lim)) := by
  intro o s c params h
  change Proper c s (handleKill o s c params)
  exact proper_kill h

theorem sound_stfu : Sound ("stfu", (handleStfu : Handler Lim)) := by
  intro o s c params h
  change Proper c s (handleStfu o s c params)
  exact proper_stfu h

theorem sound_ib : Sound ("ib", (handleIb : Handler Lim)) := by
  intro o s c params h
  exact proper_ib h

theorem sound_ban {name : String} {length : Option ℤ}
    (h : (name ≠ "kill" ∧ name ≠ "stfu" ∧ name ≠ "ib") ∧ name ∈ banCommands) :
    Sound (name, (banFor length : Handler Lim)) := by
  intro o s c params hright
  unfold Rightful at hright
  rw [if_neg h.1.1, if_neg h.1.2.1, if_neg h.1.2.2, if_pos h.2] at hright
  exact proper_ban hright

theorem sound_gban {name : String} {length : ℕ}
    (h : (name ≠ "kill" ∧ name ≠ "stfu" ∧ name ≠ "ib") ∧ name ∉ banCommands ∧
      name ∈ gbanCommands) : Sound (name, (gbanFor length : Handler Lim)) := by
  intro o s c params hright
  unfold Rightful at hright
  rw [if_neg h.1.1, if_neg h.1.2.1, if_neg h.1.2.2, if_neg h.2.1, if_pos h.2.2] at hright
  exact proper_gban hright

/-- Every entry of the table, in its order. -/
theorem cmds_sound : ∀ e ∈ (cmds : List (String × Handler Lim)), Sound e := by
  simp only [cmds, List.forall_mem_cons]
  exact
    ⟨sound_of_proper proper_warp,
    sound_kill,
    sound_of_proper proper_minLevel,
    sound_of_proper proper_maxLevel,
    sound_of_proper proper_refresh,
    sound_of_proper (proper_slot fun _ => trivial),
    sound_of_proper (proper_slot fun _ => trivial),
    sound_of_proper proper_tells,
    sound_of_proper proper_bcast,
    sound_of_proper proper_arrow,
    sound_of_proper proper_login,
    sound_of_proper proper_item,
    sound_of_proper proper_item4,
    sound_of_proper proper_event,
    sound_of_proper proper_passwd,
    sound_of_proper proper_lname,
    sound_of_proper proper_warpall,
    sound_of_proper proper_tells,
    sound_of_proper proper_tells,
    sound_gban (by decide),
    sound_gban (by decide),
    sound_gban (by decide),
    sound_gban (by decide),
    sound_of_proper proper_tells,
    sound_of_proper proper_legit,
    sound_of_proper proper_normal,
    sound_of_proper proper_shutdown,
    sound_of_proper proper_log,
    sound_of_proper proper_endlog,
    sound_of_proper proper_tells,
    sound_of_proper proper_friendadd,
    sound_of_proper proper_frienddel,
    sound_of_proper proper_dconly,
    sound_of_proper proper_v1only,
    sound_of_proper proper_tells,
    sound_of_proper proper_invuln,
    sound_of_proper proper_inftp,
    sound_of_proper proper_smite,
    sound_of_proper proper_makeitem,
    sound_of_proper proper_teleport,
    sound_of_proper proper_tells,
    sound_of_proper proper_showdcpc,
    sound_of_proper proper_allowgc,
    sound_of_proper proper_ws,
    sound_of_proper proper_tells,
    sound_of_proper proper_npc,
    sound_stfu,
    sound_of_proper proper_unstfu,
    sound_of_proper proper_ignore,
    sound_of_proper proper_unignore,
    sound_of_proper proper_quit,
    sound_of_proper proper_gameevent,
    sound_ban (by decide),
    sound_ban (by decide),
    sound_ban (by decide),
    sound_ban (by decide),
    sound_of_proper proper_unban,
    sound_of_proper proper_cc,
    sound_of_proper proper_qlang,
    sound_of_proper proper_friends,
    sound_of_proper proper_gbc,
    sound_of_proper proper_logout,
    sound_of_proper proper_override,
    sound_of_proper proper_tells,
    sound_of_proper proper_shutdown,
    sound_of_proper proper_search,
    sound_of_proper proper_tells,
    sound_of_proper proper_maps,
    sound_of_proper proper_tells,
    sound_of_proper proper_restorebk,
    sound_of_proper proper_enablebk,
    sound_of_proper proper_disablebk,
    sound_of_proper proper_exp,
    sound_of_proper proper_level,
    sound_of_proper proper_sdrops,
    sound_of_proper proper_gcprotect,
    sound_of_proper proper_trackinv,
    sound_of_proper proper_trackkill,
    sound_of_proper proper_ep3music,
    sound_of_proper proper_login,
    sound_of_proper proper_tells,
    sound_of_proper proper_tells,
    sound_of_proper proper_tells,
    sound_of_proper proper_tells,
    sound_of_proper proper_teleport,
    sound_of_proper proper_tells,
    sound_of_proper proper_t,
    sound_of_proper proper_tells,
    sound_of_proper proper_quest,
    sound_of_proper proper_autolegit,
    sound_of_proper proper_censor,
    sound_of_proper proper_teamLog,
    sound_of_proper proper_teamLog,
    sound_ib,
    sound_of_proper proper_xblink,
    sound_of_proper proper_tells,
    fun _ hmem => absurd hmem List.not_mem_nil⟩

theorem proper_commandCall {txt : List Char} (h : RightfulText o s c txt) :
    Proper c s (commandCall o s c txt) := by
  unfold RightfulText at h
  unfold commandCall
  dsimp only
  cases hfind : (cmds : List (String × Handler Lim)).find? fun e =>
      e.1.toList = (splitCommand 9 (txt.drop 3)).1 with
  | none => exact proper_sends (harmless_single trivial)
  | some e =>
    have hname := List.find?_some hfind
    have hcmd : String.ofList (splitCommand 9 (txt.drop 3)).1 = e.1 := by
      rw [← of_decide_eq_true hname, String.ofList_toList]
    rw [hcmd] at h
    exact cmds_sound e (List.mem_of_find?_eq_some hfind) o s c _ h

theorem proper_processGmMenu {menuId itemId : BitVec 32} :
    Proper c s (processGmMenu o s c menuId itemId) := by
  unfold processGmMenu
  refine proper_gmOnly fun hgm => ?_
  refine proper_ite (proper_ite proper_refreshQuests (proper_ite proper_refreshGms
    (proper_ite proper_refreshLimits proper_answer))) ?_
  refine proper_ite proper_schedule (proper_ite ?_ (proper_ite ?_ proper_answer))
  · exact proper_ite (proper_gmShip hgm rfl rfl) proper_answer
  · exact proper_ite (proper_gmShip hgm rfl rfl) proper_answer

theorem proper_processMenu {menuId itemId : BitVec 32} :
    Proper c s (processMenu o s c menuId itemId) :=
  proper_unless fun _ => proper_ite proper_processGmMenu proper_answer

/-- The ship, and the privileges that replies to logins have granted the client since it logged
out, if it has logged out. -/
structure World (Lim : Type) where
  ship : Ship Lim
  granted : Option (BitVec 32)

/-- What happens to a client: a command or a packet of the GM menu, the reply of the shipgate to a
login, a login to the block, or anything that is not about its login. -/
inductive Event (Lim : Type) where
  | chat (o : Outside Lim) (txt : List Char)
  | menu (o : Outside Lim) (menuId itemId : BitVec 32)
  | loginReply (priv : BitVec 32)
  | blockLogin (guildcard : BitVec 32)
  | other (s : Ship Lim)

/-- What the client itself does. -/
def Event.outcome (c : ClientId) (s : Ship Lim) : Event Lim → Option (Outcome Lim)
  | .chat o txt => some (commandCall o s c txt)
  | .menu o menuId itemId => some (processMenu o s c menuId itemId)
  | _ => none

/-- After a logout nothing has been granted yet. -/
def World.after (w : World Lim) (c : ClientId) (s : Ship Lim) : World Lim where
  ship := s
  granted :=
    if (w.ship.clients c).flags.loggedIn = true ∧ (s.clients c).flags.loggedIn = false then some 0
    else w.granted

/-- `is_gm`. -/
def isGm (s : Ship Lim) (gc : BitVec 32) : BitVec 32 :=
  (s.gmList.lookup gc).getD 0

/-- `handle_usrlogin`, for the client. -/
def handleUsrlogin (s : Ship Lim) (c : ClientId) (priv : BitVec 32) : Ship Lim :=
  s.modClient c fun i =>
    { i with
      privilege := i.privilege ||| priv
      flags := { i.flags with loggedIn := true, gcProtect := false } }

def next (c : ClientId) (w : World Lim) : Event Lim → World Lim
  | .chat o txt => w.after c (commandCall o w.ship c txt).1
  | .menu o menuId itemId => w.after c (processMenu o w.ship c menuId itemId).1
  | .loginReply priv => ⟨handleUsrlogin w.ship c priv, w.granted.map (· ||| priv)⟩
  | .blockLogin gc =>
    ⟨w.ship.modClient c fun i => { i with guildcard := gc, privilege := isGm w.ship gc },
      w.granted⟩
  | .other s =>
    ⟨s.modClient c fun i =>
      { i with
        privilege := (w.ship.clients c).privilege
        flags := { i.flags with loggedIn := (w.ship.clients c).flags.loggedIn } }, w.granted⟩

/-- A command is rightful, and no login of any kind brings back a privilege from before a logout. -/
def Good (c : ClientId) (w : World Lim) : Event Lim → Prop
  | .chat o txt => RightfulText o w.ship c txt
  | .menu _ _ _ => True
  | .loginReply priv => ∀ g ∈ w.granted, ∀ p,
      grants (w.ship.clients c).privilege p = true → grants (g ||| priv) p = true
  | .blockLogin gc => (w.ship.clients c).flags.loggedIn = true → ∀ g ∈ w.granted, ∀ p,
      grants (isGm w.ship gc) p = true → grants g p = true
  | .other _ => True

/-- The client is logged in and has the privilege, and where it has logged out a login has granted
the privilege since. -/
def May (w : World Lim) (c : ClientId) (p : Privilege) : Prop :=
  Has w.ship c p ∧ ∀ g ∈ w.granted, grants g p = true

/-- Whatever the client does in a state is authorised and fair. -/
def Obeys (c : ClientId) (w : World Lim) (e : Event Lim) : Prop :=
  ∀ r ∈ e.outcome c w.ship, Authorised (May w c) c w.ship r ∧ Fair c w.ship r

/-- A client that is logged in has no privilege that it was not granted. -/
def Granted (c : ClientId) (w : World Lim) : Prop :=
  (w.ship.clients c).flags.loggedIn = true → ∀ g ∈ w.granted, ∀ p,
    grants (w.ship.clients c).privilege p = true → grants g p = true

theorem grants_or (a b : BitVec 32) (p : Privilege) :
    grants (a ||| b) p = true ↔ grants a p = true ∨ grants b p = true := by
  unfold grants
  rw [decide_eq_true_iff, decide_eq_true_iff, decide_eq_true_iff]
  have hsplit : (a ||| b) &&& p.mask = (a &&& p.mask) ||| (b &&& p.mask) := by
    ext i
    simp only [BitVec.getElem_and, BitVec.getElem_or, Bool.and_or_distrib_right]
  have hzero : (a &&& p.mask) ||| (b &&& p.mask) = 0 ↔ a &&& p.mask = 0 ∧ b &&& p.mask = 0 :=
    BitVec.or_eq_zero_iff
  rw [hsplit, ne_eq, hzero]
  tauto

theorem granted_after {w : World Lim} {s' : Ship Lim} (hw : Granted c w)
    (hmeek : Meek c w.ship s') : Granted c (w.after c s') := by
  intro hin g hg p hp
  obtain ⟨hbefore, hsame⟩ := hmeek hin
  have hkept : (w.after c s').granted = w.granted := by
    refine if_neg fun hout => ?_
    exact absurd (hin.symm.trans hout.2) (by decide)
  rw [hkept] at hg
  exact hw hbefore g hg p (hsame ▸ hp)

/-- The steps of a client keep to what it was granted. -/
theorem granted_next {w : World Lim} {e : Event Lim} (hw : Granted c w) (hgood : Good c w e) :
    Granted c (next c w e) := by
  cases e with
  | chat o txt => exact granted_after hw (proper_commandCall hgood).meek
  | menu o menuId itemId => exact granted_after hw proper_processMenu.meek
  | loginReply priv =>
    intro _ g hg p hp
    obtain ⟨g', hg', rfl⟩ := Option.mem_map.mp hg
    have hprivilege : ((next c w (.loginReply priv)).ship.clients c).privilege =
        (w.ship.clients c).privilege ||| priv := by
      dsimp only [next, handleUsrlogin]
      rw [modClient_self]
    rw [hprivilege, grants_or] at hp
    rcases hp with hkept | hnew
    · exact hgood g' hg' p hkept
    · exact (grants_or _ _ _).mpr (.inr hnew)
  | blockLogin gc =>
    intro hin g hg p hp
    have hself : ((next c w (.blockLogin gc)).ship.clients c).flags = (w.ship.clients c).flags ∧
        ((next c w (.blockLogin gc)).ship.clients c).privilege = isGm w.ship gc := by
      dsimp only [next]
      rw [modClient_self]
      exact ⟨rfl, rfl⟩
    exact hgood (hself.1 ▸ hin) g hg p (hself.2 ▸ hp)
  | other s' =>
    intro hin g hg p hp
    have hself : ((next c w (.other s')).ship.clients c).flags.loggedIn =
          (w.ship.clients c).flags.loggedIn ∧
        ((next c w (.other s')).ship.clients c).privilege = (w.ship.clients c).privilege := by
      dsimp only [next]
      rw [modClient_self]
      exact ⟨rfl, rfl⟩
    exact hw (hself.1 ▸ hin) g hg p (hself.2 ▸ hp)

theorem obeys_of_granted {w : World Lim} {e : Event Lim} (hw : Granted c w) (hgood : Good c w e) :
    Obeys c w e := by
  have hmay : ∀ p, Has w.ship c p → May w c p :=
    fun p hp => ⟨hp, fun g hg => hw hp.1 g hg p hp.2⟩
  intro r hr
  cases e with
  | chat o txt =>
    cases hr
    exact ⟨(proper_commandCall hgood).authorised.mono hmay, (proper_commandCall hgood).fair⟩
  | menu o menuId itemId =>
    cases hr
    exact ⟨proper_processMenu.authorised.mono hmay, proper_processMenu.fair⟩
  | loginReply priv => cases hr
  | blockLogin gc => cases hr
  | other s' => cases hr

/-- In a run of good steps, from before any logout on, every command and every packet of the GM
menu is authorised and fair. -/
theorem obeys_of_run {w₀ w : World Lim} {es : List (Event Lim)} {e : Event Lim}
    (hstart : w₀.granted = none) (hrun : Run (StepOf (next c)) (Good c) w₀ es w)
    (hgood : Good c w e) : Obeys c w e := by
  refine obeys_of_granted (hrun.invariant (Granted c) ?_ fun u d v hu hd htaken => ?_) hgood
  · intro _ g hg
    rw [hstart] at hg
    cases hg
  · rw [htaken]
    exact granted_next hu hd

/-- A client with the guild card and the privileges given, not logged in. -/
def sampleClient (guildcard privilege : BitVec 32) : Client where
  guildcard := guildcard
  clientId := 0
  ipAddr := none
  version := .gc
  privilege := privilege
  flags := ⟨false, false, false, false, true, false, false, false, false, false, false, false,
    false, false, false, false⟩
  pos := ⟨0, 0, 0, 0, 0⟩
  logging := false
  curBlock := 0
  curLobby := 0
  arrow := 0
  nextItem := fun _ => 0
  nextMaps := none
  ignoreList := []
  ccChar := none
  qLang := 1
  level := 0

def sampleLobby : Lobby where
  type := .lobby
  version := .gc
  maxClients := 12
  numClients := 0
  clients := fun _ => none
  leaderId := 0
  difficulty := 0
  battle := false
  challenge := false
  settings := ⟨0, 200, [], [], ⟨false, false, false, false, false, false, false, false⟩⟩
  event := 0
  floor := ⟨0, []⟩
  quest := ⟨false, false, 0, 0, QuestSetup.LobbyQuest.blank⟩
  logging := false

/-- A ship with two clients: one of guild card 1 without privileges, and a GM of guild card 2, both
local and global. -/
def sampleShip : Ship Unit where
  clients := fun i => if i = 0 then sampleClient 1 0 else sampleClient 2 3
  lobbies := fun _ => sampleLobby
  blocks := [⟨true, [0, 1], [0]⟩]
  elsewhere := []
  questsDir := false
  gmFile := false
  limitsCount := 0
  lobbyEvent := 0
  gameEvent := 0
  quests := []
  gmList := []
  allLimits := []
  defLimits := none
  gcBans := []
  ipBans := []
  shutdownTime := 0
  restartOnShutdown := false

def sampleOutside : Outside Unit where
  now := 0
  readQuests := []
  readGms := none
  readLimits := none
  banAllocated := true
  bansSaved := true
  logOpened := true
  itemAllocated := true
  mapsAllocated := true
  gateSends := true
  legitItems := fun _ => true
  dropFiles := false
  setup :=
    { configured := false
      beforeQuestLoad := 0
      executeFile := fun _ => 0
      questLookup := fun _ => none
      mapCache := fun _ _ => false
      mtypesAllocated := true
      midsAllocated := true
      syncregsAllocated := true
      regvalsAllocated := true }
  strtof := fun _ => none
  pton4 := fun _ => none

/-- A local GM sets the event of the games from the menu. -/
theorem obeys_of_run_gameEvent :
    Obeys 0 (next 0 ⟨sampleShip, none⟩ (.loginReply 1)) (.menu sampleOutside menuIdGmGameEvent 3) ∧
      (next 0 (next 0 ⟨sampleShip, none⟩ (.loginReply 1))
        (.menu sampleOutside menuIdGmGameEvent 3)).ship.gameEvent = 3 := by
  have hgranted : Good 0 (⟨sampleShip, none⟩ : World Unit) (.loginReply 1) := by
    intro g hg
    cases hg
  have hrun : Run (StepOf (next 0)) (Good 0) (⟨sampleShip, none⟩ : World Unit) [.loginReply 1]
      (next 0 ⟨sampleShip, none⟩ (.loginReply 1)) := .move hgranted rfl (.stop _)
  exact ⟨obeys_of_run rfl hrun trivial, by decide⟩

/-- A local root is no global GM, but its privileges are the greater number: it may kick one. -/
theorem kill_outranked : ¬∀ (w₀ w : World Unit) (es : List (Event Unit)) (e : Event Unit),
    w₀.granted = none → Run (StepOf (next 0)) Always w₀ es w → Obeys 0 w e := by
  intro hall
  have hobeys := hall ⟨sampleShip, none⟩ _ [.loginReply 5]
    (.chat sampleOutside "\tE/kill 2".toList) rfl (.move trivial rfl (.stop _))
  have hheld := (hobeys _ rfl).2.kicked 1 (by decide) (by decide)
  exact absurd hheld (by decide)

end ShipServer.AuthorityRuns
