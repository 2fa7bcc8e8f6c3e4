import ShipServer.CommandAuthority

set_option autoImplicit false

/-! Every command does what its client may do. -/

namespace ShipServer.CommandChecks

open LabelledRuns Versions QuestSetup CommandState CommandHandlers PlayerCommands CommandAuthority

variable {Lim : Type} {o : Outside Lim} {s : Ship Lim} {c : ClientId} {params : List Char}

/-! Commands for everyone. -/

theorem proper_tells : Proper c s (tells o s c params) :=
  proper_answer

theorem proper_leader {allowed : LobbyType → Bool} {change : Lobby → Option GameSettings} :
    Proper c s (leaderCommand allowed change s c) := by
  unfold leaderCommand
  refine proper_unless fun _ => proper_unless fun _ => proper_elim fun g _ => ?_
  exact proper_modSettings harmless_nil

theorem proper_minLevel : Proper c s (handleMinLevel o s c params) :=
  proper_leader

theorem proper_maxLevel : Proper c s (handleMaxLevel o s c params) :=
  proper_leader

theorem proper_passwd : Proper c s (handlePasswd o s c params) :=
  proper_leader

theorem proper_lname : Proper c s (handleLname o s c params) :=
  proper_leader

theorem proper_normal : Proper c s (handleNormal o s c params) :=
  proper_leader

theorem proper_dconly : Proper c s (handleDconly o s c params) := by
  unfold handleDconly restrictTo
  exact proper_leader

theorem proper_v1only : Proper c s (handleV1only o s c params) := by
  unfold handleV1only restrictTo
  exact proper_leader

theorem proper_npc : Proper c s (handleNpc o s c params) := by
  unfold handleNpc
  refine proper_unless fun _ => proper_unless fun _ => proper_unless fun _ =>
    proper_unless fun _ => proper_unless fun _ => ?_
  split
  · exact proper_answer
  · refine proper_unless fun _ => proper_unless fun _ => proper_unless fun _ => ?_
    exact proper_modSettings (harmless_single trivial)

theorem proper_unprotected {r : Outcome Lim} (h : Proper c s r) :
    Proper c s (unprotected s c r) :=
  proper_unless fun _ => h

theorem proper_slot {message : ℕ → GateMessage}
    (h : ∀ slot, Effect.Harmless c (.gate (message slot))) :
    Proper c s (slotCommand message o s c params) := by
  refine proper_unprotected (proper_unless fun _ => proper_unless fun _ => ?_)
  refine proper_elim fun n _ => ?_
  exact proper_unless fun _ => proper_sends (harmless_single (h _))

theorem proper_restorebk : Proper c s (handleRestorebk o s c params) :=
  proper_unprotected (proper_unless fun _ => proper_unless fun _ =>
    proper_sends (harmless_single trivial))

theorem proper_arrow : Proper c s (handleArrow o s c params) :=
  proper_unprotected (proper_modClient rfl rfl (fun hin => ⟨hin, rfl⟩) (harmless_single trivial))

theorem proper_login {token xbox : Bool} : Proper c s (loginCommand token xbox o s c params) := by
  unfold loginCommand
  cases loginWords params with
  | none => exact proper_answer
  | some w => exact proper_sends (harmless_single trivial)

theorem proper_xblink : Proper c s (handleXblink o s c params) :=
  proper_unless fun _ => proper_login

/-- A logout only takes away. -/
theorem proper_logout : Proper c s (handleLogout o s c params) :=
  proper_unless fun _ =>
    proper_modClient rfl rfl (fun hin => absurd hin Bool.false_ne_true) harmless_nil

theorem proper_quit : Proper c s (handleQuit o s c params) := by
  change Proper c s (s.disconnectAll [c], [])
  refine proper_of_harmless ?_ (sameForRoot_disconnectAll sameForRoot_refl)
    (fairHere_disconnectAll rfl fun i hi _ => ?_) (meek_disconnectAll rfl) harmless_nil
  · have hother : ∀ i ≠ c, (s.disconnectAll [c]).clients i = s.clients i :=
      fun i hi => modClient_other leaving hi
    constructor <;> first
      | rfl
      | exact fun _ => rfl
      | (intro i hi; rw [hother i hi])
  · rw [List.mem_singleton.mp hi]
    exact holdsAll_refl _

theorem proper_legit : Proper c s (handleLegit o s c params) := by
  unfold handleLegit
  refine proper_unless fun _ => proper_unless fun _ => proper_ite ?_ (proper_unless fun _ => ?_)
  · exact proper_modFlags rfl rfl rfl harmless_nil
  · exact proper_modFlags rfl rfl rfl harmless_nil

theorem proper_sdrops : Proper c s (handleSdrops o s c params) :=
  proper_unless fun _ => proper_modFlags rfl rfl rfl harmless_nil

theorem proper_option {name : String} {set : Bool → ClientFlags → ClientFlags} {on : Bool}
    (hdisconnected : ∀ f, (set on f).disconnected = f.disconnected)
    (hstfu : ∀ f, (set on f).stfu = f.stfu) (hlogged : ∀ f, (set on f).loggedIn = f.loggedIn) :
    Proper c s (optionCommand name set on s c) :=
  proper_unless fun _ =>
    proper_modFlags (hdisconnected _) (hstfu _) (hlogged _) (harmless_single trivial)

theorem proper_enablebk : Proper c s (handleEnablebk o s c params) := by
  unfold handleEnablebk
  exact proper_option (fun _ => rfl) (fun _ => rfl) fun _ => rfl

theorem proper_disablebk : Proper c s (handleDisablebk o s c params) := by
  unfold handleDisablebk
  exact proper_option (fun _ => rfl) (fun _ => rfl) fun _ => rfl

theorem proper_trackkill : Proper c s (handleTrackkill o s c params) := by
  unfold handleTrackkill
  exact proper_option (fun _ => rfl) (fun _ => rfl) fun _ => rfl

theorem proper_gcprotect : Proper c s (handleGcprotect o s c params) := by
  unfold handleGcprotect
  exact proper_option (fun _ => rfl) (fun _ => rfl) fun _ => rfl

theorem proper_autolegit : Proper c s (handleAutolegit o s c params) := by
  unfold handleAutolegit
  dsimp only
  exact proper_option (fun _ => rfl) (fun _ => rfl) fun _ => rfl

theorem proper_censor : Proper c s (handleCensor o s c params) :=
  proper_modFlags rfl rfl rfl (harmless_single trivial)

theorem proper_friendadd : Proper c s (handleFriendadd o s c params) := by
  refine proper_unprotected (proper_elim fun gc _ => ?_)
  split
  · exact proper_sends (harmless_single trivial)
  · exact proper_answer

theorem proper_frienddel : Proper c s (handleFrienddel o s c params) :=
  proper_unprotected (proper_elim fun _ _ => proper_sends (harmless_single trivial))

theorem proper_friends : Proper c s (handleFriends o s c params) :=
  proper_unprotected (proper_elim fun _ _ => proper_sends (harmless_single trivial))

theorem proper_search : Proper c s (handleSearch o s c params) :=
  proper_unprotected (proper_elim fun _ _ => proper_sends (harmless_single trivial))

theorem proper_cc : Proper c s (handleCc o s c params) :=
  proper_unprotected (proper_ite (proper_modClient rfl rfl (fun hin => ⟨hin, rfl⟩) harmless_nil)
    (proper_unless fun _ => proper_modClient rfl rfl (fun hin => ⟨hin, rfl⟩) harmless_nil))

theorem proper_qlang : Proper c s (handleQlang o s c params) :=
  proper_unprotected (proper_elim fun _ _ =>
    proper_modClient rfl rfl (fun hin => ⟨hin, rfl⟩) (harmless_single trivial))

theorem proper_ignore : Proper c s (handleIgnore o s c params) :=
  proper_unprotected (proper_elim fun _ _ => proper_elim fun _ _ =>
    proper_modClient rfl rfl (fun hin => ⟨hin, rfl⟩) harmless_nil)

theorem proper_unignore : Proper c s (handleUnignore o s c params) :=
  proper_unprotected (proper_elim fun _ _ => proper_unless fun _ =>
    proper_modClient rfl rfl (fun hin => ⟨hin, rfl⟩) harmless_nil)

/-! Commands of a GM. -/

theorem local_warp {i : ClientId} {area : ℕ} : ∀ e ∈ sendWarp s i area, Effect.Local e := by
  unfold sendWarp
  split
  · exact local_nil
  · exact local_single trivial

theorem local_lobbyWarp {l : Lobby} {area : ℕ} : ∀ e ∈ sendLobbyWarp s l area, Effect.Local e := by
  intro e hmem
  obtain ⟨i, -, he⟩ := List.mem_flatMap.mp hmem
  split at he
  · exact local_nil e he
  · exact local_warp e he

theorem proper_warp : Proper c s (handleWarp o s c params) := by
  unfold handleWarp
  refine proper_gmOnly fun hgm => proper_unless fun _ => proper_gmSends hgm ?_
  cases commandArea params with
  | none => exact local_nil
  | some area => exact local_warp

theorem proper_warpall : Proper c s (handleWarpall o s c params) := by
  unfold handleWarpall
  refine proper_gmOnly fun hgm => proper_unless fun _ => proper_gmSends hgm ?_
  cases commandArea params with
  | none => exact local_nil
  | some area => exact local_lobbyWarp

/-- A local GM may change what belongs to the ship. -/
theorem proper_gmShip {s' : Ship Lim} (h : localGm (s.clients c) = true)
    (hroot : (s'.gmList, s'.shutdownTime, s'.restartOnShutdown) =
      (s.gmList, s.shutdownTime, s.restartOnShutdown)) (hclients : s'.clients = s.clients) :
    Proper c s (s', []) := by
  obtain ⟨hlist, htime⟩ := Prod.mk.inj hroot
  refine proper_of_localGm h ⟨hlist, fun i _ => ?_, htime⟩ (fairHere_of_same fun i => ?_)
    (meek_of_same hclients) local_nil
  · rw [hclients]
  · rw [hclients]
    exact ⟨rfl, rfl⟩

theorem proper_refreshQuests : Proper c s (refreshQuests o s c) :=
  proper_gmOnly fun hgm => proper_gmShip hgm rfl rfl

theorem proper_refreshLimits : Proper c s (refreshLimits o s c) :=
  proper_gmOnly fun hgm => proper_unless fun _ => proper_elim fun _ _ => proper_gmShip hgm rfl rfl

/-- A local root may change the list of GMs and the time of the shutdown. -/
theorem proper_rootShip {s' : Ship Lim} (h : localRoot (s.clients c) = true)
    (hgm : SameForGm c s s') (hclients : s'.clients = s.clients) : Proper c s (s', []) := by
  refine proper_of_localRoot h hgm (fairHere_of_same fun i => ?_) (meek_of_same hclients)
  rw [hclients]
  exact ⟨rfl, rfl⟩

theorem proper_refreshGms : Proper c s (refreshGms o s c) := by
  unfold refreshGms
  refine proper_rootOnly fun hroot => proper_unless fun _ => proper_rootShip hroot ?_ rfl
  constructor <;> first | rfl | exact fun _ => rfl | exact fun _ _ => rfl

theorem proper_refresh : Proper c s (handleRefresh o s c params) := by
  unfold handleRefresh
  refine proper_gmOnly fun _ => proper_ite proper_refreshQuests (proper_ite ?_ (proper_ite ?_ ?_))
  · exact proper_unless fun _ => proper_refreshGms
  · exact proper_refreshLimits
  · exact proper_answer

theorem proper_event : Proper c s (handleEvent o s c params) :=
  proper_gmOnly fun hgm => proper_unless fun _ => proper_gmShip hgm rfl rfl

theorem proper_gameevent : Proper c s (handleGameevent o s c params) :=
  proper_gmOnly fun hgm => proper_unless fun _ => proper_gmShip hgm rfl rfl

theorem proper_unban : Proper c s (handleUnban o s c params) :=
  proper_gmOnly fun hgm => proper_elim fun _ _ => proper_gmShip hgm rfl rfl

theorem proper_schedule {minutes : BitVec 32} {restart : Bool} :
    Proper c s (scheduleShutdown o s c minutes restart) := by
  unfold scheduleShutdown
  refine proper_rootOnly fun hroot => proper_rootShip hroot ?_ rfl
  constructor <;> first | rfl | exact fun _ => rfl | exact fun _ _ => rfl

theorem proper_shutdown {restart : Bool} : Proper c s (shutdownCommand restart o s c params) :=
  proper_rootOnly fun _ => proper_elim fun _ _ => proper_schedule

/-- What a local GM may change about another client. -/
theorem proper_gmClient {i : ClientId} {f : Client → Client} (h : localGm (s.clients c) = true)
    (hlogging : (f (s.clients i)).logging = (s.clients i).logging)
    (hlogin : (f (s.clients i)).flags.loggedIn = (s.clients i).flags.loggedIn)
    (hprivilege : (f (s.clients i)).privilege = (s.clients i).privilege)
    (hdisconnected : (f (s.clients i)).flags.disconnected = (s.clients i).flags.disconnected)
    (hmuted : (s.clients i).flags.stfu = false → (f (s.clients i)).flags.stfu = true →
      HoldsAll (s.clients c).privilege (s.clients i).privilege) :
    Proper c s (s.modClient i f, []) := by
  refine proper_of_localGm h ⟨rfl, fun j _ => ?_, rfl⟩ (fun j => ?_) ?_ local_nil
  · rw [modClient_cases]
    split
    · rename_i hj
      rw [hj, hlogging]
    · rfl
  · rw [modClient_cases]
    split
    · rename_i hj
      rw [hj, hdisconnected]
      exact ⟨fun hno hyes => absurd (hno.symm.trans hyes) Bool.false_ne_true, hmuted⟩
    · exact ⟨fun hno hyes => absurd (hno.symm.trans hyes) Bool.false_ne_true,
        fun hno hyes => absurd (hno.symm.trans hyes) Bool.false_ne_true⟩
  · unfold Meek
    rw [modClient_cases]
    split
    · rename_i hc
      rw [hc, hlogin, hprivilege]
      exact fun hin => ⟨hin, rfl⟩
    · exact fun hin => ⟨hin, rfl⟩

theorem proper_unstfu : Proper c s (handleUnstfu o s c params) :=
  proper_gmOnly fun hgm => proper_elim fun _ _ => proper_elim fun _ _ =>
    proper_gmClient hgm rfl rfl rfl rfl fun _ hyes => absurd hyes Bool.false_ne_true

theorem proper_gmFlag {set : Bool → ClientFlags → ClientFlags}
    (hdisconnected : ∀ on f, (set on f).disconnected = f.disconnected)
    (hstfu : ∀ on f, (set on f).stfu = f.stfu)
    (hlogged : ∀ on f, (set on f).loggedIn = f.loggedIn) :
    Proper c s (gmFlag set o s c params) :=
  proper_gmOnly fun _ => proper_modFlags (hdisconnected _ _) (hstfu _ _) (hlogged _ _) harmless_nil

theorem proper_invuln : Proper c s (handleInvuln o s c params) := by
  unfold handleInvuln
  exact proper_gmFlag (fun _ _ => rfl) (fun _ _ => rfl) fun _ _ => rfl

theorem proper_inftp : Proper c s (handleInftp o s c params) := by
  unfold handleInftp
  exact proper_gmFlag (fun _ _ => rfl) (fun _ _ => rfl) fun _ _ => rfl

theorem proper_showdcpc : Proper c s (handleShowdcpc o s c params) :=
  proper_gmOnly fun _ => proper_unless fun _ =>
    proper_gmFlag (fun _ _ => rfl) (fun _ _ => rfl) fun _ _ => rfl

theorem proper_override : Proper c s (handleOverride o s c params) :=
  proper_gmOnly fun _ => proper_unless fun _ => proper_modFlags rfl rfl rfl harmless_nil

theorem proper_trackinv : Proper c s (handleTrackinv o s c params) :=
  proper_gmOnly fun _ => proper_unless fun _ => proper_modFlags rfl rfl rfl harmless_nil

theorem proper_maps : Proper c s (handleMaps o s c params) :=
  proper_gmOnly fun _ => proper_unless fun _ =>
    proper_modClient rfl rfl (fun hin => ⟨hin, rfl⟩) harmless_nil

theorem proper_exp : Proper c s (handleExp o s c params) := by
  unfold handleExp
  refine proper_gmOnly fun hgm => proper_unless fun _ => proper_unless fun _ =>
    proper_gmSends hgm ?_
  cases (strtoulEnd 10 params).1 with
  | none => exact local_nil
  | some n => exact local_single trivial

theorem proper_level : Proper c s (handleLevel o s c params) := by
  unfold handleLevel
  refine proper_gmOnly fun hgm => ?_
  have hlevel : ∀ e ∈ ((namedLevel params (s.clients c).level).elim [] fun l =>
      if 199 < l then [] else [.giveLevel l.toNat] : List Effect), Effect.Local e := by
    cases namedLevel params (s.clients c).level with
    | none => exact local_nil
    | some l =>
      dsimp only [Option.elim_some]
      split
      · exact local_nil
      · exact local_single trivial
  refine proper_ite (proper_unless fun _ => proper_gmSends hgm hlevel) (proper_ite ?_ proper_answer)
  exact proper_unless fun _ => proper_gmSends hgm hlevel

theorem proper_allowgc : Proper c s (handleAllowgc o s c params) :=
  proper_gmOnly fun _ => proper_unless fun _ => proper_unless fun _ => proper_unless fun _ =>
    proper_modSettings harmless_nil

theorem proper_bcast : Proper c s (handleBcast o s c params) :=
  proper_gmOnly fun _ => proper_sends (harmless_single trivial)

theorem proper_gbc : Proper c s (handleGbc o s c params) :=
  proper_unless fun _ => proper_unless fun _ => proper_sends (harmless_single trivial)

theorem proper_item : Proper c s (handleItem o s c params) :=
  proper_gmOnly fun _ => proper_unless fun _ =>
    proper_modClient rfl rfl (fun hin => ⟨hin, rfl⟩) harmless_nil

theorem proper_item4 : Proper c s (handleItem4 o s c params) :=
  proper_gmOnly fun _ => proper_elim fun _ _ =>
    proper_modClient rfl rfl (fun hin => ⟨hin, rfl⟩) harmless_nil

/-- The item on the floor, and then the client's own next item. -/
theorem proper_makeitem : Proper c s (handleMakeitem o s c params) := by
  unfold handleMakeitem
  refine proper_gmOnly fun hgm => proper_unless fun _ => proper_unless fun _ =>
    proper_elim fun f _ => ?_
  refine proper_of_localGm hgm ⟨rfl, fun i hi => ?_, rfl⟩ (fairHere_of_same fun i => ?_) ?_
    (local_single trivial)
  · exact congrArg Client.logging (modClient_other _ hi)
  · rw [modClient_cases]
    split
    · exact ⟨rfl, rfl⟩
    · exact ⟨rfl, rfl⟩
  · unfold Meek
    rw [modClient_self]
    exact fun hin => ⟨hin, rfl⟩

theorem proper_smite : Proper c s (handleSmite o s c params) := by
  unfold handleSmite
  refine proper_gmOnly fun _ => proper_unless fun _ => ?_
  split
  · refine proper_unless fun _ => proper_elim fun i _ => proper_unless fun _ => ?_
    exact proper_sends (harmless_single trivial)
  · exact proper_answer

theorem proper_teleport : Proper c s (handleTeleport o s c params) := by
  unfold handleTeleport
  refine proper_gmOnly fun hgm => proper_unless fun _ => proper_elim fun n _ =>
    proper_unless fun _ => proper_elim fun i _ => proper_ite (proper_gmSends hgm local_warp) ?_
  exact proper_modClient rfl rfl (fun hin => ⟨hin, rfl⟩) (harmless_single trivial)

theorem proper_t : Proper c s (handleT o s c params) := by
  unfold handleT
  refine proper_gmOnly fun _ => ?_
  dsimp only
  split
  · exact proper_modClient rfl rfl (fun hin => ⟨hin, rfl⟩) (harmless_single trivial)
  · exact proper_answer

theorem proper_ws : Proper c s (handleWs o s c params) :=
  proper_gmOnly fun _ => proper_unless fun _ => proper_sends (harmless_single trivial)

theorem proper_ep3music : Proper c s (handleEp3music o s c params) :=
  proper_gmOnly fun _ => proper_unless fun _ => proper_unless fun _ => proper_elim fun _ _ =>
    proper_sends (harmless_single trivial)

theorem proper_quest : Proper c s (handleQuest o s c params) :=
  proper_gmOnly fun hgm => proper_unless fun _ => proper_unless fun _ => proper_elim fun _ _ =>
    proper_unless fun _ => proper_unless fun _ => proper_gmLobby hgm local_nil

theorem proper_teamLog {set : Lobby → Bool} : Proper c s (teamLogCommand set o s c params) :=
  proper_gmOnly fun hgm => proper_unless fun _ => proper_gmLobby hgm local_nil

/-! Commands of a local root about another client. -/

theorem proper_rootLog {i : ClientId} {f : Client → Client} (h : localRoot (s.clients c) = true)
    (hf : ∀ x, f x = { x with logging := (f x).logging }) :
    Proper c s (s.modClient i f, []) := by
  have hflags : ∀ j, ((s.modClient i f).clients j).flags = (s.clients j).flags ∧
      ((s.modClient i f).clients j).pos = (s.clients j).pos ∧
      ((s.modClient i f).clients j).privilege = (s.clients j).privilege := by
    intro j
    rw [modClient_cases]
    split
    · rw [hf]
      exact ⟨rfl, rfl, rfl⟩
    · exact ⟨rfl, rfl, rfl⟩
  refine proper_of_localRoot h ?_ (fairHere_of_same fun j => ?_) ?_
  · constructor <;> first
      | rfl
      | exact fun _ => rfl
      | exact fun j _ => (hflags j).2.1
      | (intro j _; rw [(hflags j).1])
  · rw [(hflags j).1]
    exact ⟨rfl, rfl⟩
  · unfold Meek
    rw [(hflags c).1, (hflags c).2.2]
    exact fun hin => ⟨hin, rfl⟩

theorem proper_logCommand {act : Ship Lim → ClientId → Ship Lim}
    (h : localRoot (s.clients c) = true → ∀ i, Proper c s (act s i, [])) :
    Proper c s (logCommand act o s c params) :=
  proper_rootOnly fun hroot => proper_elim fun _ _ => proper_elim fun i _ => h hroot i

theorem proper_log : Proper c s (handleLog o s c params) := by
  refine proper_logCommand fun hroot i => ?_
  unfold pktLogStart
  split
  · exact proper_answer
  · exact proper_rootLog hroot fun _ => rfl

theorem proper_endlog : Proper c s (handleEndlog o s c params) :=
  proper_logCommand fun hroot _ => proper_rootLog hroot fun _ => rfl

/-! Commands that kick, mute or ban. -/

/-- The client may kick the client that the numbers let it kick, or any of another ship. -/
def FairKill (s : Ship Lim) (c : ClientId) (gc : BitVec 32) : Prop :=
  match findGuildcard s s.running gc with
  | some i => (s.clients c).privilege ≤ (s.clients i).privilege ∨
      (s.clients i).flags.disconnected = true ∨
      HoldsAll (s.clients c).privilege (s.clients i).privilege
  | none => globalGm (s.clients c) = true → ∀ p ∈ s.elsewhere, p.1 = gc →
      HoldsAll (s.clients c).privilege p.2

/-- The client may ban everyone who has the guild card, here and on other ships. -/
def FairGlobalBan (s : Ship Lim) (c : ClientId) (gc : BitVec 32) : Prop :=
  (∀ i ∈ s.connected, (s.clients i).guildcard = gc →
    HoldsAll (s.clients c).privilege (s.clients i).privilege) ∧
  ∀ p ∈ s.elsewhere, p.1 = gc → HoldsAll (s.clients c).privilege p.2

/-- The client may kick all connected clients that match. -/
def FairBan (s : Ship Lim) (c : ClientId) (p : Client → Bool) : Prop :=
  ∀ i ∈ matching s p, (s.clients i).flags.disconnected = true ∨
    HoldsAll (s.clients c).privilege (s.clients i).privilege

/-- The client may mute the client that the numbers let it mute. -/
def FairMute (s : Ship Lim) (c : ClientId) (gc : BitVec 32) : Prop :=
  ∀ i ∈ (s.blockClients c).find? fun i => (s.clients i).guildcard = gc ∧
      (s.clients i).privilege < (s.clients c).privilege,
    (s.clients i).flags.stfu = true ∨ HoldsAll (s.clients c).privilege (s.clients i).privilege

theorem proper_kicks {s' : Ship Lim} {is : List ClientId} (h : localGm (s.clients c) = true)
    (hroot : SameForRoot c s s') (hclients : s'.clients = s.clients)
    (hfair : ∀ i ∈ is, (s.clients i).flags.disconnected = true ∨
      HoldsAll (s.clients c).privilege (s.clients i).privilege) :
    Proper c s (s'.disconnectAll is, []) := by
  refine proper_of_localGm h (sameForRoot_disconnectAll hroot)
    (fairHere_disconnectAll hclients fun i hi hno => ?_) (meek_disconnectAll hclients) local_nil
  rcases hfair i hi with hyes | hholds
  · exact absurd (hno.symm.trans hyes) Bool.false_ne_true
  · exact hholds

theorem proper_kill
    (h : localGm (s.clients c) = true → ∀ gc ∈ (scanGuildcard params).1, FairKill s c gc) :
    Proper c s (handleKill o s c params) := by
  unfold handleKill
  refine proper_gmOnly fun hgm => proper_elim fun gc hgc => ?_
  have hfair := h hgm gc hgc
  unfold FairKill at hfair
  unfold killGuildcard
  refine proper_gmOnly fun _ => ?_
  cases hfind : findGuildcard s s.running gc with
  | some i =>
    rw [hfind] at hfair
    refine proper_unless fun hlt => ?_
    change Proper c s (s.disconnectAll [i], [])
    refine proper_kicks hgm sameForRoot_refl rfl fun j hj => ?_
    rw [List.mem_singleton.mp hj]
    exact hfair.resolve_left hlt
  | none =>
    rw [hfind] at hfair
    dsimp only
    split
    · rename_i hglobal
      have hmay : Has s c .globalGm := has_of_globalGm hglobal
      have hkick : ∀ {g}, .gate (.kick g) ∈ ([.gate (.kick gc)] : List Effect) → g = gc := by
        intro g hmem
        cases List.mem_singleton.mp hmem
        rfl
      exact
        { authorised := { proper_answer.authorised with
            globalBans := fun _ _ _ => hmay
            kicksElsewhere := fun _ _ => hmay
            warps := fun _ _ _ _ => has_of_localGm hgm
            drops := fun _ _ _ _ => has_of_localGm hgm
            connection := fun _ _ _ => .inl (has_of_localGm hgm) }
          fair :=
            { kicked := proper_answer.fair.kicked
              muted := proper_answer.fair.muted
              banned := fun _ _ hmem => absurd (List.mem_singleton.mp hmem) (by simp)
              bannedElsewhere := fun _ _ hmem => absurd (List.mem_singleton.mp hmem) (by simp)
              kickedElsewhere := fun g hmem p hp hpg =>
                hfair hglobal p hp (hpg.trans (hkick hmem)) }
          meek := proper_answer.meek }
    · exact proper_answer

theorem proper_stfu
    (h : localGm (s.clients c) = true → ∀ gc ∈ (scanGuildcard params).1, FairMute s c gc) :
    Proper c s (handleStfu o s c params) := by
  unfold handleStfu
  refine proper_gmOnly fun hgm => proper_elim fun gc hgc => proper_elim fun i hi => ?_
  refine proper_gmClient hgm rfl rfl rfl rfl fun hno _ => ?_
  rcases h hgm gc hgc i hi with hyes | hholds
  · exact absurd (hno.symm.trans hyes) Bool.false_ne_true
  · exact hholds

theorem sameForRoot_banGuildcard {endTime : Option ℤ} {setBy gc : BitVec 32}
    {reason : List Char} : SameForRoot c s (banGuildcard o s endTime setBy gc reason).1 := by
  unfold banGuildcard
  split
  · exact sameForRoot_refl
  · exact ⟨rfl, fun _ _ => rfl, rfl⟩

theorem banGuildcard_clients {endTime : Option ℤ} {setBy gc : BitVec 32} {reason : List Char} :
    (banGuildcard o s endTime setBy gc reason).1.clients = s.clients := by
  unfold banGuildcard
  split
  · rfl
  · rfl

theorem banGuildcard_done {endTime : Option ℤ} {setBy gc : BitVec 32} {reason : List Char}
    (h : (banGuildcard o s endTime setBy gc reason).2 = true) :
    o.banAllocated = true ∧ o.bansSaved = true := by
  unfold banGuildcard at h
  split at h
  · exact absurd h Bool.false_ne_true
  · rename_i hallocated
    exact ⟨Bool.not_eq_false _ ▸ hallocated, h⟩

theorem proper_ban {length : Option ℤ}
    (h : localGm (s.clients c) = true → o.banAllocated = true → o.bansSaved = true →
      ∀ gc ∈ (scanGuildcard params).1, FairBan s c (hasGuildcard gc)) :
    Proper c s (banFor length o s c params) := by
  unfold banFor
  refine proper_gmOnly fun hgm => proper_elim fun gc hgc => ?_
  dsimp only
  split
  · change Proper c s (Ship.disconnectAll _ [], [])
    exact proper_kicks hgm sameForRoot_banGuildcard banGuildcard_clients
      fun i hi => absurd hi List.not_mem_nil
  · rename_i hdone
    obtain ⟨hallocated, hsaved⟩ := banGuildcard_done (Bool.not_eq_false _ ▸ hdone)
    exact proper_kicks hgm sameForRoot_banGuildcard banGuildcard_clients
      (h hgm hallocated hsaved gc hgc)

theorem proper_ib
    (h : localGm (s.clients c) = true → o.banAllocated = true → o.bansSaved = true →
      ∀ addr ∈ (strtok (strtok params).2).1.bind o.pton4, FairBan s c (hasAddress addr)) :
    Proper c s (handleIb o s c params) := by
  unfold handleIb
  refine proper_gmOnly fun hgm => ?_
  dsimp only
  split
  · rename_i len addr _ haddr
    have hroot : ∀ bans, SameForRoot c s { s with ipBans := bans } :=
      fun _ => ⟨rfl, fun _ _ => rfl, rfl⟩
    refine proper_unless fun hallocated => ?_
    split
    · change Proper c s (Ship.disconnectAll _ [], [])
      exact proper_kicks hgm (hroot _) rfl fun i hi => absurd hi List.not_mem_nil
    · rename_i hsaved
      exact proper_kicks hgm (hroot _) rfl
        (h hgm (Bool.not_eq_false _ ▸ hallocated) (Bool.not_eq_false _ ▸ hsaved) addr haddr)
  · exact proper_answer

/-- A global GM may ban a guild card everywhere, and kick who has it. -/
theorem proper_globalGm {gc : BitVec 32} {length : ℕ} {ks : List ClientId} {es : List Effect}
    (hglobal : globalGm (s.clients c) = true) (hfair : FairGlobalBan s c gc)
    (hks : ∀ i ∈ ks, i ∈ s.connected ∧ (s.clients i).guildcard = gc)
    (hban : .gate (.ban gc length) ∈ es)
    (hes : ∀ e ∈ es, e = .gate (.ban gc length) ∨ e = .gate (.kick gc)) :
    Proper c s (s.disconnectAll ks, es) := by
  have hmay : Has s c .globalGm := has_of_globalGm hglobal
  have hclient : ∀ i, ((s.disconnectAll ks).clients i).flags.stfu = (s.clients i).flags.stfu ∧
      ((s.disconnectAll ks).clients i).logging = (s.clients i).logging ∧
      ((s.disconnectAll ks).clients i).pos = (s.clients i).pos := by
    intro i
    rw [disconnectAll_eq]
    dsimp only
    split
    · exact ⟨rfl, rfl, rfl⟩
    · exact ⟨rfl, rfl, rfl⟩
  have hship : ∀ (f : Ship Lim → Prop), (∀ k, f { s with clients := k }) →
      f (s.disconnectAll ks) := by
    intro f hf
    rw [disconnectAll_eq]
    exact hf _
  have hgate : ∀ {m}, .gate m ∈ es → m = .ban gc length ∨ m = .kick gc := by
    intro m hmem
    rcases hes _ hmem with heq | heq
    · exact .inl (Effect.gate.inj heq)
    · exact .inr (Effect.gate.inj heq)
  have hfairHere : FairHere c s (s.disconnectAll ks) := fairHere_disconnectAll rfl
    fun i hi _ => hfair.1 i (hks i hi).1 (hks i hi).2
  refine ⟨?_, ?_, meek_disconnectAll rfl⟩
  · exact
      { lobbyEvent := hship (fun t => t.lobbyEvent ≠ s.lobbyEvent → _) fun _ hne => absurd rfl hne
        events := hship (fun t => ∀ l, (t.lobbies l).event ≠ (s.lobbies l).event → _)
          fun _ _ hne => absurd rfl hne
        gameEvent := hship (fun t => t.gameEvent ≠ s.gameEvent → _) fun _ hne => absurd rfl hne
        quests := hship (fun t => t.quests ≠ s.quests → _) fun _ hne => absurd rfl hne
        limits := hship (fun t => (t.allLimits, t.defLimits) ≠ (s.allLimits, s.defLimits) → _)
          fun _ hne => absurd rfl hne
        gmList := hship (fun t => t.gmList ≠ s.gmList → _) fun _ hne => absurd rfl hne
        gcBans := hship (fun t => t.gcBans ≠ s.gcBans → _) fun _ hne => absurd rfl hne
        ipBans := hship (fun t => t.ipBans ≠ s.ipBans → _) fun _ hne => absurd rfl hne
        globalBans := fun _ _ _ => hmay
        kicksElsewhere := fun _ _ => hmay
        mute := fun i _ hne => absurd (hclient i).1 hne
        logging := fun i _ hne => absurd (hclient i).2.1 hne
        connection := fun _ _ _ => .inr ⟨hmay, gc, length, hban⟩
        position := fun i _ hne => absurd (hclient i).2.2 hne
        warps := fun _ _ _ hmem => by rcases hes _ hmem with heq | heq <;> cases heq
        floor := hship (fun t => ∀ l, (t.lobbies l).floor ≠ (s.lobbies l).floor → _)
          fun _ _ hne => absurd rfl hne
        drops := fun _ _ _ hmem => by rcases hes _ hmem with heq | heq <;> cases heq
        quest := hship (fun t => ∀ l, (t.lobbies l).quest ≠ (s.lobbies l).quest → _)
          fun _ _ hne => absurd rfl hne
        teamLog := hship (fun t => ∀ l, (t.lobbies l).logging ≠ (s.lobbies l).logging → _)
          fun _ _ hne => absurd rfl hne
        schedule := hship (fun t => (t.shutdownTime, t.restartOnShutdown) ≠
          (s.shutdownTime, s.restartOnShutdown) → _) fun _ hne => absurd rfl hne }
  · exact
      { kicked := fun i => (hfairHere i).1
        muted := fun i => (hfairHere i).2
        banned := fun g _ hmem i hi hg => by
          rcases hgate hmem with heq | heq
          · cases heq
            exact hfair.1 i hi hg
          · cases heq
        bannedElsewhere := fun g _ hmem p hp hg => by
          rcases hgate hmem with heq | heq
          · cases heq
            exact hfair.2 p hp hg
          · cases heq
        kickedElsewhere := fun g hmem p hp hg => by
          rcases hgate hmem with heq | heq
          · cases heq
          · cases heq
            exact hfair.2 p hp hg }

theorem findGuildcard_some {is : List ClientId} {gc : BitVec 32} {i : ClientId}
    (h : findGuildcard s is gc = some i) : i ∈ is ∧ (s.clients i).guildcard = gc := by
  have hfound := List.find?_some h
  exact ⟨List.mem_of_find?_eq_some h, of_decide_eq_true hfound⟩

theorem connected_of_running {i : ClientId} (h : i ∈ s.running) : i ∈ s.connected := by
  obtain ⟨b, hb, hi⟩ := List.mem_flatMap.mp h
  exact List.mem_flatMap.mpr ⟨b, List.mem_of_mem_filter hb, hi⟩

/-- The ban goes to the shipgate whether or not the client is kicked here. -/
theorem proper_gban {length : ℕ}
    (h : globalGm (s.clients c) = true → o.gateSends = true →
      ∀ gc ∈ (scanGuildcard params).1, FairGlobalBan s c gc) :
    Proper c s (gbanFor length o s c params) := by
  unfold gbanFor
  refine proper_unless fun hno => proper_elim fun gc hgc => ?_
  have hglobal : globalGm (s.clients c) = true := Bool.not_eq_false _ ▸ hno
  unfold globalBan
  refine proper_unless fun _ => proper_unless fun hsends => ?_
  have hfair := h hglobal (Bool.not_eq_false _ ▸ hsends) gc hgc
  cases hfind : findGuildcard s s.running gc with
  | some i =>
    obtain ⟨hi, hi'⟩ := findGuildcard_some hfind
    dsimp only
    split
    · change Proper c s (s.disconnectAll [], _)
      exact proper_globalGm hglobal hfair (fun j hj => absurd hj List.not_mem_nil)
        (List.mem_singleton.mpr rfl) fun e he => .inl (List.mem_singleton.mp he)
    · change Proper c s (s.disconnectAll [i], _)
      refine proper_globalGm hglobal hfair (fun j hj => ?_) (List.mem_singleton.mpr rfl)
        fun e he => .inl (List.mem_singleton.mp he)
      rw [List.mem_singleton.mp hj]
      exact ⟨connected_of_running hi, hi'⟩
  | none =>
    change Proper c s (s.disconnectAll [], _)
    refine proper_globalGm hglobal hfair (fun j hj => absurd hj List.not_mem_nil)
      List.mem_cons_self fun e he => ?_
    rcases List.mem_cons.mp he with heq | he
    · exact .inl heq
    · exact .inr (List.mem_singleton.mp he)

end ShipServer.CommandChecks
