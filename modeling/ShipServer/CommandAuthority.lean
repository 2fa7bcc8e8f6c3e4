import ShipServer.LabelledRuns
import ShipServer.PlayerCommands

set_option autoImplicit false

/-! Who may change what with a command or from the GM menu. -/

namespace ShipServer.CommandAuthority

open LabelledRuns Versions QuestSetup CommandState CommandHandlers PlayerCommands

variable {Lim : Type} {s s' : Ship Lim} {c : ClientId} {o : Outside Lim} {params : List Char}
variable {r : Outcome Lim} {es : List Effect}

/-- The privilege that each action asks for: a change is made by a command of a client only if the
client may make it. -/
structure Authorised (may : Privilege → Prop) (c : ClientId) (s : Ship Lim) (r : Outcome Lim) :
    Prop where
  lobbyEvent : r.1.lobbyEvent ≠ s.lobbyEvent → may .localGm
  events : ∀ l, (r.1.lobbies l).event ≠ (s.lobbies l).event → may .localGm
  gameEvent : r.1.gameEvent ≠ s.gameEvent → may .localGm
  quests : r.1.quests ≠ s.quests → may .localGm
  limits : (r.1.allLimits, r.1.defLimits) ≠ (s.allLimits, s.defLimits) → may .localGm
  gmList : r.1.gmList ≠ s.gmList → may .localRoot
  gcBans : r.1.gcBans ≠ s.gcBans → may .localGm
  ipBans : r.1.ipBans ≠ s.ipBans → may .localGm
  globalBans : ∀ gc length, .gate (.ban gc length) ∈ r.2 → may .globalGm
  kicksElsewhere : ∀ gc, .gate (.kick gc) ∈ r.2 → may .globalGm
  mute : ∀ i ≠ c, (r.1.clients i).flags.stfu ≠ (s.clients i).flags.stfu → may .localGm
  logging : ∀ i ≠ c, (r.1.clients i).logging ≠ (s.clients i).logging → may .localRoot
  connection : ∀ i ≠ c, (r.1.clients i).flags.disconnected ≠ (s.clients i).flags.disconnected →
    may .localGm ∨ may .globalGm ∧ ∃ gc length, .gate (.ban gc length) ∈ r.2
  position : ∀ i ≠ c, (r.1.clients i).pos ≠ (s.clients i).pos → may .localGm
  warps : ∀ i ≠ c, ∀ area, .warp i area ∈ r.2 → may .localGm
  floor : ∀ l, (r.1.lobbies l).floor ≠ (s.lobbies l).floor → may .localGm
  drops : ∀ l item itemId, .lobby l (.dropStack item itemId) ∈ r.2 → may .localGm
  quest : ∀ l, (r.1.lobbies l).quest ≠ (s.lobbies l).quest → may .localGm
  teamLog : ∀ l, (r.1.lobbies l).logging ≠ (s.lobbies l).logging → may .localGm
  schedule : (r.1.shutdownTime, r.1.restartOnShutdown) ≠ (s.shutdownTime, s.restartOnShutdown) →
    may .localRoot

/-- Every GM and root privilege of the second is one of the first. -/
def HoldsAll (own target : BitVec 32) : Prop :=
  target &&& powers &&& ~~~own = 0

instance (own target : BitVec 32) : Decidable (HoldsAll own target) :=
  inferInstanceAs (Decidable (_ = _))

/-- Nobody is kicked, muted or banned who has a privilege that the client has not. -/
structure Fair (c : ClientId) (s : Ship Lim) (r : Outcome Lim) : Prop where
  kicked : ∀ i, (s.clients i).flags.disconnected = false →
    (r.1.clients i).flags.disconnected = true →
      HoldsAll (s.clients c).privilege (s.clients i).privilege
  muted : ∀ i, (s.clients i).flags.stfu = false → (r.1.clients i).flags.stfu = true →
    HoldsAll (s.clients c).privilege (s.clients i).privilege
  banned : ∀ gc length, .gate (.ban gc length) ∈ r.2 → ∀ i ∈ s.connected,
    (s.clients i).guildcard = gc → HoldsAll (s.clients c).privilege (s.clients i).privilege
  bannedElsewhere : ∀ gc length, .gate (.ban gc length) ∈ r.2 → ∀ p ∈ s.elsewhere, p.1 = gc →
    HoldsAll (s.clients c).privilege p.2
  kickedElsewhere : ∀ gc, .gate (.kick gc) ∈ r.2 → ∀ p ∈ s.elsewhere, p.1 = gc →
    HoldsAll (s.clients c).privilege p.2

/-- The client is logged in and has the privilege. -/
def Has (s : Ship Lim) (c : ClientId) (p : Privilege) : Prop :=
  (s.clients c).flags.loggedIn = true ∧ grants (s.clients c).privilege p = true

/-- No command logs the client in or gives it a privilege. -/
def Meek (c : ClientId) (s s' : Ship Lim) : Prop :=
  (s'.clients c).flags.loggedIn = true →
    (s.clients c).flags.loggedIn = true ∧ (s'.clients c).privilege = (s.clients c).privilege

structure Proper (c : ClientId) (s : Ship Lim) (r : Outcome Lim) : Prop where
  authorised : Authorised (Has s c) c s r
  fair : Fair c s r
  meek : Meek c s r.1

theorem Authorised.mono {may may' : Privilege → Prop} (h : ∀ p, may p → may' p)
    (hr : Authorised may c s r) : Authorised may' c s r where
  lobbyEvent hne := h _ (hr.lobbyEvent hne)
  events l hne := h _ (hr.events l hne)
  gameEvent hne := h _ (hr.gameEvent hne)
  quests hne := h _ (hr.quests hne)
  limits hne := h _ (hr.limits hne)
  gmList hne := h _ (hr.gmList hne)
  gcBans hne := h _ (hr.gcBans hne)
  ipBans hne := h _ (hr.ipBans hne)
  globalBans gc length he := h _ (hr.globalBans gc length he)
  kicksElsewhere gc he := h _ (hr.kicksElsewhere gc he)
  mute i hi hne := h _ (hr.mute i hi hne)
  logging i hi hne := h _ (hr.logging i hi hne)
  connection i hi hne := (hr.connection i hi hne).imp (h _) (And.imp_left (h _))
  position i hi hne := h _ (hr.position i hi hne)
  warps i hi area he := h _ (hr.warps i hi area he)
  floor l hne := h _ (hr.floor l hne)
  drops l item itemId he := h _ (hr.drops l item itemId he)
  quest l hne := h _ (hr.quest l hne)
  teamLog l hne := h _ (hr.teamLog l hne)
  schedule hne := h _ (hr.schedule hne)

theorem has_of_localGm (h : localGm (s.clients c) = true) : Has s c .localGm :=
  and_comm.mp (Bool.and_eq_true_iff.mp h)

theorem has_of_globalGm (h : globalGm (s.clients c) = true) : Has s c .globalGm :=
  and_comm.mp (Bool.and_eq_true_iff.mp h)

theorem has_of_localRoot (h : localRoot (s.clients c) = true) : Has s c .localRoot :=
  and_comm.mp (Bool.and_eq_true_iff.mp h)

theorem holdsAll_refl (p : BitVec 32) : HoldsAll p p := by
  unfold HoldsAll
  rw [BitVec.and_comm p, BitVec.and_assoc, BitVec.and_not_self]
  exact BitVec.and_zero

/-- What a local GM may change is as it was. -/
structure SameForGm (c : ClientId) (s s' : Ship Lim) : Prop where
  lobbyEvent : s'.lobbyEvent = s.lobbyEvent
  gameEvent : s'.gameEvent = s.gameEvent
  quests : s'.quests = s.quests
  limits : (s'.allLimits, s'.defLimits) = (s.allLimits, s.defLimits)
  gcBans : s'.gcBans = s.gcBans
  ipBans : s'.ipBans = s.ipBans
  mute : ∀ i ≠ c, (s'.clients i).flags.stfu = (s.clients i).flags.stfu
  connection : ∀ i ≠ c, (s'.clients i).flags.disconnected = (s.clients i).flags.disconnected
  position : ∀ i ≠ c, (s'.clients i).pos = (s.clients i).pos
  events : ∀ l, (s'.lobbies l).event = (s.lobbies l).event
  floor : ∀ l, (s'.lobbies l).floor = (s.lobbies l).floor
  quest : ∀ l, (s'.lobbies l).quest = (s.lobbies l).quest
  teamLog : ∀ l, (s'.lobbies l).logging = (s.lobbies l).logging

/-- What a local root may change is as it was. -/
structure SameForRoot (c : ClientId) (s s' : Ship Lim) : Prop where
  gmList : s'.gmList = s.gmList
  logging : ∀ i ≠ c, (s'.clients i).logging = (s.clients i).logging
  schedule : (s'.shutdownTime, s'.restartOnShutdown) = (s.shutdownTime, s.restartOnShutdown)

/-- Nobody is kicked or muted whom the client does not outrank. -/
def FairHere (c : ClientId) (s s' : Ship Lim) : Prop :=
  ∀ i, ((s.clients i).flags.disconnected = false → (s'.clients i).flags.disconnected = true →
      HoldsAll (s.clients c).privilege (s.clients i).privilege) ∧
    ((s.clients i).flags.stfu = false → (s'.clients i).flags.stfu = true →
      HoldsAll (s.clients c).privilege (s.clients i).privilege)

/-- A packet that kicks or bans nobody on other ships. -/
def Effect.Local : Effect → Prop
  | .gate (.ban _ _) => False
  | .gate (.kick _) => False
  | _ => True

/-- Such a packet that moves no other client and drops no item. -/
def Effect.Harmless (c : ClientId) : Effect → Prop
  | .warp i _ => i = c
  | .lobby _ (.dropStack _ _) => False
  | e => Effect.Local e

theorem Effect.Harmless.isLocal {e : Effect} (h : Effect.Harmless c e) : Effect.Local e := by
  unfold Effect.Harmless at h
  split at h
  · trivial
  · exact h.elim
  · exact h

theorem fair_of_local (hfair : FairHere c s s') (he : ∀ e ∈ es, Effect.Local e) :
    Fair c s (s', es) where
  kicked i := (hfair i).1
  muted i := (hfair i).2
  banned _ _ hmem := (he _ hmem).elim
  bannedElsewhere _ _ hmem := (he _ hmem).elim
  kickedElsewhere _ hmem := (he _ hmem).elim

/-- A step that everyone may take. -/
theorem proper_of_harmless (hgm : SameForGm c s s') (hroot : SameForRoot c s s')
    (hfair : FairHere c s s') (hmeek : Meek c s s') (he : ∀ e ∈ es, Effect.Harmless c e) :
    Proper c s (s', es) where
  authorised :=
    { lobbyEvent := fun hne => absurd hgm.lobbyEvent hne
      events := fun l hne => absurd (hgm.events l) hne
      gameEvent := fun hne => absurd hgm.gameEvent hne
      quests := fun hne => absurd hgm.quests hne
      limits := fun hne => absurd hgm.limits hne
      gmList := fun hne => absurd hroot.gmList hne
      gcBans := fun hne => absurd hgm.gcBans hne
      ipBans := fun hne => absurd hgm.ipBans hne
      globalBans := fun _ _ hmem => (he _ hmem).elim
      kicksElsewhere := fun _ hmem => (he _ hmem).elim
      mute := fun i hi hne => absurd (hgm.mute i hi) hne
      logging := fun i hi hne => absurd (hroot.logging i hi) hne
      connection := fun i hi hne => absurd (hgm.connection i hi) hne
      position := fun i hi hne => absurd (hgm.position i hi) hne
      warps := fun _ hi _ hmem => absurd (he _ hmem) hi
      floor := fun l hne => absurd (hgm.floor l) hne
      drops := fun _ _ _ hmem => (he _ hmem).elim
      quest := fun l hne => absurd (hgm.quest l) hne
      teamLog := fun l hne => absurd (hgm.teamLog l) hne
      schedule := fun hne => absurd hroot.schedule hne }
  fair := fair_of_local hfair fun e hmem => (he e hmem).isLocal
  meek := hmeek

/-- A step that a local GM may take. -/
theorem proper_of_localGm (h : localGm (s.clients c) = true) (hroot : SameForRoot c s s')
    (hfair : FairHere c s s') (hmeek : Meek c s s') (he : ∀ e ∈ es, Effect.Local e) :
    Proper c s (s', es) where
  authorised :=
    { lobbyEvent := fun _ => has_of_localGm h
      events := fun _ _ => has_of_localGm h
      gameEvent := fun _ => has_of_localGm h
      quests := fun _ => has_of_localGm h
      limits := fun _ => has_of_localGm h
      gmList := fun hne => absurd hroot.gmList hne
      gcBans := fun _ => has_of_localGm h
      ipBans := fun _ => has_of_localGm h
      globalBans := fun _ _ hmem => (he _ hmem).elim
      kicksElsewhere := fun _ hmem => (he _ hmem).elim
      mute := fun _ _ _ => has_of_localGm h
      logging := fun i hi hne => absurd (hroot.logging i hi) hne
      connection := fun _ _ _ => .inl (has_of_localGm h)
      position := fun _ _ _ => has_of_localGm h
      warps := fun _ _ _ _ => has_of_localGm h
      floor := fun _ _ => has_of_localGm h
      drops := fun _ _ _ _ => has_of_localGm h
      quest := fun _ _ => has_of_localGm h
      teamLog := fun _ _ => has_of_localGm h
      schedule := fun hne => absurd hroot.schedule hne }
  fair := fair_of_local hfair he
  meek := hmeek

/-- A step that a local root may take. -/
theorem proper_of_localRoot (h : localRoot (s.clients c) = true) (hgm : SameForGm c s s')
    (hfair : FairHere c s s') (hmeek : Meek c s s') : Proper c s (s', []) where
  authorised :=
    { lobbyEvent := fun hne => absurd hgm.lobbyEvent hne
      events := fun l hne => absurd (hgm.events l) hne
      gameEvent := fun hne => absurd hgm.gameEvent hne
      quests := fun hne => absurd hgm.quests hne
      limits := fun hne => absurd hgm.limits hne
      gmList := fun _ => has_of_localRoot h
      gcBans := fun hne => absurd hgm.gcBans hne
      ipBans := fun hne => absurd hgm.ipBans hne
      globalBans := fun _ _ hmem => absurd hmem List.not_mem_nil
      kicksElsewhere := fun _ hmem => absurd hmem List.not_mem_nil
      mute := fun i hi hne => absurd (hgm.mute i hi) hne
      logging := fun _ _ _ => has_of_localRoot h
      connection := fun i hi hne => absurd (hgm.connection i hi) hne
      position := fun i hi hne => absurd (hgm.position i hi) hne
      warps := fun _ _ _ hmem => absurd hmem List.not_mem_nil
      floor := fun l hne => absurd (hgm.floor l) hne
      drops := fun _ _ _ hmem => absurd hmem List.not_mem_nil
      quest := fun l hne => absurd (hgm.quest l) hne
      teamLog := fun l hne => absurd (hgm.teamLog l) hne
      schedule := fun _ => has_of_localRoot h }
  fair := fair_of_local hfair fun _ hmem => absurd hmem List.not_mem_nil
  meek := hmeek

theorem fairHere_of_same
    (h : ∀ i, (s'.clients i).flags.disconnected = (s.clients i).flags.disconnected ∧
      (s'.clients i).flags.stfu = (s.clients i).flags.stfu) : FairHere c s s' := by
  intro i
  obtain ⟨hdisconnected, hstfu⟩ := h i
  rw [hdisconnected, hstfu]
  exact ⟨fun hno hyes => absurd (hno.symm.trans hyes) Bool.false_ne_true,
    fun hno hyes => absurd (hno.symm.trans hyes) Bool.false_ne_true⟩

theorem meek_of_same (h : s'.clients = s.clients) : Meek c s s' := by
  intro hin
  rw [h] at hin ⊢
  exact ⟨hin, rfl⟩

theorem sameForGm_refl : SameForGm c s s := by
  constructor <;> first | rfl | exact fun _ => rfl | exact fun _ _ => rfl

theorem sameForRoot_refl : SameForRoot c s s :=
  ⟨rfl, fun _ _ => rfl, rfl⟩

/-- Packets alone. -/
theorem proper_sends (he : ∀ e ∈ es, Effect.Harmless c e) : Proper c s (s, es) :=
  proper_of_harmless sameForGm_refl sameForRoot_refl (fairHere_of_same fun _ => ⟨rfl, rfl⟩)
    (meek_of_same rfl) he

theorem proper_gmSends (h : localGm (s.clients c) = true) (he : ∀ e ∈ es, Effect.Local e) :
    Proper c s (s, es) :=
  proper_of_localGm h sameForRoot_refl (fairHere_of_same fun _ => ⟨rfl, rfl⟩) (meek_of_same rfl) he

theorem harmless_nil : ∀ e ∈ ([] : List Effect), Effect.Harmless c e :=
  fun _ hmem => absurd hmem List.not_mem_nil

theorem harmless_single {e : Effect} (h : Effect.Harmless c e) :
    ∀ e' ∈ [e], Effect.Harmless c e' := by
  intro e' hmem
  rw [List.mem_singleton.mp hmem]
  exact h

theorem local_nil : ∀ e ∈ ([] : List Effect), Effect.Local e :=
  fun _ hmem => absurd hmem List.not_mem_nil

theorem local_single {e : Effect} (h : Effect.Local e) : ∀ e' ∈ [e], Effect.Local e' := by
  intro e' hmem
  rw [List.mem_singleton.mp hmem]
  exact h

theorem proper_answer : Proper c s (answer s) :=
  proper_sends harmless_nil

/-- A command that is refused where a condition is met. -/
theorem proper_unless {p : Prop} [Decidable p] (h : ¬p → Proper c s r) :
    Proper c s (if p then answer s else r) := by
  by_cases hp : p
  · rw [if_pos hp]
    exact proper_answer
  · rw [if_neg hp]
    exact h hp

theorem proper_gmOnly (h : localGm (s.clients c) = true → Proper c s r) :
    Proper c s (if localGm (s.clients c) = false then answer s else r) :=
  proper_unless fun hp => h (Bool.not_eq_false _ ▸ hp)

theorem proper_rootOnly (h : localRoot (s.clients c) = true → Proper c s r) :
    Proper c s (if localRoot (s.clients c) = false then answer s else r) :=
  proper_unless fun hp => h (Bool.not_eq_false _ ▸ hp)

theorem proper_ite {p : Prop} [Decidable p] {r' : Outcome Lim} (h : Proper c s r)
    (h' : Proper c s r') : Proper c s (if p then r else r') := by
  split
  · exact h
  · exact h'

/-- A command that is refused if its parameters cannot be read. -/
theorem proper_elim {α : Type} {a : Option α} {f : α → Outcome Lim}
    (h : ∀ x, a = some x → Proper c s (f x)) : Proper c s (a.elim (answer s) f) := by
  cases a with
  | none => exact proper_answer
  | some x => exact h x rfl

theorem modClient_other {i : ClientId} (f : Client → Client) (hi : i ≠ c) :
    (s.modClient c f).clients i = s.clients i :=
  Function.update_of_ne hi _ _

theorem modClient_self (f : Client → Client) : (s.modClient c f).clients c = f (s.clients c) :=
  Function.update_self ..

/-- What everyone may change about oneself. -/
theorem proper_modClient {f : Client → Client}
    (hdisconnected : (f (s.clients c)).flags.disconnected = (s.clients c).flags.disconnected)
    (hstfu : (f (s.clients c)).flags.stfu = (s.clients c).flags.stfu)
    (hmeek : (f (s.clients c)).flags.loggedIn = true →
      (s.clients c).flags.loggedIn = true ∧
        (f (s.clients c)).privilege = (s.clients c).privilege)
    (he : ∀ e ∈ es, Effect.Harmless c e) : Proper c s (s.modClient c f, es) := by
  refine proper_of_harmless ?_ ?_ (fairHere_of_same fun i => ?_) ?_ he
  · constructor <;> first
      | rfl
      | exact fun _ => rfl
      | (intro i hi; rw [modClient_other f hi])
  · exact ⟨rfl, fun i hi => by rw [modClient_other f hi], rfl⟩
  · by_cases hi : i = c
    · rw [hi, modClient_self]
      exact ⟨hdisconnected, hstfu⟩
    · rw [modClient_other f hi]
      exact ⟨rfl, rfl⟩
  · unfold Meek
    rw [modClient_self]
    exact hmeek

theorem proper_modFlags {f : ClientFlags → ClientFlags}
    (hdisconnected : (f (s.clients c).flags).disconnected = (s.clients c).flags.disconnected)
    (hstfu : (f (s.clients c).flags).stfu = (s.clients c).flags.stfu)
    (hlogged : (f (s.clients c).flags).loggedIn = (s.clients c).flags.loggedIn)
    (he : ∀ e ∈ es, Effect.Harmless c e) : Proper c s (s.modFlags c f, es) :=
  proper_modClient hdisconnected hstfu (fun hin => ⟨hlogged.symm.trans hin, rfl⟩) he

theorem modLobby_cases (l l' : LobbyId) (f : Lobby → Lobby) :
    (s.modLobby l f).lobbies l' = if l' = l then f (s.lobbies l') else s.lobbies l' := by
  by_cases hl : l' = l
  · rw [if_pos hl, hl]
    exact Function.update_self ..
  · rw [if_neg hl]
    exact Function.update_of_ne hl _ _

/-- The settings of a game are no business of a GM. -/
theorem proper_modSettings {f : GameSettings → GameSettings}
    (he : ∀ e ∈ es, Effect.Harmless c e) : Proper c s (s.modSettings c f, es) := by
  refine proper_of_harmless ?_ ⟨rfl, fun _ _ => rfl, rfl⟩ (fairHere_of_same fun _ => ⟨rfl, rfl⟩)
    (meek_of_same rfl) he
  constructor <;> first
    | rfl
    | exact fun _ _ => rfl
    | (intro l; unfold Ship.modSettings; rw [modLobby_cases]; split <;> rfl)

/-- A local GM may change a game. -/
theorem proper_gmLobby {l : LobbyId} {f : Lobby → Lobby} (h : localGm (s.clients c) = true)
    (he : ∀ e ∈ es, Effect.Local e) : Proper c s (s.modLobby l f, es) :=
  proper_of_localGm h ⟨rfl, fun _ _ => rfl, rfl⟩ (fairHere_of_same fun _ => ⟨rfl, rfl⟩)
    (meek_of_same rfl) he

theorem modClient_cases (i j : ClientId) (f : Client → Client) :
    (s.modClient i f).clients j = if j = i then f (s.clients j) else s.clients j := by
  by_cases hj : j = i
  · rw [if_pos hj, hj, modClient_self]
  · rw [if_neg hj, modClient_other f hj]

/-- A client that is to be disconnected. -/
def leaving (i : Client) : Client :=
  { i with flags := { i.flags with disconnected := true } }

theorem disconnectAll_eq (is : List ClientId) :
    s.disconnectAll is = { s with
      clients := fun j => if j ∈ is then leaving (s.clients j) else s.clients j } := by
  induction is generalizing s with
  | nil => simp only [Ship.disconnectAll, List.foldl_nil, List.not_mem_nil, if_false]
  | cons i is ih =>
    have hstep : s.disconnectAll (i :: is) = (s.disconnect i).disconnectAll is := rfl
    have hone : (s.disconnect i).clients =
        fun j => if j = i then leaving (s.clients j) else s.clients j :=
      funext fun j => modClient_cases i j leaving
    rw [hstep, ih, hone]
    have hclients : (fun j => if j ∈ is then
          leaving (if j = i then leaving (s.clients j) else s.clients j)
        else if j = i then leaving (s.clients j) else s.clients j) =
        fun j => if j ∈ i :: is then leaving (s.clients j) else s.clients j := by
      funext j
      by_cases hi : j = i <;> by_cases his : j ∈ is <;> simp [hi, his, leaving]
    rw [hclients]
    rfl

theorem fairHere_disconnectAll {is : List ClientId} (hclients : s'.clients = s.clients)
    (hfair : ∀ i ∈ is, (s.clients i).flags.disconnected = false →
      HoldsAll (s.clients c).privilege (s.clients i).privilege) :
    FairHere c s (s'.disconnectAll is) := by
  intro i
  rw [disconnectAll_eq, hclients]
  by_cases hi : i ∈ is
  · simp only [if_pos hi]
    exact ⟨fun hno _ => hfair i hi hno,
      fun hno hyes => absurd (hno.symm.trans hyes) Bool.false_ne_true⟩
  · simp only [if_neg hi]
    exact ⟨fun hno hyes => absurd (hno.symm.trans hyes) Bool.false_ne_true,
      fun hno hyes => absurd (hno.symm.trans hyes) Bool.false_ne_true⟩

theorem meek_disconnectAll {is : List ClientId} (hclients : s'.clients = s.clients) :
    Meek c s (s'.disconnectAll is) := by
  unfold Meek
  rw [disconnectAll_eq, hclients]
  dsimp only
  split
  · exact fun hin => ⟨hin, rfl⟩
  · exact fun hin => ⟨hin, rfl⟩

theorem sameForRoot_disconnectAll {is : List ClientId} (h : SameForRoot c s s') :
    SameForRoot c s (s'.disconnectAll is) := by
  rw [disconnectAll_eq]
  refine ⟨h.gmList, fun i hi => ?_, h.schedule⟩
  dsimp only
  split
  · exact h.logging i hi
  · exact h.logging i hi

end ShipServer.CommandAuthority
