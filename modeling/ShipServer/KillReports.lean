import ShipServer.LobbyMembership

set_option autoImplicit false

namespace ShipServer.KillReports

open LabelledRuns Versions LobbyRooms LobbyState LobbyFunctions DeferredPackets LobbyRefinement
open BlockPackets BlockInvariants LobbyMembership

/-- One counter for each kind of enemy. -/
abbrev KillCounts := Fin 0x60 → BitVec 32

/-- A block with the kill counters of its clients. `reports` has the counts that have been sent to
the shipgate, and `recorded` is history: the kills that the counters were raised for. -/
structure KillBlock where
  block : Block
  trackKills : ClientId → Bool
  enemyKills : ClientId → KillCounts
  reports : List (ClientId × KillCounts)
  recorded : ClientId → Fin 0x60 → ℕ

/-- The client's lobby is a game. -/
def playing (b : Block) (c : ClientId) : Bool :=
  (b.client c).curLobby.any fun h => (b.lobby h).type = .game

namespace KillBlock

def setKills (s : KillBlock) (c : ClientId) (counts : KillCounts) : KillBlock :=
  { s with enemyKills := Function.update s.enemyKills c counts }

/-- `shipgate_send_mkill`. -/
def sendMkill (s : KillBlock) (c : ClientId) : KillBlock :=
  { s with reports := s.reports ++ [(c, s.enemyKills c)] }

/-- A kill is added to a counter by the handler of a monster hit, in a game. -/
def recordKill (s : KillBlock) (c : ClientId) (i : Fin 0x60) : KillBlock :=
  { s.setKills c (Function.update (s.enemyKills c) i (s.enemyKills c i + 1)) with
    recorded := Function.update s.recorded c
      (Function.update (s.recorded c) i (s.recorded c i + 1)) }

/-- `lobby_change_lobby` has got as far as telling the client about a game. -/
def entersGame (s : KillBlock) (env : Env) (c : ClientId) (req : LobbyHandle) : Bool :=
  let r := LobbyFunctions.lobbyChangeLobby s.block env c req
  (s.block.client c).curLobby.isSome && r.2 = 0 &&
    (r.1.client c).curLobby.any fun h => (r.1.lobby h).type ≠ .lobby

def lobbyChangeLobby (s : KillBlock) (env : Env) (c : ClientId) (req : LobbyHandle) : KillBlock :=
  let t := { s with block := (LobbyFunctions.lobbyChangeLobby s.block env c req).1 }
  if s.entersGame env c req then t.setKills c (fun _ => 0) else t

def lobbyRemovePlayer (s : KillBlock) (env : Env) (c : ClientId) : KillBlock :=
  let t := if playing s.block c ∧ s.trackKills c then s.sendMkill c else s
  { t with block := (DeferredPackets.lobbyRemovePlayer s.block env c).1 }

/-- One turn of the loop of `lobby_send_kill_counts`. -/
def sendKillCount (s : KillBlock) : Option ClientId → KillBlock
  | none => s
  | some c => if s.trackKills c then (s.sendMkill c).setKills c (fun _ => 0) else s

def lobbySendKillCounts (s : KillBlock) (h : LobbyHandle) : KillBlock :=
  ((slots (s.block.lobby h).toRoom).map (s.block.lobby h).clients).foldl sendKillCount s

end KillBlock

/-- Kills, quests that are set up, and the calls of the functions that move clients. A client that
leaves a game or disconnects is removed; afterwards it may be added to a lobby. -/
inductive Event where
  | kill (c : ClientId) (i : Fin 0x60)
  | setupQuest (h : LobbyHandle)
  | addToAny (env : Env) (c : ClientId) (req : Option LobbyHandle)
  | changeLobby (env : Env) (c : ClientId) (req : LobbyHandle)
  | removePlayer (env : Env) (c : ClientId)

def next (s : KillBlock) : Event → KillBlock
  | .kill c i => if playing s.block c then s.recordKill c i else s
  | .setupQuest h => s.lobbySendKillCounts h
  | .addToAny env c req => { s with block := callNext s.block ⟨env, .addToAny c req⟩ }
  | .changeLobby env c req => s.lobbyChangeLobby env c req
  | .removePlayer env c => s.lobbyRemovePlayer env c

/-- The kills of one kind that the shipgate has been told about. -/
def reported (s : KillBlock) (c : ClientId) (i : Fin 0x60) : ℕ :=
  ((s.reports.filter fun r => r.1 = c).map fun r => (r.2 i).toNat).sum

/-- The kills of one kind that wait for the end of the game. -/
def unreported (s : KillBlock) (c : ClientId) (i : Fin 0x60) : ℕ :=
  if playing s.block c then (s.enemyKills c i).toNat else 0

/-- Every kill is reported exactly once, the kills of the current game when it ends. -/
def Accounted (s : KillBlock) (c : ClientId) : Prop :=
  ∀ i, s.recorded c i = reported s c i + unreported s c i

/-- The client has space for its next kill, goes from a game to another lobby with nothing on its
counters, and is not in a lobby where a quest is set up with the kills of an earlier game. -/
def Orderly (c : ClientId) (s : KillBlock) : Event → Prop
  | .kill d i => d = c → s.enemyKills c i ≠ 0xFFFFFFFF
  | .setupQuest h => (s.block.lobby h).type = .game ∨
      ((∃ i, (s.block.lobby h).clients i = some c) → ∀ i, s.enemyKills c i = 0)
  | .changeLobby env d req => d = c → playing s.block c → ChangeAccepted s.block env c req →
      ((s.block.client c).curLobby = some req ∨ (s.block.lobby req).toRoom.Spare) →
      ∀ i, s.enemyKills c i = 0
  | .addToAny _ _ _ | .removePlayer _ _ => True

/-- A client with kill tracking on that has not played yet. -/
structure Fresh (s : KillBlock) (c : ClientId) : Prop where
  sound : BlockSound s.block
  tracked : s.trackKills c = true
  playing : playing s.block c = false
  recorded : ∀ i, s.recorded c i = 0
  reports : ∀ r ∈ s.reports, r.1 ≠ c

theorem playing_congr {b b' : Block} {c : ClientId} (hframe : Frame b.rooms b'.rooms)
    (hcur : (b'.client c).curLobby = (b.client c).curLobby) : playing b' c = playing b c := by
  have htype : ∀ h, (b'.lobby h).type = (b.lobby h).type := hframe.type
  unfold playing
  rw [hcur]
  simp only [htype]

/-- What `lobby_change_lobby` does to the lobby that its client is in. -/
inductive Changed (b : Block) (env : Env) (c : ClientId) (req : LobbyHandle) (b' : Block) :
    Int → Prop where
  | refused {rv : Int} (failed : rv < 0)
      (same : (b'.client c).curLobby = (b.client c).curLobby) : Changed b env c req b' rv
  | lounged {rv : Int} {h : LobbyHandle} (nowhere : (b.client c).curLobby = none)
      (cur : (b'.client c).curLobby = some h) (lobby : (b.lobby h).type = .lobby) :
      Changed b env c req b' rv
  | moved {l : LobbyHandle} (ok : ChangeAccepted b env c req) (old : (b.client c).curLobby = some l)
      (spare : l = req ∨ (b.lobby req).toRoom.Spare) (cur : (b'.client c).curLobby = some req) :
      Changed b env c req b' 0

theorem lobbyChangeLobby_changed {b : Block} (hb : BlockSound b) (env : Env) (c : ClientId)
    (req : LobbyHandle) :
    Changed b env c req (lobbyChangeLobby b env c req).1 (lobbyChangeLobby b env c req).2 ∧
      ∀ d, d ≠ c →
        ((lobbyChangeLobby b env c req).1.client d).curLobby = (b.client d).curLobby := by
  have henter := lobbyChangeLobby_enter hb.rooms env c req
  generalize lobbyChangeLobby b env c req = t at *
  obtain ⟨b', rv⟩ := t
  dsimp only at *
  have hcur : ∀ d, (b'.client d).curLobby = (b'.rooms.presence d).curLobby := fun _ => rfl
  simp only [hcur]
  generalize b'.rooms = r' at *
  generalize b'.ledger = m' at *
  cases henter with
  | refused failed => exact ⟨.refused failed (hcur c), fun d _ => rfl⟩
  | lounged nowhere arrived =>
    obtain ⟨l, i, rfl, htype, -, -⟩ := arrived
    refine ⟨.lounged nowhere ?_ htype, fun d hd => ?_⟩
    · rw [hcur, Rooms.curLobby_sit, if_pos rfl]
    · rw [Rooms.curLobby_sit, if_neg hd]
      rfl
  | stayed ok cur calm =>
    refine ⟨.moved ok cur (Or.inl rfl) ?_, fun d _ => ?_⟩
    · rw [hcur, Rooms.curLobby_settle]
      exact cur
    · rw [Rooms.curLobby_settle]
      rfl
  | moved ok cur other calm spare free below version gone =>
    subst gone
    refine ⟨.moved ok cur (Or.inr spare) ?_, fun d hd => ?_⟩
    · rw [hcur, Rooms.curLobby_settle, Rooms.presence_close, Rooms.presence_vacate,
        Rooms.curLobby_sit, if_pos rfl]
    · rw [Rooms.curLobby_settle, Rooms.presence_close, Rooms.presence_vacate, Rooms.curLobby_sit,
        if_neg hd]
      rfl

theorem lobbyChangeLobby_frame {b : Block} (hb : BlockSound b) (env : Env) (c : ClientId)
    (req : LobbyHandle) : Frame b.rooms (lobbyChangeLobby b env c req).1.rooms :=
  frame_of_enter (lobbyChangeLobby_enter hb.rooms env c req)

theorem reported_append (s : KillBlock) (c d : ClientId) (i : Fin 0x60) :
    reported (s.sendMkill d) c i =
      reported s c i + if d = c then (s.enemyKills c i).toNat else 0 := by
  unfold reported KillBlock.sendMkill
  dsimp only
  rw [List.filter_append, List.map_append, List.sum_append]
  by_cases hd : d = c
  · subst hd
    simp
  · simp [hd]

theorem enemyKills_setKills_ne (s : KillBlock) {c d : ClientId} (hd : c ≠ d) (counts : KillCounts) :
    (s.setKills d counts).enemyKills c = s.enemyKills c :=
  Function.update_of_ne hd _ _

theorem enemyKills_setKills (s : KillBlock) (c : ClientId) (counts : KillCounts) :
    (s.setKills c counts).enemyKills c = counts :=
  Function.update_self ..

theorem unreported_eq_zero {s : KillBlock} {c : ClientId} (i : Fin 0x60)
    (h : playing s.block c = true → s.enemyKills c i = 0) : unreported s c i = 0 := by
  unfold unreported
  split_ifs with hplaying
  · rw [h hplaying]
    rfl
  · rfl

theorem Accounted.changeLobby {s : KillBlock} (hb : BlockSound s.block) {c : ClientId}
    (h : Accounted s c) (env : Env) (d : ClientId) (req : LobbyHandle)
    (hgood : Orderly c s (.changeLobby env d req)) : Accounted (s.lobbyChangeLobby env d req) c := by
  obtain ⟨hchanged, hothers⟩ := lobbyChangeLobby_changed hb env d req
  have hframe := lobbyChangeLobby_frame hb env d req
  intro i
  have hrecorded : (s.lobbyChangeLobby env d req).recorded = s.recorded := by
    unfold KillBlock.lobbyChangeLobby
    dsimp only
    split_ifs <;> rfl
  have hreported : reported (s.lobbyChangeLobby env d req) c i = reported s c i := by
    unfold KillBlock.lobbyChangeLobby
    dsimp only
    split_ifs <;> rfl
  have hblock : (s.lobbyChangeLobby env d req).block =
      (LobbyFunctions.lobbyChangeLobby s.block env d req).1 := by
    unfold KillBlock.lobbyChangeLobby
    dsimp only
    split_ifs <;> rfl
  rw [hrecorded, hreported, h i]
  congr 1
  by_cases hd : c = d
  · subst hd
    have hentered : (s.lobbyChangeLobby env c req).enemyKills c i =
        if s.entersGame env c req then 0 else s.enemyKills c i := by
      unfold KillBlock.lobbyChangeLobby
      dsimp only
      split_ifs
      · rw [enemyKills_setKills]
      · rfl
    generalize hr : LobbyFunctions.lobbyChangeLobby s.block env c req = r at *
    obtain ⟨b', rv⟩ := r
    dsimp only at *
    cases hchanged with
    | refused failed same =>
      have hstays : s.entersGame env c req = false := by
        unfold KillBlock.entersGame
        rw [hr]
        simp [failed.ne]
      unfold unreported
      rw [hblock, playing_congr hframe same, hentered, hstays]
      rfl
    | @lounged _ k nowhere cur lobby =>
      have hbefore : playing s.block c = false := by
        unfold playing
        rw [nowhere]
        rfl
      have hafter : playing b' c = false := by
        have htype : (b'.lobby k).type = (s.block.lobby k).type := hframe.type k
        unfold playing
        rw [cur]
        simp [htype, lobby]
      unfold unreported
      rw [hblock, hbefore, hafter]
      rfl
    | @moved l ok old spare cur =>
      rw [unreported_eq_zero i, unreported_eq_zero i]
      · intro hplaying
        rw [hblock] at hplaying
        have hgame : s.entersGame env c req = true := by
          unfold playing at hplaying
          unfold KillBlock.entersGame
          rw [hr, old]
          dsimp only
          rw [cur] at hplaying ⊢
          simp only [Option.any_some, decide_eq_true_eq] at hplaying
          simp [hplaying]
        rw [hentered, hgame]
        rfl
      · intro hplaying
        refine hgood rfl hplaying ok ?_ i
        rcases spare with rfl | hspare
        · exact Or.inl old
        · exact Or.inr hspare
  · have hkills : (s.lobbyChangeLobby env d req).enemyKills c = s.enemyKills c := by
      unfold KillBlock.lobbyChangeLobby
      dsimp only
      split_ifs
      · exact enemyKills_setKills_ne _ hd _
      · rfl
    unfold unreported
    rw [hblock, playing_congr hframe (hothers c hd), hkills]

theorem removePlayer_others {b : Block} (hb : BlockSound b) (env : Env) {c d : ClientId}
    (hd : d ≠ c) :
    ((DeferredPackets.lobbyRemovePlayer b env c).1.client d).curLobby = (b.client d).curLobby := by
  cases hcur : (b.rooms.presence c).curLobby with
  | none => rw [lobbyRemovePlayer_absent env hcur]
  | some l =>
    have hpresence := lobbyRemovePlayer_presence hb env hcur
    have hsame : (DeferredPackets.lobbyRemovePlayer b env c).1.rooms.presence d =
        b.rooms.presence d := by
      rw [hpresence, Function.update_of_ne hd]
    exact congrArg Presence.curLobby hsame

theorem removePlayer_playing {b : Block} (hb : BlockSound b) (env : Env) (c : ClientId) :
    playing (DeferredPackets.lobbyRemovePlayer b env c).1 c = false := by
  have hcur : ((DeferredPackets.lobbyRemovePlayer b env c).1.client c).curLobby = none :=
    lobbyRemovePlayer_curLobby hb env c
  unfold playing
  rw [hcur]
  rfl

theorem Accounted.removePlayer {s : KillBlock} (hb : BlockSound s.block) {c : ClientId}
    (h : Accounted s c) (htrack : s.trackKills c = true) (env : Env) (d : ClientId) :
    Accounted (s.lobbyRemovePlayer env d) c := by
  intro i
  have hframe := frame_of_remove hb env d
  have hsum := h i
  by_cases hd : d = c
  · subst hd
    have hafter : unreported (s.lobbyRemovePlayer env d) d i = 0 := by
      unfold unreported KillBlock.lobbyRemovePlayer
      rw [removePlayer_playing hb env d]
      rfl
    unfold unreported at hsum
    cases hplaying : playing s.block d with
    | true =>
      have hsent : reported (s.lobbyRemovePlayer env d) d i = reported (s.sendMkill d) d i := by
        unfold KillBlock.lobbyRemovePlayer
        rw [if_pos ⟨hplaying, htrack⟩]
        rfl
      have hrecorded : (s.lobbyRemovePlayer env d).recorded d i = s.recorded d i := by
        unfold KillBlock.lobbyRemovePlayer
        rw [if_pos ⟨hplaying, htrack⟩]
        rfl
      rw [hplaying, if_pos rfl] at hsum
      rw [hrecorded, hsent, hafter, reported_append, if_pos rfl, hsum]
      rfl
    | false =>
      have hkept : s.lobbyRemovePlayer env d =
          { s with block := (DeferredPackets.lobbyRemovePlayer s.block env d).1 } := by
        unfold KillBlock.lobbyRemovePlayer
        rw [if_neg (by simp [hplaying])]
      rw [hafter, hkept]
      rw [hplaying] at hsum
      exact hsum
  · have hplaying := playing_congr hframe (removePlayer_others hb env (Ne.symm hd))
    unfold unreported KillBlock.lobbyRemovePlayer at *
    dsimp only
    rw [hplaying]
    split_ifs at hsum ⊢ with hsend
    all_goals
      first
        | exact hsum
        | (change s.recorded c i = reported (s.sendMkill d) c i + _
           rw [reported_append, if_neg hd]
           exact hsum)

/-- A report of the kills that are waiting, or of none. -/
theorem Accounted.sendKillCount {s : KillBlock} {c : ClientId} (h : Accounted s c)
    {o : Option ClientId}
    (ho : o = some c → playing s.block c = true ∨ ∀ i, s.enemyKills c i = 0) :
    Accounted (s.sendKillCount o) c := by
  cases o with
  | none => exact h
  | some d =>
    unfold KillBlock.sendKillCount
    dsimp only
    split_ifs with htrack
    · intro i
      have hsum := h i
      have hsent : reported ((s.sendMkill d).setKills d fun _ => 0) c i =
          reported s c i + if d = c then (s.enemyKills c i).toNat else 0 :=
        reported_append s c d i
      rw [hsent]
      change s.recorded c i = _
      by_cases hd : d = c
      · subst hd
        have hcleared : unreported ((s.sendMkill d).setKills d fun _ => 0) d i = 0 :=
          unreported_eq_zero i fun _ => congrFun (enemyKills_setKills _ d _) i
        rw [if_pos rfl, hcleared, hsum]
        unfold unreported
        rcases ho rfl with hplaying | hzero
        · rw [if_pos hplaying]
          rfl
        · rw [hzero i]
          simp
      · have hkept : unreported ((s.sendMkill d).setKills d fun _ => 0) c i = unreported s c i := by
          unfold unreported
          rw [enemyKills_setKills_ne _ (Ne.symm hd)]
          rfl
        rw [if_neg hd, hkept]
        exact hsum
    · exact h

/-- The loop leaves the block alone, and a counter as it is or at zero. -/
theorem sendKillCount_same (s : KillBlock) (o : Option ClientId) (c : ClientId) :
    (s.sendKillCount o).block = s.block ∧ ((s.sendKillCount o).enemyKills c = s.enemyKills c ∨
      ∀ i, (s.sendKillCount o).enemyKills c i = 0) := by
  cases o with
  | none => exact ⟨rfl, Or.inl rfl⟩
  | some d =>
    unfold KillBlock.sendKillCount
    dsimp only
    split_ifs
    · refine ⟨rfl, ?_⟩
      by_cases hd : c = d
      · subst hd
        exact Or.inr fun i => congrFun (enemyKills_setKills _ c _) i
      · exact Or.inl (enemyKills_setKills_ne _ hd _)
    · exact ⟨rfl, Or.inl rfl⟩

theorem Accounted.foldl_sendKillCount {c : ClientId} (os : List (Option ClientId)) {s : KillBlock}
    (h : Accounted s c)
    (hos : some c ∈ os → playing s.block c = true ∨ ∀ i, s.enemyKills c i = 0) :
    Accounted (os.foldl KillBlock.sendKillCount s) c := by
  induction os generalizing s with
  | nil => exact h
  | cons o os ih =>
    refine ih (h.sendKillCount fun ho => hos (by simp [ho])) fun hmem => ?_
    obtain ⟨hblock, hkills⟩ := sendKillCount_same s o c
    rw [hblock]
    rcases hos (List.mem_cons_of_mem o hmem) with hplaying | hzero
    · exact Or.inl hplaying
    · right
      rcases hkills with hsame | hcleared
      · rw [hsame]
        exact hzero
      · exact hcleared

theorem foldl_sendKillCount_block (os : List (Option ClientId)) (s : KillBlock) :
    (os.foldl KillBlock.sendKillCount s).block = s.block := by
  induction os generalizing s with
  | nil => rfl
  | cons o os ih => exact (ih _).trans (sendKillCount_same s o 0).1

theorem Accounted.setupQuest {s : KillBlock} (hb : BlockSound s.block) {c : ClientId}
    (h : Accounted s c) {l : LobbyHandle} (hgood : Orderly c s (.setupQuest l)) :
    Accounted (s.lobbySendKillCounts l) c := by
  refine h.foldl_sendKillCount _ fun hmem => ?_
  obtain ⟨i, -, hi⟩ := List.mem_map.mp hmem
  rcases hgood with hgame | hzero
  · left
    have hcur : (s.block.client c).curLobby = some l := (hb.rooms.curLobby_of_clients hi).1
    unfold playing
    rw [hcur]
    simp [hgame]
  · exact Or.inr (hzero ⟨i, hi⟩)

theorem Accounted.recordKill {s : KillBlock} {c : ClientId} (h : Accounted s c) {d : ClientId}
    {j : Fin 0x60} (hplaying : playing s.block d = true)
    (hgood : Orderly c s (.kill d j)) : Accounted (s.recordKill d j) c := by
  intro i
  have hsum := h i
  have hreported : reported (s.recordKill d j) c i = reported s c i := rfl
  rw [hreported]
  by_cases hd : d = c
  · subst hd
    unfold unreported at hsum ⊢
    have hblock : playing (s.recordKill d j).block d = true := hplaying
    rw [if_pos hplaying] at hsum
    rw [if_pos hblock]
    unfold KillBlock.recordKill
    dsimp only
    rw [Function.update_self, enemyKills_setKills]
    by_cases hi : i = j
    · subst hi
      have hspace : s.enemyKills d i ≠ 0xFFFFFFFF := hgood rfl
      rw [Function.update_self, Function.update_self, hsum]
      bv_omega
    · rw [Function.update_of_ne hi, Function.update_of_ne hi]
      exact hsum
  · have hkept : (s.recordKill d j).recorded c i = s.recorded c i := by
      unfold KillBlock.recordKill
      dsimp only
      rw [Function.update_of_ne (Ne.symm hd)]
    have hunreported : unreported (s.recordKill d j) c i = unreported s c i := by
      unfold unreported KillBlock.recordKill
      dsimp only
      rw [enemyKills_setKills_ne _ (Ne.symm hd)]
      rfl
    rw [hkept, hunreported]
    exact hsum

theorem addToAny_playing {b : Block} (hb : BlockSound b) (env : Env) (d : ClientId)
    (req : Option LobbyHandle) (c : ClientId) :
    playing (callNext b ⟨env, .addToAny d req⟩) c = playing b c := by
  unfold callNext
  dsimp only
  cases hcur : (b.client d).curLobby with
  | some l => rfl
  | none =>
    rcases lobbyAddToAny_attempted hb.rooms env.now d req with ⟨-, hsame⟩ | ⟨-, hlounged⟩
    · have hpresence := congrArg Rooms.presence hsame
      have hframe : Frame b.rooms (lobbyAddToAny b env.now d req).1.rooms := by
        rw [hsame]
        exact .refl _
      exact playing_congr hframe (congrArg Presence.curLobby (congrFun hpresence c))
    · have hframe := frame_of_lounged hlounged
      obtain ⟨l, i, hsat, htype, -, -⟩ := hlounged
      have hmoved : ((lobbyAddToAny b env.now d req).1.client c).curLobby =
          if c = d then some l else (b.client c).curLobby := by
        change ((lobbyAddToAny b env.now d req).1.rooms.presence c).curLobby = _
        rw [hsat, Rooms.curLobby_sit]
        rfl
      by_cases hc : c = d
      · rw [if_pos hc] at hmoved
        have hlobby : ((lobbyAddToAny b env.now d req).1.lobby l).type = .lobby :=
          (hframe.type l).trans htype
        unfold playing
        rw [hmoved, hc, hcur]
        simp [hlobby]
      · rw [if_neg hc] at hmoved
        exact playing_congr hframe hmoved

structure Invariant (c : ClientId) (s : KillBlock) : Prop where
  sound : BlockSound s.block
  tracked : s.trackKills c = true
  accounted : Accounted s c

theorem Fresh.invariant {s : KillBlock} {c : ClientId} (h : Fresh s c) : Invariant c s where
  sound := h.sound
  tracked := h.tracked
  accounted i := by
    have hnone : s.reports.filter (fun r => r.1 = c) = [] := by
      refine List.filter_eq_nil_iff.mpr fun r hr => ?_
      simpa using h.reports r hr
    unfold reported unreported
    rw [h.recorded i, h.playing, hnone]
    rfl

theorem sendKillCount_trackKills (os : List (Option ClientId)) (s : KillBlock) :
    (os.foldl KillBlock.sendKillCount s).trackKills = s.trackKills := by
  induction os generalizing s with
  | nil => rfl
  | cons o os ih =>
    refine (ih _).trans ?_
    cases o with
    | none => rfl
    | some d =>
      unfold KillBlock.sendKillCount
      dsimp only
      split_ifs <;> rfl

theorem next_invariant {c : ClientId} {s : KillBlock} (h : Invariant c s) {e : Event}
    (hgood : Orderly c s e) : Invariant c (next s e) := by
  cases e with
  | kill d i =>
    simp only [next]
    split_ifs with hplaying
    · exact ⟨h.sound, h.tracked, h.accounted.recordKill hplaying hgood⟩
    · exact h
  | setupQuest l =>
    have haccounted := h.accounted.setupQuest h.sound hgood
    refine ⟨?_, ?_, haccounted⟩
    · have hsame : (next s (.setupQuest l)).block = s.block := foldl_sendKillCount_block _ s
      rw [hsame]
      exact h.sound
    · have hsame : (next s (.setupQuest l)).trackKills = s.trackKills :=
        sendKillCount_trackKills _ s
      rw [hsame]
      exact h.tracked
  | addToAny env d req =>
    refine ⟨callNext_sound h.sound ⟨env, .addToAny d req⟩, h.tracked, fun i => ?_⟩
    have hsum := h.accounted i
    unfold unreported at hsum ⊢
    simp only [next, addToAny_playing h.sound env d req c]
    exact hsum
  | changeLobby env d req =>
    refine ⟨?_, ?_, h.accounted.changeLobby h.sound env d req hgood⟩
    · simp only [next, KillBlock.lobbyChangeLobby]
      split_ifs <;> exact lobbyChangeLobby_sound h.sound env d req
    · simp only [next, KillBlock.lobbyChangeLobby]
      split_ifs <;> exact h.tracked
  | removePlayer env d =>
    refine ⟨lobbyRemovePlayer_sound h.sound env d, ?_,
      h.accounted.removePlayer h.sound h.tracked env d⟩
    simp only [next, KillBlock.lobbyRemovePlayer]
    split_ifs <;> exact h.tracked

/-- Client 0 is in a game of its own making, and client 1 in a lobby. -/
def openGame : KillBlock where
  block := (obliging [.charData 0 false newcomer, .gameCreate 0 (gameWith []), .doneBurst 0,
    .charData 1 false newcomer]).foldl BlockPackets.next Block.start
  trackKills _ := true
  enemyKills _ _ := 0
  reports := []
  recorded _ _ := 0

theorem openGame_fresh : Fresh openGame 1 where
  sound := by
    have hrun := run_foldl BlockPackets.next Block.start (obliging [.charData 0 false newcomer,
      .gameCreate 0 (gameWith []), .doneBurst 0, .charData 1 false newcomer])
    refine hrun.invariant BlockSound initial_invariant.toBlockSound ?_
    rintro b e b' hb - rfl
    exact next_sound hb e
  tracked := rfl
  playing := by decide
  recorded _ := rfl
  reports := by
    intro r hr
    cases hr

/-- Client 1 joins the game, kills an enemy and leaves the game. -/
def properLeave : List Event :=
  [.changeLobby obligingEnv 1 20, .kill 1 0, .removePlayer obligingEnv 1]

end ShipServer.KillReports
