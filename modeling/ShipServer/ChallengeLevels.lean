import ShipServer.LabelledRuns
import ShipServer.LeaderElection

set_option autoImplicit false

/-! The maximum challenge level of a lobby, over everything that joins and leaves it. -/

namespace ShipServer.ChallengeLevels

open LabelledRuns Versions LobbyRooms LobbyState LobbyFunctions LobbyRefinement BlockPackets
open BlockEffects (newGame_newRoom)
open LeaderElection (emptySlot_others lobbyElectLeaderCrossLocked_frame
  updateMaxChal_lobby)

/-- The versions that `lobby_find_max_challenge` knows a record of. -/
def HasRecord : ClientVersion → Prop
  | .dcv1 | .ep3 => False
  | .dcv2 | .pc | .gc | .bb | .xbox => True

/-- The completed stages of Episode 1. -/
def completed (b : Block) (c : ClientId) : ℕ :=
  stagesDone (b.client c).account.player.times

/-- Those of Episode 2, which Dreamcast and PC do not have. -/
def completedEp2 (b : Block) (c : ClientId) : ℕ :=
  match (b.client c).account.version with
  | .dcv2 | .pc => 0
  | _ => stagesDone (b.client c).account.player.timesEp2

/-- Who is in a lobby. -/
def members (l : Lobby) : Set ClientId :=
  {c | ∃ i, l.clients i = some c}

/-- Both parts of the level are one more than the least number of completed stages. A lobby of an
older version has no second part. -/
def Levelled (b : Block) (l : Lobby) : Prop :=
  ∃ n n₂, IsLeast (completed b '' members l) n ∧ IsLeast (completedEp2 b '' members l) n₂ ∧
    l.maxChal % 16 = n + 1 ∧ l.maxChal / 16 = if l.version < .gc then 0 else n₂ + 1

section Scan

theorem stagesDone_le {n : ℕ} (times : Vector ℕ n) : stagesDone times ≤ n := by
  have hle := (List.takeWhile_sublist (l := times.toList) (· ≠ 0)).length_le
  rwa [Vector.length_toList] at hle

theorem completedEp2_le (b : Block) (c : ClientId) : completedEp2 b c ≤ 5 := by
  rw [completedEp2]
  split
  · exact Nat.zero_le 5
  · exact Nat.zero_le 5
  · exact stagesDone_le _

/-- Folding with `min` finds the least of a start and some numbers. -/
theorem isLeast_foldl_min (ns : List ℕ) (a : ℕ) :
    IsLeast {n | n = a ∨ n ∈ ns} (ns.foldl min a) := by
  induction ns generalizing a with
  | nil => exact ⟨Or.inl rfl, fun n hn => (hn.resolve_right List.not_mem_nil).ge⟩
  | cons x ns ih =>
    rw [List.foldl_cons]
    obtain ⟨hmem, hle⟩ := ih (min a x)
    constructor
    · rcases hmem with hmin | hlater
      · rcases min_choice a x with h | h
        · exact Or.inl (hmin.trans h)
        · exact Or.inr (by rw [hmin, h]; exact List.mem_cons_self)
      · exact Or.inr (List.mem_cons_of_mem x hlater)
    · rintro n (rfl | hn)
      · exact (hle (Or.inl rfl)).trans (min_le_left _ _)
      · rcases List.mem_cons.mp hn with rfl | hn
        · exact (hle (Or.inl rfl)).trans (min_le_right _ _)
        · exact hle (Or.inr hn)

/-- A start above all of the numbers does not count where there is one of them. -/
theorem isLeast_image {s : Set ClientId} {cs : List ClientId} (hcs : ∀ c, c ∈ cs ↔ c ∈ s)
    (hs : s.Nonempty) {f : ClientId → ℕ} {a : ℕ} (ha : ∀ c, f c < a) :
    IsLeast (f '' s) ((cs.map f).foldl min a) := by
  obtain ⟨hmem, hle⟩ := isLeast_foldl_min (cs.map f) a
  have hbelow : ∀ c ∈ s, (cs.map f).foldl min a ≤ f c :=
    fun c hc => hle (Or.inr (List.mem_map_of_mem ((hcs c).mpr hc)))
  constructor
  · rcases hmem with hstart | hmem
    · obtain ⟨c, hc⟩ := hs
      have hlt := ha c
      have hc := hbelow c hc
      omega
    · obtain ⟨c, hc, heq⟩ := List.mem_map.mp hmem
      exact ⟨c, (hcs c).mp hc, heq⟩
  · rintro n ⟨c, hc, rfl⟩
    exact hbelow c hc

variable {b : Block} {m : Room}

/-- A member with a record lowers both levels to its own. -/
theorem challengeStep_record {j : Slot} {c : ClientId} (hj : m.clients j = some c)
    (hc : HasRecord (b.client c).account.version) (x y : ℕ) :
    challengeStep b m (some (x, y)) j =
      some (min x (completed b c), min y (completedEp2 b c)) := by
  rw [min_comm x, min_comm y, challengeStep.eq_def, hj, completed, completedEp2]
  cases hv : (b.client c).account.version with
  | dcv1 | ep3 =>
    rw [hv] at hc
    exact hc.elim
  | dcv2 | pc => simp only [hv, Nat.zero_min]
  | gc | bb | xbox => simp only [hv]

theorem challengeStep_empty {j : Slot} (hj : m.clients j = none) (lev : ℕ × ℕ) :
    challengeStep b m (some lev) j = some lev := by
  rw [challengeStep.eq_def, hj]

/-- The scan over slots whose members all have records. -/
theorem foldl_challengeStep (js : List Slot)
    (hall : ∀ j ∈ js, ∀ c, m.clients j = some c → HasRecord (b.client c).account.version)
    (x y : ℕ) :
    js.foldl (challengeStep b m) (some (x, y)) =
      some (((js.filterMap m.clients).map (completed b)).foldl min x,
        ((js.filterMap m.clients).map (completedEp2 b)).foldl min y) := by
  induction js generalizing x y with
  | nil => rfl
  | cons j js ih =>
    have hrest : ∀ k ∈ js, ∀ c, m.clients k = some c → HasRecord (b.client c).account.version :=
      fun k hk => hall k (List.mem_cons_of_mem j hk)
    rw [List.foldl_cons]
    cases hj : m.clients j with
    | none => rw [challengeStep_empty hj, ih hrest, List.filterMap_cons_none hj]
    | some c =>
      rw [challengeStep_record hj (hall j List.mem_cons_self c hj), ih hrest,
        List.filterMap_cons_some hj]
      rfl

theorem foldl_challengeStep_none (js : List Slot) :
    js.foldl (challengeStep b m) none = none := by
  induction js with
  | nil => rfl
  | cons j js ih => exact ih

/-- A member without a record ends the scan. -/
theorem foldl_challengeStep_unknown (js : List Slot) {j : Slot} {c : ClientId} (hmem : j ∈ js)
    (hj : m.clients j = some c) (hc : ¬HasRecord (b.client c).account.version)
    (lev : Option (ℕ × ℕ)) : js.foldl (challengeStep b m) lev = none := by
  induction js generalizing lev with
  | nil => cases hmem
  | cons k js ih =>
    rw [List.foldl_cons]
    rcases List.mem_cons.mp hmem with rfl | hmem
    · have hstep : challengeStep b m lev j = none := by
        rw [challengeStep.eq_def, hj]
        cases lev with
        | none => rfl
        | some lev =>
          cases hv : (b.client c).account.version with
          | dcv1 | ep3 => simp only [hv]
          | dcv2 | pc | gc | bb | xbox =>
            rw [hv] at hc
            exact absurd trivial hc
      rw [hstep, foldl_challengeStep_none]
    · exact ih hmem _

end Scan

section Level

variable {b : Block} {l : Lobby}

theorem mem_slots (hl : l.toRoom.Sound) {i : Slot} {c : ClientId} (hi : l.clients i = some c) :
    i ∈ slots l.toRoom :=
  List.mem_filter.mpr ⟨List.mem_finRange i, decide_eq_true (hl.below i c hi)⟩

/-- The slots that are looked at hold all members. -/
theorem mem_filterMap_slots (hl : l.toRoom.Sound) (c : ClientId) :
    c ∈ (slots l.toRoom).filterMap l.clients ↔ c ∈ members l := by
  rw [List.mem_filterMap]
  constructor
  · rintro ⟨i, -, hi⟩
    exact ⟨i, hi⟩
  · rintro ⟨i, hi⟩
    exact ⟨i, mem_slots hl hi, hi⟩

/-- Both parts fit into the byte. -/
theorem packed (n n₂ : ℕ) (hn : n ≤ 9) (hn₂ : n₂ ≤ 5) :
    ((n + 1) ||| (n₂ + 1) <<< 4) % 256 = (n₂ + 1) * 16 + (n + 1) := by
  rw [Nat.or_comm, ← Nat.shiftLeft_add_eq_or_of_lt (by omega), Nat.shiftLeft_eq]
  omega

theorem lobbyFindMaxChallenge_levelled (hl : l.toRoom.Sound) (hchallenge : l.challenge = true)
    (hmax : l.maxChal = lobbyFindMaxChallenge b l) (hsome : (members l).Nonempty)
    (hall : ∀ c ∈ members l, HasRecord (b.client c).account.version) : Levelled b l := by
  have hfold := foldl_challengeStep (b := b) (m := l.toRoom) (slots l.toRoom)
    (fun j _ c hj => hall c ⟨j, hj⟩) 255 255
  have hleast := isLeast_image (mem_filterMap_slots hl) hsome (f := completed b) (a := 255)
    (fun c => (stagesDone_le _).trans_lt (by decide))
  have hleast₂ := isLeast_image (mem_filterMap_slots hl) hsome (f := completedEp2 b) (a := 255)
    (fun c => (completedEp2_le b c).trans_lt (by decide))
  rw [lobbyFindMaxChallenge, if_pos hchallenge, hfold] at hmax
  generalize (((slots l.toRoom).filterMap l.clients).map (completed b)).foldl min 255 = n at *
  generalize (((slots l.toRoom).filterMap l.clients).map (completedEp2 b)).foldl min 255 = n₂ at *
  refine ⟨n, n₂, hleast, hleast₂, ?_⟩
  have hn : n ≤ 9 := by
    obtain ⟨c, -, hc⟩ := hleast.1
    rw [← hc]
    exact stagesDone_le _
  have hn₂ : n₂ ≤ 5 := by
    obtain ⟨c, -, hc⟩ := hleast₂.1
    rw [← hc]
    exact completedEp2_le b c
  dsimp only at hmax
  by_cases hold : l.version < .gc
  · rw [if_pos hold] at hmax ⊢
    omega
  · rw [if_neg hold, packed n n₂ hn hn₂] at hmax
    rw [if_neg hold]
    omega

theorem lobbyFindMaxChallenge_unknown (hl : l.toRoom.Sound) (hchallenge : l.challenge = true)
    {c : ClientId} (hc : c ∈ members l) (hrecord : ¬HasRecord (b.client c).account.version) :
    lobbyFindMaxChallenge b l = 0xFF := by
  obtain ⟨i, hi⟩ := hc
  rw [lobbyFindMaxChallenge, if_pos hchallenge,
    foldl_challengeStep_unknown _ (mem_slots hl hi) hi hrecord]

/-- The sentinels leave nothing in the byte. -/
theorem lobbyFindMaxChallenge_empty (hchallenge : l.challenge = true)
    (hempty : members l = ∅) : lobbyFindMaxChallenge b l = 0 := by
  have hnone : ∀ i c, l.clients i ≠ some c := by
    intro i c hi
    have hmem : c ∈ members l := ⟨i, hi⟩
    rw [hempty] at hmem
    exact hmem
  have hfold := foldl_challengeStep (b := b) (m := l.toRoom) (slots l.toRoom)
    (fun j _ c hj => absurd hj (hnone j c)) 255 255
  have hnil : (slots l.toRoom).filterMap l.clients = [] := by
    refine List.filterMap_eq_nil_iff.mpr fun i _ => ?_
    cases hi : l.clients i with
    | none => rfl
    | some c => exact absurd hi (hnone i c)
  rw [hnil] at hfold
  change _ = some (255, 255) at hfold
  rw [lobbyFindMaxChallenge, if_pos hchallenge, hfold]
  dsimp only
  split_ifs <;> rfl

/-- The level depends on the members and their records only. -/
theorem lobbyFindMaxChallenge_congr {b' : Block} {l' : Lobby}
    (hchallenge : l'.challenge = l.challenge) (hversion : l'.version = l.version)
    (hsize : l'.maxClients = l.maxClients) (hclients : l'.clients = l.clients)
    (hrecord : ∀ c ∈ members l, (b'.client c).account.version = (b.client c).account.version ∧
      (b'.client c).account.player = (b.client c).account.player) :
    lobbyFindMaxChallenge b' l' = lobbyFindMaxChallenge b l := by
  have hslots : slots l'.toRoom = slots l.toRoom := by
    rw [slots, slots, hsize]
  have hstep : challengeStep b' l'.toRoom = challengeStep b l.toRoom := by
    funext lev j
    rw [challengeStep.eq_def, challengeStep.eq_def, hclients]
    cases hj : l.clients j with
    | none => cases lev <;> rfl
    | some c =>
      obtain ⟨hv, hplayer⟩ := hrecord c ⟨j, hj⟩
      cases lev with
      | none => rfl
      | some lev => simp only [hv, hplayer]
  rw [lobbyFindMaxChallenge, lobbyFindMaxChallenge, hchallenge, hslots, hstep, hversion]

end Level

/-- The level is what a scan of the members as they are now gives. -/
def Current (b : Block) (h : LobbyHandle) : Prop :=
  (b.lobby h).maxChal = lobbyFindMaxChallenge b (b.lobby h)

/-- Nobody's version and character data have changed. -/
def SameAccounts (b b' : Block) : Prop :=
  ∀ c, (b'.client c).account = (b.client c).account

section Steps

theorem sameAccounts_of_client {b b' : Block} (h : b'.client = b.client) : SameAccounts b b' := by
  intro c
  rw [h]

theorem sameAccounts_modClient (b : Block) (c : ClientId) {f : ShipClient → ShipClient}
    (hf : (f (b.client c)).account = (b.client c).account) : SameAccounts b (b.modClient c f) := by
  intro d
  by_cases hd : d = c
  · rw [hd, Block.client_modClient, hf]
  · simp [Block.modClient, hd]

theorem SameAccounts.trans {b b' b'' : Block} (h : SameAccounts b b') (h' : SameAccounts b' b'') :
    SameAccounts b b'' :=
  fun c => (h' c).trans (h c)

/-- The scan does not look at the fields of the lobby that change otherwise. -/
theorem SameAccounts.find {b b' : Block} (h : SameAccounts b b') {l l' : Lobby}
    (hchallenge : l'.challenge = l.challenge) (hroom : l'.toRoom = l.toRoom) :
    lobbyFindMaxChallenge b' l' = lobbyFindMaxChallenge b l :=
  lobbyFindMaxChallenge_congr hchallenge (congrArg Room.version hroom)
    (congrArg Room.maxClients hroom) (congrArg Room.clients hroom)
    fun c _ => by rw [h c]; exact ⟨rfl, rfl⟩

theorem updateMaxChal_current {b : Block} {h : LobbyHandle} (hchal : (b.lobby h).challenge = true) :
    ((updateMaxChal b h).lobby h).challenge = true ∧ Current (updateMaxChal b h) h := by
  rw [Current, updateMaxChal, if_pos hchal, Block.lobby_modLobby]
  exact ⟨hchal, (SameAccounts.find (sameAccounts_of_client rfl) rfl rfl).symm⟩

theorem lobby_modLobby_of_ne (b : Block) {h k : LobbyHandle} (hk : k ≠ h) (f : Lobby → Lobby) :
    (b.modLobby h f).lobby k = b.lobby k :=
  Function.update_of_ne hk _ _

/-- A newcomer's record is there when the level is computed. -/
theorem putClient_current {b : Block} (now : ℕ) (c : ClientId) {h : LobbyHandle} (i : Slot)
    (hchal : (b.lobby h).challenge = true) :
    ((putClient b now c h i).lobby h).challenge = true ∧ Current (putClient b now c h i) h := by
  simp only [putClient]
  generalize hb₂ : (b.modClient c (fun x =>
    { x with curLobby := some h, clientId := i, joinTime := now })).modLobby h
      (fun l => { l with toRoom := l.toRoom.enter c i }) = b₂
  have hchal₂ : (b₂.lobby h).challenge = true := by
    rw [← hb₂, Block.lobby_modLobby]
    exact hchal
  obtain ⟨hchal₃, hcurrent⟩ := updateMaxChal_current hchal₂
  split_ifs
  · rw [Current, Block.lobby_modLobby]
    exact ⟨hchal₃, hcurrent.trans (SameAccounts.find (sameAccounts_of_client rfl) rfl rfl).symm⟩
  · exact ⟨hchal₃, hcurrent⟩

theorem updateMaxChal_client (b : Block) (h : LobbyHandle) :
    (updateMaxChal b h).client = b.client :=
  (updateMaxChal_lobby b h).1

theorem putClient_accounts (b : Block) (now : ℕ) (c : ClientId) (h : LobbyHandle) (i : Slot) :
    SameAccounts b (putClient b now c h i) := by
  have hmoved : SameAccounts b (b.modClient c (fun x =>
      { x with curLobby := some h, clientId := i, joinTime := now })) :=
    sameAccounts_modClient b c rfl
  simp only [putClient]
  split_ifs
  · exact hmoved.trans (sameAccounts_of_client (updateMaxChal_client _ h))
  · exact hmoved.trans (sameAccounts_of_client (updateMaxChal_client _ h))

theorem putClient_others (b : Block) (now : ℕ) (c : ClientId) {h k : LobbyHandle} (i : Slot)
    (hk : k ≠ h) : (putClient b now c h i).lobby k = b.lobby k := by
  obtain ⟨-, -, hothers⟩ := updateMaxChal_lobby ((b.modClient c (fun x =>
    { x with curLobby := some h, clientId := i, joinTime := now })).modLobby h
      (fun l => { l with toRoom := l.toRoom.enter c i })) h
  have hentered := (hothers k hk).trans (lobby_modLobby_of_ne _ hk _)
  simp only [putClient]
  split_ifs
  · exact (lobby_modLobby_of_ne _ hk _).trans hentered
  · exact hentered

theorem clearOnlyOne_lobby (b : Block) (h k : LobbyHandle) :
    ∃ o, (clearOnlyOne b h).lobby k = { b.lobby k with onlyOne := o } := by
  rw [clearOnlyOne]
  split_ifs
  · exact ⟨(b.lobby k).onlyOne, rfl⟩
  · by_cases hk : k = h
    · exact ⟨false, by rw [hk, Block.lobby_modLobby]⟩
    · exact ⟨(b.lobby k).onlyOne, lobby_modLobby_of_ne b hk _⟩

theorem clearOnlyOne_client (b : Block) (h : LobbyHandle) :
    (clearOnlyOne b h).client = b.client := by
  rw [clearOnlyOne]
  split_ifs <;> rfl

theorem replaceLeader_client (b : Block) (now : ℕ) (h : LobbyHandle) :
    (replaceLeader b now h).client = b.client := by
  simp only [replaceLeader]
  split_ifs
  · exact (lobbyElectLeaderCrossLocked_frame b now h).1
  · rfl

theorem replaceLeader_challenge (b : Block) (now : ℕ) (h : LobbyHandle) :
    ((replaceLeader b now h).lobby h).challenge = (b.lobby h).challenge := by
  simp only [replaceLeader, lobbyElectLeaderCrossLocked]
  split_ifs
  · rw [Block.lobby_modLobby]
    split
    · rfl
    · dsimp only
      rw [Block.lobby_modLobby]
  · rw [Block.lobby_modLobby]

theorem emptySlot_client (b : Block) (now : ℕ) (i : Slot) (h : LobbyHandle) :
    (emptySlot b now i h).client = b.client := by
  simp only [emptySlot]
  rw [updateMaxChal_client]
  split_ifs
  · exact replaceLeader_client b now h
  · rfl

/-- The slot is empty when the level is computed. -/
theorem emptySlot_current {b : Block} (now : ℕ) (i : Slot) {h : LobbyHandle}
    (hchal : (b.lobby h).challenge = true) :
    ((emptySlot b now i h).lobby h).challenge = true ∧ Current (emptySlot b now i h) h := by
  simp only [emptySlot]
  refine updateMaxChal_current ?_
  rw [Block.lobby_modLobby]
  split_ifs
  · exact (replaceLeader_challenge b now h).trans hchal
  · exact hchal

theorem clearCurLobby_accounts (b : Block) (c : ClientId) (h : LobbyHandle) :
    SameAccounts b (clearCurLobby b c h) := by
  rw [clearCurLobby]
  split_ifs
  · exact sameAccounts_modClient b c rfl
  · exact fun _ => rfl

end Steps

/-- What may happen on a block: clients join and leave lobbies, and other things. -/
inductive Move where
  | join (now : ℕ) (c : ClientId) (l : LobbyHandle)
  | leave (now : ℕ) (c : ClientId) (clientId : Slot) (l : LobbyHandle)
  | other

/-- Nobody comes or goes in a lobby, and its members keep their records. -/
structure Unconcerned (h : LobbyHandle) (b b' : Block) : Prop where
  challenge : (b'.lobby h).challenge = (b.lobby h).challenge
  maxChal : (b'.lobby h).maxChal = (b.lobby h).maxChal
  type : (b'.lobby h).type = (b.lobby h).type
  version : (b'.lobby h).version = (b.lobby h).version
  maxClients : (b'.lobby h).maxClients = (b.lobby h).maxClients
  numClients : (b'.lobby h).numClients = (b.lobby h).numClients
  clients : (b'.lobby h).clients = (b.lobby h).clients
  records : ∀ c ∈ members (b.lobby h),
    (b'.client c).account.version = (b.client c).account.version ∧
      (b'.client c).account.player = (b.client c).account.player

/-- The steps, seen from one lobby. -/
def Moves (h : LobbyHandle) (b : Block) : Move → Block → Prop
  | .join now c l, b' => b' = (lobbyAddClientLocked b now c l).1
  | .leave now c clientId l, b' => b' = (lobbyRemoveClientLocked b now c clientId l).1
  | .other, b' => Unconcerned h b b'

/-- A challenge lobby whose level is that of its members, or that nobody has joined yet. -/
structure Tracked (h : LobbyHandle) (b : Block) : Prop where
  sound : (b.lobby h).toRoom.Sound
  challenge : (b.lobby h).challenge = true
  level : Current b h ∨ members (b.lobby h) = ∅ ∧ (b.lobby h).maxChal = 0xFF

section Runs

variable {h : LobbyHandle} {b b' : Block}

theorem SameAccounts.unconcerned (haccounts : SameAccounts b b') {o : Bool}
    (hlobby : b'.lobby h = { b.lobby h with onlyOne := o }) : Unconcerned h b b' := by
  refine ⟨?_, ?_, ?_, ?_, ?_, ?_, ?_, fun c _ => ?_⟩
  · rw [hlobby]
  · rw [hlobby]
  · rw [hlobby]
  · rw [hlobby]
  · rw [hlobby]
  · rw [hlobby]
  · rw [hlobby]
  · rw [haccounts c]
    exact ⟨rfl, rfl⟩

theorem Unconcerned.tracked (hsame : Unconcerned h b b') (hb : Tracked h b) : Tracked h b' where
  sound := by
    obtain ⟨hcount, hbelow, hroomy⟩ := hb.sound
    refine ⟨?_, ?_, ?_⟩
    · rw [hsame.numClients, hsame.clients]
      exact hcount
    · rw [hsame.maxClients, hsame.clients]
      exact hbelow
    · rw [hsame.type, hsame.version, hsame.maxClients]
      exact hroomy
  challenge := hsame.challenge.trans hb.challenge
  level := by
    have hmembers : members (b'.lobby h) = members (b.lobby h) := by
      rw [members, members, hsame.clients]
    have hfind := lobbyFindMaxChallenge_congr hsame.challenge hsame.version hsame.maxClients
      hsame.clients hsame.records
    rw [Current, hsame.maxChal, hfind, hmembers]
    exact hb.level

theorem putClient_tracked (hb : Tracked h b) (now : ℕ) (c : ClientId) {i : Slot}
    (hi : freeSlot (b.lobby h).toRoom = some i) : Tracked h (putClient b now c h i) := by
  obtain ⟨hfree, hlt⟩ := freeSlot_spec hb.sound hi
  obtain ⟨hchal, hcurrent⟩ := putClient_current now c i hb.challenge
  refine ⟨?_, hchal, Or.inl hcurrent⟩
  change ((putClient b now c h i).rooms.room h).Sound
  rw [putClient_rooms, Rooms.sit, Rooms.room_setRoom]
  exact hb.sound.enter hfree hlt

theorem lobbyAddClientLocked_tracked (hb : Tracked h b) (now : ℕ) (c : ClientId)
    (l : LobbyHandle) : Tracked h (lobbyAddClientLocked b now c l).1 := by
  rw [lobbyAddClientLocked]
  split_ifs
  · exact hb
  · obtain ⟨o, hlobby⟩ := clearOnlyOne_lobby b l h
    have hcleared := (SameAccounts.unconcerned (sameAccounts_of_client (clearOnlyOne_client b l))
      hlobby).tracked hb
    generalize clearOnlyOne b l = b₁ at *
    dsimp only
    split
    · exact hcleared
    · rename_i i hi
      by_cases hl : h = l
      · subst hl
        exact putClient_tracked hcleared now c hi
      · have hothers := putClient_others b₁ now c i hl
        exact ((putClient_accounts b₁ now c l i).unconcerned (o := (b₁.lobby h).onlyOne)
          hothers).tracked hcleared

theorem lobbyRemoveClientLocked_tracked (hb : Tracked h b) (now : ℕ) (c : ClientId) (i : Slot)
    (l : LobbyHandle) : Tracked h (lobbyRemoveClientLocked b now c i l).1 := by
  rw [lobbyRemoveClientLocked]
  split_ifs with hi
  · have hempty : Tracked h (emptySlot b now i l) := by
      by_cases hl : h = l
      · subst hl
        obtain ⟨hchal, hcurrent⟩ := emptySlot_current now i hb.challenge
        refine ⟨?_, hchal, Or.inl hcurrent⟩
        obtain ⟨v, hv, hrooms⟩ := emptySlot_rooms b now i h
        change ((emptySlot b now i h).rooms.room h).Sound
        rw [hrooms, Rooms.vacate, Rooms.room_setRoom]
        exact hb.sound.release hi hv
      · have hothers := emptySlot_others b now i hl
        exact ((sameAccounts_of_client (emptySlot_client b now i l)).unconcerned
          (o := (b.lobby h).onlyOne) hothers).tracked hb
    have hlobby : (clearCurLobby (emptySlot b now i l) c l).lobby h =
        (emptySlot b now i l).lobby h :=
      congrFun (clearCurLobby_lobby _ c l) h
    exact ((clearCurLobby_accounts _ c l).unconcerned
      (o := ((emptySlot b now i l).lobby h).onlyOne) hlobby).tracked hempty
  · exact hb

theorem moves_tracked {e : Move} (hb : Tracked h b) (hmove : Moves h b e b') : Tracked h b' := by
  cases e with
  | join now c l =>
    cases hmove
    exact lobbyAddClientLocked_tracked hb now c l
  | leave now c i l =>
    cases hmove
    exact lobbyRemoveClientLocked_tracked hb now c i l
  | other => exact Unconcerned.tracked hmove hb

/-- A new game has nobody in it. Only Blue Burst has games for one player. -/
theorem newGame_tracked {a : GameArgs} {id : ℕ} {legit : Bool}
    (hnew : b.lobby h = newGame a id legit) (hchal : a.chal = true)
    (hsingle : a.singlePlayer = true → a.version = .bb) : Tracked h b := by
  refine ⟨?_, ?_, Or.inr ⟨?_, ?_⟩⟩
  · rw [hnew]
    exact (newGame_newRoom hsingle id legit).sound
  · rw [hnew]
    exact hchal
  · rw [hnew, Set.eq_empty_iff_forall_notMem]
    rintro c ⟨i, hi⟩
    cases hi
  · rw [hnew]
    rfl

/-- What the level of a tracked lobby is. -/
theorem Tracked.maxChal (hb : Tracked h b) :
    (members (b.lobby h) = ∅ → (b.lobby h).maxChal = 0 ∨ (b.lobby h).maxChal = 0xFF) ∧
      ((members (b.lobby h)).Nonempty →
        (∀ c ∈ members (b.lobby h), HasRecord (b.client c).account.version) →
        Levelled b (b.lobby h)) ∧
      ((∃ c ∈ members (b.lobby h), ¬HasRecord (b.client c).account.version) →
        (b.lobby h).maxChal = 0xFF) := by
  have hcurrent : (members (b.lobby h)).Nonempty → Current b h := by
    intro hsome
    exact hb.level.resolve_right fun hempty => hsome.ne_empty hempty.1
  refine ⟨fun hempty => ?_, fun hsome hall => ?_, ?_⟩
  · rcases hb.level with hlevel | hlevel
    · exact Or.inl (hlevel.trans (lobbyFindMaxChallenge_empty hb.challenge hempty))
    · exact Or.inr hlevel.2
  · exact lobbyFindMaxChallenge_levelled hb.sound hb.challenge (hcurrent hsome) hsome hall
  · rintro ⟨c, hc, hrecord⟩
    exact (hcurrent ⟨c, hc⟩).trans (lobbyFindMaxChallenge_unknown hb.sound hb.challenge hc hrecord)

end Runs

/-- A Gamecube challenge game on a block where client `c` has completed `c + 1` stages. -/
def opened (version : ClientVersion) : Block :=
  { Block.start with
    client := fun c =>
      { ShipClient.fresh with
        account :=
          { ShipClient.fresh.account with
            version := version
            player :=
              { level := 0, chClass := 0
                times := Vector.ofFn fun i => if (i : ℕ) ≤ c then 1 else 0
                timesEp2 := Vector.ofFn fun i => if (i : ℕ) ≤ c then 1 else 0 } } }
    lobby := Function.update Block.start.lobby 20
      (newGame { passwd := [], difficulty := 0, battle := false, chal := true, v2 := false
                 version := .gc, episode := 1, singlePlayer := false } 0x20 false) }

/-- Two clients join and the one with fewer stages leaves. -/
def visits (version : ClientVersion) : Block :=
  (lobbyRemoveClientLocked (lobbyAddClientLocked (lobbyAddClientLocked (opened version) 1 0 20).1
    2 1 20).1 3 0 0 20).1

theorem run_visits (version : ClientVersion) : Run (Moves 20) Always (opened version)
    [.join 1 0 20, .join 2 1 20, .leave 3 0 0 20] (visits version) :=
  .move trivial rfl (.move trivial rfl (.move trivial rfl (.stop _)))

end ShipServer.ChallengeLevels
