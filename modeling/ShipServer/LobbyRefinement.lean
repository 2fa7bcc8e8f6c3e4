import ShipServer.DeferredPackets
import ShipServer.LabelledRuns

set_option autoImplicit false

namespace ShipServer.LobbyRefinement

open LabelledRuns Seatings Versions LobbyRooms LobbyState LobbyFunctions DeferredPackets

@[simp] theorem setRoom_setRoom (r : Rooms) (l : LobbyHandle) (m m' : Room) :
    (r.setRoom l m).setRoom l m' = r.setRoom l m' := by
  simp [Rooms.setRoom]

theorem setRoom_self (r : Rooms) (l : LobbyHandle) : r.setRoom l (r.room l) = r := by
  simp [Rooms.setRoom]

@[simp] theorem updateMaxChal_rooms (b : Block) (h : LobbyHandle) :
    (updateMaxChal b h).rooms = b.rooms := by
  rw [updateMaxChal]
  split_ifs
  · exact b.rooms_modLobby_same rfl
  · rfl

@[simp] theorem updateMaxChal_ledger (b : Block) (h : LobbyHandle) :
    (updateMaxChal b h).ledger = b.ledger := by
  rw [updateMaxChal]
  split_ifs
  · exact b.ledger_modLobby_same rfl
  · rfl

@[simp] theorem clearOnlyOne_rooms (b : Block) (h : LobbyHandle) :
    (clearOnlyOne b h).rooms = b.rooms := by
  rw [clearOnlyOne]
  split_ifs
  · rfl
  · exact b.rooms_modLobby_same rfl

@[simp] theorem clearOnlyOne_ledger (b : Block) (h : LobbyHandle) :
    (clearOnlyOne b h).ledger = b.ledger := by
  rw [clearOnlyOne]
  split_ifs
  · rfl
  · exact b.ledger_modLobby_same rfl

theorem putClient_rooms (b : Block) (now : ℕ) (c : ClientId) (h : LobbyHandle) (i : Slot) :
    (putClient b now c h i).rooms = b.rooms.sit c h i := by
  simp only [putClient]
  split_ifs
  · rw [Block.rooms_modLobby_same _ rfl, updateMaxChal_rooms, Block.rooms_modLobby,
      Block.rooms_modClient]
    rfl
  · rw [updateMaxChal_rooms, Block.rooms_modLobby, Block.rooms_modClient]
    rfl

theorem putClient_ledger (b : Block) (now : ℕ) (c : ClientId) (h : LobbyHandle) (i : Slot) :
    (putClient b now c h i).ledger = b.ledger := by
  simp only [putClient]
  split_ifs
  · rw [Block.ledger_modLobby_same _ rfl, updateMaxChal_ledger, Block.ledger_modLobby_same _ rfl,
      Block.ledger_modClient]
  · rw [updateMaxChal_ledger, Block.ledger_modLobby_same _ rfl, Block.ledger_modClient]

/-- A slot that is handed out is free and in use by the lobby. -/
theorem freeSlot_spec {m : Room} (hm : m.Sound) {i : Slot} (hi : freeSlot m = some i) :
    m.clients i = none ∧ (i : ℕ) < m.maxClients := by
  rw [freeSlot] at hi
  split_ifs at hi with hfirst
  · cases hi
    exact ⟨hfirst.1, hm.roomy hfirst.2.2 hfirst.2.1⟩
  · have hmem := List.mem_of_find?_eq_some hi
    have hfree := List.find?_some hi
    rw [slots, List.mem_filter] at hmem
    exact ⟨of_decide_eq_true hfree, of_decide_eq_true hmem.2⟩

/-- A client is either turned away or put into a free slot. -/
theorem lobbyAddClientLocked_cases {b : Block} (hb : b.rooms.Sound) (now : ℕ) (c : ClientId)
    (h : LobbyHandle) :
    ((lobbyAddClientLocked b now c h).2 = -1 ∧
      (lobbyAddClientLocked b now c h).1.rooms = b.rooms) ∨
    ∃ i, (lobbyAddClientLocked b now c h).2 = 0 ∧
      (lobbyAddClientLocked b now c h).1.rooms = b.rooms.sit c h i ∧
      (b.rooms.room h).Spare ∧
      (b.rooms.room h).clients i = none ∧ (i : ℕ) < (b.rooms.room h).maxClients := by
  unfold lobbyAddClientLocked
  by_cases hfull : ((b.lobby h).maxClients : ℤ) ≤ (b.lobby h).numClients
  · left
    rw [if_pos hfull]
    exact ⟨rfl, rfl⟩
  · rw [if_neg hfull]
    have hroom : ((clearOnlyOne b h).lobby h).toRoom = b.rooms.room h := by
      rw [← clearOnlyOne_rooms]
      rfl
    cases hslot : freeSlot (b.rooms.room h) with
    | none =>
      left
      simp only [hroom, hslot, clearOnlyOne_rooms, and_self]
    | some i =>
      right
      refine ⟨i, ?_, ?_, not_le.mp hfull, freeSlot_spec (hb.room h) hslot⟩
      · simp only [hroom, hslot]
      · simp only [hroom, hslot, putClient_rooms, clearOnlyOne_rooms]

theorem lobbyAddClientLocked_ledger (b : Block) (now : ℕ) (c : ClientId) (h : LobbyHandle) :
    (lobbyAddClientLocked b now c h).1.ledger = b.ledger := by
  unfold lobbyAddClientLocked
  by_cases hfull : ((b.lobby h).maxClients : ℤ) ≤ (b.lobby h).numClients
  · rw [if_pos hfull]
  · rw [if_neg hfull]
    cases hslot : freeSlot ((clearOnlyOne b h).lobby h).toRoom with
    | none => simp only [hslot, clearOnlyOne_ledger]
    | some i => simp only [hslot, putClient_ledger, clearOnlyOne_ledger]

/-- A new leader may make the game a Gamecube one, and changes nothing else about the room. -/
theorem replaceLeader_rooms (b : Block) (now : ℕ) (h : LobbyHandle) :
    ∃ v, (v = (b.rooms.room h).version ∨ v = .gc) ∧
      (replaceLeader b now h).rooms =
        b.rooms.setRoom h { b.rooms.room h with version := v } := by
  simp only [replaceLeader]
  split_ifs with hcross
  · rw [Block.rooms_modLobby_same _ rfl]
    simp only [lobbyElectLeaderCrossLocked]
    split
    · exact ⟨_, Or.inl rfl, (setRoom_self b.rooms h).symm⟩
    · refine ⟨.gc, Or.inr rfl, ?_⟩
      rw [Block.rooms_modLobby]
      rfl
  · refine ⟨_, Or.inl rfl, ?_⟩
    rw [Block.rooms_modLobby_same _ rfl]
    exact (setRoom_self b.rooms h).symm

theorem lobbyElectLeaderCrossLocked_ledger (b : Block) (now : ℕ) (h : LobbyHandle) :
    (lobbyElectLeaderCrossLocked b now h).1.ledger = b.ledger := by
  simp only [lobbyElectLeaderCrossLocked]
  split
  · rfl
  · dsimp only
    rw [Block.ledger_modLobby_same]
    rfl

theorem replaceLeader_ledger (b : Block) (now : ℕ) (h : LobbyHandle) :
    (replaceLeader b now h).ledger = b.ledger := by
  simp only [replaceLeader]
  rw [Block.ledger_modLobby_same]
  · split_ifs with hcross
    · exact lobbyElectLeaderCrossLocked_ledger b now h
    · rfl
  · rfl

theorem emptySlot_rooms (b : Block) (now : ℕ) (i : Slot) (h : LobbyHandle) :
    ∃ v, (v = (b.rooms.room h).version ∨ v = .gc) ∧
      (emptySlot b now i h).rooms = b.rooms.vacate h i v := by
  simp only [emptySlot, updateMaxChal_rooms, Block.rooms_modLobby]
  split_ifs with hlead
  · obtain ⟨v, hv, hrooms⟩ := replaceLeader_rooms b now h
    have hroom : ((replaceLeader b now h).lobby h).toRoom = { b.rooms.room h with version := v } := by
      change (replaceLeader b now h).rooms.room h = _
      rw [hrooms, Rooms.room_setRoom]
    refine ⟨v, hv, ?_⟩
    rw [hrooms, setRoom_setRoom, hroom]
    rfl
  · exact ⟨_, Or.inl rfl, rfl⟩

theorem emptySlot_ledger (b : Block) (now : ℕ) (i : Slot) (h : LobbyHandle) :
    (emptySlot b now i h).ledger = b.ledger := by
  simp only [emptySlot, updateMaxChal_ledger]
  rw [Block.ledger_modLobby_same]
  · split_ifs with hlead
    · exact replaceLeader_ledger b now h
    · rfl
  · rfl

theorem clearCurLobby_rooms (b : Block) (c : ClientId) (h : LobbyHandle) :
    (clearCurLobby b c h).rooms =
      if (b.rooms.presence c).curLobby = some h then
        b.rooms.setPresence c { b.rooms.presence c with curLobby := none, clientId := 0 }
      else b.rooms := by
  rw [clearCurLobby]
  split_ifs with hcur hcur' hcur'
  · rw [Block.rooms_modClient]
    rfl
  · exact absurd hcur hcur'
  · exact absurd hcur' hcur
  · rfl

theorem clearCurLobby_lobby (b : Block) (c : ClientId) (h : LobbyHandle) :
    (clearCurLobby b c h).lobby = b.lobby := by
  rw [clearCurLobby]
  split_ifs <;> rfl

theorem clearCurLobby_ledger (b : Block) (c : ClientId) (h : LobbyHandle) :
    (clearCurLobby b c h).ledger = b.ledger := by
  rw [clearCurLobby]
  split_ifs <;> rfl

/-- A client that is where it says gives its slot up. -/
theorem lobbyRemoveClientLocked_cases {b : Block} (now : ℕ) {c : ClientId} {i : Slot}
    {h : LobbyHandle} (hi : (b.rooms.room h).clients i = some c) :
    ∃ v, (v = (b.rooms.room h).version ∨ v = .gc) ∧
      (lobbyRemoveClientLocked b now c i h).1.rooms =
        (if (b.rooms.presence c).curLobby = some h then b.rooms.leave c h i v
          else b.rooms.vacate h i v) ∧
      (lobbyRemoveClientLocked b now c i h).2 =
        if (b.rooms.vacate h i v).Deserted h then 1 else 0 := by
  have htaken : (b.lobby h).clients i = some c := hi
  obtain ⟨v, hv, hrooms⟩ := emptySlot_rooms b now i h
  rw [lobbyRemoveClientLocked, if_pos htaken]
  refine ⟨v, hv, ?_, ?_⟩
  · simp only [clearCurLobby_rooms, hrooms]
    rfl
  · have hleft : (b.rooms.vacate h i v).Deserted h ↔
        ¬ ((emptySlot b now i h).lobby h).type = .lobby ∧
          ((emptySlot b now i h).lobby h).numClients = 0 := by
      rw [Rooms.Deserted, ← hrooms]
      rfl
    simp only [clearCurLobby_lobby]
    by_cases htype : ((emptySlot b now i h).lobby h).type = .lobby
    · rw [if_pos htype, if_neg]
      rw [hleft]
      exact fun hand => hand.1 htype
    · rw [if_neg htype]
      refine if_congr ?_ rfl rfl
      rw [hleft]
      exact (and_iff_right htype).symm

theorem lobbyRemoveClientLocked_ledger (b : Block) (now : ℕ) (c : ClientId) (i : Slot)
    (h : LobbyHandle) : (lobbyRemoveClientLocked b now c i h).1.ledger = b.ledger := by
  rw [lobbyRemoveClientLocked]
  split_ifs with hi
  · simp only [clearCurLobby_ledger, emptySlot_ledger]
  · rfl

theorem settle_rooms (b : Block) {c : ClientId} {h : LobbyHandle}
    (hcur : (b.rooms.presence c).curLobby = some h) :
    (settle b c).rooms = b.rooms.settle c h := by
  have hcur' : (b.client c).curLobby = some h := hcur
  by_cases htype : (b.lobby h).type = .lobby
  · have htype' : (b.rooms.room h).type = .lobby := htype
    simp only [settle, hcur', if_pos htype, Rooms.settle, if_pos htype']
    exact b.rooms_modClient_same rfl
  · have htype' : ¬ (b.rooms.room h).type = .lobby := htype
    simp only [settle, hcur', if_neg htype, Rooms.settle, if_neg htype', Block.rooms_modClient,
      Block.rooms_modLobby]
    rfl

theorem settle_ledger (b : Block) (c : ClientId) : (settle b c).ledger = b.ledger := by
  unfold settle
  cases (b.client c).curLobby with
  | none => rfl
  | some h =>
    by_cases htype : (b.lobby h).type = .lobby
    · simp only [if_pos htype, Block.ledger_modClient]
    · simp only [if_neg htype, Block.ledger_modClient]
      rw [Block.ledger_modLobby_same]
      rfl

theorem lobbyDestroyLocked_ledger (b : Block) (h : LobbyHandle) :
    (lobbyDestroyLocked b h).ledger = b.ledger.clear h := by
  rw [lobbyDestroyLocked, Block.ledger_modLobby]
  rfl

theorem lobbyDestroyLocked_rooms (b : Block) (h : LobbyHandle) :
    (lobbyDestroyLocked b h).rooms = b.rooms.unlist h := by
  rw [lobbyDestroyLocked, Block.rooms_modLobby_same]
  · rfl
  · rfl

/-- A client that is in no lobby takes a free slot of a default lobby. -/
def Lounged (r : Rooms) (c : ClientId) (r' : Rooms) : Prop :=
  ∃ l i, r' = r.sit c l i ∧ (r.room l).type = .lobby ∧ (r.room l).clients i = none ∧
    (i : ℕ) < (r.room l).maxClients

/-- An attempt to put a client into a default lobby changes nothing or succeeds. -/
def Attempted (b : Block) (c : ClientId) (t : Block × Int) : Prop :=
  (t.2 ≠ 0 ∧ t.1.rooms = b.rooms) ∨ (t.2 = 0 ∧ Lounged b.rooms c t.1.rooms)

theorem addIfRoom_attempted {b : Block} (hb : b.rooms.Sound) (now : ℕ) (c : ClientId)
    (h : LobbyHandle) : Attempted b c (addIfRoom b now c h) := by
  rw [addIfRoom]
  by_cases hroom : hasRoom (b.lobby h).toRoom = true
  · rw [if_pos hroom]
    have htype : (b.rooms.room h).type = .lobby := (of_decide_eq_true hroom).1
    rcases lobbyAddClientLocked_cases hb now c h with ⟨hrv, hsame⟩ | ⟨i, hrv, hsit, -, hfree, hi⟩
    · left
      simp only [hrv]
      exact ⟨by simp, hsame⟩
    · right
      simp only [hrv, if_true]
      refine ⟨trivial, h, i, ?_, htype, hfree, hi⟩
      rw [Block.rooms_modClient_same _ rfl, hsit]
  · rw [if_neg hroom]
    exact Or.inl ⟨by simp, rfl⟩

theorem addIfRoom_ledger (b : Block) (now : ℕ) (c : ClientId) (h : LobbyHandle) :
    (addIfRoom b now c h).1.ledger = b.ledger := by
  rw [addIfRoom]
  by_cases hroom : hasRoom (b.lobby h).toRoom = true
  · simp only [if_pos hroom]
    split_ifs
    · rw [Block.ledger_modClient, lobbyAddClientLocked_ledger]
    · exact lobbyAddClientLocked_ledger b now c h
  · rw [if_neg hroom]

/-- A second attempt after one that failed. -/
theorem Attempted.orElse {b b' : Block} {c : ClientId} {t : Block × Int}
    (hsame : b'.rooms = b.rooms) (h : Attempted b' c t) : Attempted b c t := by
  rw [Attempted, hsame] at h
  exact h

theorem addToFirst_attempted (now : ℕ) (c : ClientId) (hs : List LobbyHandle) {b : Block}
    (hb : b.rooms.Sound) : Attempted b c (addToFirst now c hs b) := by
  induction hs generalizing b with
  | nil => exact Or.inl ⟨by simp [addToFirst], rfl⟩
  | cons h hs ih =>
    rw [addToFirst]
    by_cases hhidden : (b.client c).account.version = .dcv1 ∧ 10 < (b.lobby h).lobbyId
    · rw [if_pos hhidden]
      exact ih hb
    · rw [if_neg hhidden]
      rcases addIfRoom_attempted hb now c h with ⟨hrv, hsame⟩ | ⟨hrv, hlounged⟩
      · simp only [if_neg hrv]
        exact (ih (by rwa [hsame])).orElse hsame
      · simp only [if_pos hrv]
        exact Or.inr ⟨rfl, hlounged⟩

theorem addToFirst_ledger (now : ℕ) (c : ClientId) (hs : List LobbyHandle) (b : Block) :
    (addToFirst now c hs b).1.ledger = b.ledger := by
  induction hs generalizing b with
  | nil => rfl
  | cons h hs ih =>
    rw [addToFirst]
    by_cases hhidden : (b.client c).account.version = .dcv1 ∧ 10 < (b.lobby h).lobbyId
    · rw [if_pos hhidden]
      exact ih b
    · rw [if_neg hhidden]
      dsimp only
      split_ifs
      · exact addIfRoom_ledger b now c h
      · rw [ih, addIfRoom_ledger]

theorem lobbyAddToAny_attempted {b : Block} (hb : b.rooms.Sound) (now : ℕ) (c : ClientId)
    (req : Option LobbyHandle) : Attempted b c (lobbyAddToAny b now c req) := by
  cases req with
  | none => exact addToFirst_attempted now c b.lobbies hb
  | some h =>
    have hreq : (b.modClient c (fun x => { x with lobbyReq := none })).rooms = b.rooms :=
      b.rooms_modClient_same rfl
    refine Attempted.orElse hreq ?_
    rw [← hreq] at hb
    rw [lobbyAddToAny]
    rcases addIfRoom_attempted hb now c h with ⟨hrv, hsame⟩ | ⟨hrv, hlounged⟩
    · simp only [if_neg hrv]
      exact (addToFirst_attempted now c _ (by rwa [hsame])).orElse hsame
    · simp only [if_pos hrv]
      exact Or.inr ⟨rfl, hlounged⟩

theorem lobbyAddToAny_ledger (b : Block) (now : ℕ) (c : ClientId) (req : Option LobbyHandle) :
    (lobbyAddToAny b now c req).1.ledger = b.ledger := by
  cases req with
  | none => exact addToFirst_ledger now c b.lobbies b
  | some h =>
    rw [lobbyAddToAny]
    dsimp only
    split_ifs
    · rw [addIfRoom_ledger, Block.ledger_modClient]
    · rw [addToFirst_ledger, addIfRoom_ledger, Block.ledger_modClient]

/-- What `lobby_change_lobby` can do: nothing, a place in a default lobby for a client that had
none, the same lobby once more, or a move. `accepted` says that no check refused. -/
inductive Enter (accepted : Prop) (r : Rooms) (m : Ledger) (c : ClientId) (req : LobbyHandle) :
    Int → Rooms → Ledger → Prop where
  | refused {rv : Int} (failed : rv < 0) : Enter accepted r m c req rv r m
  | lounged {rv : Int} {r' : Rooms} (nowhere : (r.presence c).curLobby = none)
      (arrived : Lounged r c r') : Enter accepted r m c req rv r' m
  | stayed (ok : accepted) (cur : (r.presence c).curLobby = some req)
      (calm : (r.room req).bursting = false) : Enter accepted r m c req 0 (r.settle c req) m
  | moved {l : LobbyHandle} {j : Slot} {v : ClientVersion} {left : Rooms} (ok : accepted)
      (cur : (r.presence c).curLobby = some l) (other : l ≠ req)
      (calm : (r.room req).bursting = false) (spare : (r.room req).Spare)
      (free : (r.room req).clients j = none)
      (below : (j : ℕ) < (r.room req).maxClients)
      (version : v = (r.room l).version ∨ v = .gc)
      (gone : left = (r.sit c req j).vacate l (r.presence c).clientId v) :
      Enter accepted r m c req 0 ((left.close l).settle c req)
        (if left.Deserted l then m.clear l else m)

theorem Enter.mono {accepted accepted' : Prop} {r r' : Rooms} {m m' : Ledger} {c : ClientId}
    {req : LobbyHandle} {rv : Int} (h : Enter accepted r m c req rv r' m')
    (himp : accepted → accepted') : Enter accepted' r m c req rv r' m' := by
  cases h with
  | refused failed => exact .refused failed
  | lounged nowhere arrived => exact .lounged nowhere arrived
  | stayed ok cur calm => exact .stayed (himp ok) cur calm
  | moved ok cur other calm spare free below version gone =>
    exact .moved (himp ok) cur other calm spare free below version gone

/-- No check of `lobby_change_lobby` refuses the client. -/
def ChangeAccepted (b : Block) (env : Env) (c : ClientId) (req : LobbyHandle) : Prop :=
  changeRefusal env (b.client c) (b.client c).overrideGame (b.lobby req) = none

theorem changeRefusal_neg {env : Env} {x : ShipClient} {override : Bool} {req : Lobby} {rv : Int}
    (h : changeRefusal env x override req = some rv) : rv < 0 := by
  obtain ⟨check, hfind, rfl⟩ := Option.map_eq_some_iff.mp h
  have hmem := List.mem_of_find?_eq_some hfind
  have hneg : ∀ k ∈ (changeChecks env x override req).map Prod.snd, k < 0 := by
    simp [changeChecks]
  exact hneg _ (List.mem_map_of_mem hmem)

theorem changeRefusal_calm {env : Env} {x : ShipClient} {override : Bool} {req : Lobby}
    (h : changeRefusal env x override req = none) : req.bursting = false := by
  have hpass := List.find?_eq_none.mp (Option.map_eq_none_iff.mp h)
  have hmem : (req.bursting, -3) ∈ changeChecks env x override req := by
    simp [changeChecks]
  exact Bool.eq_false_iff.mpr (hpass _ hmem)

theorem changeFromNowhere_ledger (b : Block) (env : Env) (c : ClientId) (req : LobbyHandle) :
    (changeFromNowhere b env c req).1.ledger = b.ledger := by
  rw [changeFromNowhere]
  dsimp only
  split_ifs <;> exact lobbyAddToAny_ledger b env.now c (some req)

theorem changeFromNowhere_cases {b : Block} (hb : b.rooms.Sound) (env : Env) (c : ClientId)
    (req : LobbyHandle) :
    ((changeFromNowhere b env c req).2 < 0 ∧
      (changeFromNowhere b env c req).1.rooms = b.rooms) ∨
    Lounged b.rooms c (changeFromNowhere b env c req).1.rooms := by
  rw [changeFromNowhere]
  rcases lobbyAddToAny_attempted hb env.now c (some req) with ⟨hrv, hsame⟩ | ⟨hrv, hlounged⟩
  · left
    simp only [hrv, ne_eq, not_false_eq_true, true_or, if_true]
    exact ⟨by decide, hsame⟩
  · right
    dsimp only
    split_ifs <;> exact hlounged

theorem place_eq_none {r : Rooms} {c : ClientId} (h : (r.presence c).curLobby = none) :
    r.place c = none := by
  rw [Rooms.place, Presence.place, h]
  rfl

theorem Lounged.sound {r r' : Rooms} {c : ClientId} (h : Lounged r c r') (hr : r.Sound)
    (hcur : (r.presence c).curLobby = none) : r'.Sound := by
  obtain ⟨l, i, rfl, -, hfree, hi⟩ := h
  exact hr.sit (place_eq_none hcur) hfree hi

theorem Enter.sound {accepted : Prop} {r r' : Rooms} {m m' : Ledger} {c : ClientId}
    {req : LobbyHandle} {rv : Int} (h : Enter accepted r m c req rv r' m') (hr : r.Sound) :
    r'.Sound := by
  cases h with
  | refused _ => exact hr
  | lounged nowhere arrived => exact arrived.sound hr nowhere
  | stayed _ _ _ => exact hr.settle c req
  | moved _ cur other _ _ free below version gone =>
    have hi := hr.clients_of_curLobby cur
    subst gone
    exact ((hr.move other hi free below version).close _).settle c req

/-- Leaving a lobby for one that the client already has a slot in. -/
theorem leaveBehind_cases {b : Block} (now : ℕ) {c : ClientId} {i : Slot} {l req : LobbyHandle}
    (hi : (b.rooms.room l).clients i = some c) (hcur : (b.rooms.presence c).curLobby = some req)
    (hne : l ≠ req) :
    ∃ v, (v = (b.rooms.room l).version ∨ v = .gc) ∧
      (lobbyRemoveClientLocked b now c i l).1.rooms = b.rooms.vacate l i v ∧
      (lobbyRemoveClientLocked b now c i l).2 =
        if (b.rooms.vacate l i v).Deserted l then 1 else 0 := by
  obtain ⟨v, hv, hrooms, hrv⟩ := lobbyRemoveClientLocked_cases now hi
  have hother : ¬ (b.rooms.presence c).curLobby = some l := by
    rw [hcur, Option.some_inj]
    exact hne.symm
  rw [if_neg hother] at hrooms
  exact ⟨v, hv, hrooms, hrv⟩

theorem changeToOther_enter {b : Block} (hb : b.rooms.Sound) {accepted : Prop} (env : Env)
    {c : ClientId} {l req : LobbyHandle} (hcur : (b.rooms.presence c).curLobby = some l)
    (hne : l ≠ req) (hok : accepted) (hcalm : (b.rooms.room req).bursting = false) :
    Enter accepted b.rooms b.ledger c req (changeToOther b env c l req).2
      (changeToOther b env c l req).1.rooms (changeToOther b env c l req).1.ledger := by
  rw [changeToOther]
  have hledger := lobbyAddClientLocked_ledger b env.now c req
  rcases lobbyAddClientLocked_cases hb env.now c req with
    ⟨hrv, hsame⟩ | ⟨j, hrv, hsit, hspare, hfree, hj⟩
  · simp only [hrv, ne_eq, show ¬ (-1 : ℤ) = 0 by decide, not_false_eq_true, if_true, hsame, hledger]
    exact .refused (by decide)
  · simp only [hrv, ne_eq, not_true_eq_false, if_false]
    generalize (lobbyAddClientLocked b env.now c req).1 = b₁ at hsit hledger ⊢
    have hroom : b₁.rooms.room l = b.rooms.room l := by
      rw [hsit]
      simp [Rooms.sit, Rooms.setRoom, Rooms.setPresence, hne]
    have hnew : (b₁.rooms.presence c).curLobby = some req := by
      rw [hsit]
      simp [Rooms.sit, Rooms.setRoom, Rooms.setPresence]
    have hold : (b₁.rooms.room l).clients (b.client c).clientId = some c := by
      rw [hroom]
      exact hb.clients_of_curLobby hcur
    have hledger₂ := lobbyRemoveClientLocked_ledger b₁ env.now c (b.client c).clientId l
    obtain ⟨v, hv, hleft, hrv₂⟩ := leaveBehind_cases env.now hold hnew hne
    rw [hroom] at hv
    generalize lobbyRemoveClientLocked b₁ env.now c (b.client c).clientId l = t at *
    have hcur₂ : (t.1.rooms.presence c).curLobby = some req := by
      rw [hleft]
      exact hnew
    rw [hsit] at hleft hrv₂
    have hmoved := Enter.moved (m := b.ledger) hok hcur hne hcalm hspare hfree hj hv rfl
    have hold' : (b.rooms.presence c).clientId = (b.client c).clientId := rfl
    rw [hold', Rooms.close] at hmoved
    by_cases hempty : ((b.rooms.sit c req j).vacate l (b.client c).clientId v).Deserted l
    · rw [if_pos hempty] at hrv₂
      rw [if_pos hempty, if_pos hempty] at hmoved
      rw [hrv₂, if_neg (by decide), if_neg (by decide), lobbyDestroyLocked_rooms,
        lobbyDestroyLocked_ledger, settle_rooms _ hcur₂, settle_ledger, hleft, hledger₂, hledger,
        Rooms.settle_unlist]
      exact hmoved
    · rw [if_neg hempty] at hrv₂
      rw [if_neg hempty, if_neg hempty] at hmoved
      rw [hrv₂, if_neg (by decide), if_pos rfl, settle_rooms _ hcur₂, settle_ledger, hleft, hledger₂,
        hledger]
      exact hmoved

/-- `lobby_change_lobby` refines the abstract move between rooms. -/
theorem lobbyChangeLobby_enter {b : Block} (hb : b.rooms.Sound) (env : Env) (c : ClientId)
    (req : LobbyHandle) :
    Enter (ChangeAccepted b env c req) b.rooms b.ledger c req (lobbyChangeLobby b env c req).2
      (lobbyChangeLobby b env c req).1.rooms (lobbyChangeLobby b env c req).1.ledger := by
  generalize hb₀ : b.modClient c (fun x => { x with overrideGame := false }) = b₀
  have hrooms : b₀.rooms = b.rooms := by
    rw [← hb₀]
    exact b.rooms_modClient_same rfl
  have hledger : b₀.ledger = b.ledger := by
    rw [← hb₀]
    rfl
  have hrefusal : changeRefusal env (b₀.client c) (b.client c).overrideGame (b₀.lobby req) =
      changeRefusal env (b.client c) (b.client c).overrideGame (b.lobby req) := by
    rw [← hb₀, Block.client_modClient]
    rfl
  rw [← hrooms] at hb ⊢
  rw [lobbyChangeLobby, ← hledger]
  simp only [hb₀]
  cases hcur : (b₀.client c).curLobby with
  | none =>
    dsimp only
    rw [changeFromNowhere_ledger]
    rcases changeFromNowhere_cases hb env c req with ⟨hrv, hsame⟩ | hlounged
    · rw [hsame]
      exact .refused hrv
    · exact .lounged hcur hlounged
  | some l =>
    rw [hrefusal]
    cases hcheck : changeRefusal env (b.client c) (b.client c).overrideGame (b.lobby req) with
    | some rv => exact .refused (changeRefusal_neg hcheck)
    | none =>
      have hcalm : (b₀.rooms.room req).bursting = false := by
        rw [hrooms]
        exact changeRefusal_calm hcheck
      dsimp only
      by_cases hsame : l = req
      · subst hsame
        rw [if_pos rfl, settle_rooms b₀ hcur, settle_ledger]
        exact .stayed hcheck hcur hcalm
      · rw [if_neg hsame]
        exact changeToOther_enter hb env hcur hsame hcheck hcalm

/-- A trial edition packet that ends a burst. -/
def FinishLoad (p : GamePkt) : Prop :=
  p.pktType = gameCommand0Type ∧ p.subcmd = subcmdDcnteFinishLoad

/-- The types of packets that can be queued. -/
def Deferrable (p : GamePkt) : Prop :=
  p.pktType = gameCommand0Type ∨ p.pktType = gameCommand2Type ∨ p.pktType = gameCommandDType

/-- The queues hold game packets, none of which ends a burst. -/
def Ledger.Sane (m : Ledger) : Prop :=
  ∀ h, ∀ x ∈ m.pktQueue h, Deferrable x.2 ∧ ¬ FinishLoad x.2

structure BlockSound (b : Block) : Prop where
  rooms : b.rooms.Sound
  sane : Ledger.Sane b.ledger

/-- A packet that is handled is put into its sender's lobby's queue or not. -/
def Queued (r : Rooms) (m : Ledger) (c : ClientId) (p : GamePkt) (m' : Ledger) : Prop :=
  m' = m ∨ ∃ h, (r.presence c).curLobby = some h ∧ (r.room h).bursting = true ∧ Deferrable p ∧
    m' = m.accept h (c, p)

theorem queuePkt_rooms (b : Block) (h : LobbyHandle) (x : ClientId × GamePkt) :
    (queuePkt b h x).rooms = b.rooms := by
  change (b.modLobby h (fun l => { l with pktQueue := l.pktQueue ++ [x] })).rooms = b.rooms
  rw [Block.rooms_modLobby_same]
  rfl

theorem queuePkt_ledger (b : Block) (h : LobbyHandle) (x : ClientId × GamePkt) :
    (queuePkt b h x).ledger = b.ledger.accept h x := by
  have hnote : ∀ b' : Block, (noteAccepted b' h x).ledger =
      { b'.ledger with
        accepted := Function.update b'.ledger.accepted h (b'.ledger.accepted h ++ [x]) } := by
    intro b'
    rfl
  rw [queuePkt, hnote, Block.ledger_modLobby]
  rfl

theorem lobbyEnqueuePkt_rooms (b : Block) (env : Env) (h : LobbyHandle) (c : ClientId)
    (p : GamePkt) : (lobbyEnqueuePkt b env h c p).1.rooms = b.rooms := by
  rw [lobbyEnqueuePkt]
  cases enqueueRefusal env (b.lobby h) p with
  | some rv => rfl
  | none => exact queuePkt_rooms b h (c, p)

theorem enqueueRefusal_none {env : Env} {l : Lobby} {p : GamePkt}
    (h : enqueueRefusal env l p = none) : l.bursting = true ∧ Deferrable p := by
  rw [enqueueRefusal] at h
  by_cases hcalm : l.bursting = false
  · rw [if_pos hcalm] at h
    cases h
  · rw [if_neg hcalm] at h
    refine ⟨Bool.eq_true_of_not_eq_false hcalm, ?_⟩
    by_contra htype
    rw [Deferrable, not_or, not_or] at htype
    rw [if_pos htype] at h
    cases h

theorem lobbyEnqueuePkt_queued {b : Block} (env : Env) {h : LobbyHandle} {c : ClientId}
    (p : GamePkt) (hcur : (b.client c).curLobby = some h) :
    Queued b.rooms b.ledger c p (lobbyEnqueuePkt b env h c p).1.ledger := by
  rw [lobbyEnqueuePkt]
  cases hcheck : enqueueRefusal env (b.lobby h) p with
  | some rv => exact Or.inl rfl
  | none =>
    obtain ⟨hburst, htype⟩ := enqueueRefusal_none hcheck
    exact Or.inr ⟨h, hcur, hburst, htype, queuePkt_ledger b h (c, p)⟩

theorem lobbyEnqueueBurst_rooms (b : Block) (env : Env) (h : LobbyHandle) (c : ClientId)
    (p : GamePkt) : (lobbyEnqueueBurst b env h c p).1.rooms = b.rooms := by
  rw [lobbyEnqueueBurst]
  cases enqueueRefusal env (b.lobby h) p with
  | some rv => rfl
  | none =>
    dsimp only
    rw [Block.rooms_modLobby_same]
    rfl

theorem lobbyEnqueueBurst_ledger (b : Block) (env : Env) (h : LobbyHandle) (c : ClientId)
    (p : GamePkt) : (lobbyEnqueueBurst b env h c p).1.ledger = b.ledger := by
  rw [lobbyEnqueueBurst]
  cases enqueueRefusal env (b.lobby h) p with
  | some rv => rfl
  | none =>
    dsimp only
    rw [Block.ledger_modLobby_same]
    rfl

theorem subcmdHandleOne_rooms (b : Block) (env : Env) (k : ℕ) (c : ClientId) (p : GamePkt) :
    (subcmdHandleOne b env k c p).1.rooms = b.rooms := by
  rw [subcmdHandleOne, subcmdDcnteHandleOne]
  by_cases hnte : IsDcnte (b.client c)
  · rw [if_pos hnte]
    cases (b.client c).curLobby <;> rfl
  · rw [if_neg hnte]
    cases (b.client c).curLobby with
    | none => rfl
    | some h =>
      dsimp only
      split_ifs
      · rfl
      · exact lobbyEnqueueBurst_rooms b env h c p
      · rfl
      · rfl
      · exact lobbyEnqueuePkt_rooms b env h c p
      · rfl

theorem subcmdHandleOne_queued (b : Block) (env : Env) (k : ℕ) (c : ClientId) (p : GamePkt) :
    Queued b.rooms b.ledger c p (subcmdHandleOne b env k c p).1.ledger := by
  rw [subcmdHandleOne, subcmdDcnteHandleOne]
  by_cases hnte : IsDcnte (b.client c)
  · rw [if_pos hnte]
    cases (b.client c).curLobby <;> exact Or.inl rfl
  · rw [if_neg hnte]
    cases hcur : (b.client c).curLobby with
    | none => exact Or.inl rfl
    | some h =>
      dsimp only
      split_ifs
      · exact Or.inl rfl
      · exact Or.inl (lobbyEnqueueBurst_ledger b env h c p)
      · exact Or.inl rfl
      · exact Or.inl rfl
      · exact lobbyEnqueuePkt_queued env p hcur
      · exact Or.inl rfl

/-- The effect of a 0x60 packet on the rooms: only the trial edition's ends a burst. -/
theorem subcmdHandleBcast_rooms (b : Block) (env : Env) (k : ℕ) (c : ClientId) (p : GamePkt) :
    (subcmdHandleBcast b env k c p).1.rooms = b.rooms ∨
    ∃ h, (b.rooms.presence c).curLobby = some h ∧ (b.rooms.room h).type ≠ .lobby ∧
      p.subcmd = subcmdDcnteFinishLoad ∧ IsDcnte (b.client c) ∧
      (subcmdHandleBcast b env k c p).1.rooms = b.rooms.endBurst c h := by
  rw [subcmdHandleBcast, subcmdDcnteHandleBcast]
  by_cases hnte : IsDcnte (b.client c)
  · rw [if_pos hnte]
    cases hcur : (b.client c).curLobby with
    | none => exact Or.inl rfl
    | some h =>
      dsimp only
      by_cases hload : p.subcmd = subcmdDcnteFinishLoad ∧ (b.lobby h).type ≠ .lobby
      · right
        refine ⟨h, hcur, hload.2, hload.1, hnte, ?_⟩
        rw [if_pos hload, Block.rooms_modClient, Block.rooms_modLobby]
        rfl
      · rw [if_neg hload]
        exact Or.inl rfl
  · left
    rw [if_neg hnte]
    cases (b.client c).curLobby with
    | none => rfl
    | some h =>
      dsimp only
      split_ifs
      · exact lobbyEnqueuePkt_rooms b env h c p
      · rfl

theorem subcmdHandleBcast_queued (b : Block) (env : Env) (k : ℕ) (c : ClientId) (p : GamePkt) :
    (subcmdHandleBcast b env k c p).1.ledger = b.ledger ∨
    (p.subcmd ≠ subcmdDcnteFinishLoad ∧
      Queued b.rooms b.ledger c p (subcmdHandleBcast b env k c p).1.ledger) := by
  rw [subcmdHandleBcast, subcmdDcnteHandleBcast]
  by_cases hnte : IsDcnte (b.client c)
  · left
    rw [if_pos hnte]
    cases (b.client c).curLobby with
    | none => rfl
    | some h =>
      dsimp only
      split_ifs
      · rw [Block.ledger_modClient, Block.ledger_modLobby_same]
        rfl
      · rfl
  · rw [if_neg hnte]
    cases hcur : (b.client c).curLobby with
    | none => exact Or.inl rfl
    | some h =>
      dsimp only
      by_cases hwait : (b.lobby h).bursting = true ∧ p.subcmd ∉ bcastDuringBurst
      · right
        rw [if_pos hwait]
        refine ⟨?_, lobbyEnqueuePkt_queued env p hcur⟩
        intro hload
        exact hwait.2 (by rw [hload]; decide)
      · left
        rw [if_neg hwait]

theorem Queued.sane {r : Rooms} {m m' : Ledger} {c : ClientId} {p : GamePkt}
    (h : Queued r m c p m') (hm : Ledger.Sane m) (hp : ¬ FinishLoad p) : Ledger.Sane m' := by
  rcases h with rfl | ⟨h, -, -, htype, rfl⟩
  · exact hm
  · intro k x hx
    by_cases hk : k = h
    · subst hk
      simp only [Ledger.accept, Function.update_self, List.mem_append, List.mem_singleton] at hx
      rcases hx with hx | rfl
      · exact hm k x hx
      · exact ⟨htype, hp⟩
    · simp only [Ledger.accept, Function.update_of_ne hk] at hx
      exact hm k x hx

theorem redeliver_rooms {b : Block} (env : Env) (k : ℕ) (h : LobbyHandle) (src : ClientId)
    {p : GamePkt} (hp : ¬ FinishLoad p) : (redeliver b env k h src p).1.rooms = b.rooms := by
  rw [redeliver]
  by_cases hbcast : p.pktType = gameCommand0Type
  · simp only [if_pos hbcast]
    rcases subcmdHandleBcast_rooms (noteHanded b h ⟨src, p, (b.client src).curLobby⟩) env k src p
      with hsame | ⟨_, _, _, hload, _⟩
    · exact hsame
    · exact absurd ⟨hbcast, hload⟩ hp
  · simp only [if_neg hbcast]
    split_ifs
    · exact subcmdHandleOne_rooms _ env k src p
    · rfl

/-- Handling a queued packet records it, and may queue it once more somewhere. -/
theorem redeliver_queued (b : Block) (env : Env) (k : ℕ) (h : LobbyHandle) (src : ClientId)
    (p : GamePkt) :
    (redeliver b env k h src p).1.ledger = b.ledger ∨
    Queued b.rooms (b.ledger.handOver h ⟨src, p, (b.rooms.presence src).curLobby⟩) src p
      (redeliver b env k h src p).1.ledger := by
  rw [redeliver]
  by_cases hbcast : p.pktType = gameCommand0Type
  · right
    simp only [if_pos hbcast]
    rcases subcmdHandleBcast_queued (noteHanded b h ⟨src, p, (b.client src).curLobby⟩) env k src p
      with hsame | ⟨_, hqueued⟩
    · exact Or.inl hsame
    · exact hqueued
  · simp only [if_neg hbcast]
    split_ifs
    · exact Or.inr (subcmdHandleOne_queued _ env k src p)
    · exact Or.inl rfl

theorem redeliver_sane {b : Block} (env : Env) (k : ℕ) (h : LobbyHandle) (src : ClientId)
    {p : GamePkt} (hb : Ledger.Sane b.ledger) (hp : ¬ FinishLoad p) :
    Ledger.Sane (redeliver b env k h src p).1.ledger := by
  rcases redeliver_queued b env k h src p with hsame | hqueued
  · rwa [hsame]
  · exact hqueued.sane hb hp

/-- A block whose lobby's queue has lost its first packet. -/
def popQueue (b : Block) (h : LobbyHandle) (rest : List (ClientId × GamePkt)) : Block :=
  b.modLobby h (fun l => { l with pktQueue := rest })

theorem popQueue_rooms (b : Block) (h : LobbyHandle) (rest : List (ClientId × GamePkt)) :
    (popQueue b h rest).rooms = b.rooms := by
  rw [popQueue, Block.rooms_modLobby_same]
  rfl

theorem popQueue_sane {b : Block} {h : LobbyHandle} {x : ClientId × GamePkt}
    {rest : List (ClientId × GamePkt)} (hqueue : (b.lobby h).pktQueue = x :: rest)
    (hb : Ledger.Sane b.ledger) : Ledger.Sane (popQueue b h rest).ledger := by
  rw [popQueue, Block.ledger_modLobby]
  intro k y hy
  by_cases hk : k = h
  · subst hk
    simp only [Function.update_self] at hy
    refine hb k y ?_
    change y ∈ (b.lobby k).pktQueue
    rw [hqueue]
    exact List.mem_cons_of_mem x hy
  · simp only [Function.update_of_ne hk] at hy
    exact hb k y hy

/-- One turn of the drain loop moves nobody. -/
theorem drainOnce_rooms (env : Env) (h : LobbyHandle) {s : Block × Int × ℕ}
    (hs : Ledger.Sane s.1.ledger) :
    (drainOnce env h s).1.rooms = s.1.rooms ∧ Ledger.Sane (drainOnce env h s).1.ledger := by
  rw [drainOnce]
  cases hqueue : (s.1.lobby h).pktQueue with
  | nil => exact ⟨rfl, hs⟩
  | cons x rest =>
    obtain ⟨src, p⟩ := x
    have hsane := popQueue_sane hqueue hs
    have hp : ¬ FinishLoad p := by
      refine (hs h (src, p) ?_).2
      change _ ∈ (s.1.lobby h).pktQueue
      rw [hqueue]
      exact List.mem_cons_self
    dsimp only
    by_cases hrv : s.2.1 = 0
    · rw [if_pos hrv]
      refine ⟨?_, redeliver_sane env _ h src hsane hp⟩
      rw [← popQueue_rooms s.1 h rest]
      exact redeliver_rooms env _ h src hp
    · rw [if_neg hrv]
      exact ⟨popQueue_rooms s.1 h rest, hsane⟩

theorem iterate_drainOnce_rooms (env : Env) (h : LobbyHandle) (n : ℕ) {s : Block × Int × ℕ}
    (hs : Ledger.Sane s.1.ledger) :
    ((drainOnce env h)^[n] s).1.rooms = s.1.rooms ∧
      Ledger.Sane ((drainOnce env h)^[n] s).1.ledger := by
  induction n generalizing s with
  | zero => exact ⟨rfl, hs⟩
  | succ n ih =>
    obtain ⟨hrooms, hsane⟩ := drainOnce_rooms env h hs
    rw [Function.iterate_succ_apply, ← hrooms]
    exact ih hsane

theorem lobbyHandleDoneBurst_rooms {b : Block} (env : Env) (h : LobbyHandle)
    (hb : Ledger.Sane b.ledger) : (lobbyHandleDoneBurst b env h).1.rooms = b.rooms :=
  (iterate_drainOnce_rooms env h _ hb).1

theorem lobbyHandleDoneBurst_sane {b : Block} (env : Env) (h : LobbyHandle)
    (hb : Ledger.Sane b.ledger) : Ledger.Sane (lobbyHandleDoneBurst b env h).1.ledger :=
  (iterate_drainOnce_rooms env h _ hb).2

theorem setBursting_rooms (b : Block) (h : LobbyHandle) :
    (b.modLobby h (fun l => { l with bursting := false })).rooms = b.rooms.quieten h := by
  rw [Block.rooms_modLobby]
  rfl

theorem setBursting_ledger (b : Block) (h : LobbyHandle) :
    (b.modLobby h (fun l => { l with bursting := false })).ledger = b.ledger := by
  rw [Block.ledger_modLobby_same]
  rfl

theorem endOwnBurst_rooms {b : Block} (env : Env) (c : ClientId) (h : LobbyHandle)
    (hb : Ledger.Sane b.ledger) :
    (endOwnBurst b env c h).rooms =
      if (b.rooms.presence c).bursting then b.rooms.quieten h else b.rooms := by
  rw [endOwnBurst]
  refine (apply_ite Block.rooms _ _ _).trans (if_congr Iff.rfl ?_ rfl)
  rw [lobbyHandleDoneBurst_rooms, setBursting_rooms]
  rwa [setBursting_ledger]

theorem endOwnBurst_presence {b : Block} (env : Env) (c : ClientId) (h : LobbyHandle)
    (hb : Ledger.Sane b.ledger) :
    (endOwnBurst b env c h).rooms.presence = b.rooms.presence := by
  rw [endOwnBurst_rooms env c h hb]
  split_ifs <;> rfl

theorem endOwnBurst_sound {b : Block} (hb : BlockSound b) (env : Env) (c : ClientId)
    (h : LobbyHandle) : BlockSound (endOwnBurst b env c h) := by
  refine ⟨?_, ?_⟩
  · rw [endOwnBurst_rooms env c h hb.sane]
    split_ifs
    · exact hb.rooms.setBursting h false
    · exact hb.rooms
  · rw [endOwnBurst]
    split_ifs
    · refine lobbyHandleDoneBurst_sane env h ?_
      rw [setBursting_ledger]
      exact hb.sane
    · exact hb.sane

/-- `lobby_remove_player` ends the client's own burst and gives up its slot. -/
theorem lobbyRemovePlayer_leave {b : Block} (hb : BlockSound b) (env : Env) {c : ClientId}
    {l : LobbyHandle} (hcur : (b.rooms.presence c).curLobby = some l) :
    ∃ v left, (v = ((endOwnBurst b env c l).rooms.room l).version ∨ v = .gc) ∧
      left = (endOwnBurst b env c l).rooms.leave c l (b.rooms.presence c).clientId v ∧
      (lobbyRemovePlayer b env c).1.rooms = left.close l ∧
      (lobbyRemovePlayer b env c).1.ledger =
        if left.Deserted l then (endOwnBurst b env c l).ledger.clear l
        else (endOwnBurst b env c l).ledger := by
  have hcur₀ : (b.client c).curLobby = some l := hcur
  have hpresence := endOwnBurst_presence env c l hb.sane
  have hsound := endOwnBurst_sound hb env c l
  rw [lobbyRemovePlayer, hcur₀]
  dsimp only
  generalize endOwnBurst b env c l = b₁ at *
  rw [← hpresence] at hcur ⊢
  have hslot : (b₁.client c).clientId = (b₁.rooms.presence c).clientId := rfl
  rw [hslot]
  have hledger := lobbyRemoveClientLocked_ledger b₁ env.now c (b₁.rooms.presence c).clientId l
  obtain ⟨v, hv, hrooms, hrv⟩ := lobbyRemoveClientLocked_cases env.now
    (hsound.rooms.clients_of_curLobby hcur)
  rw [if_pos hcur] at hrooms
  generalize lobbyRemoveClientLocked b₁ env.now c (b₁.rooms.presence c).clientId l = t at *
  have hgone : ∀ b₂ : Block, b₂.rooms.presence = t.1.rooms.presence →
      (b₂.modClient c (fun x => { x with curLobby := none })).rooms = b₂.rooms := by
    intro b₂ hb₂
    refine b₂.rooms_modClient_same ?_
    have hnone : (b₂.client c).toPresence = { b₂.rooms.presence c with curLobby := none } := by
      change b₂.rooms.presence c = _
      rw [hb₂, hrooms]
      simp [Rooms.leave, Rooms.setPresence]
    rw [hnone]
  refine ⟨v, _, hv, rfl, ?_⟩
  rw [Rooms.close]
  by_cases hempty : (b₁.rooms.vacate l (b₁.rooms.presence c).clientId v).Deserted l
  · have hempty' : (b₁.rooms.leave c l (b₁.rooms.presence c).clientId v).Deserted l := hempty
    rw [if_pos hempty] at hrv
    rw [if_pos hempty', if_pos hempty', hrv, if_neg (by decide), if_neg (by decide),
      hgone _ (by rw [lobbyDestroyLocked_rooms]; rfl), lobbyDestroyLocked_rooms, hrooms,
      Block.ledger_modClient, lobbyDestroyLocked_ledger, hledger]
    exact ⟨rfl, rfl⟩
  · have hempty' : ¬ (b₁.rooms.leave c l (b₁.rooms.presence c).clientId v).Deserted l := hempty
    rw [if_neg hempty] at hrv
    rw [if_neg hempty', if_neg hempty', hrv, if_neg (by decide), if_pos rfl, hgone _ rfl, hrooms,
      Block.ledger_modClient, hledger]
    exact ⟨rfl, rfl⟩

theorem lobbyRemovePlayer_absent {b : Block} (env : Env) {c : ClientId}
    (hcur : (b.rooms.presence c).curLobby = none) : lobbyRemovePlayer b env c = (b, 0) := by
  have hcur₀ : (b.client c).curLobby = none := hcur
  rw [lobbyRemovePlayer, hcur₀]

/-- A client that is removed is in no lobby afterwards, and nothing else about a presence
changes. -/
theorem lobbyRemovePlayer_presence {b : Block} (hb : BlockSound b) (env : Env) {c : ClientId}
    {l : LobbyHandle} (hcur : (b.rooms.presence c).curLobby = some l) :
    (lobbyRemovePlayer b env c).1.rooms.presence = Function.update b.rooms.presence c
      { b.rooms.presence c with curLobby := none, clientId := 0 } := by
  obtain ⟨v, left, -, rfl, hrooms, -⟩ := lobbyRemovePlayer_leave hb env hcur
  rw [hrooms, Rooms.presence_close]
  change Function.update (endOwnBurst b env c l).rooms.presence c
    { (endOwnBurst b env c l).rooms.presence c with curLobby := none, clientId := 0 } = _
  rw [endOwnBurst_presence env c l hb.sane]

theorem lobbyRemovePlayer_curLobby {b : Block} (hb : BlockSound b) (env : Env) (c : ClientId) :
    ((lobbyRemovePlayer b env c).1.rooms.presence c).curLobby = none := by
  cases hcur : (b.rooms.presence c).curLobby with
  | none =>
    rw [lobbyRemovePlayer_absent env hcur]
    exact hcur
  | some l =>
    rw [lobbyRemovePlayer_presence hb env hcur, Function.update_self]

theorem lobbyRemovePlayer_createLobby {b : Block} (hb : BlockSound b) (env : Env)
    (c d : ClientId) : ((lobbyRemovePlayer b env c).1.rooms.presence d).createLobby =
      (b.rooms.presence d).createLobby := by
  cases hcur : (b.rooms.presence c).curLobby with
  | none => rw [lobbyRemovePlayer_absent env hcur]
  | some l =>
    rw [lobbyRemovePlayer_presence hb env hcur]
    by_cases hd : d = c
    · rw [hd, Function.update_self]
    · rw [Function.update_of_ne hd]

theorem Ledger.Sane.clear {m : Ledger} (hm : Ledger.Sane m) (h : LobbyHandle) :
    Ledger.Sane (m.clear h) := by
  intro k x hx
  by_cases hk : k = h
  · subst hk
    simp [Ledger.clear] at hx
  · simp only [Ledger.clear, Function.update_of_ne hk] at hx
    exact hm k x hx

theorem lobbyRemovePlayer_sound {b : Block} (hb : BlockSound b) (env : Env) (c : ClientId) :
    BlockSound (lobbyRemovePlayer b env c).1 := by
  cases hcur : (b.rooms.presence c).curLobby with
  | none => rwa [lobbyRemovePlayer_absent env hcur]
  | some l =>
    have hown := endOwnBurst_sound hb env c l
    have hi : ((endOwnBurst b env c l).rooms.room l).clients (b.rooms.presence c).clientId =
        some c := by
      rw [← endOwnBurst_presence env c l hb.sane] at hcur ⊢
      exact hown.rooms.clients_of_curLobby hcur
    obtain ⟨v, left, hv, rfl, hrooms, hledger⟩ := lobbyRemovePlayer_leave hb env hcur
    refine ⟨?_, ?_⟩
    · rw [hrooms]
      exact (hown.rooms.leave hi hv).close l
    · rw [hledger]
      split_ifs
      · exact Ledger.Sane.clear hown.sane l
      · exact hown.sane

theorem Enter.sane {accepted : Prop} {r r' : Rooms} {m m' : Ledger} {c : ClientId}
    {req : LobbyHandle} {rv : Int} (h : Enter accepted r m c req rv r' m')
    (hm : Ledger.Sane m) : Ledger.Sane m' := by
  cases h with
  | refused _ => exact hm
  | lounged _ _ => exact hm
  | stayed _ _ _ => exact hm
  | @moved l _ _ left _ _ _ _ _ _ _ _ _ =>
    split_ifs
    · exact Ledger.Sane.clear hm l
    · exact hm

theorem lobbyChangeLobby_sound {b : Block} (hb : BlockSound b) (env : Env) (c : ClientId)
    (req : LobbyHandle) : BlockSound (lobbyChangeLobby b env c req).1 := by
  have henter := lobbyChangeLobby_enter hb.rooms env c req
  exact ⟨henter.sound hb.rooms, henter.sane hb.sane⟩

theorem lobbyAddToAny_sound {b : Block} (hb : BlockSound b) (now : ℕ) {c : ClientId}
    (req : Option LobbyHandle) (hcur : (b.rooms.presence c).curLobby = none) :
    BlockSound (lobbyAddToAny b now c req).1 := by
  refine ⟨?_, ?_⟩
  · rcases lobbyAddToAny_attempted hb.rooms now c req with ⟨-, hsame⟩ | ⟨-, hlounged⟩
    · rw [hsame]
      exact hb.rooms
    · exact hlounged.sound hb.rooms hcur
  · rw [lobbyAddToAny_ledger]
    exact hb.sane

end ShipServer.LobbyRefinement
