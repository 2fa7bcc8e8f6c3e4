import ShipServer.BoundedLists
import ShipServer.Seatings
import ShipServer.Versions

set_option autoImplicit false

namespace ShipServer.LobbyRooms

open BoundedLists Seatings Versions

abbrev ClientId := ℕ

/-- The identity of a lobby structure. It is never used again once the lobby is destroyed. -/
abbrev LobbyHandle := ℕ

/-- An index below `LOBBY_MAX_CLIENTS`. -/
abbrev Slot := Fin 12

/-- The fields of a client that say where it is. -/
structure Presence where
  curLobby : Option LobbyHandle
  clientId : Slot
  bursting : Bool
  createLobby : Option LobbyHandle

def Presence.place (p : Presence) : Option (LobbyHandle × Slot) :=
  p.curLobby.map (fun l => (l, p.clientId))

/-- The fields of a lobby that say who is in it and who gets in. -/
structure Room where
  type : LobbyType
  version : ClientVersion
  maxClients : ℕ
  numClients : ℤ
  clients : Slot → Option ClientId
  bursting : Bool
  passwd : List UInt8

/-- The number of occupied slots. -/
def headcount (clients : Slot → Option ClientId) : ℕ :=
  ∑ i, if (clients i).isSome then 1 else 0

theorem headcount_update (clients : Slot → Option ClientId) (i : Slot) (o : Option ClientId) :
    headcount (Function.update clients i o) + (if (clients i).isSome then 1 else 0) =
      headcount clients + (if o.isSome then 1 else 0) :=
  sum_update_add (fun o : Option ClientId => if o.isSome then 1 else 0) clients i o

theorem headcount_eq_card (clients : Slot → Option ClientId) :
    headcount clients = (Finset.univ.filter (fun i => (clients i).isSome)).card := by
  rw [headcount, Finset.card_filter]

theorem headcount_pos {clients : Slot → Option ClientId} {i : Slot} {c : ClientId}
    (h : clients i = some c) : 0 < headcount clients := by
  rw [headcount_eq_card, Finset.card_pos]
  exact ⟨i, by simp [h]⟩

namespace Room

/-- The client count is right, nobody sits past the end, and a game in which slot 1 goes first
has a slot 1. -/
structure Sound (m : Room) : Prop where
  count : m.numClients = headcount m.clients
  below : ∀ i c, m.clients i = some c → (i : ℕ) < m.maxClients
  roomy : m.type = .game → m.version < .gc → 1 < m.maxClients

/-- There are fewer clients than the limit allows. -/
def Spare (m : Room) : Prop :=
  m.numClients < m.maxClients

def enter (m : Room) (c : ClientId) (i : Slot) : Room :=
  { m with clients := Function.update m.clients i (some c), numClients := m.numClients + 1 }

/-- A cross-platform game that loses its last Dreamcast or PC player becomes a Gamecube one, so
the version may change as well. -/
def release (m : Room) (i : Slot) (v : ClientVersion) : Room :=
  { m with clients := Function.update m.clients i none, numClients := m.numClients - 1
           version := v }

theorem Sound.enter {m : Room} (h : m.Sound) {c : ClientId} {i : Slot}
    (hfree : m.clients i = none) (hi : (i : ℕ) < m.maxClients) : (m.enter c i).Sound where
  count := by
    have hcount := h.count
    have hsum := headcount_update m.clients i (some c)
    rw [hfree] at hsum
    simp only [Room.enter, Option.isSome_none, Option.isSome_some, Bool.false_eq_true, if_true,
      if_false] at hsum ⊢
    omega
  below := by
    intro j d hj
    change Function.update m.clients i (some c) j = some d at hj
    by_cases hji : j = i
    · rw [hji]
      exact hi
    · rw [Function.update_of_ne hji] at hj
      exact h.below j d hj
  roomy := h.roomy

theorem Sound.release {m : Room} (h : m.Sound) {c : ClientId} {i : Slot}
    {v : ClientVersion} (hi : m.clients i = some c) (hv : v = m.version ∨ v = .gc) :
    (m.release i v).Sound where
  count := by
    have hcount := h.count
    have hsum := headcount_update m.clients i none
    rw [hi] at hsum
    simp only [Room.release, Option.isSome_none, Option.isSome_some, Bool.false_eq_true, if_true,
      if_false] at hsum ⊢
    omega
  below := by
    intro j d hj
    change Function.update m.clients i none j = some d at hj
    by_cases hji : j = i
    · rw [hji, Function.update_self] at hj
      cases hj
    · rw [Function.update_of_ne hji] at hj
      exact h.below j d hj
  roomy := by
    intro htype hlt
    rcases hv with rfl | rfl
    · exact h.roomy htype hlt
    · change ClientVersion.gc < ClientVersion.gc at hlt
      exact absurd hlt (by decide)

theorem Sound.empty_of_count {m : Room} (h : m.Sound) (hn : m.numClients = 0) (i : Slot) :
    m.clients i = none := by
  cases hi : m.clients i with
  | none => rfl
  | some c =>
    have hpos := headcount_pos hi
    have hcount := h.count
    omega

end Room

/-- Who is where on a block. -/
structure Rooms where
  presence : ClientId → Presence
  room : LobbyHandle → Room
  lobbies : List LobbyHandle
  nextLobby : LobbyHandle

namespace Rooms

def occupant (r : Rooms) : LobbyHandle × Slot → Option ClientId :=
  fun p => (r.room p.1).clients p.2

def place (r : Rooms) : ClientId → Option (LobbyHandle × Slot) :=
  fun c => (r.presence c).place

def setPresence (r : Rooms) (c : ClientId) (p : Presence) : Rooms :=
  { r with presence := Function.update r.presence c p }

def setRoom (r : Rooms) (l : LobbyHandle) (m : Room) : Rooms :=
  { r with room := Function.update r.room l m }

@[simp] theorem presence_setPresence (r : Rooms) (c : ClientId) (p : Presence) :
    (r.setPresence c p).presence c = p := by
  simp [setPresence]

theorem presence_setPresence_ne (r : Rooms) {c d : ClientId} (hd : d ≠ c) (p : Presence) :
    (r.setPresence c p).presence d = r.presence d := by
  simp [setPresence, hd]

@[simp] theorem presence_setRoom (r : Rooms) (l : LobbyHandle) (m : Room) :
    (r.setRoom l m).presence = r.presence := rfl

@[simp] theorem room_setRoom (r : Rooms) (l : LobbyHandle) (m : Room) :
    (r.setRoom l m).room l = m := by
  simp [setRoom]

theorem room_setRoom_ne (r : Rooms) {l k : LobbyHandle} (hk : k ≠ l) (m : Room) :
    (r.setRoom l m).room k = r.room k := by
  simp [setRoom, hk]

@[simp] theorem room_setPresence (r : Rooms) (c : ClientId) (p : Presence) :
    (r.setPresence c p).room = r.room := rfl

/-- A client takes a free slot. -/
def sit (r : Rooms) (c : ClientId) (l : LobbyHandle) (i : Slot) : Rooms :=
  (r.setPresence c { r.presence c with curLobby := some l, clientId := i }).setRoom l
    ((r.room l).enter c i)

/-- A slot is given up. -/
def vacate (r : Rooms) (l : LobbyHandle) (i : Slot) (v : ClientVersion) : Rooms :=
  r.setRoom l ((r.room l).release i v)

/-- A client gives its slot up and is nowhere afterwards. -/
def leave (r : Rooms) (c : ClientId) (l : LobbyHandle) (i : Slot) (v : ClientVersion) : Rooms :=
  (r.vacate l i v).setPresence c { r.presence c with curLobby := none, clientId := 0 }

/-- A lobby is taken off the block's list. -/
def unlist (r : Rooms) (l : LobbyHandle) : Rooms :=
  { r with lobbies := r.lobbies.erase l }

/-- A client starts to load into a game. -/
def startBurst (r : Rooms) (c : ClientId) (l : LobbyHandle) : Rooms :=
  (r.setPresence c { r.presence c with bursting := true }).setRoom l
    { r.room l with bursting := true }

/-- A lobby is opened again. -/
def quieten (r : Rooms) (l : LobbyHandle) : Rooms :=
  r.setRoom l { r.room l with bursting := false }

/-- A client ends the burst of its lobby. -/
def endBurst (r : Rooms) (c : ClientId) (l : LobbyHandle) : Rooms :=
  (r.setPresence c { r.presence c with bursting := false }).setRoom l
    { r.room l with bursting := false }

/-- A client arrives in a lobby: in a game, it starts to burst. -/
def settle (r : Rooms) (c : ClientId) (l : LobbyHandle) : Rooms :=
  if (r.room l).type = .lobby then r else r.startBurst c l

/-- A game without clients. -/
def Deserted (r : Rooms) (l : LobbyHandle) : Prop :=
  (r.room l).type ≠ .lobby ∧ (r.room l).numClients = 0

instance (r : Rooms) (l : LobbyHandle) : Decidable (r.Deserted l) :=
  inferInstanceAs (Decidable (_ ∧ _))

/-- A deserted game is taken off the list. -/
def close (r : Rooms) (l : LobbyHandle) : Rooms :=
  if r.Deserted l then r.unlist l else r

/-- A lobby is put at the end of the block's list. -/
def list (r : Rooms) (l : LobbyHandle) : Rooms :=
  { r with lobbies := r.lobbies ++ [l] }

/-- A new lobby gets its room. -/
def addRoom (r : Rooms) (m : Room) : Rooms :=
  { r.setRoom r.nextLobby m with nextLobby := r.nextLobby + 1 }

/-- There is no place in a lobby that does not exist yet, and more than one in a game whose type
is still open. -/
structure Limits (r : Rooms) : Prop where
  unused : ∀ l, r.nextLobby ≤ l → (r.room l).maxClients = 0
  pending : ∀ c l, (r.presence c).createLobby = some l → 1 < (r.room l).maxClients

/-- Lobby membership is consistent. -/
structure Sound (r : Rooms) : Prop where
  room : ∀ l, (r.room l).Sound
  seated : Seated r.occupant r.place
  limits : r.Limits

theorem occupant_setRoom (r : Rooms) (l : LobbyHandle) {m : Room} {i : Slot}
    {o : Option ClientId} (hm : m.clients = Function.update (r.room l).clients i o) :
    (r.setRoom l m).occupant = Function.update r.occupant (l, i) o := by
  funext ⟨k, j⟩
  by_cases hk : k = l
  · subst hk
    by_cases hj : j = i
    · simp [occupant, setRoom, hm, hj]
    · have hne : ((k, j) : LobbyHandle × Slot) ≠ (k, i) := by simp [hj]
      rw [Function.update_of_ne hne]
      simp [occupant, setRoom, hm, hj]
  · have hne : ((k, j) : LobbyHandle × Slot) ≠ (l, i) := by simp [hk]
    rw [Function.update_of_ne hne]
    simp [occupant, setRoom, hk]

theorem occupant_setRoom_same (r : Rooms) (l : LobbyHandle) {m : Room}
    (hm : m.clients = (r.room l).clients) : (r.setRoom l m).occupant = r.occupant := by
  funext ⟨k, j⟩
  by_cases hk : k = l
  · subst hk
    simp [occupant, setRoom, hm]
  · simp [occupant, setRoom, hk]

theorem place_setPresence (r : Rooms) (c : ClientId) (p : Presence) :
    (r.setPresence c p).place = Function.update r.place c p.place := by
  funext d
  by_cases hd : d = c
  · subst hd
    simp [place, setPresence]
  · simp [place, setPresence, hd]

@[simp] theorem occupant_setPresence (r : Rooms) (c : ClientId) (p : Presence) :
    (r.setPresence c p).occupant = r.occupant := rfl

@[simp] theorem place_setRoom (r : Rooms) (l : LobbyHandle) (m : Room) :
    (r.setRoom l m).place = r.place := rfl

theorem room_setRoom_sound {r : Rooms} (h : ∀ l, (r.room l).Sound) {l : LobbyHandle} {m : Room}
    (hm : m.Sound) (k : LobbyHandle) : ((r.setRoom l m).room k).Sound := by
  by_cases hk : k = l
  · subst hk
    simpa [setRoom] using hm
  · simpa [setRoom, hk] using h k

theorem Limits.setRoom {r : Rooms} (h : r.Limits) {l : LobbyHandle} {m : Room}
    (hm : m.maxClients = (r.room l).maxClients) : (r.setRoom l m).Limits := by
  have hmax : ∀ k, ((r.setRoom l m).room k).maxClients = (r.room k).maxClients := by
    intro k
    by_cases hk : k = l
    · subst hk
      simp [Rooms.setRoom, hm]
    · simp [Rooms.setRoom, hk]
  refine ⟨?_, ?_⟩
  · intro k hk
    rw [hmax]
    exact h.unused k hk
  · intro c k hk
    rw [hmax]
    exact h.pending c k hk

theorem Limits.setPresence {r : Rooms} (h : r.Limits) {c : ClientId} {p : Presence}
    (hp : ∀ l, p.createLobby = some l → 1 < (r.room l).maxClients) :
    (r.setPresence c p).Limits := by
  refine ⟨h.unused, ?_⟩
  intro d k hk
  by_cases hd : d = c
  · subst hd
    simp only [Rooms.setPresence, Function.update_self] at hk
    exact hp k hk
  · simp only [Rooms.setPresence, Function.update_of_ne hd] at hk
    exact h.pending d k hk

theorem Limits.setPresence_same {r : Rooms} (h : r.Limits) {c : ClientId} {p : Presence}
    (hp : p.createLobby = (r.presence c).createLobby) : (r.setPresence c p).Limits := by
  refine h.setPresence ?_
  rw [hp]
  exact h.pending c

theorem Limits.sit {r : Rooms} (h : r.Limits) (c : ClientId) (l : LobbyHandle) (i : Slot) :
    (r.sit c l i).Limits := by
  have hset : (r.setPresence c { r.presence c with curLobby := some l, clientId := i }).Limits :=
    h.setPresence_same rfl
  exact hset.setRoom rfl

theorem Sound.sit {r : Rooms} (h : r.Sound) {c : ClientId} {l : LobbyHandle} {i : Slot}
    (hplace : r.place c = none) (hfree : (r.room l).clients i = none)
    (hi : (i : ℕ) < (r.room l).maxClients) : (r.sit c l i).Sound where
  room := room_setRoom_sound h.room ((h.room l).enter hfree hi)
  seated := by
    rw [Rooms.sit, occupant_setRoom _ l rfl, place_setRoom, place_setPresence]
    exact h.seated.sit hfree hplace
  limits := h.limits.sit c l i

theorem Sound.leave {r : Rooms} (h : r.Sound) {c : ClientId} {l : LobbyHandle} {i : Slot}
    {v : ClientVersion} (hi : (r.room l).clients i = some c)
    (hv : v = (r.room l).version ∨ v = .gc) : (r.leave c l i v).Sound where
  room := room_setRoom_sound h.room ((h.room l).release hi hv)
  seated := by
    rw [Rooms.leave, vacate, occupant_setPresence, occupant_setRoom _ l rfl, place_setPresence]
    exact h.seated.leave (i := (l, i)) hi
  limits := by
    have hroom : (r.vacate l i v).Limits := h.limits.setRoom rfl
    exact hroom.setPresence_same rfl

/-- Moving to another lobby: the new slot is taken before the old one is given up. -/
theorem Sound.move {r : Rooms} (h : r.Sound) {c : ClientId} {l req : LobbyHandle} {i j : Slot}
    {v : ClientVersion} (hne : l ≠ req) (hi : (r.room l).clients i = some c)
    (hfree : (r.room req).clients j = none) (hj : (j : ℕ) < (r.room req).maxClients)
    (hv : v = (r.room l).version ∨ v = .gc) : ((r.sit c req j).vacate l i v).Sound := by
  have hroom : (r.sit c req j).room l = r.room l := by simp [Rooms.sit, setRoom, setPresence, hne]
  refine ⟨?_, ?_, ?_⟩
  · refine room_setRoom_sound (room_setRoom_sound h.room ((h.room req).enter hfree hj)) ?_
    rw [hroom]
    exact (h.room l).release hi hv
  · rw [vacate, occupant_setRoom _ l rfl, place_setRoom, Rooms.sit, occupant_setRoom _ req rfl,
      place_setRoom, place_setPresence]
    exact h.seated.move (i := (l, i)) hi hfree
  · exact (h.limits.sit c req j).setRoom rfl

theorem Sound.setPresence {r : Rooms} (h : r.Sound) {c : ClientId} {p : Presence}
    (hp : p.place = (r.presence c).place)
    (hpending : ∀ l, p.createLobby = some l → 1 < (r.room l).maxClients) :
    (r.setPresence c p).Sound where
  room := h.room
  seated := by
    have hplace : (r.setPresence c p).place = r.place := by
      rw [place_setPresence, hp]
      exact Function.update_eq_self c r.place
    rw [hplace]
    exact h.seated
  limits := h.limits.setPresence hpending

theorem Sound.setRoom {r : Rooms} (h : r.Sound) {l : LobbyHandle} {m : Room} (hm : m.Sound)
    (hclients : m.clients = (r.room l).clients)
    (hmax : m.maxClients = (r.room l).maxClients) : (r.setRoom l m).Sound where
  room := room_setRoom_sound h.room hm
  seated := by
    rw [occupant_setRoom_same _ _ hclients]
    exact h.seated
  limits := h.limits.setRoom hmax

/-- The bursting flag says nothing about membership. -/
theorem Sound.setBursting {r : Rooms} (h : r.Sound) (l : LobbyHandle) (flag : Bool) :
    (r.setRoom l { r.room l with bursting := flag }).Sound := by
  have hroom := h.room l
  exact h.setRoom ⟨hroom.count, hroom.below, hroom.roomy⟩ rfl rfl

theorem Sound.startBurst {r : Rooms} (h : r.Sound) (c : ClientId) (l : LobbyHandle) :
    (r.startBurst c l).Sound := by
  have hset := h.setPresence (c := c) (p := { r.presence c with bursting := true }) rfl
    (h.limits.pending c)
  exact hset.setBursting l true

theorem Sound.endBurst {r : Rooms} (h : r.Sound) (c : ClientId) (l : LobbyHandle) :
    (r.endBurst c l).Sound := by
  have hset := h.setPresence (c := c) (p := { r.presence c with bursting := false }) rfl
    (h.limits.pending c)
  exact hset.setBursting l false

theorem Sound.settle {r : Rooms} (h : r.Sound) (c : ClientId) (l : LobbyHandle) :
    (r.settle c l).Sound := by
  rw [Rooms.settle]
  split_ifs
  · exact h
  · exact h.startBurst c l

theorem Sound.unlist {r : Rooms} (h : r.Sound) (l : LobbyHandle) : (r.unlist l).Sound :=
  ⟨h.room, h.seated, h.limits.unused, h.limits.pending⟩

theorem Sound.list {r : Rooms} (h : r.Sound) (l : LobbyHandle) : (r.list l).Sound :=
  ⟨h.room, h.seated, h.limits.unused, h.limits.pending⟩

theorem Sound.clients_unused {r : Rooms} (h : r.Sound) {l : LobbyHandle} (hl : r.nextLobby ≤ l)
    (i : Slot) : (r.room l).clients i = none := by
  cases hi : (r.room l).clients i with
  | none => rfl
  | some c =>
    have hbelow := (h.room l).below i c hi
    have hmax := h.limits.unused l hl
    omega

theorem Sound.addRoom {r : Rooms} (h : r.Sound) {m : Room} (hm : m.Sound)
    (hempty : m.clients = fun _ => none) : (r.addRoom m).Sound where
  room := room_setRoom_sound h.room hm
  seated := by
    have hclients : m.clients = (r.room r.nextLobby).clients := by
      rw [hempty]
      funext i
      exact (h.clients_unused le_rfl i).symm
    have hoccupant : (r.addRoom m).occupant = r.occupant := occupant_setRoom_same r _ hclients
    rw [hoccupant]
    exact h.seated
  limits := by
    have hother : ∀ l, l ≠ r.nextLobby → (r.addRoom m).room l = r.room l := by
      intro l hl
      simp [Rooms.addRoom, Rooms.setRoom, hl]
    refine ⟨?_, ?_⟩
    · intro l hl
      have hlt : r.nextLobby < l := hl
      rw [hother l hlt.ne']
      exact h.limits.unused l hlt.le
    · intro c l hl
      have hmax := h.limits.pending c l hl
      rw [hother l]
      · exact hmax
      · rintro rfl
        rw [h.limits.unused _ le_rfl] at hmax
        exact absurd hmax (by decide)

theorem Sound.close {r : Rooms} (h : r.Sound) (l : LobbyHandle) : (r.close l).Sound := by
  rw [Rooms.close]
  split_ifs
  · exact h.unlist l
  · exact h

theorem settle_unlist (r : Rooms) (c : ClientId) (l k : LobbyHandle) :
    (r.settle c l).unlist k = (r.unlist k).settle c l := by
  rw [Rooms.settle, Rooms.settle]
  split_ifs with h h' h'
  · rfl
  · exact absurd h h'
  · exact absurd h' h
  · rfl

/-- A client that is in a lobby occupies the slot that it says it does. -/
theorem Sound.clients_of_curLobby {r : Rooms} (h : r.Sound) {c : ClientId} {l : LobbyHandle}
    (hcur : (r.presence c).curLobby = some l) :
    (r.room l).clients (r.presence c).clientId = some c := by
  refine (h.seated (l, (r.presence c).clientId) c).mpr ?_
  rw [place, Presence.place, hcur]
  rfl

/-- Nobody is in a deserted lobby. -/
theorem Sound.curLobby_ne_of_deserted {r : Rooms} (h : r.Sound) {l : LobbyHandle}
    (hempty : r.Deserted l) (c : ClientId) : (r.presence c).curLobby ≠ some l := by
  intro hcur
  have hsome := h.clients_of_curLobby hcur
  rw [(h.room l).empty_of_count hempty.2] at hsome
  cases hsome

/-- A client that has a slot in a lobby says so. -/
theorem Sound.curLobby_of_clients {r : Rooms} (h : r.Sound) {l : LobbyHandle} {i : Slot}
    {c : ClientId} (hi : (r.room l).clients i = some c) :
    (r.presence c).curLobby = some l ∧ (r.presence c).clientId = i := by
  have hplace : (r.presence c).place = some (l, i) := (h.seated (l, i) c).mp hi
  obtain ⟨k, hk, hpair⟩ := Option.map_eq_some_iff.mp hplace
  rw [Prod.mk.injEq] at hpair
  obtain ⟨rfl, rfl⟩ := hpair
  exact ⟨hk, rfl⟩

/-- A game that nobody is in is deserted. -/
theorem Sound.deserted {r : Rooms} (h : r.Sound) {l : LobbyHandle}
    (hgame : (r.room l).type ≠ .lobby) (hnobody : ∀ c, (r.presence c).curLobby ≠ some l) :
    r.Deserted l := by
  refine ⟨hgame, ?_⟩
  have hempty : ∀ i, (r.room l).clients i = none := by
    intro i
    cases hi : (r.room l).clients i with
    | none => rfl
    | some c => exact absurd (h.curLobby_of_clients hi).1 (hnobody c)
  rw [(h.room l).count, headcount]
  simp [hempty]

theorem curLobby_sit (r : Rooms) (c d : ClientId) (l : LobbyHandle) (i : Slot) :
    ((r.sit c l i).presence d).curLobby =
      if d = c then some l else (r.presence d).curLobby := by
  split_ifs with hd
  · subst hd
    simp [sit]
  · simp [sit, presence_setPresence_ne _ hd]

theorem bursting_setRoom (r : Rooms) {l : LobbyHandle} {m : Room}
    (hm : m.bursting = (r.room l).bursting) (k : LobbyHandle) :
    ((r.setRoom l m).room k).bursting = (r.room k).bursting := by
  by_cases hk : k = l
  · rw [hk, room_setRoom, hm]
  · rw [room_setRoom_ne _ hk]

theorem bursting_sit (r : Rooms) (c : ClientId) (l : LobbyHandle) (i : Slot) (k : LobbyHandle) :
    ((r.sit c l i).room k).bursting = (r.room k).bursting := by
  rw [sit, bursting_setRoom]
  · rfl
  · rfl

theorem bursting_vacate (r : Rooms) (l : LobbyHandle) (i : Slot) (v : ClientVersion)
    (k : LobbyHandle) : ((r.vacate l i v).room k).bursting = (r.room k).bursting := by
  rw [vacate, bursting_setRoom]
  rfl

@[simp] theorem presence_vacate (r : Rooms) (l : LobbyHandle) (i : Slot) (v : ClientVersion) :
    (r.vacate l i v).presence = r.presence := rfl

@[simp] theorem presence_close (r : Rooms) (l : LobbyHandle) :
    (r.close l).presence = r.presence := by
  rw [close]
  split_ifs <;> rfl

@[simp] theorem room_close (r : Rooms) (l : LobbyHandle) : (r.close l).room = r.room := by
  rw [close]
  split_ifs <;> rfl

/-- Only a deserted lobby is taken off the list. -/
theorem mem_close {r : Rooms} {l k : LobbyHandle} (hk : k ∈ r.lobbies)
    (hkept : r.Deserted l → k ≠ l) : k ∈ (r.close l).lobbies := by
  rw [close]
  split_ifs with hempty
  · exact (List.mem_erase_of_ne (hkept hempty)).mpr hk
  · exact hk

@[simp] theorem lobbies_settle (r : Rooms) (c : ClientId) (l : LobbyHandle) :
    (r.settle c l).lobbies = r.lobbies := by
  rw [settle]
  split_ifs <;> rfl

theorem curLobby_settle (r : Rooms) (c d : ClientId) (l : LobbyHandle) :
    ((r.settle c l).presence d).curLobby = (r.presence d).curLobby := by
  rw [settle]
  split_ifs
  · rfl
  · by_cases hd : d = c
    · subst hd
      simp [startBurst]
    · simp [startBurst, presence_setPresence_ne _ hd]

theorem curLobby_endBurst (r : Rooms) (c d : ClientId) (l : LobbyHandle) :
    ((r.endBurst c l).presence d).curLobby = (r.presence d).curLobby := by
  by_cases hd : d = c
  · subst hd
    simp [endBurst]
  · simp [endBurst, presence_setPresence_ne _ hd]

theorem presence_settle_ne (r : Rooms) {c d : ClientId} (hd : d ≠ c) (l : LobbyHandle) :
    (r.settle c l).presence d = r.presence d := by
  rw [settle]
  split_ifs
  · rfl
  · simp [startBurst, presence_setPresence_ne _ hd]

/-- Whoever arrives in a game starts to burst. -/
theorem settle_game {r : Rooms} (c : ClientId) {l : LobbyHandle}
    (hgame : (r.room l).type ≠ .lobby) :
    ((r.settle c l).room l).bursting = true ∧ ((r.settle c l).presence c).bursting = true := by
  rw [settle, if_neg hgame]
  simp [startBurst]

theorem bursting_settle (r : Rooms) (c : ClientId) {l k : LobbyHandle}
    (hk : k = l → (r.room l).type = .lobby) :
    ((r.settle c l).room k).bursting = (r.room k).bursting := by
  rw [settle]
  split_ifs with htype
  · rfl
  · have hne : k ≠ l := fun heq => htype (hk heq)
    simp [startBurst, room_setRoom_ne _ hne]

end Rooms

end ShipServer.LobbyRooms
