import ShipServer.BlockEffects

set_option autoImplicit false

namespace ShipServer.BlockInvariants

open Seatings Versions LobbyRooms LobbyState LobbyFunctions DeferredPackets LobbyRefinement
open BlockPackets BlockEffects

/-- What moving clients and bursts leave alone: types, sizes and passwords, pending games, and the
list but for destroyed lobbies. -/
structure Frame (r r' : Rooms) : Prop where
  nextLobby : r'.nextLobby = r.nextLobby
  lobbies : r'.lobbies.Sublist r.lobbies
  createLobby : ∀ d, (r'.presence d).createLobby = (r.presence d).createLobby
  type : ∀ k, (r'.room k).type = (r.room k).type
  passwd : ∀ k, (r'.room k).passwd = (r.room k).passwd
  maxClients : ∀ k, (r'.room k).maxClients = (r.room k).maxClients

theorem Frame.refl (r : Rooms) : Frame r r :=
  ⟨rfl, .refl _, fun _ => rfl, fun _ => rfl, fun _ => rfl, fun _ => rfl⟩

theorem Frame.trans {r r' r'' : Rooms} (h : Frame r r') (h' : Frame r' r'') : Frame r r'' where
  nextLobby := h'.nextLobby.trans h.nextLobby
  lobbies := h'.lobbies.trans h.lobbies
  createLobby d := (h'.createLobby d).trans (h.createLobby d)
  type k := (h'.type k).trans (h.type k)
  passwd k := (h'.passwd k).trans (h.passwd k)
  maxClients k := (h'.maxClients k).trans (h.maxClients k)

theorem Frame.setPresence (r : Rooms) {c : ClientId} {p : Presence}
    (hp : p.createLobby = (r.presence c).createLobby) : Frame r (r.setPresence c p) := by
  refine ⟨rfl, .refl _, ?_, fun _ => rfl, fun _ => rfl, fun _ => rfl⟩
  intro d
  by_cases hd : d = c
  · rw [hd, Rooms.presence_setPresence, hp]
  · rw [Rooms.presence_setPresence_ne _ hd]

theorem Frame.setRoom (r : Rooms) {l : LobbyHandle} {m : Room} (htype : m.type = (r.room l).type)
    (hpasswd : m.passwd = (r.room l).passwd) (hmax : m.maxClients = (r.room l).maxClients) :
    Frame r (r.setRoom l m) := by
  have hkept : ∀ {β : Type} (field : Room → β), field m = field (r.room l) →
      ∀ k, field ((r.setRoom l m).room k) = field (r.room k) := by
    intro β field hfield k
    by_cases hk : k = l
    · rw [hk, Rooms.room_setRoom, hfield]
    · rw [Rooms.room_setRoom_ne _ hk]
  exact ⟨rfl, .refl _, fun _ => rfl, hkept Room.type htype, hkept Room.passwd hpasswd,
    hkept Room.maxClients hmax⟩

theorem Frame.sit (r : Rooms) (c : ClientId) (l : LobbyHandle) (i : Slot) :
    Frame r (r.sit c l i) := by
  have hseat : Frame r
      (r.setPresence c { r.presence c with curLobby := some l, clientId := i }) :=
    .setPresence r rfl
  exact hseat.trans (.setRoom _ rfl rfl rfl)

theorem Frame.vacate (r : Rooms) (l : LobbyHandle) (i : Slot) (v : ClientVersion) :
    Frame r (r.vacate l i v) :=
  .setRoom r rfl rfl rfl

theorem Frame.leave (r : Rooms) (c : ClientId) (l : LobbyHandle) (i : Slot) (v : ClientVersion) :
    Frame r (r.leave c l i v) :=
  (Frame.vacate r l i v).trans (.setPresence _ rfl)

theorem Frame.unlist (r : Rooms) (l : LobbyHandle) : Frame r (r.unlist l) :=
  ⟨rfl, List.erase_sublist, fun _ => rfl, fun _ => rfl, fun _ => rfl, fun _ => rfl⟩

theorem Frame.close (r : Rooms) (l : LobbyHandle) : Frame r (r.close l) := by
  rw [Rooms.close]
  split_ifs
  · exact .unlist r l
  · exact .refl r

theorem Frame.quieten (r : Rooms) (l : LobbyHandle) : Frame r (r.quieten l) :=
  .setRoom r rfl rfl rfl

theorem Frame.startBurst (r : Rooms) (c : ClientId) (l : LobbyHandle) :
    Frame r (r.startBurst c l) := by
  have hflag : Frame r (r.setPresence c { r.presence c with bursting := true }) :=
    .setPresence r rfl
  exact hflag.trans (.setRoom _ rfl rfl rfl)

theorem Frame.endBurst (r : Rooms) (c : ClientId) (l : LobbyHandle) :
    Frame r (r.endBurst c l) := by
  have hflag : Frame r (r.setPresence c { r.presence c with bursting := false }) :=
    .setPresence r rfl
  exact hflag.trans (.setRoom _ rfl rfl rfl)

theorem Frame.settle (r : Rooms) (c : ClientId) (l : LobbyHandle) : Frame r (r.settle c l) := by
  rw [Rooms.settle]
  split_ifs
  · exact .refl r
  · exact .startBurst r c l

theorem frame_of_lounged {r r' : Rooms} {c : ClientId} (h : Lounged r c r') : Frame r r' := by
  obtain ⟨l, i, rfl, -⟩ := h
  exact .sit r c l i

theorem frame_of_enter {accepted : Prop} {r r' : Rooms} {m m' : Ledger} {c : ClientId}
    {req : LobbyHandle} {rv : Int} (h : Enter accepted r m c req rv r' m') : Frame r r' := by
  cases h with
  | refused _ => exact .refl r
  | lounged _ arrived => exact frame_of_lounged arrived
  | stayed _ _ _ => exact .settle r c req
  | @moved l j v left _ _ _ _ _ _ _ _ gone =>
    subst gone
    have hleft := (Frame.sit r c req j).trans (.vacate _ l (r.presence c).clientId v)
    exact (hleft.trans (.close _ l)).trans (.settle _ c req)

theorem frame_of_remove {b : Block} (hb : BlockSound b) (env : Env) (c : ClientId) :
    Frame b.rooms (lobbyRemovePlayer b env c).1.rooms := by
  cases hcur : (b.rooms.presence c).curLobby with
  | none =>
    rw [lobbyRemovePlayer_absent env hcur]
    exact .refl _
  | some l =>
    obtain ⟨v, left, -, rfl, hrooms, -⟩ := lobbyRemovePlayer_leave hb env hcur
    have hown : Frame b.rooms (endOwnBurst b env c l).rooms := by
      rw [endOwnBurst_rooms env c l hb.sane]
      split_ifs
      · exact .quieten _ l
      · exact .refl _
    rw [hrooms]
    exact (hown.trans (.leave _ c l _ v)).trans (.close _ l)

/-- The list of lobbies has no repetitions, every game with a member is on it, and every pending
game has one owner, no members and nobody who bursts. -/
structure Orderly (r : Rooms) : Prop where
  nodup : r.lobbies.Nodup
  below : ∀ l ∈ r.lobbies, l < r.nextLobby
  inside : ∀ c l, (r.presence c).curLobby = some l → (r.room l).type ≠ .lobby → l ∈ r.lobbies
  waiting : ∀ c l, (r.presence c).createLobby = some l → l < r.nextLobby ∧ l ∉ r.lobbies ∧
    (r.room l).type ≠ .lobby ∧ (r.room l).bursting = false
  owner : ∀ c d l, (r.presence c).createLobby = some l → (r.presence d).createLobby = some l →
    c = d

theorem Orderly.of_frame {r r' : Rooms} (h : Orderly r) (hframe : Frame r r')
    (hinside : ∀ c l, (r'.presence c).curLobby = some l → (r.room l).type ≠ .lobby →
      l ∈ r'.lobbies)
    (hcalm : ∀ c l, (r.presence c).createLobby = some l → (r'.room l).bursting = false) :
    Orderly r' where
  nodup := h.nodup.sublist hframe.lobbies
  below l hl := by
    rw [hframe.nextLobby]
    exact h.below l (hframe.lobbies.subset hl)
  inside c l hcur htype := by
    rw [hframe.type] at htype
    exact hinside c l hcur htype
  waiting c l hcreate := by
    rw [hframe.createLobby] at hcreate
    obtain ⟨hlt, hunlisted, htype, -⟩ := h.waiting c l hcreate
    rw [hframe.nextLobby, hframe.type]
    exact ⟨hlt, fun hl => hunlisted (hframe.lobbies.subset hl), htype, hcalm c l hcreate⟩
  owner c d l hc hd := by
    rw [hframe.createLobby] at hc hd
    exact h.owner c d l hc hd

theorem Orderly.lounged {r r' : Rooms} {c : ClientId} (h : Orderly r) (harrived : Lounged r c r') :
    Orderly r' := by
  have hframe := frame_of_lounged harrived
  obtain ⟨l, i, rfl, hlobby, -⟩ := harrived
  refine h.of_frame hframe ?_ ?_
  · intro d k hcur htype
    rw [Rooms.curLobby_sit] at hcur
    split_ifs at hcur with hd
    · cases hcur
      exact absurd hlobby htype
    · exact h.inside d k hcur htype
  · intro d k hcreate
    rw [Rooms.bursting_sit]
    exact (h.waiting d k hcreate).2.2.2

theorem Orderly.enter {accepted : Prop} {r r' : Rooms} {m m' : Ledger} {c : ClientId}
    {req : LobbyHandle} {rv : Int} (h : Orderly r) (hr : r.Sound)
    (hreq : (r.room req).type ≠ .lobby → req ∈ r.lobbies)
    (henter : Enter accepted r m c req rv r' m') : Orderly r' := by
  have hframe := frame_of_enter henter
  have hpending : ∀ d k, (r.presence d).createLobby = some k → k = req →
      (r.room req).type = .lobby := by
    rintro d k hcreate rfl
    by_contra htype
    exact (h.waiting d k hcreate).2.1 (hreq htype)
  cases henter with
  | refused _ => exact h
  | lounged _ arrived => exact h.lounged arrived
  | stayed _ cur _ =>
    refine h.of_frame hframe ?_ ?_
    · intro d k hcur htype
      rw [Rooms.curLobby_settle] at hcur
      rw [Rooms.lobbies_settle]
      exact h.inside d k hcur htype
    · intro d k hcreate
      rw [Rooms.bursting_settle _ _ (hpending d k hcreate)]
      exact (h.waiting d k hcreate).2.2.2
  | @moved l j v left _ cur other _ _ free below version gone =>
    have hi := hr.clients_of_curLobby cur
    have hleft : left.Sound := by
      rw [gone]
      exact hr.move other hi free below version
    have hlobbies : left.lobbies = r.lobbies := by
      rw [gone]
      rfl
    have htypes : ∀ k, (left.room k).type = (r.room k).type := by
      rw [gone]
      exact ((Frame.sit r c req j).trans (.vacate _ l (r.presence c).clientId v)).type
    have hinside : ∀ d k, (left.presence d).curLobby = some k → (r.room k).type ≠ .lobby →
        k ∈ left.lobbies := by
      intro d k hcur htype
      rw [hlobbies]
      rw [gone, Rooms.presence_vacate, Rooms.curLobby_sit] at hcur
      split_ifs at hcur with hd
      · cases hcur
        exact hreq htype
      · exact h.inside d k hcur htype
    refine h.of_frame hframe ?_ ?_
    · intro d k hcur htype
      rw [Rooms.curLobby_settle, Rooms.presence_close] at hcur
      rw [Rooms.lobbies_settle]
      refine Rooms.mem_close (hinside d k hcur htype) ?_
      rintro hempty rfl
      exact hleft.curLobby_ne_of_deserted hempty d hcur
    · intro d k hcreate
      rw [Rooms.bursting_settle, Rooms.room_close, gone, Rooms.bursting_vacate,
        Rooms.bursting_sit]
      · exact (h.waiting d k hcreate).2.2.2
      · intro heq
        rw [Rooms.room_close, htypes]
        exact hpending d k hcreate heq

theorem Orderly.quieten {r : Rooms} (h : Orderly r) (l : LobbyHandle) : Orderly (r.quieten l) := by
  refine h.of_frame (.quieten r l) h.inside ?_
  intro d k hcreate
  by_cases hk : k = l
  · rw [hk, Rooms.quieten, Rooms.room_setRoom]
  · rw [Rooms.quieten, Rooms.room_setRoom_ne _ hk]
    exact (h.waiting d k hcreate).2.2.2

theorem Orderly.setBursting {r : Rooms} (h : Orderly r) (c : ClientId) (flag : Bool) :
    Orderly (r.setPresence c { r.presence c with bursting := flag }) := by
  refine h.of_frame (.setPresence r rfl) ?_ (fun d k hcreate => (h.waiting d k hcreate).2.2.2)
  intro d k hcur htype
  by_cases hd : d = c
  · subst hd
    rw [Rooms.presence_setPresence] at hcur
    exact h.inside d k hcur htype
  · rw [Rooms.presence_setPresence_ne _ hd] at hcur
    exact h.inside d k hcur htype

theorem Orderly.endBurst {r : Rooms} (h : Orderly r) (c : ClientId) (l : LobbyHandle) :
    Orderly (r.endBurst c l) :=
  (h.setBursting c false).quieten l

theorem Orderly.leave {r : Rooms} (h : Orderly r) (hr : r.Sound) {c : ClientId} {l : LobbyHandle}
    {i : Slot} {v : ClientVersion} (hi : (r.room l).clients i = some c)
    (hv : v = (r.room l).version ∨ v = .gc) : Orderly ((r.leave c l i v).close l) := by
  have hleft := hr.leave hi hv
  refine h.of_frame ((Frame.leave r c l i v).trans (.close _ l)) ?_ ?_
  · intro d k hcur htype
    rw [Rooms.presence_close] at hcur
    refine Rooms.mem_close ?_ ?_
    · by_cases hd : d = c
      · subst hd
        simp [Rooms.leave] at hcur
      · rw [Rooms.leave, Rooms.presence_setPresence_ne _ hd] at hcur
        exact h.inside d k hcur htype
    · rintro hempty rfl
      exact hleft.curLobby_ne_of_deserted hempty d hcur
  · intro d k hcreate
    rw [Rooms.room_close, Rooms.leave, Rooms.room_setPresence, Rooms.bursting_vacate]
    exact (h.waiting d k hcreate).2.2.2

theorem orderly_endOwnBurst {b : Block} (hb : BlockSound b) (h : Orderly b.rooms) (env : Env)
    (c : ClientId) (l : LobbyHandle) : Orderly (endOwnBurst b env c l).rooms := by
  rw [endOwnBurst_rooms env c l hb.sane]
  split_ifs
  · exact h.quieten l
  · exact h

theorem orderly_remove {b : Block} (hb : BlockSound b) (h : Orderly b.rooms) (env : Env)
    (c : ClientId) : Orderly (lobbyRemovePlayer b env c).1.rooms := by
  cases hcur : (b.rooms.presence c).curLobby with
  | none =>
    rw [lobbyRemovePlayer_absent env hcur]
    exact h
  | some l =>
    have hown := endOwnBurst_sound hb env c l
    have hi : ((endOwnBurst b env c l).rooms.room l).clients (b.rooms.presence c).clientId =
        some c := by
      rw [← endOwnBurst_presence env c l hb.sane] at hcur ⊢
      exact hown.rooms.clients_of_curLobby hcur
    obtain ⟨v, left, hv, rfl, hrooms, -⟩ := lobbyRemovePlayer_leave hb env hcur
    rw [hrooms]
    exact (orderly_endOwnBurst hb h env c l).leave hown.rooms hi hv

/-- A client without a pending game. -/
theorem Orderly.release {r : Rooms} (h : Orderly r) (c : ClientId) {p : Presence}
    (hcur : ∀ l, p.curLobby = some l → (r.presence c).curLobby = some l)
    (hcreate : p.createLobby = none) : Orderly (r.setPresence c p) := by
  have hother : ∀ {d k}, ((r.setPresence c p).presence d).createLobby = some k →
      (r.presence d).createLobby = some k := by
    intro d k hk
    by_cases hd : d = c
    · rw [hd, Rooms.presence_setPresence, hcreate] at hk
      cases hk
    · rwa [Rooms.presence_setPresence_ne _ hd] at hk
  refine ⟨h.nodup, h.below, ?_, fun d k hk => h.waiting d k (hother hk),
    fun d d' k hk hk' => h.owner d d' k (hother hk) (hother hk')⟩
  intro d k hk
  by_cases hd : d = c
  · subst hd
    rw [Rooms.presence_setPresence] at hk
    exact h.inside d k (hcur k hk)
  · rw [Rooms.presence_setPresence_ne _ hd] at hk
    exact h.inside d k hk

theorem Orderly.setRoom {r : Rooms} (h : Orderly r) {l : LobbyHandle} {m : Room}
    (htype : m.type = (r.room l).type) (hburst : m.bursting = (r.room l).bursting) :
    Orderly (r.setRoom l m) := by
  have htypes : ∀ k, ((r.setRoom l m).room k).type = (r.room k).type := by
    intro k
    by_cases hk : k = l
    · rw [hk, Rooms.room_setRoom, htype]
    · rw [Rooms.room_setRoom_ne _ hk]
  refine ⟨h.nodup, h.below, ?_, ?_, h.owner⟩
  · intro d k hcur hk
    rw [htypes] at hk
    exact h.inside d k hcur hk
  · intro d k hcreate
    rw [htypes, Rooms.bursting_setRoom r hburst]
    exact h.waiting d k hcreate

theorem curLobby_lt {r : Rooms} (hr : r.Sound) {c : ClientId} {l : LobbyHandle}
    (hcur : (r.presence c).curLobby = some l) : l < r.nextLobby := by
  by_contra hl
  have hsome := hr.clients_of_curLobby hcur
  rw [hr.clients_unused (not_lt.mp hl)] at hsome
  cases hsome

theorem room_addRoom_ne (r : Rooms) {k : LobbyHandle} (hk : k ≠ r.nextLobby) (m : Room) :
    (r.addRoom m).room k = r.room k :=
  Rooms.room_setRoom_ne r hk m

theorem room_addRoom (r : Rooms) (m : Room) : (r.addRoom m).room r.nextLobby = m :=
  Rooms.room_setRoom r r.nextLobby m

theorem Orderly.addRoom {r : Rooms} (h : Orderly r) (hr : r.Sound) (m : Room) :
    Orderly (r.addRoom m) := by
  refine ⟨h.nodup, ?_, ?_, ?_, h.owner⟩
  · intro l hl
    exact (h.below l hl).trans (Nat.lt_succ_self _)
  · intro d k hcur htype
    have hlt := curLobby_lt hr hcur
    rw [room_addRoom_ne r hlt.ne] at htype
    exact h.inside d k hcur htype
  · intro d k hcreate
    obtain ⟨hlt, hunlisted, htype, hcalm⟩ := h.waiting d k hcreate
    rw [room_addRoom_ne r hlt.ne]
    exact ⟨hlt.trans (Nat.lt_succ_self _), hunlisted, htype, hcalm⟩

/-- A lobby that nobody waits for can go on the list. -/
theorem Orderly.list {r : Rooms} (h : Orderly r) {l : LobbyHandle} (hlt : l < r.nextLobby)
    (hunlisted : l ∉ r.lobbies) (hfree : ∀ d, (r.presence d).createLobby ≠ some l) :
    Orderly (r.list l) where
  nodup := by
    rw [Rooms.list, List.nodup_append]
    refine ⟨h.nodup, List.nodup_singleton l, ?_⟩
    rintro k hk k' hk' rfl
    rw [List.mem_singleton] at hk'
    subst hk'
    exact hunlisted hk
  below := by
    intro k hk
    rcases List.mem_append.mp hk with hk | hk
    · exact h.below k hk
    · rw [List.mem_singleton] at hk
      rwa [hk]
  inside d k hcur htype := List.mem_append_left _ (h.inside d k hcur htype)
  waiting d k hcreate := by
    obtain ⟨hk, hkunlisted, hrest⟩ := h.waiting d k hcreate
    refine ⟨hk, ?_, hrest⟩
    intro hmem
    rcases List.mem_append.mp hmem with hmem | hmem
    · exact hkunlisted hmem
    · rw [List.mem_singleton] at hmem
      subst hmem
      exact hfree d hcreate
  owner := h.owner

/-- A game with no members can be taken off the list. -/
theorem Orderly.unlist {r : Rooms} (h : Orderly r) {l : LobbyHandle}
    (hnobody : ∀ d, (r.presence d).curLobby ≠ some l) : Orderly (r.unlist l) := by
  refine h.of_frame (.unlist r l) ?_ (fun d k hcreate => (h.waiting d k hcreate).2.2.2)
  intro d k hcur htype
  refine (List.mem_erase_of_ne ?_).mpr (h.inside d k hcur htype)
  rintro rfl
  exact hnobody d hcur

/-- If the creator of a game does not get in, nobody is in it. -/
theorem nobody_of_enter {accepted : Prop} {r r' : Rooms} {m m' : Ledger} {c : ClientId}
    {l : LobbyHandle} {rv : Int} (h : Enter accepted r m c l rv r' m') (hrv : rv ≠ 0)
    (htype : (r.room l).type ≠ .lobby) (hnobody : ∀ d, (r.presence d).curLobby ≠ some l)
    (d : ClientId) : (r'.presence d).curLobby ≠ some l := by
  cases h with
  | refused _ => exact hnobody d
  | lounged _ arrived =>
    obtain ⟨k, i, rfl, hlobby, -⟩ := arrived
    rw [Rooms.curLobby_sit]
    split_ifs with hd
    · rintro ⟨⟩
      exact htype hlobby
    · exact hnobody d
  | stayed _ _ _ => exact absurd rfl hrv
  | moved _ _ _ _ _ _ _ _ _ => exact absurd rfl hrv

theorem Orderly.enterNew {accepted : Prop} {r r' : Rooms} {m m' : Ledger} {c : ClientId}
    {l : LobbyHandle} (h : Orderly r) (hr : r.Sound) (hlisted : l ∈ r.lobbies)
    (htype : (r.room l).type ≠ .lobby) (hnobody : ∀ d, (r.presence d).curLobby ≠ some l)
    (henter : EnterNew accepted r m c l r' m') : Orderly r' := by
  obtain ⟨rv, r₁, m₁, henter, rfl, -⟩ := henter
  have h₁ := h.enter hr (fun _ => hlisted) henter
  split_ifs with hrv
  · exact h₁
  · exact h₁.unlist (nobody_of_enter henter hrv htype hnobody)

theorem sound_of_enterNew {accepted : Prop} {r r' : Rooms} {m m' : Ledger} {c : ClientId}
    {l : LobbyHandle} (h : EnterNew accepted r m c l r' m') (hr : r.Sound)
    (hm : Ledger.Sane m) : r'.Sound ∧ Ledger.Sane m' := by
  obtain ⟨rv, r₁, m₁, henter, rfl, rfl⟩ := h
  have hr₁ := henter.sound hr
  have hm₁ := henter.sane hm
  split_ifs with hrv
  · exact ⟨hr₁, hm₁⟩
  · exact ⟨hr₁.unlist l, Ledger.Sane.clear hm₁ l⟩

theorem sound_of_made {b b₁ : Block} {c : ClientId} {m : Room} {listed : Bool}
    (h : Made b c m listed b₁) (hb : BlockSound b) : BlockSound b₁ := by
  have hadd := hb.rooms.addRoom h.newRoom.sound h.newRoom.empty
  refine ⟨?_, ?_⟩
  · rw [h.rooms]
    split_ifs
    · exact hadd.list _
    · exact hadd
  · rw [h.ledger]
    exact Ledger.Sane.clear (m := Ledger.submit b.ledger c b.rooms.nextLobby m.passwd) hb.sane _

/-- What holds on a block at all times. -/
structure Invariant (b : Block) : Prop extends BlockSound b where
  orderly : Orderly b.rooms

/-- A new game on the list has no members yet. -/
theorem listed_of_made {b b₁ : Block} {c : ClientId} {m : Room} (h : Made b c m true b₁)
    (hb : Invariant b) : Invariant b₁ ∧ b.rooms.nextLobby ∈ b₁.rooms.lobbies ∧
      (b₁.rooms.room b.rooms.nextLobby) = m ∧
      ∀ d, (b₁.rooms.presence d).curLobby ≠ some b.rooms.nextLobby := by
  have hrooms := h.rooms
  rw [if_pos rfl] at hrooms
  have hunlisted : b.rooms.nextLobby ∉ b.rooms.lobbies :=
    fun hl => (hb.orderly.below _ hl).false
  have hfree : ∀ d, (b.rooms.presence d).createLobby ≠ some b.rooms.nextLobby :=
    fun d hd => (hb.orderly.waiting d _ hd).1.false
  refine ⟨⟨sound_of_made h hb.toBlockSound, ?_⟩, ?_, ?_, ?_⟩
  · rw [hrooms]
    exact (hb.orderly.addRoom hb.rooms m).list (Nat.lt_succ_self _) hunlisted hfree
  · rw [hrooms]
    exact List.mem_append_right _ (List.mem_singleton.mpr rfl)
  · rw [hrooms]
    exact room_addRoom b.rooms m
  · intro d hcur
    rw [hrooms] at hcur
    exact (curLobby_lt hb.rooms hcur).false

/-- A game that waits for its type belongs to its creator. -/
theorem orderly_waiting {b b₁ : Block} {c : ClientId} {m : Room} (h : Made b c m false b₁)
    (hb : Invariant b) : Orderly (b₁.rooms.setPresence c
      { b₁.rooms.presence c with createLobby := some b.rooms.nextLobby }) := by
  have horderly := hb.orderly.addRoom hb.rooms m
  have hrooms := h.rooms
  rw [if_neg (by decide)] at hrooms
  rw [hrooms]
  have hroom := room_addRoom b.rooms m
  refine ⟨horderly.nodup, horderly.below, ?_, ?_, ?_⟩
  · intro d k hcur
    refine horderly.inside d k ?_
    by_cases hd : d = c
    · subst hd
      rwa [Rooms.presence_setPresence] at hcur
    · rwa [Rooms.presence_setPresence_ne _ hd] at hcur
  · intro d k hcreate
    by_cases hd : d = c
    · subst hd
      rw [Rooms.presence_setPresence] at hcreate
      cases hcreate
      rw [Rooms.room_setPresence, hroom]
      exact ⟨Nat.lt_succ_self _, fun hl => (hb.orderly.below _ hl).false, h.newRoom.isGame,
        h.newRoom.calm⟩
    · rw [Rooms.presence_setPresence_ne _ hd] at hcreate
      exact horderly.waiting d k hcreate
  · have hold : ∀ {d}, (b.rooms.presence d).createLobby ≠ some b.rooms.nextLobby :=
      fun hd => (hb.orderly.waiting _ _ hd).1.false
    intro d d' k hd hd'
    by_cases hdc : d = c
    · subst hdc
      rw [Rooms.presence_setPresence] at hd
      cases hd
      by_contra hne
      rw [Rooms.presence_setPresence_ne _ (Ne.symm hne)] at hd'
      exact hold hd'
    · rw [Rooms.presence_setPresence_ne _ hdc] at hd
      by_cases hdc' : d' = c
      · subst hdc'
        rw [Rooms.presence_setPresence] at hd'
        cases hd'
        exact absurd hd hold
      · rw [Rooms.presence_setPresence_ne _ hdc'] at hd'
        exact horderly.owner d d' k hd hd'

/-- A game whose type has been chosen is on the list, and nobody is in it yet. -/
theorem orderly_typed {r r' : Rooms} (h : Orderly r) (hr : r.Sound) {c : ClientId}
    {l : LobbyHandle} {v : ClientVersion} (hcreate : (r.presence c).createLobby = some l)
    (hr' : r' = ((r.setRoom l { r.room l with version := v }).list l).setPresence c
      { r.presence c with createLobby := none }) :
    Orderly r' ∧ r'.Sound ∧ l ∈ r'.lobbies ∧ (r'.room l).type ≠ .lobby ∧
      ∀ d, (r'.presence d).curLobby ≠ some l := by
  obtain ⟨hlt, hunlisted, htype, -⟩ := h.waiting c l hcreate
  have hsound := sound_typed hr hcreate (v := v)
  have hswap : r' = ((r.setPresence c { r.presence c with createLobby := none }).setRoom l
      { r.room l with version := v }).list l := hr'
  have hreleased := h.release c (p := { r.presence c with createLobby := none })
    (fun _ hcur => hcur) rfl
  have hset := hreleased.setRoom (l := l) (m := { r.room l with version := v }) rfl rfl
  have hcurs : ∀ d, (r'.presence d).curLobby = (r.presence d).curLobby := by
    intro d
    rw [hswap]
    by_cases hd : d = c
    · subst hd
      simp [Rooms.list]
    · simp [Rooms.list, Rooms.presence_setPresence_ne _ hd]
  refine ⟨?_, hr' ▸ hsound, ?_, ?_, ?_⟩
  · rw [hswap]
    refine hset.list hlt hunlisted ?_
    intro d hd
    rw [Rooms.presence_setRoom] at hd
    by_cases hdc : d = c
    · rw [hdc, Rooms.presence_setPresence] at hd
      cases hd
    · rw [Rooms.presence_setPresence_ne _ hdc] at hd
      exact hdc (h.owner d c l hd hcreate)
  · rw [hswap]
    exact List.mem_append_right _ (List.mem_singleton.mpr rfl)
  · have hroom : r'.room l = { r.room l with version := v } := by
      rw [hswap]
      exact Rooms.room_setRoom _ l _
    rw [hroom]
    exact htype
  · intro d hcur
    rw [hcurs] at hcur
    exact hunlisted (h.inside d l hcur htype)

theorem SameBlock.invariant {b b' : Block} (h : SameBlock b b') (hb : Invariant b) :
    Invariant b' := by
  refine ⟨h.sound hb.toBlockSound, ?_⟩
  rw [h.1]
  exact hb.orderly

theorem effect_sound {b : Block} {e : Event} {r' : Rooms} {m' : Ledger}
    (h : Effect b e r' m') (hb : BlockSound b) : r'.Sound ∧ Ledger.Sane m' := by
  cases h with
  | quiet => exact ⟨hb.rooms, hb.sane⟩
  | @repassworded c h passwd cur game =>
    have hroom := hb.rooms.room h
    exact ⟨hb.rooms.setRoom ⟨hroom.count, hroom.below, hroom.roomy⟩ rfl rfl, hb.sane⟩
  | lounged nowhere arrived => exact ⟨arrived.sound hb.rooms nowhere, hb.sane⟩
  | @removed c b₁ _ same =>
    have hgone := lobbyRemovePlayer_sound (same.sound hb) e.env c
    exact ⟨hgone.rooms, hgone.sane⟩
  | @disconnected c m' _ ledger =>
    have hgone := lobbyRemovePlayer_sound hb e.env c
    have hcur := lobbyRemovePlayer_curLobby hb e.env c
    refine ⟨hgone.rooms.setPresence ?_ (fun _ hnone => nomatch hnone), ?_⟩
    · rw [Presence.place, Presence.place, hcur]
      rfl
    · rcases ledger with rfl | ⟨l, -, rfl⟩
      · exact hgone.sane
      · exact Ledger.Sane.clear hgone.sane l
  | changed _ _ enter => exact ⟨enter.sound hb.rooms, enter.sane hb.sane⟩
  | submitted _ _ => exact ⟨hb.rooms, hb.sane⟩
  | @selected c l passwd rv r' m' _ _ enter =>
    have hsane : Ledger.Sane (Ledger.submit b.ledger c l passwd) := hb.sane
    exact ⟨enter.sound hb.rooms, enter.sane hsane⟩
  | created made enter =>
    have hb₁ := sound_of_made made hb
    exact sound_of_enterNew enter hb₁.rooms hb₁.sane
  | @waiting c m b₁ made large =>
    have hb₁ := sound_of_made made hb
    refine ⟨hb₁.rooms.setPresence rfl ?_, hb₁.sane⟩
    rintro l ⟨⟩
    rw [made.rooms, if_neg (by decide), room_addRoom]
    exact large
  | @typed c l v b₁ r' m' pending _ rooms ledger enter =>
    have hsound : b₁.rooms.Sound := by
      rw [rooms]
      exact sound_typed hb.rooms pending
    have hsane : Ledger.Sane b₁.ledger := by
      rw [ledger]
      exact hb.sane
    exact sound_of_enterNew enter hsound hsane
  | @burstEnded c h b₁ _ rooms ledger =>
    have hsane : Ledger.Sane b₁.ledger := by
      rw [ledger]
      exact hb.sane
    rw [lobbyHandleDoneBurst_rooms e.env h hsane, rooms]
    exact ⟨hb.rooms.endBurst c h, lobbyHandleDoneBurst_sane e.env h hsane⟩
  | @loaded c h _ => exact ⟨hb.rooms.endBurst c h, hb.sane⟩
  | sent plain queued => exact ⟨hb.rooms, queued.sane hb.sane plain⟩

theorem effect_orderly {b : Block} {e : Event} {r' : Rooms} {m' : Ledger}
    (h : Effect b e r' m') (hb : Invariant b) : Orderly r' := by
  cases h with
  | quiet => exact hb.orderly
  | repassworded _ _ _ => exact hb.orderly.setRoom rfl rfl
  | lounged _ arrived => exact hb.orderly.lounged arrived
  | @removed c b₁ _ same =>
    have hb₁ := SameBlock.invariant same hb
    exact orderly_remove hb₁.toBlockSound hb₁.orderly e.env c
  | @disconnected c m' _ _ =>
    have hgone := orderly_remove hb.toBlockSound hb.orderly e.env c
    exact hgone.release c (fun _ hnone => nomatch hnone) rfl
  | changed _ listed enter => exact hb.orderly.enter hb.rooms (fun _ => listed) enter
  | submitted _ _ => exact hb.orderly
  | selected listed _ enter => exact hb.orderly.enter hb.rooms (fun _ => listed) enter
  | created made enter =>
    obtain ⟨hb₁, hlisted, hroom, hnobody⟩ := listed_of_made made hb
    refine hb₁.orderly.enterNew hb₁.rooms hlisted ?_ hnobody enter
    rw [hroom]
    exact made.newRoom.isGame
  | waiting made large => exact orderly_waiting made hb
  | typed pending _ rooms _ enter =>
    obtain ⟨horderly, hsound, hlisted, htype, hnobody⟩ :=
      orderly_typed hb.orderly hb.rooms pending rooms
    exact horderly.enterNew hsound hlisted htype hnobody enter
  | burstEnded _ rooms ledger =>
    have hsane := hb.sane
    rw [← ledger] at hsane
    rw [lobbyHandleDoneBurst_rooms e.env _ hsane, rooms]
    exact hb.orderly.endBurst _ _
  | loaded _ => exact hb.orderly.endBurst _ _
  | sent _ _ => exact hb.orderly

theorem next_sound {b : Block} (hb : BlockSound b) (e : Event) : BlockSound (next b e) := by
  obtain ⟨hsound, hsane⟩ := effect_sound (next_effect hb e) hb
  exact ⟨hsound, hsane⟩

theorem initialRoom_sound (h : LobbyHandle) : ((Block.start.lobby h).toRoom).Sound := by
  change ((if h < 20 then lobbyCreateDefault (h + 1) else Lobby.zero .lobby 0 0 0 0) :
    Lobby).toRoom.Sound
  split_ifs
  · refine ⟨by simp [lobbyCreateDefault, Lobby.zero, headcount], ?_, ?_⟩
    · rintro i c ⟨⟩
    · rintro ⟨⟩
  · refine ⟨by simp [Lobby.zero, headcount], ?_, ?_⟩
    · rintro i c ⟨⟩
    · rintro ⟨⟩

theorem initial_invariant : Invariant Block.start where
  rooms := by
    refine ⟨initialRoom_sound, ?_, ?_, ?_⟩
    · intro p c
      have hroom : (Block.start.rooms.occupant p) = none := by
        change (if p.1 < 20 then lobbyCreateDefault (p.1 + 1) else Lobby.zero .lobby 0 0 0 0).clients
          p.2 = none
        split_ifs <;> rfl
      rw [hroom]
      constructor <;> rintro ⟨⟩
    · intro l hl
      change (if l < 20 then lobbyCreateDefault (l + 1) else Lobby.zero .lobby 0 0 0 0).maxClients = 0
      have hunused : ¬ l < 20 := not_lt.mpr hl
      rw [if_neg hunused]
      rfl
    · rintro c l ⟨⟩
  sane := by
    intro l x hx
    have hqueue : (Block.start.lobby l).pktQueue = [] := by
      change (if l < 20 then lobbyCreateDefault (l + 1) else Lobby.zero .lobby 0 0 0 0).pktQueue = []
      split_ifs <;> rfl
    change x ∈ (Block.start.lobby l).pktQueue at hx
    rw [hqueue] at hx
    cases hx
  orderly := by
    refine ⟨List.nodup_range, fun l hl => List.mem_range.mp hl, ?_, ?_, ?_⟩
    · rintro c l ⟨⟩
    · rintro c l ⟨⟩
    · rintro c d l ⟨⟩

theorem next_invariant {b : Block} (hb : Invariant b) (e : Event) : Invariant (next b e) :=
  ⟨next_sound hb.toBlockSound e, effect_orderly (next_effect hb.toBlockSound e) hb⟩

/-- No lobby uses more than its twelve slots. -/
def Capped (r : Rooms) : Prop :=
  ∀ k, (r.room k).maxClients ≤ 12

theorem Capped.frame {r r' : Rooms} (h : Capped r) (hframe : Frame r r') : Capped r' := by
  intro k
  rw [hframe.maxClients]
  exact h k

theorem Capped.setRoom {r : Rooms} (h : Capped r) {l : LobbyHandle} {m : Room}
    (hm : m.maxClients ≤ 12) : Capped (r.setRoom l m) := by
  intro k
  by_cases hk : k = l
  · rw [hk, Rooms.room_setRoom]
    exact hm
  · rw [Rooms.room_setRoom_ne _ hk]
    exact h k

theorem capped_of_made {b b₁ : Block} {c : ClientId} {m : Room} {listed : Bool}
    (h : Made b c m listed b₁) (hb : Capped b.rooms) : Capped b₁.rooms := by
  have hadd : Capped (b.rooms.addRoom m) := by
    intro k
    by_cases hk : k = b.rooms.nextLobby
    · rw [hk, room_addRoom]
      exact h.newRoom.small
    · rw [room_addRoom_ne b.rooms hk m]
      exact hb k
  rw [h.rooms]
  split_ifs
  · exact hadd
  · exact hadd

theorem capped_of_enterNew {accepted : Prop} {r r' : Rooms} {m m' : Ledger} {c : ClientId}
    {l : LobbyHandle} (h : EnterNew accepted r m c l r' m') (hr : Capped r) : Capped r' := by
  obtain ⟨rv, r₁, m₁, henter, rfl, -⟩ := h
  have h₁ := hr.frame (frame_of_enter henter)
  split_ifs
  · exact h₁
  · exact h₁

theorem effect_capped {b : Block} {e : Event} {r' : Rooms} {m' : Ledger} (h : Effect b e r' m')
    (hb : BlockSound b) (hcap : Capped b.rooms) : Capped r' := by
  cases h with
  | quiet => exact hcap
  | repassworded _ _ _ => exact hcap.setRoom (hcap _)
  | lounged _ arrived => exact hcap.frame (frame_of_lounged arrived)
  | removed _ same =>
    rw [← same.1] at hcap
    exact hcap.frame (frame_of_remove (same.sound hb) e.env _)
  | @disconnected c _ _ _ =>
    have hgone : Capped (lobbyRemovePlayer b e.env c).1.rooms :=
      hcap.frame (frame_of_remove hb e.env c)
    exact hgone
  | changed _ _ enter => exact hcap.frame (frame_of_enter enter)
  | submitted _ _ => exact hcap
  | selected _ _ enter => exact hcap.frame (frame_of_enter enter)
  | created made enter => exact capped_of_enterNew enter (capped_of_made made hcap)
  | waiting made _ => exact capped_of_made made hcap
  | @typed c l v b₁ r' m' _ _ rooms _ enter =>
    have hset : Capped (b.rooms.setRoom l { b.rooms.room l with version := v }) :=
      hcap.setRoom (hcap l)
    have hcap₁ : Capped b₁.rooms := by
      rw [rooms]
      exact hset
    exact capped_of_enterNew enter hcap₁
  | burstEnded _ rooms ledger =>
    have hsane := hb.sane
    rw [← ledger] at hsane
    rw [lobbyHandleDoneBurst_rooms e.env _ hsane, rooms]
    exact hcap.frame (.endBurst _ _ _)
  | loaded _ => exact hcap.frame (.endBurst _ _ _)
  | sent _ _ => exact hcap

theorem initial_capped : Capped Block.start.rooms := by
  intro h
  change (if h < 20 then lobbyCreateDefault (h + 1) else Lobby.zero .lobby 0 0 0 0).maxClients ≤ 12
  split_ifs
  · exact le_rfl
  · exact Nat.zero_le 12

end ShipServer.BlockInvariants
