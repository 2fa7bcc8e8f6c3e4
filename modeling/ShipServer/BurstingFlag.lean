import ShipServer.BlockInvariants

set_option autoImplicit false

namespace ShipServer.BurstingFlag

open LabelledRuns LobbyRooms LobbyState LobbyFunctions DeferredPackets LobbyRefinement
open BlockPackets BlockEffects BlockInvariants

/-- A client is loading into a lobby. -/
def BurstsIn (r : Rooms) (c : ClientId) (l : LobbyHandle) : Prop :=
  (r.presence c).curLobby = some l ∧ (r.presence c).bursting = true

/-- The flag of a game on the list says whether a member is bursting, and no game has two members
that are. -/
structure Marked (r : Rooms) : Prop where
  flag : ∀ l ∈ r.lobbies, (r.room l).type ≠ .lobby →
    ((r.room l).bursting = true ↔ ∃ c, BurstsIn r c l)
  alone : ∀ c d l, (r.room l).type ≠ .lobby → BurstsIn r c l → BurstsIn r d l → c = d

/-- The packets that end a burst come when no other member of the game is bursting, and no client
that is bursting in a game with other members moves to another lobby. -/
structure Patient (b : Block) (e : Event) : Prop where
  ends : ∀ c l, DoneBurst b e c l ∨ FinishesLoad b e c l → (b.lobby l).type ≠ .lobby →
    ∀ d, d ≠ c → ¬ BurstsIn b.rooms d l
  moves : ∀ b₁ c l req, Granted b e b₁ c req → (b₁.rooms.room req).Spare → l ≠ req →
    (b.lobby l).type ≠ .lobby → BurstsIn b.rooms c l →
    ∀ d, d ≠ c → (b.client d).curLobby ≠ some l

/-- Presences stay as they are, and a lobby that comes on the list is calm and empty. -/
theorem Marked.mono {r r' : Rooms} (h : Marked r)
    (hbursts : ∀ c l, BurstsIn r' c l ↔ BurstsIn r c l)
    (htype : ∀ l, (r.room l).type = .lobby → (∃ c, BurstsIn r c l) → (r'.room l).type = .lobby)
    (hflag : ∀ l ∈ r'.lobbies, (r'.room l).type ≠ .lobby →
      (l ∈ r.lobbies ∧ (r.room l).type ≠ .lobby ∧ (r'.room l).bursting = (r.room l).bursting) ∨
      ((r'.room l).bursting = false ∧ ∀ c, ¬ BurstsIn r c l)) : Marked r' where
  flag l hl hgame := by
    simp only [hbursts]
    rcases hflag l hl hgame with ⟨hl', hgame', hsame⟩ | ⟨hcalm, hnobody⟩
    · rw [hsame]
      exact h.flag l hl' hgame'
    · rw [hcalm]
      constructor
      · rintro ⟨⟩
      · rintro ⟨c, hc⟩
        exact absurd hc (hnobody c)
  alone c d l hgame hc hd := by
    rw [hbursts] at hc hd
    refine h.alone c d l ?_ hc hd
    intro hlobby
    exact hgame (htype l hlobby ⟨c, hc⟩)

/-- One client arrives in a lobby, with the flag of a game and its own flag set. -/
theorem Marked.arrive {r r' : Rooms} (h : Marked r) {c : ClientId} {req : LobbyHandle}
    (hframe : Frame r r') (hothers : ∀ d l, d ≠ c → (BurstsIn r' d l ↔ BurstsIn r d l))
    (hcur : (r'.presence c).curLobby = some req)
    (hset : (r.room req).type ≠ .lobby → req ∈ r.lobbies ∧ (r.room req).bursting = false ∧
      (r'.room req).bursting = true ∧ (r'.presence c).bursting = true)
    (hflag : ∀ l, l ≠ req → (r'.room l).bursting = (r.room l).bursting)
    (hleft : ∀ l ∈ r'.lobbies, l ≠ req → (r.room l).type ≠ .lobby → ¬ BurstsIn r c l) :
    Marked r' := by
  have hown : ∀ l, l ≠ req → ¬ BurstsIn r' c l := by
    rintro l hl ⟨hcur', -⟩
    rw [hcur] at hcur'
    exact hl (Option.some.inj hcur').symm
  have hfirst : (r.room req).type ≠ .lobby → ∀ d, ¬ BurstsIn r d req := by
    intro hgame d hd
    obtain ⟨hlisted, hcalm, -⟩ := hset hgame
    have hburst := (h.flag req hlisted hgame).mpr ⟨d, hd⟩
    rw [hcalm] at hburst
    cases hburst
  refine ⟨?_, ?_⟩
  · intro l hl hgame
    rw [hframe.type] at hgame
    by_cases hreq : l = req
    · subst hreq
      obtain ⟨-, -, hburst, hown'⟩ := hset hgame
      rw [hburst]
      exact ⟨fun _ => ⟨c, hcur, hown'⟩, fun _ => rfl⟩
    · rw [hflag l hreq, h.flag l (hframe.lobbies.subset hl) hgame]
      constructor
      · rintro ⟨d, hd⟩
        have hdc : d ≠ c := by
          rintro rfl
          exact hleft l hl hreq hgame hd
        exact ⟨d, (hothers d l hdc).mpr hd⟩
      · rintro ⟨d, hd⟩
        have hdc : d ≠ c := by
          rintro rfl
          exact hown l hreq hd
        exact ⟨d, (hothers d l hdc).mp hd⟩
  · intro d d' l hgame hd hd'
    rw [hframe.type] at hgame
    by_cases hreq : l = req
    · subst hreq
      have honly : ∀ x, BurstsIn r' x l → x = c := by
        intro x hx
        by_contra hxc
        exact hfirst hgame x ((hothers x l hxc).mp hx)
      rw [honly d hd, honly d' hd']
    · have hdc : d ≠ c := by
        rintro rfl
        exact hown l hreq hd
      have hdc' : d' ≠ c := by
        rintro rfl
        exact hown l hreq hd'
      exact h.alone d d' l hgame ((hothers d l hdc).mp hd) ((hothers d' l hdc').mp hd')

/-- One client stops bursting, or leaves, and opens the game that it was bursting in. -/
theorem Marked.stop {r r' : Rooms} (h : Marked r) {c : ClientId} (hframe : Frame r r')
    (hothers : ∀ d l, d ≠ c → (BurstsIn r' d l ↔ BurstsIn r d l))
    (hown : ∀ l, ¬ BurstsIn r' c l)
    (hflag : ∀ l ∈ r.lobbies, (r.room l).type ≠ .lobby →
      ((r'.room l).bursting = (r.room l).bursting ∧ ¬ BurstsIn r c l) ∨
      ((r'.room l).bursting = false ∧ ∀ d, d ≠ c → ¬ BurstsIn r d l)) : Marked r' := by
  refine ⟨?_, ?_⟩
  · intro l hl hgame
    rw [hframe.type] at hgame
    have hl' := hframe.lobbies.subset hl
    rcases hflag l hl' hgame with ⟨hsame, hnot⟩ | ⟨hcalm, hnobody⟩
    · rw [hsame, h.flag l hl' hgame]
      constructor
      · rintro ⟨d, hd⟩
        have hdc : d ≠ c := by
          rintro rfl
          exact hnot hd
        exact ⟨d, (hothers d l hdc).mpr hd⟩
      · rintro ⟨d, hd⟩
        have hdc : d ≠ c := by
          rintro rfl
          exact hown l hd
        exact ⟨d, (hothers d l hdc).mp hd⟩
    · rw [hcalm]
      constructor
      · rintro ⟨⟩
      · rintro ⟨d, hd⟩
        have hdc : d ≠ c := by
          rintro rfl
          exact hown l hd
        exact absurd ((hothers d l hdc).mp hd) (hnobody d hdc)
  · intro d d' l hgame hd hd'
    rw [hframe.type] at hgame
    have hdc : d ≠ c := by
      rintro rfl
      exact hown l hd
    have hdc' : d' ≠ c := by
      rintro rfl
      exact hown l hd'
    exact h.alone d d' l hgame ((hothers d l hdc).mp hd) ((hothers d' l hdc').mp hd')

theorem Marked.lounged {r r' : Rooms} {c : ClientId} (h : Marked r)
    (hnowhere : (r.presence c).curLobby = none) (harrived : Lounged r c r') : Marked r' := by
  have hframe := frame_of_lounged harrived
  obtain ⟨l, i, rfl, hlobby, -⟩ := harrived
  have hcur := Rooms.curLobby_sit r c c l i
  rw [if_pos rfl] at hcur
  refine h.arrive hframe ?_ hcur (fun hgame => absurd hlobby hgame)
    (fun k _ => Rooms.bursting_sit r c l i k) ?_
  · intro d k hd
    rw [BurstsIn, BurstsIn, Rooms.sit, Rooms.presence_setRoom, Rooms.presence_setPresence_ne _ hd]
  · rintro k - - - ⟨hk, -⟩
    rw [hnowhere] at hk
    cases hk

theorem Marked.enter {accepted : Prop} {r r' : Rooms} {m m' : Ledger} {c : ClientId}
    {req : LobbyHandle} {rv : Int} (h : Marked r) (hr : r.Sound) (ho : Orderly r)
    (hreq : (r.room req).type ≠ .lobby → req ∈ r.lobbies)
    (hmoves : ∀ l, accepted → (r.room req).Spare → l ≠ req → (r.room l).type ≠ .lobby →
      BurstsIn r c l → ∀ d, d ≠ c → (r.presence d).curLobby ≠ some l)
    (henter : Enter accepted r m c req rv r' m') : Marked r' := by
  have hframe := frame_of_enter henter
  cases henter with
  | refused _ => exact h
  | lounged nowhere arrived => exact h.lounged nowhere arrived
  | stayed _ cur calm =>
    have hnew : ((r.settle c req).presence c).curLobby = some req := by
      rw [Rooms.curLobby_settle]
      exact cur
    refine h.arrive hframe ?_ hnew ?_ ?_ ?_
    · intro d l hd
      rw [BurstsIn, BurstsIn, Rooms.presence_settle_ne _ hd]
    · intro hgame
      exact ⟨hreq hgame, calm, Rooms.settle_game c hgame⟩
    · intro l hl
      exact Rooms.bursting_settle r c (fun heq => absurd heq hl)
    · rintro l - hl - ⟨hcur, -⟩
      rw [cur] at hcur
      exact hl (Option.some.inj hcur).symm
  | @moved l j v left ok cur other calm spare free below version gone =>
    have hleftFrame : Frame r left := by
      rw [gone]
      exact (Frame.sit r c req j).trans (.vacate _ l (r.presence c).clientId v)
    have hleft : left.Sound := by
      rw [gone]
      exact hr.move other (hr.clients_of_curLobby cur) free below version
    have hclosed := hleftFrame.trans (.close left l)
    have hcurs : ∀ d, (left.presence d).curLobby =
        if d = c then some req else (r.presence d).curLobby := by
      intro d
      rw [gone, Rooms.presence_vacate, Rooms.curLobby_sit]
    have hnew : (((left.close l).settle c req).presence c).curLobby = some req := by
      rw [Rooms.curLobby_settle, Rooms.presence_close, hcurs, if_pos rfl]
    refine h.arrive hframe ?_ hnew ?_ ?_ ?_
    · intro d k hd
      rw [BurstsIn, BurstsIn, Rooms.presence_settle_ne _ hd, Rooms.presence_close, gone,
        Rooms.presence_vacate, Rooms.sit, Rooms.presence_setRoom,
        Rooms.presence_setPresence_ne _ hd]
    · intro hgame
      refine ⟨hreq hgame, calm, Rooms.settle_game c ?_⟩
      rw [hclosed.type]
      exact hgame
    · intro k hk
      rw [Rooms.bursting_settle _ c (fun heq => absurd heq hk), Rooms.room_close, gone,
        Rooms.bursting_vacate, Rooms.bursting_sit]
    · -- a client that was bursting was alone, so its old game is off the list
      intro k hk hkreq hgame hbursts
      have hkl : l = k := by
        have hcur := hbursts.1
        rw [cur] at hcur
        exact Option.some.inj hcur
      subst hkl
      have hdeserted : left.Deserted l := by
        refine hleft.deserted ?_ ?_
        · rw [hleftFrame.type]
          exact hgame
        · intro d
          rw [hcurs]
          split_ifs with hd
          · intro heq
            exact other (Option.some.inj heq).symm
          · exact hmoves l ok spare other hgame hbursts d hd
      rw [Rooms.lobbies_settle, Rooms.close, if_pos hdeserted] at hk
      exact (ho.nodup.sublist hleftFrame.lobbies).not_mem_erase hk

theorem Marked.unlist {r : Rooms} (h : Marked r) (l : LobbyHandle) : Marked (r.unlist l) := by
  refine h.mono (fun _ _ => Iff.rfl) (fun _ hlobby _ => hlobby) ?_
  intro k hk hgame
  exact Or.inl ⟨List.mem_of_mem_erase hk, hgame, rfl⟩

theorem Marked.enterNew {accepted : Prop} {r r' : Rooms} {m m' : Ledger} {c : ClientId}
    {req : LobbyHandle} (h : Marked r) (hr : r.Sound) (ho : Orderly r) (hreq : req ∈ r.lobbies)
    (hmoves : ∀ l, accepted → (r.room req).Spare → l ≠ req → (r.room l).type ≠ .lobby →
      BurstsIn r c l → ∀ d, d ≠ c → (r.presence d).curLobby ≠ some l)
    (henter : EnterNew accepted r m c req r' m') : Marked r' := by
  obtain ⟨rv, r₁, m₁, henter, rfl, -⟩ := henter
  have h₁ := h.enter hr ho (fun _ => hreq) hmoves henter
  split_ifs
  · exact h₁
  · exact h₁.unlist req

/-- The lobby flags after a client has been removed. -/
theorem remove_bursting {b : Block} (hb : BlockSound b) (env : Env) {c : ClientId}
    {l : LobbyHandle} (hcur : (b.rooms.presence c).curLobby = some l) (k : LobbyHandle) :
    ((lobbyRemovePlayer b env c).1.rooms.room k).bursting =
      if k = l ∧ (b.rooms.presence c).bursting = true then false
      else (b.rooms.room k).bursting := by
  obtain ⟨v, left, -, rfl, hrooms, -⟩ := lobbyRemovePlayer_leave hb env hcur
  rw [hrooms, Rooms.room_close, Rooms.leave, Rooms.room_setPresence, Rooms.bursting_vacate,
    endOwnBurst_rooms env c l hb.sane]
  by_cases hburst : (b.rooms.presence c).bursting = true
  · rw [if_pos hburst]
    by_cases hk : k = l
    · rw [if_pos ⟨hk, hburst⟩, hk, Rooms.quieten, Rooms.room_setRoom]
    · rw [if_neg (fun hand => hk hand.1), Rooms.quieten, Rooms.room_setRoom_ne _ hk]
  · rw [if_neg hburst, if_neg (fun hand => hburst hand.2)]

theorem marked_remove {b : Block} (hb : BlockSound b) (h : Marked b.rooms) (env : Env)
    (c : ClientId) : Marked (lobbyRemovePlayer b env c).1.rooms := by
  have hframe := frame_of_remove hb env c
  cases hcur : (b.rooms.presence c).curLobby with
  | none =>
    rw [lobbyRemovePlayer_absent env hcur]
    exact h
  | some l =>
    have hpresence := lobbyRemovePlayer_presence hb env hcur
    have hbursting := remove_bursting hb env hcur
    refine h.stop (c := c) hframe ?_ ?_ ?_
    · intro d k hd
      rw [BurstsIn, BurstsIn, hpresence, Function.update_of_ne hd]
    · rintro k ⟨hk, -⟩
      rw [hpresence, Function.update_self] at hk
      cases hk
    · intro k _ hgame
      rw [hbursting]
      by_cases hown : k = l ∧ (b.rooms.presence c).bursting = true
      · right
        rw [if_pos hown]
        refine ⟨rfl, ?_⟩
        intro d hd hburst
        have hc : BurstsIn b.rooms c k := ⟨hown.1 ▸ hcur, hown.2⟩
        exact hd (h.alone d c k hgame hburst hc)
      · left
        rw [if_neg hown]
        refine ⟨rfl, ?_⟩
        rintro ⟨hk, hburst⟩
        rw [hcur] at hk
        exact hown ⟨(Option.some.inj hk).symm, hburst⟩

theorem Marked.endBurst {r : Rooms} (h : Marked r) {c : ClientId} {l : LobbyHandle}
    (hcur : (r.presence c).curLobby = some l)
    (hothers : (r.room l).type ≠ .lobby → ∀ d, d ≠ c → ¬ BurstsIn r d l) :
    Marked (r.endBurst c l) := by
  refine h.stop (c := c) (.endBurst r c l) ?_ ?_ ?_
  · intro d k hd
    rw [BurstsIn, BurstsIn, Rooms.endBurst, Rooms.presence_setRoom,
      Rooms.presence_setPresence_ne _ hd]
  · rintro k ⟨-, hk⟩
    rw [Rooms.endBurst, Rooms.presence_setRoom, Rooms.presence_setPresence] at hk
    cases hk
  · intro k _ hgame
    by_cases hk : k = l
    · right
      subst hk
      refine ⟨?_, hothers hgame⟩
      rw [Rooms.endBurst, Rooms.room_setRoom]
    · left
      refine ⟨?_, ?_⟩
      · rw [Rooms.endBurst, Rooms.room_setRoom_ne _ hk]
        rfl
      · rintro ⟨hcur', -⟩
        rw [hcur] at hcur'
        exact hk (Option.some.inj hcur').symm

theorem burstsIn_congr {r r' : Rooms} {c : ClientId} {l : LobbyHandle}
    (hcur : (r'.presence c).curLobby = (r.presence c).curLobby)
    (hburst : (r'.presence c).bursting = (r.presence c).bursting) :
    BurstsIn r' c l ↔ BurstsIn r c l := by
  rw [BurstsIn, BurstsIn, hcur, hburst]

/-- A new game is calm and empty. -/
theorem marked_made {b b₁ : Block} {c : ClientId} {m : Room} {listed : Bool}
    (h : Marked b.rooms) (hb : Invariant b) (made : Made b c m listed b₁) :
    Marked b₁.rooms := by
  have hpresence : b₁.rooms.presence = b.rooms.presence := by
    rw [made.rooms]
    split_ifs <;> rfl
  have hroom : b₁.rooms.room = (b.rooms.addRoom m).room := by
    rw [made.rooms]
    split_ifs <;> rfl
  have hlobbies : ∀ l ∈ b₁.rooms.lobbies, l ∈ b.rooms.lobbies ∨ l = b.rooms.nextLobby := by
    intro l hl
    rw [made.rooms] at hl
    split_ifs at hl
    · rcases List.mem_append.mp hl with hl | hl
      · exact Or.inl hl
      · exact Or.inr (List.mem_singleton.mp hl)
    · exact Or.inl hl
  have hnobody : ∀ d, ¬ BurstsIn b.rooms d b.rooms.nextLobby :=
    fun d hd => (curLobby_lt hb.rooms hd.1).false
  refine h.mono ?_ ?_ ?_
  · intro d l
    rw [BurstsIn, BurstsIn, hpresence]
  · rintro l hlobby ⟨d, hd⟩
    have hne : l ≠ b.rooms.nextLobby := by
      rintro rfl
      exact hnobody d hd
    rw [hroom, room_addRoom_ne _ hne]
    exact hlobby
  · intro l hl hgame
    by_cases hnew : l = b.rooms.nextLobby
    · right
      rw [hnew]
      refine ⟨?_, hnobody⟩
      rw [hroom, room_addRoom]
      exact made.newRoom.calm
    · left
      rw [hroom, room_addRoom_ne _ hnew] at hgame ⊢
      exact ⟨(hlobbies l hl).resolve_right hnew, hgame, rfl⟩

theorem Marked.setPresence {r : Rooms} (h : Marked r) {c : ClientId} {p : Presence}
    (hcur : p.curLobby = (r.presence c).curLobby)
    (hburst : (r.presence c).curLobby ≠ none → p.bursting = (r.presence c).bursting) :
    Marked (r.setPresence c p) := by
  refine h.mono ?_ (fun _ hlobby _ => hlobby) (fun l hl hgame => Or.inl ⟨hl, hgame, rfl⟩)
  intro d l
  by_cases hd : d = c
  · subst hd
    rw [BurstsIn, BurstsIn, Rooms.presence_setPresence, hcur]
    constructor
    · rintro ⟨hl, hb⟩
      rw [hburst (by rw [hl]; simp)] at hb
      exact ⟨hl, hb⟩
    · rintro ⟨hl, hb⟩
      rw [hburst (by rw [hl]; simp)]
      exact ⟨hl, hb⟩
  · rw [BurstsIn, BurstsIn, Rooms.presence_setPresence_ne _ hd]

theorem Marked.setRoom {r : Rooms} (h : Marked r) {l : LobbyHandle} {m : Room}
    (htype : m.type = (r.room l).type) (hburst : m.bursting = (r.room l).bursting) :
    Marked (r.setRoom l m) := by
  have htypes : ∀ k, ((r.setRoom l m).room k).type = (r.room k).type := by
    intro k
    by_cases hk : k = l
    · rw [hk, Rooms.room_setRoom, htype]
    · rw [Rooms.room_setRoom_ne _ hk]
  refine h.mono (fun _ _ => Iff.rfl) ?_ ?_
  · intro k hlobby _
    rw [htypes]
    exact hlobby
  · intro k hk hgame
    rw [htypes] at hgame
    exact Or.inl ⟨hk, hgame, Rooms.bursting_setRoom r hburst k⟩

/-- A pending game is calm and empty. -/
theorem Marked.list {r : Rooms} (h : Marked r) {l : LobbyHandle} (hcalm : (r.room l).bursting = false)
    (hnobody : ∀ d, (r.presence d).curLobby ≠ some l) : Marked (r.list l) := by
  refine h.mono (fun _ _ => Iff.rfl) (fun _ hlobby _ => hlobby) ?_
  intro k hk hgame
  rcases List.mem_append.mp hk with hk | hk
  · exact Or.inl ⟨hk, hgame, rfl⟩
  · rw [List.mem_singleton] at hk
    subst hk
    exact Or.inr ⟨hcalm, fun d hd => hnobody d hd.1⟩

theorem next_marked {b : Block} (hb : Invariant b) (h : Marked b.rooms) {e : Event}
    (hpatient : Patient b e) : Marked (next b e).rooms := by
  have heffect := next_effect hb.toBlockSound e
  generalize (next b e).rooms = r', (next b e).ledger = m' at heffect
  cases heffect with
  | quiet => exact h
  | repassworded _ _ _ => exact h.setRoom rfl rfl
  | lounged nowhere arrived => exact h.lounged nowhere arrived
  | @removed c b₁ _ same =>
    have hmarked : Marked b₁.rooms := by
      rw [same.1]
      exact h
    exact marked_remove (same.sound hb.toBlockSound) hmarked e.env c
  | @disconnected c m' _ _ =>
    have hcur := lobbyRemovePlayer_curLobby hb.toBlockSound e.env c
    refine (marked_remove hb.toBlockSound h e.env c).setPresence hcur.symm ?_
    intro hsome
    exact absurd hcur hsome
  | @changed c req rv r' m' _ listed enter =>
    exact h.enter hb.rooms hb.orderly (fun _ => listed)
      (fun l hgranted hspare hne hgame hbursts =>
        hpatient.moves b c l req hgranted hspare hne hgame hbursts) enter
  | submitted _ _ => exact h
  | @selected c l passwd rv r' m' listed _ enter =>
    refine h.enter hb.rooms hb.orderly (fun _ => listed) ?_ enter
    intro k hgranted hspare hne hgame hbursts
    exact hpatient.moves (submit b c l passwd) c k l hgranted hspare hne hgame hbursts
  | @created c m b₁ r' m' made enter =>
    obtain ⟨hb₁, hlisted, hroom, -⟩ := listed_of_made made hb
    have hpresence : b₁.rooms.presence = b.rooms.presence := by
      rw [made.rooms]
      split_ifs <;> rfl
    refine (marked_made h hb made).enterNew hb₁.rooms hb₁.orderly hlisted ?_ enter
    intro k hgranted hspare hne hgame hbursts
    rw [BurstsIn, hpresence] at hbursts
    rw [hpresence]
    have hold : b₁.rooms.room k = b.rooms.room k := by
      rw [made.rooms, if_pos rfl]
      exact room_addRoom_ne _ hne m
    rw [hold] at hgame
    exact hpatient.moves b₁ c k _ hgranted hspare hne hgame hbursts
  | waiting made _ => exact (marked_made h hb made).setPresence rfl (fun _ => rfl)
  | @typed c l v b₁ r' m' pending _ rooms ledger enter =>
    obtain ⟨horderly, hsound, hlisted, -, -⟩ :=
      orderly_typed hb.orderly hb.rooms pending rooms
    obtain ⟨-, hunlisted, htype, hcalm⟩ := hb.orderly.waiting c l pending
    have hset := h.setRoom (l := l) (m := { b.rooms.room l with version := v }) rfl rfl
    have hmarked : Marked b₁.rooms := by
      rw [rooms]
      refine Marked.setPresence (hset.list ?_ ?_) rfl (fun _ => rfl)
      · rw [Rooms.room_setRoom]
        exact hcalm
      · intro d hcur
        exact hunlisted (hb.orderly.inside d l hcur htype)
    have hpresence : ∀ d, (b₁.rooms.presence d).curLobby = (b.rooms.presence d).curLobby ∧
        (b₁.rooms.presence d).bursting = (b.rooms.presence d).bursting := by
      intro d
      rw [rooms]
      by_cases hd : d = c
      · subst hd
        rw [Rooms.presence_setPresence]
        exact ⟨rfl, rfl⟩
      · rw [Rooms.presence_setPresence_ne _ hd]
        exact ⟨rfl, rfl⟩
    refine hmarked.enterNew hsound horderly hlisted ?_ enter
    intro k hgranted hspare hne hgame hbursts d hd
    rw [burstsIn_congr (hpresence c).1 (hpresence c).2] at hbursts
    rw [(hpresence d).1]
    have hold : b₁.rooms.room k = b.rooms.room k := by
      rw [rooms]
      exact Rooms.room_setRoom_ne b.rooms hne { b.rooms.room l with version := v }
    rw [hold] at hgame
    exact hpatient.moves b₁ c k l hgranted hspare hne hgame hbursts d hd
  | @burstEnded c l b₁ ends rooms ledger =>
    have hsane := hb.sane
    rw [← ledger] at hsane
    rw [lobbyHandleDoneBurst_rooms e.env l hsane, rooms]
    have hcur : (b.rooms.presence c).curLobby = some l := by
      cases ends with
      | packet _ cur _ _ _ => exact cur
      | ping _ cur _ _ _ => exact cur
    exact h.endBurst hcur (hpatient.ends c l (Or.inl ends))
  | @loaded c l ends => exact h.endBurst ends.cur (hpatient.ends c l (Or.inr ends))
  | sent _ _ => exact h

/-- Client 0 makes a game and loads into it. -/
def newGameRun : List Event :=
  obliging [.charData 0 false newcomer, .gameCreate 0 (gameWith [])]

/-- Client 1 joins the game of client 0, which then sends a second done-burst packet. -/
def impatientRun : List Event :=
  obliging [.charData 0 false newcomer, .gameCreate 0 (gameWith []), .doneBurst 0,
    .charData 1 false newcomer, .menuGame 1 0x20 [], .doneBurst 0]

end ShipServer.BurstingFlag
