import ShipServer.BlockInvariants

set_option autoImplicit false

namespace ShipServer.PasswordEntry

open LabelledRuns LobbyRooms LobbyState LobbyFunctions DeferredPackets LobbyRefinement
open BlockPackets BlockEffects BlockInvariants

/-- A client is in a lobby after a step, and was not in it before. -/
def Entered (r r' : Rooms) (c : ClientId) (l : LobbyHandle) : Prop :=
  (r'.presence c).curLobby = some l ∧ (r.presence c).curLobby ≠ some l

/-- Whoever enters a game with a password has the override flag or has given the password. -/
def Enforced (b : Block) (e : Event) : Prop :=
  ∀ c l, Entered b.rooms (next b e).rooms c l → ((next b e).lobby l).type ≠ .lobby →
    ((next b e).lobby l).passwd ≠ [] →
    (b.client c).overrideGame = true ∨
      (next b e).submitted c l = some ((next b e).lobby l).passwd

/-- No change-lobby request takes a client from its lobby into another one that is a game with a
password, unless the client has the override flag or has given that password before. -/
def Lawful (b : Block) (e : Event) : Prop :=
  ∀ c itemId l, e.action = .changeLobby c itemId → Granted b e b c l →
    (b.client c).curLobby ≠ none → (b.client c).curLobby ≠ some l → (b.lobby l).toRoom.Spare →
    (b.lobby l).type ≠ .lobby →
    (b.lobby l).passwd = [] ∨ (b.client c).overrideGame = true ∨
      b.submitted c l = some (b.lobby l).passwd

/-- The owner of a pending game has its password on record. -/
def Recorded (r : Rooms) (m : Ledger) : Prop :=
  ∀ c l, (r.presence c).createLobby = some l → m.submitted c l = some (r.room l).passwd

theorem Recorded.frame {r r' : Rooms} {m m' : Ledger} (h : Recorded r m) (hframe : Frame r r')
    (hm : m'.submitted = m.submitted) : Recorded r' m' := by
  intro c l hcreate
  rw [hframe.createLobby] at hcreate
  rw [hm, hframe.passwd]
  exact h c l hcreate

theorem queued_submitted {r : Rooms} {m m' : Ledger} {c : ClientId} {p : GamePkt}
    (h : Queued r m c p m') : m'.submitted = m.submitted := by
  rcases h with rfl | ⟨h, -, -, -, rfl⟩ <;> rfl

theorem redeliver_submitted (b : Block) (env : Env) (k : ℕ) (h : LobbyHandle) (src : ClientId)
    (p : GamePkt) : (redeliver b env k h src p).1.ledger.submitted = b.ledger.submitted := by
  rcases redeliver_queued b env k h src p with hsame | hqueued
  · rw [hsame]
  · rw [queued_submitted hqueued]
    rfl

theorem drainOnce_submitted (env : Env) (h : LobbyHandle) (s : Block × Int × ℕ) :
    (drainOnce env h s).1.ledger.submitted = s.1.ledger.submitted := by
  rw [drainOnce]
  cases (s.1.lobby h).pktQueue with
  | nil => rfl
  | cons x rest =>
    have hpop : (popQueue s.1 h rest).ledger.submitted = s.1.ledger.submitted := by
      rw [popQueue, Block.ledger_modLobby]
    obtain ⟨src, p⟩ := x
    dsimp only
    by_cases hrv : s.2.1 = 0
    · rw [if_pos hrv, ← hpop]
      exact redeliver_submitted (popQueue s.1 h rest) env s.2.2 h src p
    · rw [if_neg hrv]
      exact hpop

theorem lobbyHandleDoneBurst_submitted (b : Block) (env : Env) (h : LobbyHandle) :
    (lobbyHandleDoneBurst b env h).1.ledger.submitted = b.ledger.submitted := by
  have hiterate : ∀ n s, ((drainOnce env h)^[n] s).1.ledger.submitted = s.1.ledger.submitted := by
    intro n
    induction n with
    | zero => exact fun s => rfl
    | succ n ih =>
      intro s
      rw [Function.iterate_succ_apply, ih, drainOnce_submitted]
  exact hiterate _ (b, 0, 0)

theorem endOwnBurst_submitted (b : Block) (env : Env) (c : ClientId) (h : LobbyHandle) :
    (endOwnBurst b env c h).ledger.submitted = b.ledger.submitted := by
  rw [endOwnBurst]
  split_ifs
  · rw [lobbyHandleDoneBurst_submitted, setBursting_ledger]
  · rfl

theorem lobbyRemovePlayer_submitted {b : Block} (hb : BlockSound b) (env : Env) (c : ClientId) :
    (lobbyRemovePlayer b env c).1.ledger.submitted = b.ledger.submitted := by
  cases hcur : (b.rooms.presence c).curLobby with
  | none => rw [lobbyRemovePlayer_absent env hcur]
  | some l =>
    obtain ⟨v, left, -, -, -, hledger⟩ := lobbyRemovePlayer_leave hb env hcur
    rw [hledger]
    split_ifs
    · exact endOwnBurst_submitted b env c l
    · exact endOwnBurst_submitted b env c l

theorem enter_submitted {accepted : Prop} {r r' : Rooms} {m m' : Ledger} {c : ClientId}
    {req : LobbyHandle} {rv : Int} (h : Enter accepted r m c req rv r' m') :
    m'.submitted = m.submitted := by
  cases h with
  | refused _ => rfl
  | lounged _ _ => rfl
  | stayed _ _ _ => rfl
  | moved _ _ _ _ _ _ _ _ _ => split_ifs <;> rfl

theorem frame_of_enterNew {accepted : Prop} {r r' : Rooms} {m m' : Ledger} {c : ClientId}
    {l : LobbyHandle} (h : EnterNew accepted r m c l r' m') :
    Frame r r' ∧ m'.submitted = m.submitted := by
  obtain ⟨rv, r₁, m₁, henter, rfl, rfl⟩ := h
  have hframe := frame_of_enter henter
  have hsubmitted := enter_submitted henter
  split_ifs
  · exact ⟨hframe, hsubmitted⟩
  · exact ⟨hframe.trans (.unlist r₁ l), hsubmitted⟩

theorem Recorded.submit {r : Rooms} {m : Ledger} (h : Recorded r m) (hr : Orderly r) (c : ClientId)
    {l : LobbyHandle} (hl : l ∈ r.lobbies) (passwd : List UInt8) :
    Recorded r (Ledger.submit m c l passwd) := by
  intro d k hcreate
  have hne : k ≠ l := by
    rintro rfl
    exact (hr.waiting d k hcreate).2.1 hl
  have hsame : (Ledger.submit m c l passwd).submitted d k = m.submitted d k := by
    by_cases hd : d = c
    · subst hd
      simp [Ledger.submit, hne]
    · simp [Ledger.submit, hd]
  rw [hsame]
  exact h d k hcreate

/-- The creator of a game has its password on record. -/
theorem submitted_made {b b₁ : Block} {c : ClientId} {m : Room} {listed : Bool}
    (h : Made b c m listed b₁) :
    b₁.ledger.submitted c b.rooms.nextLobby = some m.passwd ∧
      ∀ d k, k ≠ b.rooms.nextLobby → b₁.ledger.submitted d k = b.ledger.submitted d k := by
  rw [h.ledger]
  refine ⟨by simp [Ledger.clear, Ledger.submit], ?_⟩
  intro d k hk
  by_cases hd : d = c
  · subst hd
    simp [Ledger.clear, Ledger.submit, hk]
  · simp [Ledger.clear, Ledger.submit, hd]

theorem presence_made {b b₁ : Block} {c : ClientId} {m : Room} {listed : Bool}
    (h : Made b c m listed b₁) : b₁.rooms.presence = b.rooms.presence := by
  rw [h.rooms]
  split_ifs <;> rfl

theorem room_made {b b₁ : Block} {c : ClientId} {m : Room} {listed : Bool}
    (h : Made b c m listed b₁) : b₁.rooms.room = (b.rooms.addRoom m).room := by
  rw [h.rooms]
  split_ifs <;> rfl

theorem recorded_made {b b₁ : Block} {c : ClientId} {m : Room} {listed : Bool}
    (h : Made b c m listed b₁) (hb : Orderly b.rooms) (hrec : Recorded b.rooms b.ledger) :
    Recorded b₁.rooms b₁.ledger := by
  intro d k hcreate
  rw [presence_made h] at hcreate
  have hne := (hb.waiting d k hcreate).1.ne
  rw [room_made h, room_addRoom_ne _ hne, (submitted_made h).2 d k hne]
  exact hrec d k hcreate

theorem next_recorded {b : Block} (hb : Invariant b) (hrec : Recorded b.rooms b.ledger)
    (e : Event) : Recorded (next b e).rooms (next b e).ledger := by
  have heffect := next_effect hb.toBlockSound e
  generalize (next b e).rooms = r', (next b e).ledger = m' at heffect
  cases heffect with
  | quiet => exact hrec
  | @repassworded c h passwd cur game =>
    intro d k hcreate
    have hne : k ≠ h := by
      rintro rfl
      exact (hb.orderly.waiting d k hcreate).2.1 (hb.orderly.inside c k cur game)
    rw [Rooms.room_setRoom_ne _ hne]
    exact hrec d k hcreate
  | lounged _ arrived => exact hrec.frame (frame_of_lounged arrived) rfl
  | @removed c b₁ _ same =>
    have hb₁ := same.sound hb.toBlockSound
    have hrec₁ : Recorded b₁.rooms b₁.ledger := by
      rw [same.1, same.2]
      exact hrec
    exact hrec₁.frame (frame_of_remove hb₁ e.env c) (lobbyRemovePlayer_submitted hb₁ e.env c)
  | @disconnected c m' _ ledger =>
    have hgone := hrec.frame (frame_of_remove hb.toBlockSound e.env c)
      (lobbyRemovePlayer_submitted hb.toBlockSound e.env c)
    have hm' : m'.submitted = (lobbyRemovePlayer b e.env c).1.ledger.submitted := by
      rcases ledger with rfl | ⟨l, -, rfl⟩ <;> rfl
    intro d k hcreate
    by_cases hd : d = c
    · rw [hd, Rooms.presence_setPresence] at hcreate
      cases hcreate
    · rw [Rooms.presence_setPresence_ne _ hd] at hcreate
      rw [hm']
      exact hgone d k hcreate
  | changed _ _ enter => exact hrec.frame (frame_of_enter enter) (enter_submitted enter)
  | submitted passwd listed => exact hrec.submit hb.orderly _ listed passwd
  | selected listed _ enter =>
    exact (hrec.submit hb.orderly _ listed _).frame (frame_of_enter enter) (enter_submitted enter)
  | created made enter =>
    obtain ⟨hframe, hsubmitted⟩ := frame_of_enterNew enter
    exact (recorded_made made hb.orderly hrec).frame hframe hsubmitted
  | @waiting c m b₁ made large =>
    have hrec₁ := recorded_made made hb.orderly hrec
    intro d k hcreate
    rw [Rooms.room_setPresence]
    by_cases hd : d = c
    · subst hd
      rw [Rooms.presence_setPresence] at hcreate
      cases hcreate
      rw [room_made made, room_addRoom]
      exact (submitted_made made).1
    · rw [Rooms.presence_setPresence_ne _ hd] at hcreate
      exact hrec₁ d k hcreate
  | @typed c l v b₁ r' m' pending _ rooms ledger enter =>
    obtain ⟨hframe, hsubmitted⟩ := frame_of_enterNew enter
    refine Recorded.frame ?_ hframe hsubmitted
    rw [rooms, ledger]
    intro d k hcreate
    by_cases hd : d = c
    · rw [hd, Rooms.presence_setPresence] at hcreate
      cases hcreate
    · rw [Rooms.presence_setPresence_ne _ hd] at hcreate
      have hset : Frame b.rooms (b.rooms.setRoom l { b.rooms.room l with version := v }) :=
        .setRoom _ rfl rfl rfl
      exact hrec.frame hset rfl d k hcreate
  | @burstEnded c h b₁ _ rooms ledger =>
    have hsane := hb.sane
    rw [← ledger] at hsane
    refine hrec.frame ?_ ?_
    · rw [lobbyHandleDoneBurst_rooms e.env h hsane, rooms]
      exact .endBurst b.rooms c h
    · rw [lobbyHandleDoneBurst_submitted, ledger]
  | loaded _ => exact hrec.frame (.endBurst b.rooms _ _) rfl
  | sent _ queued => exact hrec.frame (.refl b.rooms) (queued_submitted queued)

/-- Only a request that nothing refuses takes a client into a game. -/
theorem entered_of_enter {accepted : Prop} {r r' : Rooms} {m m' : Ledger} {c d : ClientId}
    {req l : LobbyHandle} {rv : Int} (h : Enter accepted r m c req rv r' m')
    (hin : Entered r r' d l) (htype : (r.room l).type ≠ .lobby) :
    d = c ∧ l = req ∧ accepted ∧ (r.room req).Spare ∧ (r.presence c).curLobby ≠ none := by
  obtain ⟨hcur, hbefore⟩ := hin
  cases h with
  | refused _ => exact absurd hcur hbefore
  | lounged _ arrived =>
    obtain ⟨k, i, rfl, hlobby, -⟩ := arrived
    rw [Rooms.curLobby_sit] at hcur
    split_ifs at hcur
    · cases hcur
      exact absurd hlobby htype
    · exact absurd hcur hbefore
  | stayed _ _ _ =>
    rw [Rooms.curLobby_settle] at hcur
    exact absurd hcur hbefore
  | moved ok cur _ _ spare _ _ _ gone =>
    rw [Rooms.curLobby_settle, Rooms.presence_close, gone, Rooms.presence_vacate,
      Rooms.curLobby_sit] at hcur
    split_ifs at hcur with hd
    · refine ⟨hd, (Option.some.inj hcur).symm, ok, spare, ?_⟩
      rw [cur]
      simp
    · exact absurd hcur hbefore

theorem entered_of_enterNew {accepted : Prop} {r r' : Rooms} {m m' : Ledger} {c d : ClientId}
    {req l : LobbyHandle} (h : EnterNew accepted r m c req r' m') (hin : Entered r r' d l)
    (htype : (r.room l).type ≠ .lobby) : d = c ∧ l = req := by
  obtain ⟨rv, r₁, m₁, henter, rfl, -⟩ := h
  have hin₁ : Entered r r₁ d l := by
    refine ⟨?_, hin.2⟩
    have hcur := hin.1
    split_ifs at hcur
    · exact hcur
    · exact hcur
  obtain ⟨hd, hl, -⟩ := entered_of_enter henter hin₁ htype
  exact ⟨hd, hl⟩

/-- A step that leaves everybody where they are, or takes them out. -/
theorem not_entered {r r' : Rooms} {c : ClientId} {l : LobbyHandle}
    (h : ∀ d k, (r'.presence d).curLobby = some k → (r.presence d).curLobby = some k) :
    ¬ Entered r r' c l :=
  fun hin => hin.2 (h c l hin.1)

theorem remove_curLobby {b : Block} (hb : BlockSound b) (env : Env) (c d : ClientId)
    {k : LobbyHandle} (hcur : ((lobbyRemovePlayer b env c).1.rooms.presence d).curLobby = some k) :
    (b.rooms.presence d).curLobby = some k := by
  cases hl : (b.rooms.presence c).curLobby with
  | none => rwa [lobbyRemovePlayer_absent env hl] at hcur
  | some l =>
    rw [lobbyRemovePlayer_presence hb env hl] at hcur
    by_cases hd : d = c
    · rw [hd, Function.update_self] at hcur
      cases hcur
    · rwa [Function.update_of_ne hd] at hcur

theorem effect_enforced {b : Block} (hb : Invariant b) (hrec : Recorded b.rooms b.ledger)
    {e : Event} (hlawful : Lawful b e) {r' : Rooms} {m' : Ledger} (heffect : Effect b e r' m')
    {c : ClientId} {l : LobbyHandle} (hin : Entered b.rooms r' c l)
    (htype : (r'.room l).type ≠ .lobby) (hlocked : (r'.room l).passwd ≠ []) :
    (b.client c).overrideGame = true ∨ m'.submitted c l = some (r'.room l).passwd := by
  cases heffect with
  | quiet => exact absurd hin (not_entered fun _ _ h => h)
  | repassworded _ _ _ => exact absurd hin (not_entered fun _ _ h => h)
  | lounged _ arrived =>
    rw [(frame_of_lounged arrived).type] at htype
    obtain ⟨k, i, rfl, hlobby, -⟩ := arrived
    have hcur := hin.1
    rw [Rooms.curLobby_sit] at hcur
    split_ifs at hcur
    · cases hcur
      exact absurd hlobby htype
    · exact absurd hcur hin.2
  | @removed d b₁ _ same =>
    refine absurd hin (not_entered fun d' k h => ?_)
    rw [← same.1]
    exact remove_curLobby (same.sound hb.toBlockSound) e.env d d' h
  | @disconnected d m' _ _ =>
    refine absurd hin (not_entered fun d' k h => ?_)
    by_cases hd : d' = d
    · rw [hd, Rooms.presence_setPresence] at h
      cases h
    · rw [Rooms.presence_setPresence_ne _ hd] at h
      exact remove_curLobby hb.toBlockSound e.env d d' h
  | @changed d req rv r' m' action listed enter =>
    have hframe := frame_of_enter enter
    rw [hframe.type] at htype
    rw [hframe.passwd] at hlocked ⊢
    rw [enter_submitted enter]
    obtain ⟨rfl, rfl, hgranted, hspare, hcur⟩ := entered_of_enter enter hin htype
    obtain ⟨itemId, action⟩ := action
    rcases hlawful c itemId l action hgranted hcur hin.2 hspare htype with
      hopen | hoverride | hgiven
    · exact absurd hopen hlocked
    · exact Or.inl hoverride
    · exact Or.inr hgiven
  | submitted _ _ => exact absurd hin (not_entered fun _ _ h => h)
  | @selected d req passwd rv r' m' listed right enter =>
    have hframe := frame_of_enter enter
    rw [hframe.type] at htype
    rw [hframe.passwd] at hlocked ⊢
    rw [enter_submitted enter]
    obtain ⟨rfl, rfl, -⟩ := entered_of_enter enter hin htype
    rcases right with hoverride | hopen | hright
    · exact Or.inl hoverride
    · exact absurd hopen hlocked
    · right
      rw [← hright]
      simp [Ledger.submit]
  | @created d m b₁ r' m' made enter =>
    obtain ⟨hframe, hsubmitted⟩ := frame_of_enterNew enter
    rw [hframe.type] at htype
    rw [hframe.passwd, hsubmitted]
    have hin₁ : Entered b₁.rooms r' c l := by
      refine ⟨hin.1, ?_⟩
      rw [presence_made made]
      exact hin.2
    obtain ⟨rfl, rfl⟩ := entered_of_enterNew enter hin₁ htype
    right
    rw [room_made made, room_addRoom]
    exact (submitted_made made).1
  | @waiting d m b₁ made large =>
    refine absurd hin (not_entered fun d' k h => ?_)
    rw [← presence_made made]
    by_cases hd : d' = d
    · rw [hd, Rooms.presence_setPresence] at h
      rw [hd]
      exact h
    · rwa [Rooms.presence_setPresence_ne _ hd] at h
  | @typed d k v b₁ r' m' pending _ rooms ledger enter =>
    obtain ⟨hframe, hsubmitted⟩ := frame_of_enterNew enter
    rw [hframe.type] at htype
    rw [hframe.passwd, hsubmitted, ledger]
    have hcurs : ∀ d', (b₁.rooms.presence d').curLobby = (b.rooms.presence d').curLobby := by
      intro d'
      rw [rooms]
      by_cases hd : d' = d
      · rw [hd, Rooms.presence_setPresence]
      · rw [Rooms.presence_setPresence_ne _ hd]
        rfl
    have hin₁ : Entered b₁.rooms r' c l := by
      refine ⟨hin.1, ?_⟩
      rw [hcurs]
      exact hin.2
    obtain ⟨rfl, rfl⟩ := entered_of_enterNew enter hin₁ htype
    right
    rw [hrec c l pending, rooms]
    have hroom : ∀ v', ((b.rooms.setRoom l { b.rooms.room l with version := v' }).room l).passwd =
        (b.rooms.room l).passwd := by
      intro v'
      rw [Rooms.room_setRoom]
    exact congrArg some (hroom v).symm
  | @burstEnded d h b₁ _ rooms ledger =>
    have hsane := hb.sane
    rw [← ledger] at hsane
    rw [lobbyHandleDoneBurst_rooms e.env h hsane, rooms] at hin
    refine absurd hin (not_entered fun d' k hcur => ?_)
    rwa [Rooms.curLobby_endBurst] at hcur
  | loaded _ =>
    refine absurd hin (not_entered fun d' k hcur => ?_)
    rwa [Rooms.curLobby_endBurst] at hcur
  | sent _ _ => exact absurd hin (not_entered fun _ _ h => h)

theorem next_enforced {b : Block} (hb : Invariant b) (hrec : Recorded b.rooms b.ledger)
    {e : Event} (hlawful : Lawful b e) : Enforced b e :=
  fun _ _ hin htype hlocked =>
    effect_enforced hb hrec hlawful (next_effect hb.toBlockSound e) hin htype hlocked

/-- In a run without unlawful change-lobby requests, passwords are enforced at every step. -/
theorem password_enforced {b : Block} {es : List Event} {e : Event}
    (hrun : Run (StepOf next) Lawful Block.start es b) (hlawful : Lawful b e) : Enforced b e := by
  have hinv : Invariant b ∧ Recorded b.rooms b.ledger := by
    refine hrun.invariant (fun b => Invariant b ∧ Recorded b.rooms b.ledger)
      ⟨initial_invariant, ?_⟩ ?_
    · rintro c l ⟨⟩
    · rintro b₀ e₀ b₁ ⟨hb₀, hrec₀⟩ - rfl
      exact ⟨next_invariant hb₀ e₀, next_recorded hb₀ hrec₀ e₀⟩
  exact next_enforced hinv.1 hinv.2 hlawful

/-- Client 0 makes a game with a password and is in it; client 1 is in a lobby. -/
def lockedGame : List Event :=
  obliging [.charData 0 false newcomer, .gameCreate 0 (gameWith [0x61]), .doneBurst 0,
    .charData 1 false newcomer]

/-- The right password lets client 1 in. -/
theorem password_enforced_menu :
    Enforced (lockedGame.foldl next Block.start) ⟨obligingEnv, .menuGame 1 0x20 [0x61]⟩ := by
  have hlawful : ∀ b e, (∀ c itemId, e.action ≠ .changeLobby c itemId) → Lawful b e :=
    fun b e hother c itemId l haction => absurd haction (hother c itemId)
  have hrun : Run (StepOf next) Lawful Block.start lockedGame
      (lockedGame.foldl next Block.start) := by
    refine .move (hlawful _ _ ?_) rfl (.move (hlawful _ _ ?_) rfl
      (.move (hlawful _ _ ?_) rfl (.move (hlawful _ _ ?_) rfl (.stop _))))
    all_goals rintro c itemId ⟨⟩
  exact password_enforced hrun (hlawful _ _ (by rintro c itemId ⟨⟩))

/-- A change-lobby request takes client 1 into the game without the password. -/
theorem password_not_enforced :
    ¬ ∀ es b e, Run (StepOf next) Always Block.start es b → Enforced b e := by
  intro h
  have henforced := h lockedGame _ ⟨obligingEnv, .changeLobby 1 0x20⟩
    (run_foldl next Block.start lockedGame)
  have hentered := henforced 1 20 ⟨by decide, by decide⟩ (by decide) (by decide)
  revert hentered
  decide

end ShipServer.PasswordEntry
