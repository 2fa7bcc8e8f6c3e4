import ShipServer.BlockLists

set_option autoImplicit false

namespace ShipServer.LobbyIds

open LabelledRuns Versions LobbyRooms LobbyState LobbyFunctions DeferredPackets BlockPackets
open BlockEffects BlockInvariants BlockLists

/-- The lobbies of the list have different ids. -/
def Distinct (b : Block) : Prop :=
  (b.lobbies.map fun h => (b.lobby h).lobbyId).Nodup

/-- `num_games` is the number of games on the list. -/
def Counted (b : Block) : Prop :=
  b.numGames = b.lobbies.countP fun h => (b.lobby h).type ≠ .lobby

/-- The search of `lobby_create_game` starts in its range. -/
def InRange (b : Block) : Prop :=
  0x20 ≤ b.nextId ∧ b.nextId ≤ 0xFFFF

/-- There is an id that the search of `lobby_create_game` can find; it does not end without one. -/
def FreeId (b : Block) : Prop :=
  ∃ id, 0x20 ≤ id ∧ id ≤ 0xFFFF ∧ blockGetLobby b id = none

/-- A game is made while there is a free id, and nobody has got the id of a pending game by the
time its type is chosen. -/
def Fresh (b : Block) (e : Event) : Prop :=
  match e.action with
  | .gameCreate _ _ => FreeId b
  | .gameType c _ =>
    ∀ l, (b.client c).createLobby = some l → blockGetLobby b (b.lobby l).lobbyId = none
  | _ => True

theorem blockGetLobby_eq_none {b : Block} {id : ℕ} :
    blockGetLobby b id = none ↔ ∀ h ∈ b.lobbies, (b.lobby h).lobbyId ≠ id := by
  simp [blockGetLobby, List.find?_eq_none]

theorem distinct_stable : Stable Distinct where
  kept h hb := by
    have hids : (fun k => (_ : Lobby).lobbyId) = _ := funext fun k => congrArg Prod.fst (h.tag k)
    unfold Distinct
    rw [h.lobbies, hids]
    exact hb
  destroyed {b h} _ hb := by
    have hids : (fun k => ((lobbyDestroyLocked b h).lobby k).lobbyId) =
        fun k => (b.lobby k).lobbyId := by
      funext k
      by_cases hk : k = h
      · subst hk
        simp [lobbyDestroyLocked]
      · simp [lobbyDestroyLocked, Block.modLobby, hk]
    unfold Distinct
    rw [hids]
    exact hb.sublist ((List.erase_sublist).map _)

theorem inRange_stable : Stable InRange where
  kept h hb := by
    unfold InRange
    rw [h.nextId]
    exact hb
  destroyed _ hb := hb

theorem counted_stable : Stable Counted where
  kept h hb := by
    unfold Counted
    rw [h.numGames, h.lobbies, hb]
    simp only [h.type]
  destroyed {b h} hl hb := by
    have htype (k : LobbyHandle) : ((lobbyDestroyLocked b h).lobby k).type = (b.lobby k).type := by
      by_cases hk : k = h
      · subst hk
        simp [lobbyDestroyLocked]
      · simp [lobbyDestroyLocked, Block.modLobby, hk]
    have hgames : (lobbyDestroyLocked b h).numGames =
        if (b.lobby h).type ≠ .lobby then b.numGames - 1 else b.numGames := rfl
    have hlist : (lobbyDestroyLocked b h).lobbies = b.lobbies.erase h := rfl
    unfold Counted
    simp only [htype]
    rw [hgames, hlist, List.countP_erase, hb]
    by_cases hgame : (b.lobby h).type = .lobby
    · simp [hgame]
    · have hpos : 0 < b.lobbies.countP fun h => (b.lobby h).type ≠ .lobby :=
        List.countP_pos_iff.mpr ⟨h, hl, decide_eq_true hgame⟩
      rw [if_pos hgame, if_pos ⟨hl, decide_eq_true hgame⟩]
      omega

/-- An id that the search gives up on has been taken, and so have all before it. -/
theorem unusedId_used {b : Block} {step : ℕ → ℕ} {n id : ℕ}
    (h : blockGetLobby b (unusedId b step n id) ≠ none) :
    ∀ k ≤ n, blockGetLobby b (step^[k] id) ≠ none := by
  induction n generalizing id with
  | zero =>
    intro k hk
    rw [Nat.le_zero.mp hk]
    exact h
  | succ n ih =>
    rw [unusedId] at h
    split_ifs at h with hfree
    · exact absurd hfree h
    · intro k hk
      cases k with
      | zero => exact hfree
      | succ k =>
        rw [Function.iterate_succ_apply]
        exact ih h k (by omega)

/-- There are no more different ids in use than lobbies. -/
theorem le_length_of_used {b : Block} {ids : List ℕ} (hids : ids.Nodup)
    (hused : ∀ id ∈ ids, blockGetLobby b id ≠ none) : ids.length ≤ b.lobbies.length := by
  have hsubset : ids ⊆ b.lobbies.map fun h => (b.lobby h).lobbyId := by
    intro id hid
    have hfound := mt blockGetLobby_eq_none.mpr (hused id hid)
    simp only [not_forall, not_not] at hfound
    obtain ⟨h, hh, heq⟩ := hfound
    exact List.mem_map.mpr ⟨h, hh, heq⟩
  have hle := (List.subperm_of_subset hids hsubset).length_le
  rwa [List.length_map] at hle

/-- The search ends if its steps do not come back to an id before they have tried enough. -/
theorem unusedId_free {b : Block} {step : ℕ → ℕ} {id : ℕ}
    (hinj : ∀ i ≤ b.lobbies.length, ∀ j ≤ b.lobbies.length, step^[i] id = step^[j] id → i = j) :
    blockGetLobby b (unusedId b step (b.lobbies.length + 1) id) = none := by
  by_contra hused
  have hall := unusedId_used hused
  have hnodup : ((List.range (b.lobbies.length + 1)).map fun k => step^[k] id).Nodup := by
    apply List.Nodup.map_on _ List.nodup_range
    intro i hi j hj heq
    exact hinj i (Nat.lt_succ_iff.mp (List.mem_range.mp hi)) j
      (Nat.lt_succ_iff.mp (List.mem_range.mp hj)) heq
  have hle := le_length_of_used hnodup (fun x hx => by
    obtain ⟨k, hk, rfl⟩ := List.mem_map.mp hx
    exact hall k (List.mem_range.mp hk).le)
  rw [List.length_map, List.length_range] at hle
  omega

theorem ep3Id_free (b : Block) :
    blockGetLobby b (unusedId b (· + 1) (b.lobbies.length + 1) 0x21) = none := by
  have hsum (k id : ℕ) : (· + 1)^[k] id = id + k := by
    induction k generalizing id with
    | zero => rfl
    | succ k ih =>
      rw [Function.iterate_succ_apply, ih]
      omega
  apply unusedId_free
  intro i _ j _ heq
  rw [hsum, hsum] at heq
  omega

/-- The id that `lobby_create_game` gives to a game. -/
def gameId (b : Block) : ℕ :=
  unusedId b (fun id => if 0xFFFF < id + 1 then 0x20 else id + 1) (b.lobbies.length + 1) b.nextId

theorem iterate_wrap (k n : ℕ) :
    (fun id => if 0xFFFF < id + 1 then 0x20 else id + 1)^[k] (0x20 + n % 0xFFE0) =
      0x20 + (n + k) % 0xFFE0 := by
  induction k generalizing n with
  | zero => rfl
  | succ k ih =>
    have hstep : (if 0xFFFF < 0x20 + n % 0xFFE0 + 1 then 0x20 else 0x20 + n % 0xFFE0 + 1) =
        0x20 + (n + 1) % 0xFFE0 := by
      split_ifs <;> omega
    rw [Function.iterate_succ_apply, hstep, ih, Nat.add_assoc, Nat.add_comm 1 k]

theorem gameId_free {b : Block} (hrange : InRange b) (hfree : FreeId b) :
    blockGetLobby b (gameId b) = none := by
  obtain ⟨hlow, hhigh⟩ := hrange
  have hstart : 0x20 + (b.nextId - 0x20) % 0xFFE0 = b.nextId := by omega
  have hstep (k : ℕ) := iterate_wrap k (b.nextId - 0x20)
  rw [hstart] at hstep
  by_cases hfew : b.lobbies.length < 0xFFE0
  · apply unusedId_free
    intro i hi j hj heq
    rw [hstep, hstep] at heq
    omega
  · by_contra hused
    obtain ⟨id, hidlow, hidhigh, hnone⟩ := hfree
    have hreach := unusedId_used hused ((id + 0xFFE0 - b.nextId) % 0xFFE0) (by omega)
    have hid : 0x20 + (b.nextId - 0x20 + (id + 0xFFE0 - b.nextId) % 0xFFE0) % 0xFFE0 = id := by
      omega
    rw [hstep, hid] at hreach
    exact hreach hnone

theorem unusedId_inRange (b : Block) {n id : ℕ} (h : 0x20 ≤ id ∧ id ≤ 0xFFFF) :
    0x20 ≤ unusedId b (fun id => if 0xFFFF < id + 1 then 0x20 else id + 1) n id ∧
      unusedId b (fun id => if 0xFFFF < id + 1 then 0x20 else id + 1) n id ≤ 0xFFFF := by
  induction n generalizing id with
  | zero => exact h
  | succ n ih =>
    rw [unusedId]
    split_ifs
    · exact h
    · exact ih (by omega)
    · exact ih (by omega)

theorem inRange_of_taken {b b' : Block} (h : b'.nextId = (takeId b (gameId b)).nextId)
    (hb : InRange b) : InRange b' := by
  obtain ⟨hlow, hhigh⟩ : 0x20 ≤ gameId b ∧ gameId b ≤ 0xFFFF := unusedId_inRange b hb
  unfold InRange
  rw [h, takeId]
  dsimp only
  split_ifs <;> omega

/-- A game comes onto the list. -/
structure Lists (b b' : Block) (l : LobbyHandle) : Prop where
  fresh : l ∉ b.lobbies
  lobbies : b'.lobbies = b.lobbies ++ [l]
  numGames : b'.numGames = b.numGames + 1
  tag : ∀ h, h ≠ l → tag (b'.lobby h) = tag (b.lobby h)
  game : (b'.lobby l).type ≠ .lobby
  curLobby : ∀ d, (b'.client d).curLobby = (b.client d).curLobby

/-- The list stays as it is, whatever becomes of other lobbies. -/
structure Unlisted (b b' : Block) : Prop where
  lobbies : b'.lobbies = b.lobbies
  numGames : b'.numGames = b.numGames
  tag : ∀ h ∈ b.lobbies, tag (b'.lobby h) = tag (b.lobby h)

theorem Lists.tag_of_mem {b b' : Block} {l h : LobbyHandle} (hlists : Lists b b' l)
    (hh : h ∈ b.lobbies) : BlockLists.tag (b'.lobby h) = BlockLists.tag (b.lobby h) := by
  apply hlists.tag
  rintro rfl
  exact hlists.fresh hh

theorem Lists.mem {b b' : Block} {l : LobbyHandle} (h : Lists b b' l) : l ∈ b'.lobbies := by
  rw [h.lobbies]
  exact List.mem_append_right _ List.mem_cons_self

theorem Lists.inside {b b' : Block} {l : LobbyHandle} (h : Lists b b' l) (hin : Inside b) :
    Inside b' := by
  intro c k hcur hgame
  rw [h.lobbies]
  by_cases hk : k = l
  · rw [hk, ← h.lobbies]
    exact h.mem
  · rw [h.curLobby] at hcur
    have htype : (b'.lobby k).type = (b.lobby k).type := congrArg Prod.snd (h.tag k hk)
    rw [htype] at hgame
    exact List.mem_append_left _ (hin c k hcur hgame)

theorem ids_eq {b b' : Block} {hs : List LobbyHandle}
    (h : ∀ k ∈ hs, tag (b'.lobby k) = tag (b.lobby k)) :
    (hs.map fun k => (b'.lobby k).lobbyId) = hs.map fun k => (b.lobby k).lobbyId :=
  List.map_congr_left fun k hk => congrArg Prod.fst (h k hk)

theorem games_eq {b b' : Block} {hs : List LobbyHandle}
    (h : ∀ k ∈ hs, tag (b'.lobby k) = tag (b.lobby k)) :
    (hs.countP fun k => (b'.lobby k).type ≠ .lobby) =
      hs.countP fun k => (b.lobby k).type ≠ .lobby := by
  apply List.countP_congr
  intro k hk
  have htype : (b'.lobby k).type = (b.lobby k).type := congrArg Prod.snd (h k hk)
  rw [htype]

theorem Lists.distinct {b b' : Block} {l : LobbyHandle} (h : Lists b b' l) (hb : Distinct b)
    (hid : blockGetLobby b (b'.lobby l).lobbyId = none) : Distinct b' := by
  unfold Distinct
  rw [h.lobbies, List.map_append, ids_eq fun k hk => h.tag_of_mem hk]
  refine hb.append (List.nodup_singleton _) ?_
  intro id hold hnew
  obtain ⟨k, hk, rfl⟩ := List.mem_map.mp hold
  exact blockGetLobby_eq_none.mp hid k hk (List.mem_singleton.mp hnew)

theorem Lists.counted {b b' : Block} {l : LobbyHandle} (h : Lists b b' l) (hb : Counted b) :
    Counted b' := by
  unfold Counted
  rw [h.numGames, h.lobbies, List.countP_append, games_eq fun k hk => h.tag_of_mem hk, hb]
  simp [h.game]

theorem Unlisted.distinct {b b' : Block} (h : Unlisted b b') (hb : Distinct b) : Distinct b' := by
  unfold Distinct
  rw [h.lobbies, ids_eq h.tag]
  exact hb

theorem Unlisted.counted {b b' : Block} (h : Unlisted b b') (hb : Counted b) : Counted b' := by
  unfold Counted
  rw [h.numGames, h.lobbies, games_eq h.tag, hb]

/-- What the packets that make a game come to: a game with the id is on the list, or not. -/
inductive Creates (b : Block) (id : ℕ) : Block × Except Int LobbyHandle → Prop where
  | unlisted {b' : Block} {rv : Int} (h : Unlisted b b') (nextId : InRange b → InRange b') :
      Creates b id (b', .error rv)
  | listed {b' : Block} {l : LobbyHandle} (h : Lists b b' l) (lobbyId : (b'.lobby l).lobbyId = id)
      (nextId : InRange b → InRange b') : Creates b id (b', .ok l)

theorem Creates.counted {b : Block} {id : ℕ} {t : Block × Except Int LobbyHandle}
    (h : Creates b id t) (hin : Inside b) (hb : Counted b) : Offered Counted t := by
  cases h with
  | unlisted h _ => exact ⟨h.counted hb, fun l hl => nomatch hl⟩
  | @listed b' l h _ _ =>
    refine ⟨h.counted hb, ?_⟩
    rintro k ⟨⟩
    exact ⟨h.inside hin, h.mem⟩

theorem addLobby_unlisted {b b₀ : Block} (hkept : Kept b b₀) (hnext : b₀.nextLobby = b.nextLobby)
    (hnew : b.nextLobby ∉ b.lobbies) (c : ClientId) (l : Lobby) :
    Unlisted b (addLobby b₀ c l) where
  lobbies := hkept.lobbies
  numGames := hkept.numGames
  tag h hh := by
    have hne : h ≠ b₀.nextLobby := by
      rw [hnext]
      exact fun heq => hnew (heq ▸ hh)
    have hold : (addLobby b₀ c l).lobby h = b₀.lobby h := by simp [addLobby, hne]
    rw [hold, hkept.tag]

theorem listLobby_lists {b b₀ : Block} (hkept : Kept b b₀) (hnext : b₀.nextLobby = b.nextLobby)
    (hcur : ∀ d, (b₀.client d).curLobby = (b.client d).curLobby)
    (hnew : b.nextLobby ∉ b.lobbies) (c : ClientId) {l : Lobby} (hl : l.type ≠ .lobby) :
    Lists b (listLobby (addLobby b₀ c l) b₀.nextLobby) b.nextLobby where
  fresh := hnew
  lobbies := by
    rw [← hnext, ← hkept.lobbies]
    rfl
  numGames := by
    rw [← hkept.numGames]
    rfl
  tag h hh := by
    rw [← hnext] at hh
    have hold : (listLobby (addLobby b₀ c l) b₀.nextLobby).lobby h = b₀.lobby h := by
      simp [listLobby, addLobby, hh]
    rw [hold, hkept.tag]
  game := by
    rw [← hnext]
    simpa [listLobby, addLobby] using hl
  curLobby := hcur

theorem makeGame_listing (b : Block) (env : Env) (c : ClientId) (a : GameArgs)
    (hnew : b.nextLobby ∉ b.lobbies) :
    (∃ rv b', makeGame b env c a = (b', .error rv) ∧ Unlisted b b' ∧
      b'.nextId = (takeId b (gameId b)).nextId) ∨
    ∃ b', makeGame b env c a = (b', .ok b.nextLobby) ∧
      b'.nextId = (takeId b (gameId b)).nextId ∧
      (ListedAtOnce (b.client c).account a →
        Lists b b' b.nextLobby ∧ (b'.lobby b.nextLobby).lobbyId = gameId b) ∧
      (¬ListedAtOnce (b.client c).account a → Unlisted b b') := by
  have hsteal (b₁ : Block) : Kept b₁ (stealLimits b₁ c) ∧
      (stealLimits b₁ c).nextLobby = b₁.nextLobby ∧
      ∀ d, ((stealLimits b₁ c).client d).curLobby = (b₁.client d).curLobby := by
    rw [stealLimits]
    split_ifs
    · exact ⟨kept_modClient b₁ c _, rfl, curLobby_modClient b₁ c rfl⟩
    · exact ⟨.refl b₁, rfl, fun _ => rfl⟩
  obtain ⟨hkept, hnext, hcur⟩ := hsteal (takeId b (gameId b))
  have hid : unusedId b (fun id => if 0xFFFF < id + 1 then 0x20 else id + 1)
    (b.lobbies.length + 1) b.nextId = gameId b := rfl
  simp only [makeGame, lobbyCreateGame]
  rw [hid]
  generalize stealLimits (takeId b (gameId b)) c = b₀ at *
  by_cases hloaded : env.enemiesLoaded = false
  · left
    rw [if_pos hloaded]
    exact ⟨0, b₀, rfl, ⟨hkept.lobbies, hkept.numGames, fun h _ => hkept.tag h⟩, hkept.nextId⟩
  · right
    rw [if_neg hloaded]
    generalize hl : newGame a (gameId b)
      ((b.client c).account.legit && (b.client c).account.limits) = l
    have hunlisted := addLobby_unlisted hkept hnext hnew c l
    have hgame : l.type ≠ .lobby := by
      rw [← hl]
      change LobbyType.game ≠ LobbyType.lobby
      decide
    have hlists := listLobby_lists hkept hnext hcur hnew c hgame
    have hlobbyId : ((addLobby b₀ c l).lobby b₀.nextLobby).lobbyId = gameId b := by
      rw [← hl]
      simp [addLobby, newGame, Lobby.zero]
    rw [hnext] at hlists hlobbyId ⊢
    refine ⟨_, rfl, ?_, ?_, ?_⟩
    · split_ifs <;> exact hkept.nextId
    · intro hlisted
      rw [if_pos hlisted]
      exact ⟨⟨hlists.fresh, hlists.lobbies, hlists.numGames, hlists.tag, hlists.game,
        hlists.curLobby⟩, hlobbyId⟩
    · intro hlisted
      rw [if_neg hlisted]
      exact ⟨hunlisted.lobbies, hunlisted.numGames, hunlisted.tag⟩

theorem creates_refused (b : Block) (id : ℕ) (rv : Int) : Creates b id (b, .error rv) :=
  .unlisted ⟨rfl, rfl, fun _ _ => rfl⟩ (fun h => h)

theorem makeGame_creates {b : Block} (env : Env) {c : ClientId} {a : GameArgs}
    (hnew : b.nextLobby ∉ b.lobbies) (hlisted : ListedAtOnce (b.client c).account a) :
    Creates b (gameId b) (makeGame b env c a) := by
  rcases makeGame_listing b env c a hnew with
    ⟨rv, b', heq, hunlisted, hnext⟩ | ⟨b', heq, hnext, hlists, -⟩
  · rw [heq]
    exact .unlisted hunlisted (inRange_of_taken hnext)
  · rw [heq]
    obtain ⟨h, hid⟩ := hlists hlisted
    exact .listed h hid (inRange_of_taken hnext)

theorem pcProcessGameCreate_creates {b : Block} (env : Env) {c : ClientId} (pkt : CreatePkt)
    (hnew : b.nextLobby ∉ b.lobbies) (hversion : (b.client c).account.version = .pc) :
    Creates b (gameId b) (pcProcessGameCreate b env c pkt) := by
  have hlisted := listedAtOnce_pc pkt hversion
  rw [pcProcessGameCreate]
  by_cases hchar : (b.client c).gotChar = false
  · rw [if_pos hchar]
    exact creates_refused b _ _
  rw [if_neg hchar]
  by_cases hlow : tooLow (b.client c) pkt.difficulty = true
  · rw [if_pos hlow]
    exact creates_refused b _ _
  rw [if_neg hlow]
  rcases makeGame_listing b env c (GameArgs.mk pkt.passwd pkt.difficulty pkt.battle
    pkt.challenge true (b.client c).account.version 0 false) hnew with
    ⟨rv, b', heq, hunlisted, hnext⟩ | ⟨b', heq, hnext, hlists, hwaits⟩
  · rw [heq]
    exact .unlisted hunlisted (inRange_of_taken hnext)
  · rw [heq]
    dsimp only
    split_ifs with hasks
    · have h := hwaits (fun h => hlisted.mp h hasks)
      exact .unlisted ⟨h.lobbies, h.numGames, h.tag⟩ (inRange_of_taken hnext)
    · obtain ⟨h, hid⟩ := hlists (hlisted.mpr hasks)
      exact .listed h hid (inRange_of_taken hnext)

theorem gameCreate_creates (b : Block) (env : Env) (c : ClientId) (pkt : CreatePkt)
    (hnew : b.nextLobby ∉ b.lobbies) : Creates b (gameId b) (gameCreate b env c pkt) := by
  have hmade (a : GameArgs) (ha : a.version = (b.client c).account.version)
      (hversion : (b.client c).account.version ≠ .pc) :
      Creates b (gameId b) (makeGame b env c a) := by
    rw [← ha] at hversion
    exact makeGame_creates env hnew (listedAtOnce_of_version hversion)
  rw [gameCreate]
  split
  all_goals first
    | exact pcProcessGameCreate_creates env pkt hnew (by assumption)
    | simp only [bbProcessGameCreate, dcnteProcessGameCreate, gcProcessGameCreate,
        dcProcessGameCreate]
      split_ifs
      all_goals first
        | exact creates_refused b _ _
        | exact hmade _ rfl (by simp [*])

/-- The searches of both kinds of games find an id that no lobby of the list has. -/
theorem ep3ProcessGameCreate_creates (b : Block) (c : ClientId) (passwd : List UInt8)
    (hnew : b.nextLobby ∉ b.lobbies) :
    Creates b (unusedId b (· + 1) (b.lobbies.length + 1) 0x21)
      (ep3ProcessGameCreate b c passwd) := by
  rw [ep3ProcessGameCreate]
  split_ifs
  · exact creates_refused b _ _
  · exact creates_refused b _ _
  · refine .listed (listLobby_lists (.refl b) rfl (fun _ => rfl) hnew c ?_) ?_ (fun h => h)
    · change LobbyType.ep3Game ≠ LobbyType.lobby
      decide
    · simp [listLobby, addLobby, newEp3Game, Lobby.zero]

theorem processGameType_creates {b : Block} {c : ClientId} {l : LobbyHandle}
    (hcreate : (b.client c).createLobby = some l) (hnew : l ∉ b.lobbies)
    (hgame : (b.lobby l).type ≠ .lobby) (itemId : ℕ) :
    Creates b (b.lobby l).lobbyId (processGameType b c itemId) := by
  have htag : tag (setGameType itemId (b.lobby l)) = tag (b.lobby l) := by
    rw [setGameType]
    split_ifs <;> rfl
  have hkept : Kept b (b.modLobby l (setGameType itemId)) := kept_modLobby htag
  rw [processGameType, hcreate]
  split_ifs
  · exact creates_refused b _ _
  · refine .listed ⟨hnew, rfl, rfl, fun h _ => hkept.tag h, ?_, ?_⟩ ?_ (fun h => h)
    · change ((b.modLobby l (setGameType itemId)).lobby l).type ≠ .lobby
      rw [hkept.type]
      exact hgame
    · exact curLobby_modClient _ c rfl
    · exact congrArg Prod.fst (hkept.tag l)

theorem processGameType_refused {b : Block} {c : ClientId}
    (hcreate : (b.client c).createLobby = none) (itemId : ℕ) :
    ∃ rv, processGameType b c itemId = (b, .error rv) := by
  rw [processGameType, hcreate]
  split_ifs
  · exact ⟨-1, rfl⟩
  · exact ⟨0, rfl⟩

theorem creation_counted {b : Block} (hb : Invariant b) (hcounted : Counted b) {e : Event}
    {t : Block × Except Int LobbyHandle} (ht : creation b e = some t) : Offered Counted t := by
  have hin : Inside b := hb.orderly.inside
  have hnew : b.nextLobby ∉ b.lobbies := fun h => (hb.orderly.below _ h).false
  obtain ⟨env, action⟩ := e
  cases action with
  | gameCreate c pkt =>
    cases ht
    exact (gameCreate_creates b env c pkt hnew).counted hin hcounted
  | ep3GameCreate c passwd =>
    cases ht
    exact (ep3ProcessGameCreate_creates b c passwd hnew).counted hin hcounted
  | gameType c itemId =>
    cases ht
    cases hcreate : (b.client c).createLobby with
    | none =>
      obtain ⟨rv, heq⟩ := processGameType_refused hcreate itemId
      rw [heq]
      exact (creates_refused b 0 rv).counted hin hcounted
    | some l =>
      obtain ⟨-, hunlisted, hgame, -⟩ := hb.orderly.waiting c l hcreate
      exact (processGameType_creates hcreate hunlisted hgame itemId).counted hin hcounted
  | _ => cases ht

theorem next_counted {b : Block} (hb : Invariant b) (hcounted : Counted b) (e : Event) :
    Counted (next b e) :=
  next_stable counted_stable hb.orderly.inside hcounted e fun _ ht =>
    creation_counted hb hcounted ht

theorem start_counted : Counted Block.start := by
  unfold Counted
  decide

/-- `num_games` is right at all times. -/
theorem numGames_counted {b : Block} {events : List Event}
    (hrun : Run (StepOf next) Always Block.start events b) : Counted b := by
  have hboth : Invariant b ∧ Counted b := by
    apply hrun.invariant (fun b => Invariant b ∧ Counted b) ⟨initial_invariant, start_counted⟩
    rintro b₀ e b₁ ⟨hb₀, hcounted⟩ - rfl
    exact ⟨next_invariant hb₀ e, next_counted hb₀ hcounted e⟩
  exact hboth.2

/-- The ids are different, and the next search starts in its range. -/
def Numbered (b : Block) : Prop :=
  Distinct b ∧ InRange b

theorem numbered_stable : Stable Numbered where
  kept h hb := ⟨distinct_stable.kept h hb.1, inRange_stable.kept h hb.2⟩
  destroyed hl hb := ⟨distinct_stable.destroyed hl hb.1, inRange_stable.destroyed hl hb.2⟩

theorem Creates.numbered {b : Block} {id : ℕ} {t : Block × Except Int LobbyHandle}
    (h : Creates b id t) (hin : Inside b) (hb : Numbered b)
    (hfree : blockGetLobby b id = none) : Offered Numbered t := by
  cases h with
  | unlisted h hnext => exact ⟨⟨h.distinct hb.1, hnext hb.2⟩, fun l hl => nomatch hl⟩
  | @listed b' l h hid hnext =>
    refine ⟨⟨h.distinct hb.1 (hid ▸ hfree), hnext hb.2⟩, ?_⟩
    rintro k ⟨⟩
    exact ⟨h.inside hin, h.mem⟩

theorem creation_numbered {b : Block} (hb : Invariant b) (hnumbered : Numbered b) {e : Event}
    (hfresh : Fresh b e) {t : Block × Except Int LobbyHandle} (ht : creation b e = some t) :
    Offered Numbered t := by
  have hin : Inside b := hb.orderly.inside
  have hnew : b.nextLobby ∉ b.lobbies := fun h => (hb.orderly.below _ h).false
  obtain ⟨env, action⟩ := e
  cases action with
  | gameCreate c pkt =>
    cases ht
    exact (gameCreate_creates b env c pkt hnew).numbered hin hnumbered
      (gameId_free hnumbered.2 hfresh)
  | ep3GameCreate c passwd =>
    cases ht
    exact (ep3ProcessGameCreate_creates b c passwd hnew).numbered hin hnumbered (ep3Id_free b)
  | gameType c itemId =>
    cases ht
    cases hcreate : (b.client c).createLobby with
    | none =>
      obtain ⟨rv, heq⟩ := processGameType_refused hcreate itemId
      rw [heq]
      exact ⟨hnumbered, fun l hl => nomatch hl⟩
    | some l =>
      obtain ⟨-, hunlisted, hgame, -⟩ := hb.orderly.waiting c l hcreate
      exact (processGameType_creates hcreate hunlisted hgame itemId).numbered hin hnumbered
        (hfresh l hcreate)
  | _ => cases ht

theorem start_numbered : Numbered Block.start := by
  unfold Numbered Distinct InRange
  decide

/-- The lobbies of a block have different ids, and its games are counted, as long as nobody takes
the id of a game that waits for its type. -/
theorem lobbyIds_distinct {b : Block} {events : List Event}
    (hrun : Run (StepOf next) Fresh Block.start events b) : Distinct b ∧ Counted b := by
  have hall : Invariant b ∧ Counted b ∧ Numbered b := by
    apply hrun.invariant (fun b => Invariant b ∧ Counted b ∧ Numbered b)
      ⟨initial_invariant, start_counted, start_numbered⟩
    rintro b₀ e b₁ ⟨hb₀, hcounted, hnumbered⟩ hfresh rfl
    have hnext := next_stable numbered_stable hb₀.orderly.inside hnumbered e fun _ ht =>
      creation_numbered hb₀ hnumbered hfresh ht
    exact ⟨next_invariant hb₀ e, next_counted hb₀ hcounted e, hnext⟩
  exact ⟨hall.2.2.1, hall.2.1⟩

/-- A client of a version logs in and sends its character data. -/
def arrival (c : ClientId) (version : ClientVersion) : List Action :=
  [.account c { ShipClient.fresh.account with version := version }, .charData c false newcomer]

theorem lobbyIds_distinct_pcGame :
    Distinct ((obliging (arrival 0 .pc ++ [.gameCreate 0 (gameWith []), .gameType 0 1])).foldl next
        Block.start) ∧
      Counted ((obliging (arrival 0 .pc ++ [.gameCreate 0 (gameWith []), .gameType 0 1])).foldl next
        Block.start) := by
  have hrun : Run (StepOf next) Fresh Block.start
      (obliging (arrival 0 .pc ++ [.gameCreate 0 (gameWith []), .gameType 0 1]))
      ((obliging (arrival 0 .pc ++ [.gameCreate 0 (gameWith []), .gameType 0 1])).foldl next
        Block.start) := by
    refine .move trivial rfl (.move trivial rfl (.move ⟨0x20, by decide, by decide, ?_⟩ rfl
      (.move ?_ rfl (.stop _))))
    · decide +kernel
    · intro l hl
      have hpending : l = 20 := Option.some.inj (hl.symm.trans (by decide +kernel))
      subst hpending
      decide +kernel
  exact lobbyIds_distinct hrun

/-- A game takes the first id. The second one goes to a game that waits for its type, and to an
Episode 3 game, before the type is chosen. -/
def crossing : List Event :=
  obliging (arrival 0 .gc ++ arrival 1 .pc ++ arrival 2 .ep3 ++ [.gameCreate 0 (gameWith []),
    .gameCreate 1 (gameWith []), .ep3GameCreate 2 [], .gameType 1 1])

theorem lobbyIds_not_distinct :
    ¬∀ b events, Run (StepOf next) Always Block.start events b → Distinct b ∧ Counted b := by
  intro h
  have hdistinct := (h _ crossing (run_foldl next Block.start crossing)).1
  revert hdistinct
  unfold Distinct
  decide +kernel

end ShipServer.LobbyIds
