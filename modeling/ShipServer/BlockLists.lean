import ShipServer.LobbyMembership

set_option autoImplicit false

namespace ShipServer.BlockLists

open Versions LobbyRooms LobbyState LobbyFunctions DeferredPackets BlockPackets BlockEffects

/-- The fields of a lobby that are set once. -/
def tag (l : Lobby) : ℕ × LobbyType :=
  (l.lobbyId, l.type)

/-- No lobby has come onto the list or left it. -/
structure Kept (b b' : Block) : Prop where
  lobbies : b'.lobbies = b.lobbies
  nextId : b'.nextId = b.nextId
  numGames : b'.numGames = b.numGames
  tag : ∀ h, BlockLists.tag (b'.lobby h) = BlockLists.tag (b.lobby h)

theorem Kept.refl (b : Block) : Kept b b :=
  ⟨rfl, rfl, rfl, fun _ => rfl⟩

theorem Kept.trans {b b' b'' : Block} (h : Kept b b') (h' : Kept b' b'') : Kept b b'' where
  lobbies := h'.lobbies.trans h.lobbies
  nextId := h'.nextId.trans h.nextId
  numGames := h'.numGames.trans h.numGames
  tag k := (h'.tag k).trans (h.tag k)

theorem Kept.type {b b' : Block} (h : Kept b b') (k : LobbyHandle) :
    (b'.lobby k).type = (b.lobby k).type :=
  congrArg Prod.snd (h.tag k)

theorem kept_modClient (b : Block) (c : ClientId) (f : ShipClient → ShipClient) :
    Kept b (b.modClient c f) :=
  ⟨rfl, rfl, rfl, fun _ => rfl⟩

theorem kept_modLobby {b : Block} {h : LobbyHandle} {f : Lobby → Lobby}
    (hf : tag (f (b.lobby h)) = tag (b.lobby h)) : Kept b (b.modLobby h f) := by
  refine ⟨rfl, rfl, rfl, fun k => ?_⟩
  by_cases hk : k = h
  · rw [hk, Block.lobby_modLobby, hf]
  · simp [Block.modLobby, hk]

theorem kept_of_update {b b' : Block} {h : LobbyHandle} {l : Lobby}
    (hlobby : b'.lobby = Function.update b.lobby h l) (hl : tag l = tag (b.lobby h))
    (hlobbies : b'.lobbies = b.lobbies) (hid : b'.nextId = b.nextId)
    (hgames : b'.numGames = b.numGames) : Kept b b' := by
  refine ⟨hlobbies, hid, hgames, fun k => ?_⟩
  rw [hlobby]
  by_cases hk : k = h
  · rw [hk, Function.update_self, hl]
  · rw [Function.update_of_ne hk]

theorem updateMaxChal_kept (b : Block) (h : LobbyHandle) : Kept b (updateMaxChal b h) := by
  rw [updateMaxChal]
  split_ifs
  · exact kept_modLobby rfl
  · exact .refl b

theorem clearOnlyOne_kept (b : Block) (h : LobbyHandle) : Kept b (clearOnlyOne b h) := by
  rw [clearOnlyOne]
  split_ifs
  · exact .refl b
  · exact kept_modLobby rfl

theorem putClient_kept (b : Block) (now : ℕ) (c : ClientId) (h : LobbyHandle) (i : Slot) :
    Kept b (putClient b now c h i) := by
  have hentered : Kept b (updateMaxChal ((b.modClient c (fun x =>
      { x with curLobby := some h, clientId := i, joinTime := now })).modLobby h
        (fun l => { l with toRoom := l.toRoom.enter c i })) h) :=
    ((kept_modClient b c _).trans (kept_modLobby rfl)).trans (updateMaxChal_kept _ h)
  simp only [putClient]
  split_ifs
  · exact hentered.trans (kept_modLobby rfl)
  · exact hentered

theorem lobbyAddClientLocked_kept (b : Block) (now : ℕ) (c : ClientId) (h : LobbyHandle) :
    Kept b (lobbyAddClientLocked b now c h).1 := by
  rw [lobbyAddClientLocked]
  split_ifs
  · exact .refl b
  · have hcleared := clearOnlyOne_kept b h
    generalize clearOnlyOne b h = b₁ at *
    dsimp only
    split
    · exact hcleared
    · exact hcleared.trans (putClient_kept b₁ now c h _)

theorem addIfRoom_kept (b : Block) (now : ℕ) (c : ClientId) (h : LobbyHandle) :
    Kept b (addIfRoom b now c h).1 := by
  rw [addIfRoom]
  split_ifs
  · have hadded := lobbyAddClientLocked_kept b now c h
    generalize lobbyAddClientLocked b now c h = t at *
    dsimp only
    split_ifs
    · exact hadded.trans ⟨rfl, rfl, rfl, fun _ => rfl⟩
    · exact hadded
  · exact .refl b

theorem addToFirst_kept (now : ℕ) (c : ClientId) (hs : List LobbyHandle) (b : Block) :
    Kept b (addToFirst now c hs b).1 := by
  induction hs generalizing b with
  | nil => exact .refl b
  | cons h hs ih =>
    rw [addToFirst]
    split_ifs
    · exact ih b
    · have hadded := addIfRoom_kept b now c h
      generalize addIfRoom b now c h = t at *
      dsimp only
      split_ifs
      · exact hadded
      · exact hadded.trans (ih t.1)

theorem lobbyAddToAny_kept (b : Block) (now : ℕ) (c : ClientId) (req : Option LobbyHandle) :
    Kept b (lobbyAddToAny b now c req).1 := by
  rw [lobbyAddToAny.eq_def]
  cases req with
  | none => exact addToFirst_kept now c b.lobbies b
  | some h =>
    have hadded := (kept_modClient b c (fun x => { x with lobbyReq := none })).trans
      (addIfRoom_kept _ now c h)
    dsimp only
    generalize addIfRoom _ now c h = t at *
    split_ifs
    · exact hadded
    · exact hadded.trans (addToFirst_kept now c _ t.1)

theorem replaceLeader_kept (b : Block) (now : ℕ) (h : LobbyHandle) :
    Kept b (replaceLeader b now h) := by
  have hcross : Kept b (lobbyElectLeaderCrossLocked b now h).1 := by
    simp only [lobbyElectLeaderCrossLocked]
    split
    · exact .refl b
    · exact kept_of_update rfl rfl rfl rfl rfl
  simp only [replaceLeader]
  split_ifs
  · exact hcross.trans (kept_modLobby rfl)
  · exact kept_modLobby rfl

theorem emptySlot_kept (b : Block) (now : ℕ) (i : Slot) (h : LobbyHandle) :
    Kept b (emptySlot b now i h) := by
  simp only [emptySlot]
  split_ifs
  · exact ((replaceLeader_kept b now h).trans (kept_modLobby rfl)).trans (updateMaxChal_kept _ h)
  · exact (kept_modLobby rfl : Kept b _).trans (updateMaxChal_kept _ h)

theorem lobbyRemoveClientLocked_kept (b : Block) (now : ℕ) (c : ClientId) (i : Slot)
    (h : LobbyHandle) : Kept b (lobbyRemoveClientLocked b now c i h).1 := by
  have hempty := emptySlot_kept b now i h
  rw [lobbyRemoveClientLocked]
  split_ifs
  · dsimp only
    rw [clearCurLobby]
    split_ifs
    · exact hempty.trans (kept_modClient _ c _)
    · exact hempty
  · exact .refl b

/-- A default lobby is never to be destroyed. -/
theorem lobbyRemoveClientLocked_type {b : Block} {now : ℕ} {c : ClientId} {i : Slot}
    {h : LobbyHandle} (hpos : 0 ≤ (lobbyRemoveClientLocked b now c i h).2)
    (hdestroy : (lobbyRemoveClientLocked b now c i h).2 ≠ 0) : (b.lobby h).type ≠ .lobby := by
  have hkept := lobbyRemoveClientLocked_kept b now c i h
  rw [← hkept.type h]
  rw [lobbyRemoveClientLocked] at hpos hdestroy ⊢
  split_ifs at hpos hdestroy ⊢ with hslot
  · intro htype
    exact hdestroy (if_pos htype)
  · exact absurd (show (0 : ℤ) ≤ -1 from hpos) (by decide)

theorem settle_kept (b : Block) (c : ClientId) : Kept b (settle b c) := by
  rw [settle]
  cases (b.client c).curLobby with
  | none => exact .refl b
  | some h =>
    dsimp only
    split_ifs
    · exact kept_modClient b c _
    · exact (kept_modLobby rfl : Kept b _).trans (kept_modClient _ c _)

theorem lobbyEnqueuePkt_kept (b : Block) (env : Env) (h : LobbyHandle) (c : ClientId)
    (p : GamePkt) : Kept b (lobbyEnqueuePkt b env h c p).1 := by
  rw [lobbyEnqueuePkt]
  split
  · exact .refl b
  · exact kept_of_update rfl rfl rfl rfl rfl

theorem lobbyEnqueueBurst_kept (b : Block) (env : Env) (h : LobbyHandle) (c : ClientId)
    (p : GamePkt) : Kept b (lobbyEnqueueBurst b env h c p).1 := by
  rw [lobbyEnqueueBurst]
  split
  · exact .refl b
  · exact kept_of_update rfl rfl rfl rfl rfl

theorem subcmdHandleOne_kept (b : Block) (env : Env) (k : ℕ) (c : ClientId) (p : GamePkt) :
    Kept b (subcmdHandleOne b env k c p).1 := by
  rw [subcmdHandleOne]
  by_cases htrial : IsDcnte (b.client c)
  · rw [if_pos htrial, subcmdDcnteHandleOne]
    split <;> exact .refl b
  · rw [if_neg htrial]
    cases (b.client c).curLobby with
    | none => exact .refl b
    | some h =>
      dsimp only
      split_ifs
      · exact .refl b
      · exact lobbyEnqueueBurst_kept b env h c p
      · exact .refl b
      · exact .refl b
      · exact lobbyEnqueuePkt_kept b env h c p
      · exact .refl b

theorem subcmdHandleBcast_kept (b : Block) (env : Env) (k : ℕ) (c : ClientId) (p : GamePkt) :
    Kept b (subcmdHandleBcast b env k c p).1 := by
  rw [subcmdHandleBcast]
  by_cases htrial : IsDcnte (b.client c)
  · rw [if_pos htrial, subcmdDcnteHandleBcast]
    cases (b.client c).curLobby with
    | none => exact .refl b
    | some h =>
      dsimp only
      split_ifs
      · exact kept_of_update rfl rfl rfl rfl rfl
      · exact .refl b
  · rw [if_neg htrial]
    cases (b.client c).curLobby with
    | none => exact .refl b
    | some h =>
      dsimp only
      split_ifs
      · exact lobbyEnqueuePkt_kept b env h c p
      · exact .refl b

theorem redeliver_kept (b : Block) (env : Env) (k : ℕ) (h : LobbyHandle) (src : ClientId)
    (p : GamePkt) : Kept b (redeliver b env k h src p).1 := by
  have hnoted (x : Handing) : Kept b (noteHanded b h x) := ⟨rfl, rfl, rfl, fun _ => rfl⟩
  rw [redeliver]
  split_ifs
  · exact (hnoted _).trans (subcmdHandleBcast_kept _ env k src p)
  · exact (hnoted _).trans (subcmdHandleOne_kept _ env k src p)
  · exact .refl b

theorem drainOnce_kept (env : Env) (h : LobbyHandle) (s : Block × Int × ℕ) :
    Kept s.1 (drainOnce env h s).1 := by
  rw [drainOnce]
  cases (s.1.lobby h).pktQueue with
  | nil => exact .refl s.1
  | cons x rest =>
    dsimp only
    have hpop : Kept s.1 (s.1.modLobby h (fun l => { l with pktQueue := rest })) :=
      kept_modLobby rfl
    by_cases hrv : s.2.1 = 0
    · rw [if_pos hrv]
      exact hpop.trans (redeliver_kept _ env s.2.2 h x.1 x.2)
    · rw [if_neg hrv]
      exact hpop

theorem iterate_drainOnce_kept (env : Env) (h : LobbyHandle) (n : ℕ) (s : Block × Int × ℕ) :
    Kept s.1 ((drainOnce env h)^[n] s).1 := by
  induction n generalizing s with
  | zero => exact .refl s.1
  | succ n ih =>
    rw [Function.iterate_succ_apply]
    exact (drainOnce_kept env h s).trans (ih _)

theorem lobbyHandleDoneBurst_kept (b : Block) (env : Env) (h : LobbyHandle) :
    Kept b (lobbyHandleDoneBurst b env h).1 :=
  iterate_drainOnce_kept env h _ (b, 0, 0)

theorem endOwnBurst_kept (b : Block) (env : Env) (c : ClientId) (h : LobbyHandle) :
    Kept b (endOwnBurst b env c h) := by
  rw [endOwnBurst]
  split_ifs
  · exact (kept_modLobby rfl : Kept b _).trans (lobbyHandleDoneBurst_kept _ env h)
  · exact .refl b

/-- A property of the list of lobbies: only arrivals and departures matter to it, and no lobby
that leaves the list can break it. -/
structure Stable (P : Block → Prop) : Prop where
  kept : ∀ {b b' : Block}, Kept b b' → P b → P b'
  destroyed : ∀ {b : Block} {h : LobbyHandle}, h ∈ b.lobbies → P b → P (lobbyDestroyLocked b h)

/-- Whoever is in a game is in one of the list. -/
def Inside (b : Block) : Prop :=
  ∀ c h, (b.client c).curLobby = some h → (b.lobby h).type ≠ .lobby → h ∈ b.lobbies

section

variable {P : Block → Prop} {b : Block} (hP : Stable P) (hin : Inside b) (hb : P b)

include hP hin hb

theorem lobbyRemovePlayer_stable (env : Env) (c : ClientId) : P (lobbyRemovePlayer b env c).1 := by
  have hleft (b' : Block) : Kept b' (b'.modClient c (fun x => { x with curLobby := none })) :=
    kept_modClient b' c _
  rw [lobbyRemovePlayer]
  cases hcur : (b.client c).curLobby with
  | none => exact hb
  | some h =>
    have hown := endOwnBurst_kept b env c h
    dsimp only
    generalize endOwnBurst b env c h = b₁ at *
    have hremoved := lobbyRemoveClientLocked_kept b₁ env.now c (b₁.client c).clientId h
    have htype := @lobbyRemoveClientLocked_type b₁ env.now c (b₁.client c).clientId h
    generalize lobbyRemoveClientLocked b₁ env.now c (b₁.client c).clientId h = t at *
    have hboth := hown.trans hremoved
    have ht := hP.kept hboth hb
    split_ifs with hneg hzero
    · exact ht
    · exact hP.kept (hleft t.1) ht
    · have hgame := htype (not_lt.mp hneg) hzero
      rw [hown.type h] at hgame
      have hlisted := hin c h hcur hgame
      rw [← hboth.lobbies] at hlisted
      exact hP.kept (hleft _) (hP.destroyed hlisted ht)

/-- Where `lobby_change_lobby` fails, it has not destroyed a lobby. -/
theorem lobbyChangeLobby_stable (env : Env) (c : ClientId) (req : LobbyHandle) :
    P (lobbyChangeLobby b env c req).1 ∧ ((lobbyChangeLobby b env c req).2 ≠ 0 →
      (lobbyChangeLobby b env c req).1.lobbies = b.lobbies) := by
  have hkept₀ := kept_modClient b c (fun x => { x with overrideGame := false })
  have hcur₀ : ((b.modClient c (fun x => { x with overrideGame := false })).client c).curLobby =
      (b.client c).curLobby := by
    rw [Block.client_modClient]
  rw [lobbyChangeLobby]
  generalize b.modClient c (fun x => { x with overrideGame := false }) = b₀ at *
  cases hcur : (b₀.client c).curLobby with
  | none =>
    have hany := hkept₀.trans (lobbyAddToAny_kept b₀ env.now c (some req))
    dsimp only
    rw [changeFromNowhere]
    generalize lobbyAddToAny b₀ env.now c (some req) = t at *
    dsimp only
    split_ifs
    · exact ⟨hP.kept hany hb, fun _ => hany.lobbies⟩
    · exact ⟨hP.kept hany hb, fun _ => hany.lobbies⟩
  | some l =>
    dsimp only
    cases changeRefusal env (b₀.client c) (b.client c).overrideGame (b₀.lobby req) with
    | some rv => exact ⟨hP.kept hkept₀ hb, fun _ => hkept₀.lobbies⟩
    | none =>
      dsimp only
      by_cases hsame : l = req
      · rw [if_pos hsame]
        have hsettled := hkept₀.trans (settle_kept b₀ c)
        exact ⟨hP.kept hsettled hb, fun _ => hsettled.lobbies⟩
      · rw [if_neg hsame, changeToOther]
        have hadded := hkept₀.trans (lobbyAddClientLocked_kept b₀ env.now c req)
        generalize lobbyAddClientLocked b₀ env.now c req = t at *
        dsimp only
        by_cases hfull : t.2 ≠ 0
        · rw [if_pos hfull]
          exact ⟨hP.kept hadded hb, fun _ => hadded.lobbies⟩
        rw [if_neg hfull]
        have hremoved := hadded.trans
          (lobbyRemoveClientLocked_kept t.1 env.now c (b₀.client c).clientId l)
        have htype := @lobbyRemoveClientLocked_type t.1 env.now c (b₀.client c).clientId l
        generalize lobbyRemoveClientLocked t.1 env.now c (b₀.client c).clientId l = u at *
        by_cases hneg : u.2 < 0
        · rw [if_pos hneg]
          exact ⟨hP.kept hremoved hb, fun _ => hremoved.lobbies⟩
        rw [if_neg hneg]
        have hsettled := hremoved.trans (settle_kept u.1 c)
        refine ⟨?_, fun hrv => absurd rfl hrv⟩
        dsimp only
        split_ifs with hzero
        · exact hP.kept hsettled hb
        · have hgame := htype (not_lt.mp hneg) hzero
          rw [hadded.type l] at hgame
          have hlisted := hin c l (hcur₀ ▸ hcur) hgame
          rw [← hsettled.lobbies] at hlisted
          exact hP.destroyed hlisted (hP.kept hsettled hb)

theorem joinGame_stable (env : Env) (c : ClientId) (l : LobbyHandle) :
    P (joinGame b env c l).1 ∧
      ((joinGame b env c l).2 ≠ 0 → (joinGame b env c l).1.lobbies = b.lobbies) := by
  rw [joinGame]
  split_ifs
  · exact ⟨hb, fun _ => rfl⟩
  · have hchange := lobbyChangeLobby_stable hP hin hb env c l
    generalize lobbyChangeLobby b env c l = t at *
    dsimp only
    have hdone : Kept t.1 (setAccount t.1 c (fun a => { a with legit := false })) :=
      kept_modClient t.1 c _
    split_ifs
    · exact hchange
    · exact ⟨hP.kept hdone hchange.1, hchange.2⟩

theorem joinSelected_stable (env : Env) (c : ClientId) (l : LobbyHandle) :
    P (joinSelected env c (b, .ok l)).1 :=
  (joinGame_stable hP hin hb env c l).1

/-- A new game whose maker cannot join it is taken off the list again. -/
theorem joinMade_stable (env : Env) (c : ClientId) {l : LobbyHandle} (hl : l ∈ b.lobbies) :
    P (joinMade env c (b, .ok l)).1 := by
  have hjoin := joinGame_stable hP hin hb env c l
  rw [joinMade]
  generalize joinGame b env c l = t at *
  dsimp only
  split_ifs with hrv
  · exact hjoin.1
  · rw [← hjoin.2 hrv] at hl
    exact hP.destroyed hl hjoin.1

theorem disconnect_stable (env : Env) (c : ClientId) : P (disconnect b env c) := by
  have hremoved := lobbyRemovePlayer_stable hP hin hb env c
  rw [disconnect]
  generalize lobbyRemovePlayer b env c = t at *
  cases (t.1.client c).createLobby with
  | none => exact hP.kept (kept_modClient t.1 c _) hremoved
  | some h =>
    have hfreed : Kept t.1 (lobbyDestroyNoremove t.1 h) := kept_modLobby rfl
    exact hP.kept (hfreed.trans (kept_modClient _ c _)) hremoved

end

theorem arriveWithChar_kept (b : Block) (env : Env) (c : ClientId) :
    Kept b (arriveWithChar b env c).1 := by
  have hgot (b' : Block) : Kept b' (b'.modClient c (fun x => { x with gotChar := true })) :=
    kept_modClient b' c _
  rw [arriveWithChar]
  cases (b.client c).curLobby with
  | some h => exact hgot b
  | none =>
    have hany := lobbyAddToAny_kept b env.now c (b.client c).lobbyReq
    dsimp only
    generalize lobbyAddToAny b env.now c (b.client c).lobbyReq = t at *
    split_ifs
    · exact hany
    · exact hany
    · exact hany
    · exact hany.trans (hgot t.1)

theorem curLobby_modClient (b : Block) (c : ClientId) {f : ShipClient → ShipClient}
    (hf : (f (b.client c)).curLobby = (b.client c).curLobby) (d : ClientId) :
    ((b.modClient c f).client d).curLobby = (b.client d).curLobby := by
  by_cases hd : d = c
  · rw [hd, Block.client_modClient, hf]
  · simp [Block.modClient, Function.update_of_ne hd]

theorem charData_stable {P : Block → Prop} {b : Block} (hP : Stable P) (hin : Inside b)
    (hb : P b) (env : Env) (c : ClientId) (leaveGame : Bool) (pl : PlayerData) :
    P (next b ⟨env, .charData c leaveGame pl⟩) := by
  have hset (b' : Block) (f : Account → Account) : Kept b' (setAccount b' c f) :=
    kept_modClient b' c _
  have hinside (b' : Block) (f : Account → Account) (h : Inside b') :
      Inside (setAccount b' c f) := by
    intro d k hcur
    rw [setAccount, curLobby_modClient b' c rfl] at hcur
    exact h d k hcur
  have hb₁ := hP.kept (hset b (fun a => { a with player := pl })) hb
  have hin₁ := hinside b (fun a => { a with player := pl }) hin
  have harrives := hP.kept (arriveWithChar_kept _ env c) hb₁
  simp only [next, bbProcessChar, dcProcessChar]
  generalize setAccount b c (fun a => { a with player := pl }) = b₁ at *
  have hb₂ := hP.kept (hset b₁ (fun a => { a with legit := false })) hb₁
  have hin₂ := hinside b₁ (fun a => { a with legit := false }) hin₁
  split_ifs
  · exact lobbyRemovePlayer_stable hP hin₁ hb₁ env c
  · exact harrives
  · exact hb
  · exact lobbyRemovePlayer_stable hP hin₂ hb₂ env c
  · exact harrives

theorem dcProcessDoneBurst_kept (b : Block) (env : Env) (c : ClientId) :
    Kept b (dcProcessDoneBurst b env c).1 := by
  rw [dcProcessDoneBurst]
  cases (b.client c).curLobby with
  | none => exact .refl b
  | some h =>
    dsimp only
    split_ifs
    · exact .refl b
    · exact ⟨rfl, rfl, rfl, fun _ => rfl⟩
    · refine Kept.trans ?_ (lobbyHandleDoneBurst_kept _ env h)
      exact kept_of_update rfl rfl rfl rfl rfl

theorem processPing_kept (b : Block) (env : Env) (c : ClientId) :
    Kept b (processPing b env c).1 := by
  have hcheck : Kept b (pingLegitCheck b env c).1 := by
    rw [pingLegitCheck]
    split_ifs <;> exact ⟨rfl, rfl, rfl, fun _ => rfl⟩
  rw [processPing]
  generalize pingLegitCheck b env c = t at *
  dsimp only
  by_cases hstop : t.2 = false ∨ (t.1.client c).waitQping = false
  · rw [if_pos hstop]
    exact hcheck
  rw [if_neg hstop]
  cases (t.1.client c).curLobby with
  | none => exact hcheck
  | some h =>
    refine hcheck.trans (Kept.trans ?_ (lobbyHandleDoneBurst_kept _ env h))
    refine Kept.trans (kept_modLobby rfl : Kept t.1 (t.1.modLobby h
      (fun l => { l with bursting := false }))) ?_
    exact (kept_modClient _ c _).trans (kept_modLobby rfl)

theorem processGamePkt_kept (b : Block) (env : Env) (c : ClientId) (p : GamePkt) :
    Kept b (processGamePkt b env c p).1 := by
  rw [processGamePkt]
  split_ifs
  · exact .refl b
  · exact subcmdHandleBcast_kept b env 0 c p
  · exact subcmdHandleOne_kept b env 0 c p
  · exact .refl b

/-- What the packets that make a game do before its maker joins it. -/
def creation (b : Block) (e : Event) : Option (Block × Except Int LobbyHandle) :=
  match e.action with
  | .gameCreate c pkt => some (gameCreate b e.env c pkt)
  | .ep3GameCreate c passwd => some (ep3ProcessGameCreate b c passwd)
  | .gameType c itemId => some (processGameType b c itemId)
  | _ => none

/-- The property holds with a new game, which is on the list then. -/
structure Offered (P : Block → Prop) (t : Block × Except Int LobbyHandle) : Prop where
  holds : P t.1
  listed : ∀ l, t.2 = .ok l → Inside t.1 ∧ l ∈ t.1.lobbies

theorem Offered.joinMade {P : Block → Prop} (hP : Stable P) {t : Block × Except Int LobbyHandle}
    (h : Offered P t) (env : Env) (c : ClientId) : P (BlockPackets.joinMade env c t).1 := by
  obtain ⟨b, r⟩ := t
  cases r with
  | error rv => exact h.holds
  | ok l =>
    obtain ⟨hin, hl⟩ := h.listed l rfl
    exact joinMade_stable hP hin h.holds env c hl

/-- All other packets keep what only the list matters to. -/
theorem next_stable {P : Block → Prop} {b : Block} (hP : Stable P) (hin : Inside b) (hb : P b)
    (e : Event) (hmade : ∀ t, creation b e = some t → Offered P t) : P (next b e) := by
  obtain ⟨env, action⟩ := e
  cases action with
  | disconnect c => exact disconnect_stable hP hin hb env c
  | account c a =>
    have hkept : Kept b (setAccount b c (fun _ => a)) := kept_modClient b c _
    exact hP.kept hkept hb
  | meetTheUser c menu =>
    have hkept : Kept b (meetTheUser b c menu) := by
      rw [meetTheUser]
      split <;> exact ⟨rfl, rfl, rfl, fun _ => rfl⟩
    exact hP.kept hkept hb
  | settings h s =>
    have hkept : Kept b (b.modLobby h (fun l => { l with settings := s })) := kept_modLobby rfl
    exact hP.kept hkept hb
  | passwd c params =>
    have hkept : Kept b (handlePasswd b c params) := by
      rw [handlePasswd]
      split
      · exact .refl b
      · split_ifs
        · exact kept_modLobby rfl
        · exact .refl b
    exact hP.kept hkept hb
  | override c =>
    have hkept : Kept b (handleOverride b c) := by
      rw [handleOverride]
      split
      · exact .refl b
      · split_ifs <;> exact ⟨rfl, rfl, rfl, fun _ => rfl⟩
    exact hP.kept hkept hb
  | logout c =>
    have hkept : Kept b (handleLogout b c) := kept_modClient b c _
    exact hP.kept hkept hb
  | charData c leaveGame pl => exact charData_stable hP hin hb env c leaveGame pl
  | changeLobby c itemId =>
    simp only [next, processChangeLobby]
    split_ifs
    · exact hb
    · split
      · exact hb
      · exact (lobbyChangeLobby_stable hP hin hb env c _).1
  | menuGame c itemId passwd =>
    simp only [next]
    have hkept (l : LobbyHandle) (cmp : List UInt8) : Kept b (submit b c l cmp) :=
      ⟨rfl, rfl, rfl, fun _ => rfl⟩
    rcases processMenuGame_cases b env c itemId passwd with
      ⟨rv, heq⟩ | ⟨l, cmp, -, ⟨rv, heq⟩ | ⟨heq, -⟩⟩
    · rw [heq]
      exact hb
    · rw [heq]
      exact hP.kept (hkept l cmp) hb
    · rw [heq]
      have hin' : Inside (submit b c l cmp) := hin
      exact joinSelected_stable hP hin' (hP.kept (hkept l cmp) hb) env c l
  | gameCreate c pkt => exact (hmade _ rfl).joinMade hP env c
  | ep3GameCreate c passwd => exact (hmade _ rfl).joinMade hP env c
  | gameType c itemId => exact (hmade _ rfl).joinMade hP env c
  | doneBurst c => exact hP.kept (dcProcessDoneBurst_kept b env c) hb
  | ping c =>
    have hkept : Kept b (next b ⟨env, .ping c⟩) := by
      rw [next]
      dsimp only
      split_ifs
      · exact .refl b
      · exact processPing_kept b env c
    exact hP.kept hkept hb
  | gamePkt c p => exact hP.kept (processGamePkt_kept b env c p) hb

end ShipServer.BlockLists
