import ShipServer.LobbyMembership
import ShipServer.MinimumScans

set_option autoImplicit false

namespace ShipServer.LeaderElection

open LabelledRuns MinimumScans Versions LobbyRooms LobbyState LobbyFunctions DeferredPackets
open LobbyRefinement BlockPackets BlockEffects BlockInvariants LobbyMembership

/-- A client that stays in a lobby when slot `i` is given up. -/
def Remains (l : Lobby) (i j : Slot) (d : ClientId) : Prop :=
  j ≠ i ∧ l.clients j = some d

/-- A cross-platform game: one for Dreamcast or PC that lets Gamecube players in. -/
def CrossPlatform (l : Lobby) : Prop :=
  l.version < .gc ∧ l.settings.gcAllowed = true

/-- A client on Dreamcast or PC stays. -/
def PreGcRemains (b : Block) (l : Lobby) (i : Slot) : Prop :=
  ∃ j d, Remains l i j d ∧ (b.client d).account.version < .gc

/-- Who may lead after slot `i` is given up: as long as there is one, somebody on Dreamcast or PC
leads a cross-platform game. -/
def Candidate (b : Block) (l : Lobby) (i j : Slot) (d : ClientId) : Prop :=
  Remains l i j d ∧
    (CrossPlatform l → PreGcRemains b l i → (b.client d).account.version < .gc)

/-- A candidate who has been there longest. -/
def Oldest (b : Block) (l : Lobby) (i j : Slot) (d : ClientId) : Prop :=
  Candidate b l i j d ∧
    ∀ j' d', Candidate b l i j' d' → (b.client d).joinTime ≤ (b.client d').joinTime

/-- When the leader goes, some candidate has been there since before the current second. Where
nobody has and nobody is preferred, slot 0 comes out of the election; it may hold the right one. -/
def OnTime (b : Block) (now : ℕ) (l : Lobby) (i : Slot) : Prop :=
  (i : ℕ) = l.leaderId → (∃ j d, Candidate b l i j d) →
    (∃ j d, Candidate b l i j d ∧ (b.client d).joinTime < now) ∨
      ((CrossPlatform l → ¬PreGcRemains b l i) ∧ ∃ d, Oldest b l i 0 d)

/-- The election after the leader has left: among the candidates, one who has been there longest. -/
structure Elected (b : Block) (l : Lobby) (i : Slot) (l' : Lobby) : Prop where
  leader : (∃ j d, Remains l i j d) →
    ∃ (j : Slot) (d : ClientId), l'.leaderId = j ∧ l'.clients j = some d ∧ Oldest b l i j d
  gcAllowed : CrossPlatform l → PreGcRemains b l i → l'.settings.gcAllowed = true
  kept : ¬CrossPlatform l → l'.settings.gcAllowed = l.settings.gcAllowed

/-- A lobby with members is led by one of them. -/
def Led (l : Lobby) : Prop :=
  0 < l.numClients → ∃ (i : Slot) (c : ClientId), l.leaderId = i ∧ l.clients i = some c

theorem electStep_eq (b : Block) (l : Lobby) (eligible : ShipClient → Bool) :
    electStep b l eligible = improve (fun i => (l.clients i).bind fun d =>
      if (i : ℕ) ≠ l.leaderId ∧ eligible (b.client d) then some (b.client d).joinTime
      else none) := by
  funext best i
  rw [electStep, improve]
  cases l.clients i with
  | none => rfl
  | some d =>
    dsimp only [Option.bind_some]
    by_cases hmay : (i : ℕ) ≠ l.leaderId ∧ eligible (b.client d) = true
    · rw [if_pos hmay]
      dsimp only
      by_cases hless : (b.client d).joinTime < best.2
      · rw [if_pos ⟨hmay.1, hless, hmay.2⟩, if_pos hless]
      · rw [if_neg hless, if_neg (fun h => hless h.2.1)]
    · rw [if_neg hmay, if_neg (fun h => hmay ⟨h.1, h.2.2⟩)]

theorem mem_slots {l : Lobby} (hl : l.toRoom.Sound) {j : Slot} {d : ClientId}
    (hj : l.clients j = some d) : j ∈ slots l.toRoom := by
  rw [slots, List.mem_filter]
  exact ⟨List.mem_finRange j, decide_eq_true (hl.below j d hj)⟩

/-- The election loops find the earliest of the eligible clients, if it came before now. -/
theorem elect_cases {b : Block} {l : Lobby} (hl : l.toRoom.Sound) {i : Slot}
    (hi : (i : ℕ) = l.leaderId) (now : ℕ) (eligible : ShipClient → Bool) :
    (((slots l.toRoom).foldl (electStep b l eligible) (none, now)).1 = none ∧
      ∀ j d, Remains l i j d → eligible (b.client d) = true → now ≤ (b.client d).joinTime) ∨
    ∃ j d, ((slots l.toRoom).foldl (electStep b l eligible) (none, now)).1 = some j ∧
      Remains l i j d ∧ eligible (b.client d) = true ∧
      ∀ j' d', Remains l i j' d' → eligible (b.client d') = true →
        (b.client d).joinTime ≤ (b.client d').joinTime := by
  rw [electStep_eq]
  generalize hkey : (fun i : Slot => (l.clients i).bind fun d =>
    if (i : ℕ) ≠ l.leaderId ∧ eligible (b.client d) then some (b.client d).joinTime
    else none) = key
  have hmay : ∀ j d, Remains l i j d → eligible (b.client d) = true →
      j ∈ slots l.toRoom ∧ key j = some (b.client d).joinTime := by
    intro j d hj heligible
    have hne : (j : ℕ) ≠ l.leaderId := by
      rw [← hi]
      exact fun h => hj.1 (Fin.ext h)
    refine ⟨mem_slots hl hj.2, ?_⟩
    rw [← hkey]
    dsimp only
    rw [hj.2, Option.bind_some, if_pos ⟨hne, heligible⟩]
  cases hscan : ((slots l.toRoom).foldl (improve key) (none, now)).1 with
  | none =>
    refine Or.inl ⟨rfl, fun j d hj heligible => ?_⟩
    obtain ⟨hmem, hjoin⟩ := hmay j d hj heligible
    exact scan_eq_none hscan j hmem _ hjoin
  | some j =>
    right
    obtain ⟨-, t, ht, -, hleast⟩ := scan_eq_some hscan
    rw [← hkey] at ht
    obtain ⟨d, hd, hchosen⟩ := Option.bind_eq_some_iff.mp ht
    split_ifs at hchosen with helig
    cases hchosen
    have hne : j ≠ i := by
      intro h
      rw [h] at helig
      exact helig.1 hi
    refine ⟨j, d, rfl, ⟨hne, hd⟩, helig.2, fun j' d' hj' helig' => ?_⟩
    obtain ⟨hmem, hjoin⟩ := hmay j' d' hj' helig'
    exact hleast j' hmem _ hjoin

/-- The leader after an election, if somebody remains. -/
def Best (b : Block) (l : Lobby) (i : Slot) (leader : ℕ) : Prop :=
  (∃ j d, Remains l i j d) → ∃ (j : Slot) (d : ClientId), leader = j ∧ Oldest b l i j d

/-- Where no preference applies, everybody who remains is a candidate. -/
theorem best_of_all {b : Block} {l : Lobby} (hl : l.toRoom.Sound) {i : Slot} {now : ℕ}
    (hi : (i : ℕ) = l.leaderId) (hontime : OnTime b now l i)
    (hfree : CrossPlatform l → ¬PreGcRemains b l i) :
    Best b l i ((lobbyElectLeaderLocked b now l).elim 0 Fin.val) := by
  have hall : ∀ j d, Remains l i j d → Candidate b l i j d :=
    fun j d hj => ⟨hj, fun hcross hpre => absurd hpre (hfree hcross)⟩
  rintro ⟨j₀, d₀, hj₀⟩
  rw [lobbyElectLeaderLocked]
  rcases elect_cases (b := b) hl hi now (fun _ => true) with
    ⟨hnone, hlate⟩ | ⟨j, d, hj, hremains, -, hleast⟩
  · rcases hontime hi ⟨j₀, d₀, hall j₀ d₀ hj₀⟩ with ⟨j, d, hcandidate, hearly⟩ | ⟨-, d, holdest⟩
    · have := hlate j d hcandidate.1 rfl
      omega
    · rw [hnone]
      exact ⟨0, d, rfl, holdest⟩
  · rw [hj]
    exact ⟨j, d, rfl, hall j d hremains, fun j' d' h' => hleast j' d' h'.1 rfl⟩

/-- The election of a cross-platform game prefers Dreamcast and PC. -/
theorem crossElection {b : Block} {h : LobbyHandle} (hl : (b.lobby h).toRoom.Sound) {i : Slot}
    {now : ℕ} (hi : (i : ℕ) = (b.lobby h).leaderId) (hontime : OnTime b now (b.lobby h) i)
    (hcross : CrossPlatform (b.lobby h)) :
    Best b (b.lobby h) i ((lobbyElectLeaderCrossLocked b now h).2.elim 0 Fin.val) ∧
      (PreGcRemains b (b.lobby h) i → (lobbyElectLeaderCrossLocked b now h).1 = b) := by
  simp only [lobbyElectLeaderCrossLocked]
  rcases elect_cases hl hi now (fun x => x.account.version < .gc) with
    ⟨hnone, hlate⟩ | ⟨j, d, hsome, hremains, heligible, hleast⟩
  · have hfree : ¬PreGcRemains b (b.lobby h) i := by
      rintro ⟨j, d, hj, hversion⟩
      have hcandidate : Candidate b (b.lobby h) i j d := ⟨hj, fun _ _ => hversion⟩
      rcases hontime hi ⟨j, d, hcandidate⟩ with ⟨j', d', hcandidate', hearly⟩ | ⟨hfree, -⟩
      · have := hlate j' d' hcandidate'.1
          (decide_eq_true (hcandidate'.2 hcross ⟨j, d, hj, hversion⟩))
        omega
      · exact hfree hcross ⟨j, d, hj, hversion⟩
    rw [hnone]
    exact ⟨best_of_all hl hi hontime fun _ => hfree, fun hpre => absurd hpre hfree⟩
  · have hversion : (b.client d).account.version < .gc := of_decide_eq_true heligible
    have hpre : PreGcRemains b (b.lobby h) i := ⟨j, d, hremains, hversion⟩
    rw [hsome]
    refine ⟨fun _ => ⟨j, d, rfl, ⟨hremains, fun _ _ => hversion⟩, ?_⟩, fun _ => rfl⟩
    intro j' d' hcandidate
    exact hleast j' d' hcandidate.1 (decide_eq_true (hcandidate.2 hcross hpre))

theorem lobbyElectLeaderCrossLocked_frame (b : Block) (now : ℕ) (h : LobbyHandle) :
    (lobbyElectLeaderCrossLocked b now h).1.client = b.client ∧
      ((lobbyElectLeaderCrossLocked b now h).1.lobby h).clients = (b.lobby h).clients ∧
      ∀ k, k ≠ h → (lobbyElectLeaderCrossLocked b now h).1.lobby k = b.lobby k := by
  simp only [lobbyElectLeaderCrossLocked]
  split
  · exact ⟨rfl, rfl, fun _ _ => rfl⟩
  · refine ⟨rfl, ?_, fun k hk => ?_⟩
    · simp
    · simp [Block.modLobby, hk]

/-- The leader of a lobby is replaced by the best candidate. -/
theorem replaceLeader_elected {b : Block} {h : LobbyHandle} (hl : (b.lobby h).toRoom.Sound)
    {i : Slot} {now : ℕ} (hi : (i : ℕ) = (b.lobby h).leaderId)
    (hontime : OnTime b now (b.lobby h) i) :
    Best b (b.lobby h) i ((replaceLeader b now h).lobby h).leaderId ∧
      ((replaceLeader b now h).lobby h).clients = (b.lobby h).clients ∧
      (CrossPlatform (b.lobby h) → PreGcRemains b (b.lobby h) i →
        ((replaceLeader b now h).lobby h).settings.gcAllowed = true) ∧
      (¬CrossPlatform (b.lobby h) → ((replaceLeader b now h).lobby h).settings.gcAllowed =
        (b.lobby h).settings.gcAllowed) := by
  simp only [replaceLeader]
  by_cases hcross : CrossPlatform (b.lobby h)
  · have hcross' : (b.lobby h).version < .gc ∧ (b.lobby h).settings.gcAllowed = true := hcross
    obtain ⟨hbest, hkept⟩ := crossElection hl hi hontime hcross
    obtain ⟨-, hclients, -⟩ := lobbyElectLeaderCrossLocked_frame b now h
    rw [if_pos hcross']
    refine ⟨?_, ?_, ?_, fun hno => absurd hcross hno⟩
    · rw [Block.lobby_modLobby]
      exact hbest
    · rw [Block.lobby_modLobby]
      exact hclients
    · intro _ hpre
      rw [Block.lobby_modLobby]
      dsimp only
      rw [hkept hpre]
      exact hcross.2
  · have hcross' : ¬((b.lobby h).version < .gc ∧ (b.lobby h).settings.gcAllowed = true) := hcross
    rw [if_neg hcross']
    refine ⟨?_, ?_, fun h => absurd h hcross, fun _ => ?_⟩
    · rw [Block.lobby_modLobby]
      exact best_of_all hl hi hontime fun h => absurd h hcross
    · rw [Block.lobby_modLobby]
    · rw [Block.lobby_modLobby]

theorem updateMaxChal_lobby (b : Block) (h : LobbyHandle) :
    (updateMaxChal b h).client = b.client ∧
      (∃ n, (updateMaxChal b h).lobby h = { b.lobby h with maxChal := n }) ∧
      ∀ k, k ≠ h → (updateMaxChal b h).lobby k = b.lobby k := by
  rw [updateMaxChal]
  split_ifs
  · refine ⟨rfl, ⟨lobbyFindMaxChallenge b (b.lobby h), ?_⟩, fun k hk => ?_⟩
    · rw [Block.lobby_modLobby]
    · simp [Block.modLobby, hk]
  · exact ⟨rfl, ⟨(b.lobby h).maxChal, rfl⟩, fun _ _ => rfl⟩

/-- The leader's slot is emptied, and the election has its way. -/
theorem emptySlot_elected {b : Block} {h : LobbyHandle} (hl : (b.lobby h).toRoom.Sound)
    {i : Slot} {now : ℕ} (hi : (i : ℕ) = (b.lobby h).leaderId)
    (hontime : OnTime b now (b.lobby h) i) :
    Elected b (b.lobby h) i ((emptySlot b now i h).lobby h) := by
  obtain ⟨hbest, hclients, hgc, hkept⟩ := replaceLeader_elected hl hi hontime
  rw [emptySlot, if_pos hi]
  obtain ⟨-, ⟨n, hlobby⟩, -⟩ := updateMaxChal_lobby ((replaceLeader b now h).modLobby h
    (fun l => { l with toRoom := l.toRoom.release i l.version })) h
  rw [hlobby, Block.lobby_modLobby]
  refine ⟨fun hremains => ?_, hgc, hkept⟩
  obtain ⟨j, d, hj, holdest⟩ := hbest hremains
  refine ⟨j, d, hj, ?_, holdest⟩
  · change Function.update ((replaceLeader b now h).lobby h).clients i none j = some d
    rw [Function.update_of_ne holdest.1.1.1, hclients]
    exact holdest.1.1.2

/-- Every lobby is led by a member. -/
def AllLed (b : Block) : Prop :=
  ∀ h, Led (b.lobby h)

/-- The fields of a lobby that say who is in it and who leads. -/
def seats (l : Lobby) : (Slot → Option ClientId) × ℤ × ℕ × Bool :=
  (l.clients, l.numClients, l.leaderId, l.settings.gcAllowed)

/-- Nobody has come or gone, and no lobby has a new leader. -/
def SameSeats (b b' : Block) : Prop :=
  ∀ h, seats (b'.lobby h) = seats (b.lobby h)

theorem SameSeats.refl (b : Block) : SameSeats b b :=
  fun _ => rfl

theorem SameSeats.trans {b b' b'' : Block} (h : SameSeats b b') (h' : SameSeats b' b'') :
    SameSeats b b'' :=
  fun k => (h' k).trans (h k)

theorem sameSeats_of_lobby {b b' : Block} (h : b'.lobby = b.lobby) : SameSeats b b' := by
  intro k
  rw [h]

theorem sameSeats_modLobby {b : Block} {h : LobbyHandle} {f : Lobby → Lobby}
    (hf : seats (f (b.lobby h)) = seats (b.lobby h)) : SameSeats b (b.modLobby h f) := by
  intro k
  by_cases hk : k = h
  · rw [hk, Block.lobby_modLobby, hf]
  · simp [Block.modLobby, hk]

theorem sameSeats_of_update {b b' : Block} {h : LobbyHandle} {l : Lobby}
    (hlobby : b'.lobby = Function.update b.lobby h l) (hl : seats l = seats (b.lobby h)) :
    SameSeats b b' := by
  intro k
  rw [hlobby]
  by_cases hk : k = h
  · rw [hk, Function.update_self, hl]
  · rw [Function.update_of_ne hk]

theorem led_of_seats {l l' : Lobby} (h : seats l' = seats l) (hl : Led l) : Led l' := by
  simp only [seats, Prod.mk.injEq] at h
  obtain ⟨hclients, hcount, hleader, -⟩ := h
  rw [Led, hclients, hcount, hleader]
  exact hl

theorem SameSeats.led {b b' : Block} (h : SameSeats b b') (hb : AllLed b) : AllLed b' :=
  fun k => led_of_seats (h k) (hb k)

theorem updateMaxChal_sameSeats (b : Block) (h : LobbyHandle) :
    SameSeats b (updateMaxChal b h) := by
  rw [updateMaxChal]
  split_ifs
  · exact sameSeats_modLobby rfl
  · exact .refl b

theorem clearOnlyOne_sameSeats (b : Block) (h : LobbyHandle) : SameSeats b (clearOnlyOne b h) := by
  rw [clearOnlyOne]
  split_ifs
  · exact .refl b
  · exact sameSeats_modLobby rfl

/-- The first client of a lobby leads it. -/
theorem putClient_led {b : Block} (hb : AllLed b) (now : ℕ) (c : ClientId) (h : LobbyHandle)
    (i : Slot) : AllLed (putClient b now c h i) := by
  simp only [putClient]
  generalize hb₁ : b.modClient c
    (fun x => { x with curLobby := some h, clientId := i, joinTime := now }) = b₁
  have hled : AllLed b₁ := by
    rw [← hb₁]
    exact hb
  generalize hb₂ : b₁.modLobby h (fun l => { l with toRoom := l.toRoom.enter c i }) = b₂
  have hlobby : b₂.lobby h = { b₁.lobby h with toRoom := (b₁.lobby h).toRoom.enter c i } := by
    rw [← hb₂, Block.lobby_modLobby]
  have hsame := updateMaxChal_sameSeats b₂ h
  have hseats := hsame h
  rw [hlobby] at hseats
  simp only [seats, Room.enter, Prod.mk.injEq] at hseats
  obtain ⟨hclients, hcount, hleader, -⟩ := hseats
  generalize hb₃ : updateMaxChal b₂ h = b₃ at *
  have hothers : ∀ k, k ≠ h → Led (b₃.lobby k) := by
    intro k hk
    have hk₂ : b₂.lobby k = b₁.lobby k := by
      rw [← hb₂]
      simp [Block.modLobby, hk]
    apply led_of_seats (hsame k)
    rw [hk₂]
    exact hled k
  have hself : (b₃.lobby h).clients i = some c := by rw [hclients, Function.update_self]
  split_ifs with hfirst
  · intro k
    by_cases hk : k = h
    · rw [hk, Block.lobby_modLobby]
      exact fun _ => ⟨i, c, rfl, hself⟩
    · have hsame' : (b₃.modLobby h (fun l => { l with leaderId := i })).lobby k = b₃.lobby k := by
        simp [Block.modLobby, hk]
      rw [hsame']
      exact hothers k hk
  · intro k
    by_cases hk : k = h
    · rw [hk]
      intro hpos
      have hbefore : 0 < (b₁.lobby h).numClients := by omega
      obtain ⟨j, d, hj, hd⟩ := hled h hbefore
      rw [hleader, hclients, hj]
      by_cases hij : j = i
      · exact ⟨j, c, rfl, by rw [hij, Function.update_self]⟩
      · exact ⟨j, d, rfl, by rw [Function.update_of_ne hij, hd]⟩
    · exact hothers k hk

theorem lobbyAddClientLocked_led {b : Block} (hb : AllLed b) (now : ℕ) (c : ClientId)
    (h : LobbyHandle) : AllLed (lobbyAddClientLocked b now c h).1 := by
  rw [lobbyAddClientLocked]
  split_ifs
  · exact hb
  · have hled := (clearOnlyOne_sameSeats b h).led hb
    generalize clearOnlyOne b h = b₁ at *
    dsimp only
    split
    · exact hled
    · exact putClient_led hled now c h _

theorem addIfRoom_led {b : Block} (hb : AllLed b) (now : ℕ) (c : ClientId) (h : LobbyHandle) :
    AllLed (addIfRoom b now c h).1 := by
  rw [addIfRoom]
  split_ifs
  · have hled := lobbyAddClientLocked_led hb now c h
    generalize lobbyAddClientLocked b now c h = t at *
    dsimp only
    split_ifs
    · exact (sameSeats_of_lobby rfl).led hled
    · exact hled
  · exact hb

theorem addToFirst_led (now : ℕ) (c : ClientId) (hs : List LobbyHandle) {b : Block}
    (hb : AllLed b) : AllLed (addToFirst now c hs b).1 := by
  induction hs generalizing b with
  | nil => exact hb
  | cons h hs ih =>
    rw [addToFirst]
    split_ifs
    · exact ih hb
    · have hled := addIfRoom_led hb now c h
      generalize addIfRoom b now c h = t at *
      dsimp only
      split_ifs
      · exact hled
      · exact ih hled

theorem lobbyAddToAny_led {b : Block} (hb : AllLed b) (now : ℕ) (c : ClientId)
    (req : Option LobbyHandle) : AllLed (lobbyAddToAny b now c req).1 := by
  rw [lobbyAddToAny.eq_def]
  cases req with
  | none => exact addToFirst_led now c b.lobbies hb
  | some h =>
    have hled := addIfRoom_led (b := b.modClient c (fun x => { x with lobbyReq := none }))
      ((sameSeats_of_lobby rfl).led hb) now c h
    dsimp only
    generalize addIfRoom _ now c h = t at *
    split_ifs
    · exact hled
    · exact addToFirst_led now c _ hled

theorem replaceLeader_others (b : Block) (now : ℕ) {h k : LobbyHandle} (hk : k ≠ h) :
    (replaceLeader b now h).lobby k = b.lobby k := by
  simp only [replaceLeader]
  split_ifs
  · obtain ⟨-, -, hothers⟩ := lobbyElectLeaderCrossLocked_frame b now h
    simp [Block.modLobby, hk, hothers k hk]
  · simp [Block.modLobby, hk]

theorem emptySlot_others (b : Block) (now : ℕ) (i : Slot) {h k : LobbyHandle} (hk : k ≠ h) :
    (emptySlot b now i h).lobby k = b.lobby k := by
  simp only [emptySlot]
  obtain ⟨-, -, hothers⟩ := updateMaxChal_lobby
    ((if (i : ℕ) = (b.lobby h).leaderId then replaceLeader b now h else b).modLobby h
      (fun l => { l with toRoom := l.toRoom.release i l.version })) h
  rw [hothers k hk]
  split_ifs
  · simp [Block.modLobby, hk, replaceLeader_others b now hk]
  · simp [Block.modLobby, hk]

/-- A lobby that still counts a member after slot `i` is given up has one. -/
theorem remains_of_count {l : Lobby} (hl : l.toRoom.Sound) {i : Slot} {c : ClientId}
    (hi : l.clients i = some c) (hcount : 0 < l.numClients - 1) : ∃ j d, Remains l i j d := by
  by_contra hnobody
  have hsound := hl.release hi (v := l.version) (Or.inl rfl)
  have hempty : ∀ j, Function.update l.clients i none j = none := by
    intro j
    by_cases hj : j = i
    · rw [hj, Function.update_self]
    · rw [Function.update_of_ne hj]
      cases hd : l.clients j with
      | none => rfl
      | some d => exact absurd ⟨j, d, hj, hd⟩ hnobody
  have hzero : headcount (Function.update l.clients i none) = 0 := by
    simp [headcount, hempty]
  have hsame : l.numClients - 1 = headcount (Function.update l.clients i none) := hsound.count
  omega

/-- The lobby that somebody leaves is led afterwards. -/
theorem emptySlot_led {b : Block} {h : LobbyHandle} (hled : Led (b.lobby h))
    (hl : (b.lobby h).toRoom.Sound) {i : Slot} {c : ClientId} (hi : (b.lobby h).clients i = some c)
    {now : ℕ} (hontime : OnTime b now (b.lobby h) i) : Led ((emptySlot b now i h).lobby h) := by
  intro hpos
  have hcount : ((emptySlot b now i h).lobby h).numClients = (b.lobby h).numClients - 1 := by
    obtain ⟨v, -, hrooms⟩ := emptySlot_rooms b now i h
    change ((emptySlot b now i h).rooms.room h).numClients = _
    rw [hrooms, Rooms.vacate, Rooms.room_setRoom]
    rfl
  rw [hcount] at hpos
  by_cases hleader : (i : ℕ) = (b.lobby h).leaderId
  · obtain ⟨j, d, hj, hd, -⟩ :=
      (emptySlot_elected hl hleader hontime).leader (remains_of_count hl hi hpos)
    exact ⟨j, d, hj, hd⟩
  · obtain ⟨j, d, hj, hd⟩ := hled (by omega)
    have hne : j ≠ i := by
      intro hji
      rw [hji] at hj
      exact hleader hj.symm
    refine ⟨j, d, ?_, ?_⟩
    · rw [emptySlot, if_neg hleader]
      obtain ⟨-, ⟨n, hlobby⟩, -⟩ := updateMaxChal_lobby (b.modLobby h
        (fun l => { l with toRoom := l.toRoom.release i l.version })) h
      rw [hlobby, Block.lobby_modLobby]
      exact hj
    · obtain ⟨v, -, hrooms⟩ := emptySlot_rooms b now i h
      change ((emptySlot b now i h).rooms.room h).clients j = some d
      rw [hrooms, Rooms.vacate, Rooms.room_setRoom]
      change Function.update (b.lobby h).clients i none j = some d
      rw [Function.update_of_ne hne, hd]

theorem lobbyRemoveClientLocked_lobby {b : Block} (now : ℕ) {c : ClientId} {i : Slot}
    {h : LobbyHandle} (hi : (b.lobby h).clients i = some c) :
    (lobbyRemoveClientLocked b now c i h).1.lobby = (emptySlot b now i h).lobby := by
  rw [lobbyRemoveClientLocked, if_pos hi]
  exact clearCurLobby_lobby _ c h

theorem lobbyRemoveClientLocked_led {b : Block} (hb : AllLed b) {h : LobbyHandle}
    (hl : (b.lobby h).toRoom.Sound) {i : Slot} {c : ClientId} (hi : (b.lobby h).clients i = some c)
    {now : ℕ} (hontime : OnTime b now (b.lobby h) i) :
    AllLed (lobbyRemoveClientLocked b now c i h).1 := by
  intro k
  rw [lobbyRemoveClientLocked_lobby now hi]
  by_cases hk : k = h
  · rw [hk]
    exact emptySlot_led (hb h) hl hi hontime
  · rw [emptySlot_others b now i hk]
    exact hb k

theorem settle_sameSeats (b : Block) (c : ClientId) : SameSeats b (settle b c) := by
  rw [settle]
  cases (b.client c).curLobby with
  | none => exact .refl b
  | some h =>
    dsimp only
    split_ifs
    · exact sameSeats_of_lobby rfl
    · exact sameSeats_of_update rfl rfl

theorem lobbyDestroyLocked_sameSeats (b : Block) (h : LobbyHandle) :
    SameSeats b (lobbyDestroyLocked b h) := by
  exact sameSeats_of_update rfl rfl

theorem lobbyEnqueuePkt_sameSeats (b : Block) (env : Env) (h : LobbyHandle) (c : ClientId)
    (p : GamePkt) : SameSeats b (lobbyEnqueuePkt b env h c p).1 := by
  rw [lobbyEnqueuePkt]
  split
  · exact .refl b
  · exact sameSeats_of_update rfl rfl

theorem lobbyEnqueueBurst_sameSeats (b : Block) (env : Env) (h : LobbyHandle) (c : ClientId)
    (p : GamePkt) : SameSeats b (lobbyEnqueueBurst b env h c p).1 := by
  rw [lobbyEnqueueBurst]
  split
  · exact .refl b
  · exact sameSeats_of_update rfl rfl

theorem subcmdHandleOne_sameSeats (b : Block) (env : Env) (k : ℕ) (c : ClientId) (p : GamePkt) :
    SameSeats b (subcmdHandleOne b env k c p).1 := by
  rw [subcmdHandleOne]
  by_cases htrial : IsDcnte (b.client c)
  · rw [if_pos htrial, subcmdDcnteHandleOne]
    split
    · exact .refl b
    · exact .refl b
  · rw [if_neg htrial]
    cases (b.client c).curLobby with
    | none => exact .refl b
    | some h =>
      dsimp only
      split_ifs
      · exact .refl b
      · exact lobbyEnqueueBurst_sameSeats b env h c p
      · exact .refl b
      · exact .refl b
      · exact lobbyEnqueuePkt_sameSeats b env h c p
      · exact .refl b

theorem subcmdHandleBcast_sameSeats (b : Block) (env : Env) (k : ℕ) (c : ClientId) (p : GamePkt) :
    SameSeats b (subcmdHandleBcast b env k c p).1 := by
  rw [subcmdHandleBcast]
  by_cases htrial : IsDcnte (b.client c)
  · rw [if_pos htrial, subcmdDcnteHandleBcast]
    cases (b.client c).curLobby with
    | none => exact .refl b
    | some h =>
      dsimp only
      split_ifs
      · exact sameSeats_of_update rfl rfl
      · exact .refl b
  · rw [if_neg htrial]
    cases (b.client c).curLobby with
    | none => exact .refl b
    | some h =>
      dsimp only
      split_ifs
      · exact lobbyEnqueuePkt_sameSeats b env h c p
      · exact .refl b

theorem redeliver_sameSeats (b : Block) (env : Env) (k : ℕ) (h : LobbyHandle) (src : ClientId)
    (p : GamePkt) : SameSeats b (redeliver b env k h src p).1 := by
  rw [redeliver]
  split_ifs
  · exact (sameSeats_of_lobby rfl).trans (subcmdHandleBcast_sameSeats _ env k src p)
  · exact (sameSeats_of_lobby rfl).trans (subcmdHandleOne_sameSeats _ env k src p)
  · exact .refl b

theorem drainOnce_sameSeats (env : Env) (h : LobbyHandle) (s : Block × Int × ℕ) :
    SameSeats s.1 (drainOnce env h s).1 := by
  rw [drainOnce]
  cases (s.1.lobby h).pktQueue with
  | nil => exact .refl s.1
  | cons x rest =>
    dsimp only
    have hpop : SameSeats s.1 (s.1.modLobby h (fun l => { l with pktQueue := rest })) :=
      sameSeats_of_update rfl rfl
    by_cases hrv : s.2.1 = 0
    · rw [if_pos hrv]
      exact hpop.trans (redeliver_sameSeats _ env s.2.2 h x.1 x.2)
    · rw [if_neg hrv]
      exact hpop

theorem iterate_drainOnce_sameSeats (env : Env) (h : LobbyHandle) (n : ℕ) (s : Block × Int × ℕ) :
    SameSeats s.1 ((drainOnce env h)^[n] s).1 := by
  induction n generalizing s with
  | zero => exact .refl s.1
  | succ n ih =>
    rw [Function.iterate_succ_apply]
    exact (drainOnce_sameSeats env h s).trans (ih _)

theorem lobbyHandleDoneBurst_sameSeats (b : Block) (env : Env) (h : LobbyHandle) :
    SameSeats b (lobbyHandleDoneBurst b env h).1 :=
  iterate_drainOnce_sameSeats env h _ (b, 0, 0)

theorem endOwnBurst_sameSeats (b : Block) (env : Env) (c : ClientId) (h : LobbyHandle) :
    SameSeats b (endOwnBurst b env c h) := by
  rw [endOwnBurst]
  split_ifs
  · exact (sameSeats_modLobby rfl).trans (lobbyHandleDoneBurst_sameSeats _ env h)
  · exact .refl b

/-- A call of `lobby_remove_client_locked`: when it is made, and for whom. -/
structure Removal where
  block : Block
  client : ClientId
  slot : Slot
  lobby : LobbyHandle

/-- The call in `lobby_remove_player`. -/
def playerRemoval (b : Block) (env : Env) (c : ClientId) : Option Removal :=
  match (b.client c).curLobby with
  | none => none
  | some h =>
    let b := endOwnBurst b env c h
    some { block := b, client := c, slot := (b.client c).clientId, lobby := h }

/-- The call in `lobby_change_lobby`. -/
def changeRemoval (b : Block) (env : Env) (c : ClientId) (req : LobbyHandle) : Option Removal :=
  let override := (b.client c).overrideGame
  let b := b.modClient c (fun x => { x with overrideGame := false })
  match (b.client c).curLobby with
  | none => none
  | some l =>
    let (b', rv) := lobbyAddClientLocked b env.now c req
    if changeRefusal env (b.client c) override (b.lobby req) = none ∧ l ≠ req ∧ rv = 0 then
      some { block := b', client := c, slot := (b.client c).clientId, lobby := l }
    else none

/-- The call that follows a call of `lobby_change_lobby`. -/
def requestRemoval (env : Env) : Option (Block × ClientId × LobbyHandle) → Option Removal
  | none => none
  | some (b, c, l) => changeRemoval b env c l

/-- The call that a packet leads to. -/
def packetRemoval (b : Block) (e : Event) : Option Removal :=
  match e.action with
  | .disconnect c => playerRemoval b e.env c
  | .charData c leaveGame pl =>
    if leaveGame = false then none
    else if (b.client c).account.version = .bb then
      playerRemoval (setAccount b c (fun a => { a with player := pl })) e.env c
    else if 199 < pl.level then none
    else
      playerRemoval (setAccount (setAccount b c (fun a => { a with player := pl })) c
        (fun a => { a with legit := false })) e.env c
  | _ => requestRemoval e.env (changeRequest b e)

def removal (b : Block) (e : CallEvent) : Option Removal :=
  match e.call with
  | .addToAny _ _ => none
  | .changeLobby c req => changeRemoval b e.env c req
  | .removePlayer c => playerRemoval b e.env c
  | .packet a => packetRemoval b { env := e.env, action := a }

/-- A client gives its slot up, and nothing else happens to seats or leaders. -/
structure Leaves (now : ℕ) (r : Removal) (b' : Block) : Prop where
  led : AllLed r.block
  sound : (r.block.lobby r.lobby).toRoom.Sound
  taken : (r.block.lobby r.lobby).clients r.slot = some r.client
  rest : SameSeats (lobbyRemoveClientLocked r.block now r.client r.slot r.lobby).1 b'

/-- What a step does to leaders: somebody leaves, or everybody stays and all is well. -/
def Outcome (now : ℕ) (r : Option Removal) (b' : Block) : Prop :=
  match r with
  | none => AllLed b'
  | some r => Leaves now r b'

theorem Outcome.trans {now : ℕ} {r : Option Removal} {b b' : Block} (h : Outcome now r b)
    (hsame : SameSeats b b') : Outcome now r b' := by
  cases r with
  | none => exact hsame.led h
  | some r => exact ⟨h.led, h.sound, h.taken, h.rest.trans hsame⟩

theorem lobbyRemovePlayer_outcome {b : Block} (hb : BlockSound b) (hled : AllLed b) (env : Env)
    (c : ClientId) :
    Outcome env.now (playerRemoval b env c) (lobbyRemovePlayer b env c).1 := by
  rw [playerRemoval, lobbyRemovePlayer]
  cases hcur : (b.client c).curLobby with
  | none => exact hled
  | some h =>
    have hsound := endOwnBurst_sound hb env c h
    have hled' := (endOwnBurst_sameSeats b env c h).led hled
    have hpresence := endOwnBurst_presence env c h hb.sane
    dsimp only
    generalize endOwnBurst b env c h = b₁ at *
    have hcur₁ : (b₁.rooms.presence c).curLobby = some h := by
      rw [hpresence]
      exact hcur
    refine ⟨hled', hsound.rooms.room h, hsound.rooms.clients_of_curLobby hcur₁, ?_⟩
    generalize lobbyRemoveClientLocked b₁ env.now c (b₁.client c).clientId h = t
    split_ifs
    · exact .refl t.1
    · exact sameSeats_of_lobby rfl
    · exact (lobbyDestroyLocked_sameSeats t.1 h).trans (sameSeats_of_lobby rfl)

theorem lobbyChangeLobby_outcome {b : Block} (hb : b.rooms.Sound) (hled : AllLed b) (env : Env)
    (c : ClientId) (req : LobbyHandle) :
    Outcome env.now (changeRemoval b env c req) (lobbyChangeLobby b env c req).1 := by
  have hrooms : (b.modClient c (fun x => { x with overrideGame := false })).rooms = b.rooms :=
    b.rooms_modClient_same rfl
  rw [changeRemoval, lobbyChangeLobby]
  rw [← hrooms] at hb
  dsimp only
  have hled₀ : AllLed (b.modClient c (fun x => { x with overrideGame := false })) := hled
  generalize b.modClient c (fun x => { x with overrideGame := false }) = b₀ at *
  cases hcur : (b₀.client c).curLobby with
  | none =>
    have hany := lobbyAddToAny_led hled₀ env.now c (some req)
    dsimp only
    rw [changeFromNowhere]
    generalize lobbyAddToAny b₀ env.now c (some req) = t at *
    dsimp only
    split_ifs
    · exact hany
    · exact hany
  | some l =>
    dsimp only
    cases hrefusal : changeRefusal env (b₀.client c) (b.client c).overrideGame (b₀.lobby req) with
    | some rv =>
      rw [if_neg (fun h => Option.some_ne_none rv h.1)]
      exact hled₀
    | none =>
      dsimp only
      by_cases hsame : l = req
      · rw [if_pos hsame, if_neg (fun h => h.2.1 hsame)]
        exact (settle_sameSeats b₀ c).led hled₀
      · rw [if_neg hsame, changeToOther]
        have hadded := lobbyAddClientLocked_led hled₀ env.now c req
        rcases lobbyAddClientLocked_cases hb env.now c req with
          ⟨hrv, -⟩ | ⟨j, hrv, hsit, -⟩
        · generalize lobbyAddClientLocked b₀ env.now c req = t at *
          have hfull : ¬t.2 = 0 := by
            rw [hrv]
            decide
          dsimp only
          rw [if_neg (fun h => hfull h.2.2), if_pos hfull]
          exact hadded
        · generalize lobbyAddClientLocked b₀ env.now c req = t at *
          have hroom : t.1.rooms.room l = b₀.rooms.room l := by
            rw [hsit]
            simp [Rooms.sit, Rooms.setRoom, Rooms.setPresence, hsame]
          dsimp only
          rw [if_pos ⟨rfl, hsame, hrv⟩, if_neg (fun h => h hrv)]
          refine ⟨hadded, ?_, ?_, ?_⟩
          · change (t.1.rooms.room l).Sound
            rw [hroom]
            exact hb.room l
          · change (t.1.rooms.room l).clients (b₀.client c).clientId = some c
            rw [hroom]
            exact hb.clients_of_curLobby hcur
          · generalize lobbyRemoveClientLocked t.1 env.now c (b₀.client c).clientId l = u
            split_ifs
            · exact .refl u.1
            · exact settle_sameSeats u.1 c
            · exact (settle_sameSeats u.1 c).trans (lobbyDestroyLocked_sameSeats _ l)

/-- `join_game` and what the handlers do after it. -/
theorem joinGame_outcome {b : Block} (hb : b.rooms.Sound) (hled : AllLed b) (env : Env)
    (c : ClientId) (l : LobbyHandle) :
    Outcome env.now (requestRemoval env (joinRequest c (b, .ok l))) (joinGame b env c l).1 := by
  rw [joinRequest, joinGame]
  by_cases hprotect : (b.client c).account.gcProtect = true
  · rw [if_pos hprotect, if_pos hprotect]
    exact hled
  · rw [if_neg hprotect, if_neg hprotect]
    have houtcome := lobbyChangeLobby_outcome hb hled env c l
    rw [requestRemoval]
    generalize lobbyChangeLobby b env c l = t at *
    dsimp only
    split_ifs
    · exact houtcome
    · exact houtcome.trans (sameSeats_of_lobby rfl)

theorem joinSelected_outcome {t : Block × Except Int LobbyHandle} (hb : t.1.rooms.Sound)
    (hled : AllLed t.1) (env : Env) (c : ClientId) :
    Outcome env.now (requestRemoval env (joinRequest c t)) (joinSelected env c t).1 := by
  obtain ⟨b, r⟩ := t
  cases r with
  | error rv => exact hled
  | ok l => exact joinGame_outcome hb hled env c l

theorem joinMade_outcome {t : Block × Except Int LobbyHandle} (hb : t.1.rooms.Sound)
    (hled : AllLed t.1) (env : Env) (c : ClientId) :
    Outcome env.now (requestRemoval env (joinRequest c t)) (joinMade env c t).1 := by
  obtain ⟨b, r⟩ := t
  cases r with
  | error rv => exact hled
  | ok l =>
    have houtcome := joinGame_outcome hb hled env c l
    rw [joinMade]
    generalize joinGame b env c l = u at *
    dsimp only
    split_ifs
    · exact houtcome
    · exact houtcome.trans (lobbyDestroyLocked_sameSeats u.1 l)

theorem addLobby_led {b : Block} (hled : AllLed b) (c : ClientId) {l : Lobby}
    (hl : l.numClients = 0) : AllLed (addLobby b c l) := by
  intro k
  by_cases hk : k = b.nextLobby
  · intro hpos
    rw [hk] at hpos
    simp [addLobby, hl] at hpos
  · have hsame : (addLobby b c l).lobby k = b.lobby k := by simp [addLobby, hk]
    rw [hsame]
    exact hled k

theorem makeGame_led {b : Block} (hled : AllLed b) (env : Env) (c : ClientId) (a : GameArgs) :
    AllLed (makeGame b env c a).1 := by
  simp only [makeGame, lobbyCreateGame]
  generalize unusedId b _ _ b.nextId = id
  have hsteal : AllLed (stealLimits (takeId b id) c) := by
    rw [stealLimits]
    split_ifs
    · exact hled
    · exact hled
  generalize stealLimits (takeId b id) c = b₀ at *
  by_cases hloaded : env.enemiesLoaded = false
  · rw [if_pos hloaded]
    exact hsteal
  · rw [if_neg hloaded]
    have hadded := addLobby_led hsteal c (l := newGame a id
      ((b.client c).account.legit && (b.client c).account.limits)) rfl
    dsimp only
    split_ifs
    · exact hadded
    · exact hadded

theorem gameCreate_led {b : Block} (hled : AllLed b) (env : Env) (c : ClientId) (pkt : CreatePkt) :
    AllLed (gameCreate b env c pkt).1 := by
  have hpc : AllLed (pcProcessGameCreate b env c pkt).1 := by
    rw [pcProcessGameCreate]
    by_cases hchar : (b.client c).gotChar = false
    · rw [if_pos hchar]
      exact hled
    rw [if_neg hchar]
    by_cases hlow : tooLow (b.client c) pkt.difficulty = true
    · rw [if_pos hlow]
      exact hled
    · rw [if_neg hlow]
      generalize hargs : GameArgs.mk pkt.passwd pkt.difficulty pkt.battle pkt.challenge true
        (b.client c).account.version 0 false = args
      have hmade := makeGame_led hled env c args
      generalize makeGame b env c args = t at *
      obtain ⟨b₁, r⟩ := t
      cases r with
      | error rv => exact hmade
      | ok l =>
        dsimp only
        split_ifs
        · exact hmade
        · exact hmade
  rw [gameCreate]
  split
  · rw [bbProcessGameCreate]
    split_ifs
    · exact hled
    · exact hled
    · exact hled
    · exact makeGame_led hled env c _
  · rw [dcnteProcessGameCreate]
    split_ifs
    · exact hled
    · exact makeGame_led hled env c _
  · exact hpc
  · rw [gcProcessGameCreate]
    split_ifs
    · exact hled
    · exact hled
    · exact makeGame_led hled env c _
  · rw [gcProcessGameCreate]
    split_ifs
    · exact hled
    · exact hled
    · exact makeGame_led hled env c _
  · rw [dcProcessGameCreate]
    split_ifs
    · exact hled
    · exact hled
    · exact makeGame_led hled env c _
  · rw [dcProcessGameCreate]
    split_ifs
    · exact hled
    · exact hled
    · exact makeGame_led hled env c _
  · rw [dcProcessGameCreate]
    split_ifs
    · exact hled
    · exact hled
    · exact makeGame_led hled env c _

theorem ep3ProcessGameCreate_led {b : Block} (hled : AllLed b) (c : ClientId)
    (passwd : List UInt8) : AllLed (ep3ProcessGameCreate b c passwd).1 := by
  rw [ep3ProcessGameCreate]
  split_ifs
  · exact hled
  · exact hled
  · exact addLobby_led hled c rfl

theorem processGameType_led {b : Block} (hled : AllLed b) (c : ClientId) (itemId : ℕ) :
    AllLed (processGameType b c itemId).1 := by
  rw [processGameType]
  by_cases hchar : (b.client c).gotChar = false
  · rw [if_pos hchar]
    exact hled
  rw [if_neg hchar]
  cases (b.client c).createLobby with
  | none => exact hled
  | some l =>
    have hset : seats (setGameType itemId (b.lobby l)) = seats (b.lobby l) := by
      rw [setGameType]
      split_ifs <;> rfl
    exact (sameSeats_modLobby hset).led hled

theorem processMenuGame_lobby (b : Block) (env : Env) (c : ClientId) (itemId : ℕ)
    (passwd : List UInt8) :
    (processMenuGame b env c itemId passwd).1.rooms = b.rooms ∧
      (processMenuGame b env c itemId passwd).1.lobby = b.lobby := by
  rcases processMenuGame_cases b env c itemId passwd with
    ⟨rv, heq⟩ | ⟨l, cmp, -, ⟨rv, heq⟩ | ⟨heq, -⟩⟩
  · rw [heq]
    exact ⟨rfl, rfl⟩
  · rw [heq]
    exact ⟨rfl, rfl⟩
  · rw [heq]
    exact ⟨rfl, rfl⟩

theorem creation_rooms {b : Block} (hb : BlockSound b) {c : ClientId}
    {t : Block × Except Int LobbyHandle} (h : Creation b c t) : t.1.rooms.Sound := by
  cases h with
  | refused same => exact (same.sound hb).rooms
  | listed made => exact (sound_of_made made hb).rooms
  | pending made large rooms _ =>
    rw [rooms]
    refine (sound_of_made made hb).rooms.setPresence rfl ?_
    rintro l ⟨⟩
    rw [made.rooms, if_neg (by decide), room_addRoom]
    exact large

theorem processGameType_sound {b : Block} (hb : b.rooms.Sound) (c : ClientId) (itemId : ℕ) :
    (processGameType b c itemId).1.rooms.Sound := by
  rcases processGameType_cases b c itemId with ⟨rv, heq⟩ | ⟨l, v, b₁, heq, hcreate, -, hrooms, -⟩
  · rw [heq]
    exact hb
  · rw [heq]
    dsimp only
    rw [hrooms]
    exact sound_typed hb hcreate

theorem disconnect_outcome {b : Block} (hb : BlockSound b) (hled : AllLed b) (env : Env)
    (c : ClientId) : Outcome env.now (playerRemoval b env c) (disconnect b env c) := by
  refine (lobbyRemovePlayer_outcome hb hled env c).trans ?_
  rw [disconnect]
  cases ((lobbyRemovePlayer b env c).1.client c).createLobby with
  | none => exact sameSeats_of_lobby rfl
  | some h => exact sameSeats_of_update rfl rfl

theorem arriveWithChar_led {b : Block} (hled : AllLed b) (env : Env) (c : ClientId) :
    AllLed (arriveWithChar b env c).1 := by
  rw [arriveWithChar]
  cases (b.client c).curLobby with
  | some l => exact hled
  | none =>
    have hany := lobbyAddToAny_led hled env.now c (b.client c).lobbyReq
    dsimp only
    generalize lobbyAddToAny b env.now c (b.client c).lobbyReq = t at *
    split_ifs
    · exact hany
    · exact hany
    · exact hany
    · exact hany

theorem charData_outcome {b : Block} (hb : BlockSound b) (hled : AllLed b) (env : Env)
    (c : ClientId) (leaveGame : Bool) (pl : PlayerData) :
    Outcome env.now (packetRemoval b ⟨env, .charData c leaveGame pl⟩)
      (next b ⟨env, .charData c leaveGame pl⟩) := by
  have hset : ∀ {b' : Block} (f : Account → Account), BlockSound b' → AllLed b' →
      BlockSound (setAccount b' c f) ∧ AllLed (setAccount b' c f) :=
    fun {b'} f hb' hled' => ⟨(setAccount_same b' c f).sound hb', hled'⟩
  obtain ⟨hb₁, hled₁⟩ := hset (fun a => { a with player := pl }) hb hled
  simp only [packetRemoval, next, bbProcessChar, dcProcessChar]
  generalize setAccount b c (fun a => { a with player := pl }) = b₁ at *
  obtain ⟨hb₂, hled₂⟩ := hset (fun a => { a with legit := false }) hb₁ hled₁
  cases leaveGame with
  | false =>
    have harrives := arriveWithChar_led hled₁ env c
    rw [if_pos rfl]
    by_cases hversion : (b.client c).account.version = .bb
    · rw [if_pos hversion, if_neg (by decide)]
      exact harrives
    rw [if_neg hversion]
    by_cases hlevel : 199 < pl.level
    · rw [if_pos hlevel]
      exact hled
    · rw [if_neg hlevel, if_neg (by decide)]
      exact harrives
  | true =>
    rw [if_neg (by decide), if_pos rfl, if_pos rfl]
    split_ifs
    · exact lobbyRemovePlayer_outcome hb₁ hled₁ env c
    · exact hled
    · exact lobbyRemovePlayer_outcome hb₂ hled₂ env c

theorem dcProcessDoneBurst_sameSeats (b : Block) (env : Env) (c : ClientId) :
    SameSeats b (dcProcessDoneBurst b env c).1 := by
  rw [dcProcessDoneBurst]
  cases (b.client c).curLobby with
  | none => exact .refl b
  | some h =>
    dsimp only
    split_ifs
    · exact .refl b
    · exact sameSeats_of_lobby rfl
    · refine SameSeats.trans ?_ (lobbyHandleDoneBurst_sameSeats _ env h)
      exact sameSeats_of_update rfl rfl

theorem processPing_sameSeats (b : Block) (env : Env) (c : ClientId) :
    SameSeats b (processPing b env c).1 := by
  have hcheck : SameSeats b (pingLegitCheck b env c).1 := by
    rw [pingLegitCheck]
    split_ifs
    · exact sameSeats_of_lobby rfl
    · exact sameSeats_of_lobby rfl
    · exact sameSeats_of_lobby rfl
    · exact .refl b
  rw [processPing]
  generalize pingLegitCheck b env c = t at *
  dsimp only
  by_cases hstop : t.2 = false ∨ (t.1.client c).waitQping = false
  · rw [if_pos hstop]
    exact hcheck
  rw [if_neg hstop]
  cases (t.1.client c).curLobby with
  | none => exact hcheck
  | some h =>
    refine hcheck.trans (SameSeats.trans ?_ (lobbyHandleDoneBurst_sameSeats _ env h))
    refine SameSeats.trans (sameSeats_of_update rfl rfl : SameSeats t.1 (t.1.modLobby h
      (fun l => { l with bursting := false }))) ?_
    exact SameSeats.trans (sameSeats_of_lobby rfl) (sameSeats_of_update rfl rfl)

theorem processGamePkt_sameSeats (b : Block) (env : Env) (c : ClientId) (p : GamePkt) :
    SameSeats b (processGamePkt b env c p).1 := by
  rw [processGamePkt]
  split_ifs
  · exact .refl b
  · exact subcmdHandleBcast_sameSeats b env 0 c p
  · exact subcmdHandleOne_sameSeats b env 0 c p
  · exact .refl b

/-- Every packet leaves all lobbies led, unless a leader leaves. -/
theorem next_outcome {b : Block} (hb : BlockSound b) (hled : AllLed b) (e : Event) :
    Outcome e.env.now (packetRemoval b e) (next b e) := by
  obtain ⟨env, action⟩ := e
  cases action with
  | disconnect c => exact disconnect_outcome hb hled env c
  | account c a =>
    have hsame : SameSeats b (setAccount b c (fun _ => a)) := sameSeats_of_lobby rfl
    exact hsame.led hled
  | meetTheUser c menu =>
    have hsame : (meetTheUser b c menu).lobby = b.lobby := by
      rw [meetTheUser]
      split <;> rfl
    exact (sameSeats_of_lobby hsame).led hled
  | settings h s =>
    intro k
    by_cases hk : k = h
    · rw [next, hk, Block.lobby_modLobby]
      exact hled h
    · have hsame : (next b ⟨env, .settings h s⟩).lobby k = b.lobby k := by
        simp [next, Block.modLobby, hk]
      rw [hsame]
      exact hled k
  | passwd c params =>
    have hsame : SameSeats b (handlePasswd b c params) := by
      rw [handlePasswd]
      split
      · exact .refl b
      · split_ifs
        · exact sameSeats_of_update rfl rfl
        · exact .refl b
    exact hsame.led hled
  | override c =>
    have hsame : (handleOverride b c).lobby = b.lobby := by
      rw [handleOverride]
      split
      · rfl
      · split_ifs <;> rfl
    exact (sameSeats_of_lobby hsame).led hled
  | logout c => exact (sameSeats_of_lobby rfl : SameSeats b (handleLogout b c)).led hled
  | charData c leaveGame pl => exact charData_outcome hb hled env c leaveGame pl
  | changeLobby c itemId =>
    simp only [packetRemoval, changeRequest, next, processChangeLobby]
    cases blockGetLobby b itemId with
    | none =>
      split_ifs
      · exact hled
      · exact hled
    | some req =>
      simp only [Option.elim, joinRequest]
      by_cases hprotect : (b.client c).account.gcProtect = true
      · rw [if_pos hprotect, if_pos hprotect]
        exact hled
      · rw [if_neg hprotect, if_neg hprotect]
        exact lobbyChangeLobby_outcome hb.rooms hled env c req
  | menuGame c itemId passwd =>
    obtain ⟨hrooms, hlobby⟩ := processMenuGame_lobby b env c itemId passwd
    refine joinSelected_outcome ?_ ?_ env c
    · rw [hrooms]
      exact hb.rooms
    · exact (sameSeats_of_lobby hlobby).led hled
  | gameCreate c pkt =>
    exact joinMade_outcome (creation_rooms hb (gameCreate_creation b env c pkt))
      (gameCreate_led hled env c pkt) env c
  | ep3GameCreate c passwd =>
    exact joinMade_outcome (creation_rooms hb (ep3ProcessGameCreate_creation b c passwd))
      (ep3ProcessGameCreate_led hled c passwd) env c
  | gameType c itemId =>
    exact joinMade_outcome (processGameType_sound hb.rooms c itemId)
      (processGameType_led hled c itemId) env c
  | doneBurst c => exact (dcProcessDoneBurst_sameSeats b env c).led hled
  | ping c =>
    have hsame : SameSeats b (next b ⟨env, .ping c⟩) := by
      rw [next]
      dsimp only
      split_ifs
      · exact .refl b
      · exact processPing_sameSeats b env c
    exact hsame.led hled
  | gamePkt c p => exact (processGamePkt_sameSeats b env c p).led hled

theorem callNext_outcome {b : Block} (hb : BlockSound b) (hled : AllLed b) (e : CallEvent) :
    Outcome e.env.now (removal b e) (callNext b e) := by
  obtain ⟨env, call⟩ := e
  cases call with
  | addToAny c req =>
    have hany := lobbyAddToAny_led hled env.now c req
    simp only [removal, callNext]
    cases (b.client c).curLobby with
    | none => exact hany
    | some l => exact hled
  | changeLobby c req => exact lobbyChangeLobby_outcome hb.rooms hled env c req
  | removePlayer c => exact lobbyRemovePlayer_outcome hb hled env c
  | packet a => exact next_outcome hb hled ⟨env, a⟩

/-- When a leader leaves, the clock has moved on since some candidate joined. -/
def Punctual (b : Block) (e : CallEvent) : Prop :=
  ∀ r, removal b e = some r → OnTime r.block e.env.now (r.block.lobby r.lobby) r.slot

theorem Leaves.led_after {now : ℕ} {r : Removal} {b' : Block} (h : Leaves now r b')
    (hontime : OnTime r.block now (r.block.lobby r.lobby) r.slot) : AllLed b' :=
  h.rest.led (lobbyRemoveClientLocked_led h.led h.sound h.taken hontime)

theorem elected_of_seats {b : Block} {l l' l'' : Lobby} {i : Slot} (h : Elected b l i l')
    (hsame : seats l'' = seats l') : Elected b l i l'' := by
  simp only [seats, Prod.mk.injEq] at hsame
  obtain ⟨hclients, -, hleader, hgc⟩ := hsame
  refine ⟨fun hremains => ?_, fun hcross hpre => ?_, fun hno => ?_⟩
  · obtain ⟨j, d, hj, hd, holdest⟩ := h.leader hremains
    exact ⟨j, d, hleader.trans hj, hclients ▸ hd, holdest⟩
  · exact hgc.trans (h.gcAllowed hcross hpre)
  · exact hgc.trans (h.kept hno)

theorem Leaves.elected {now : ℕ} {r : Removal} {b' : Block} (h : Leaves now r b')
    (hleader : (r.slot : ℕ) = (r.block.lobby r.lobby).leaderId)
    (hontime : OnTime r.block now (r.block.lobby r.lobby) r.slot) :
    Elected r.block (r.block.lobby r.lobby) r.slot (b'.lobby r.lobby) := by
  have helected := emptySlot_elected h.sound hleader hontime
  rw [← lobbyRemoveClientLocked_lobby now h.taken] at helected
  exact elected_of_seats helected (h.rest r.lobby)

theorem callNext_led {b : Block} (hb : BlockSound b) (hled : AllLed b) {e : CallEvent}
    (hpunctual : Punctual b e) : AllLed (callNext b e) := by
  have houtcome := callNext_outcome hb hled e
  cases hremoval : removal b e with
  | none =>
    rw [hremoval] at houtcome
    exact houtcome
  | some r =>
    rw [hremoval] at houtcome
    exact Leaves.led_after houtcome (hpunctual r hremoval)

theorem start_led : AllLed Block.start := by
  intro h hpos
  have hempty : (Block.start.lobby h).numClients = 0 := by
    change (if h < 20 then lobbyCreateDefault (h + 1) else Lobby.zero .lobby 0 0 0 0).numClients = 0
    split_ifs <;> rfl
  omega

/-- Lobbies are led by members, and whoever takes over from a leader has been there longest, as
long as the clock moves on between the last arrival and the leader's departure. -/
theorem leader_elected {b : Block} {calls : List CallEvent}
    (hrun : Run (StepOf callNext) Punctual Block.start calls b) :
    AllLed b ∧ ∀ e r, Punctual b e → removal b e = some r →
      (r.slot : ℕ) = (r.block.lobby r.lobby).leaderId →
      Elected r.block (r.block.lobby r.lobby) r.slot ((callNext b e).lobby r.lobby) := by
  have hboth : BlockSound b ∧ AllLed b := by
    refine hrun.invariant (fun b => BlockSound b ∧ AllLed b)
      ⟨initial_invariant.toBlockSound, start_led⟩ ?_
    rintro b₀ e b₁ ⟨hb₀, hled₀⟩ hpunctual rfl
    exact ⟨callNext_sound hb₀ e, callNext_led hb₀ hled₀ hpunctual⟩
  refine ⟨hboth.2, fun e r hpunctual hremoval hleader => ?_⟩
  have houtcome := callNext_outcome hboth.1 hboth.2 e
  rw [hremoval] at houtcome
  exact Leaves.elected houtcome hleader (hpunctual r hremoval)

/-- Two clients arrive in the first lobby, the second at the given time. -/
def arrivals (now : ℕ) : List CallEvent :=
  [⟨obligingEnv, .addToAny 0 none⟩, ⟨{ obligingEnv with now := now }, .addToAny 1 none⟩]

/-- The first client leaves at the given time. -/
def departure (now : ℕ) : CallEvent :=
  ⟨{ obligingEnv with now := now }, .removePlayer 0⟩

theorem leader_elected_departure :
    ((callNext ((arrivals 2).foldl callNext Block.start) (departure 3)).lobby 0).leaderId = 1 ∧
      AllLed ((arrivals 2).foldl callNext Block.start) ∧
      Elected ((arrivals 2).foldl callNext Block.start)
        (((arrivals 2).foldl callNext Block.start).lobby 0) 0
        ((callNext ((arrivals 2).foldl callNext Block.start) (departure 3)).lobby 0) := by
  have hrun : Run (StepOf callNext) Punctual Block.start (arrivals 2)
      ((arrivals 2).foldl callNext Block.start) := by
    refine run_foldl_of callNext Block.start ?_
    rintro e he b r hr
    rcases List.mem_cons.mp he with rfl | he
    · cases hr
    · cases List.mem_singleton.mp he
      cases hr
  obtain ⟨hled, helected⟩ := leader_elected hrun
  have hremoval : removal ((arrivals 2).foldl callNext Block.start) (departure 3) =
      some ⟨(arrivals 2).foldl callNext Block.start, 0, 0, 0⟩ := rfl
  have hpunctual : Punctual ((arrivals 2).foldl callNext Block.start) (departure 3) := by
    intro r hr
    rw [hremoval] at hr
    cases hr
    intro _ _
    left
    refine ⟨1, 1, ⟨⟨by decide, by decide⟩, fun hcross => ?_⟩, by decide⟩
    exact absurd hcross.2 (by decide)
  exact ⟨by decide, hled, helected _ _ hpunctual hremoval (by decide)⟩

/-- Two clients arrive and the first leaves within one second. Slot 0 still leads. -/
theorem leader_elected_not :
    ¬∀ b calls, Run (StepOf callNext) Always Block.start calls b → AllLed b := by
  intro hall
  have hled := hall _ _ (run_foldl callNext Block.start (arrivals 1 ++ [departure 1])) 0 (by decide)
  obtain ⟨i, c, hi, hc⟩ := hled
  have hleader : (((arrivals 1 ++ [departure 1]).foldl callNext Block.start).lobby 0).leaderId = 0 := by
    decide
  have hempty : (((arrivals 1 ++ [departure 1]).foldl callNext Block.start).lobby 0).clients 0 =
      none := by
    decide
  have hi0 : i = 0 := Fin.ext (hi.symm.trans hleader)
  rw [hi0, hempty] at hc
  cases hc

end ShipServer.LeaderElection
