import ShipServer.LabelledRuns
import ShipServer.Versions

set_option autoImplicit false

/-! Who holds references on a list of legit limits. -/

namespace ShipServer.LimitsOwnership

open LabelledRuns Versions

/-- The fields of a `ship_client_t`: two of its flags and `limits`. -/
structure LimitsClient where
  connected : Bool
  version : ClientVersion
  legit : Bool
  alwaysLegit : Bool
  limits : Option ℕ

/-- The fields of a `lobby_t`: `LOBBY_FLAG_LEGIT_MODE` and `limits_list`. -/
structure LimitsLobby where
  live : Bool
  legitMode : Bool
  limitsList : Option ℕ

/-- `ship->def_limits`, the reference counts of the lists, the clients and the lobbies.
`clientRefs` and `lobbyRefs` say for whom the references have been taken and dropped. -/
structure Owners where
  defLimits : Option ℕ
  refs : ℕ → ℤ
  clients : ℕ → LimitsClient
  lobbies : ℕ → LimitsLobby
  clientRefs : ℕ → ℤ
  lobbyRefs : ℕ → ℤ

namespace Owners

def setClient (s : Owners) (c : ℕ) (x : LimitsClient) : Owners :=
  { s with clients := Function.update s.clients c x }

def setLobby (s : Owners) (l : ℕ) (y : LimitsLobby) : Owners :=
  { s with lobbies := Function.update s.lobbies l y }

/-- `retain`, for a client. -/
def retain (s : Owners) (c x : ℕ) : Owners :=
  { s with
    refs := Function.update s.refs x (s.refs x + 1)
    clientRefs := Function.update s.clientRefs c (s.clientRefs c + 1) }

/-- `release`, for a client, if there is a list. -/
def releaseClient (s : Owners) (c : ℕ) : Option ℕ → Owners
  | none => s
  | some x =>
    { s with
      refs := Function.update s.refs x (s.refs x - 1)
      clientRefs := Function.update s.clientRefs c (s.clientRefs c - 1) }

/-- `release`, for a lobby, if there is a list. -/
def releaseLobby (s : Owners) (l : ℕ) : Option ℕ → Owners
  | none => s
  | some x =>
    { s with
      refs := Function.update s.refs x (s.refs x - 1)
      lobbyRefs := Function.update s.lobbyRefs l (s.lobbyRefs l - 1) }

end Owners

/-- The check against the default list that the commands and the ping end with. `passes` is the
result of the check of the inventory. -/
def legitCheck (s : Owners) (c : ℕ) (failed : LimitsClient → LimitsClient) (passes : Bool) :
    Owners :=
  let x := s.clients c
  match s.defLimits with
  | none => s.setClient c (failed x)
  | some d =>
    if passes = false then s.setClient c (failed x)
    else (s.retain c d).setClient c { x with legit := true, limits := some d }

/-- `/legit`, in a lobby. -/
def handleLegit (s : Owners) (c : ℕ) (off passes : Bool) : Owners :=
  let x := s.clients c
  if x.version = .ep3 ∨ x.version = .bb then s
  else if off then s.setClient c { x with legit := false }
  else legitCheck s c id passes

def clearAlways (x : LimitsClient) : LimitsClient :=
  { x with alwaysLegit := false }

/-- `/autolegit`, of a client that is logged in. -/
def handleAutolegit (s : Owners) (c : ℕ) (off passes : Bool) : Owners :=
  let x := s.clients c
  if off then s.setClient c (clearAlways x)
  else
    legitCheck (s.setClient c { x with alwaysLegit := true }) c clearAlways passes

/-- The ping of another client than a Blue Burst one. -/
def handlePing (s : Owners) (c : ℕ) (passes : Bool) : Owners :=
  let x := s.clients c
  if x.version ≠ .bb ∧ x.alwaysLegit = true ∧ x.legit = false then
    legitCheck s c clearAlways passes
  else s

/-- `lobby_destroy_locked`, and the end of a lobby whose creation fails. -/
def lobbyDestroy (s : Owners) (l : ℕ) : Owners :=
  (s.releaseLobby l (s.lobbies l).limitsList).setLobby l
    { live := false, legitMode := false, limitsList := none }

/-- The lobby that takes over the reference of its creator. -/
def steal (s : Owners) (c l d : ℕ) : Owners :=
  { s with
    clients := Function.update s.clients c { s.clients c with legit := false, limits := none }
    lobbies := Function.update s.lobbies l
      { live := true, legitMode := true, limitsList := some d }
    clientRefs := Function.update s.clientRefs c (s.clientRefs c - 1)
    lobbyRefs := Function.update s.lobbyRefs l (s.lobbyRefs l + 1) }

/-- `lobby_create_game`, which may fail after it has taken the client's reference. -/
def lobbyCreateGame (s : Owners) (c l : ℕ) (ok : Bool) : Owners :=
  let x := s.clients c
  if (s.lobbies l).live then s
  else
    let s := match x.legit, x.limits with
      | true, some d => steal s c l d
      | _, _ => s.setLobby l { live := true, legitMode := false, limitsList := none }
    if ok then s else lobbyDestroy s l

/-- The end of `join_game` for a client that is in. `limits` keeps its value. -/
def joinGame (s : Owners) (c : ℕ) : Owners :=
  let x := s.clients c
  if x.legit then (s.setClient c { x with legit := false }).releaseClient c x.limits else s

/-- `dc_process_char` for a client that leaves a game. -/
def leaveGame (s : Owners) (c : ℕ) : Owners :=
  let x := s.clients c
  if x.version = .bb then s else s.setClient c { x with legit := false }

/-- `/normal`. -/
def handleNormal (s : Owners) (l : ℕ) : Owners :=
  s.setLobby l { s.lobbies l with legitMode := false }

/-- A client without any of the flags. -/
def plainClient (connected : Bool) (version : ClientVersion) : LimitsClient where
  connected := connected
  version := version
  legit := false
  alwaysLegit := false
  limits := none

/-- `client_destroy_connection`. -/
def clientDestroyConnection (s : Owners) (c : ℕ) : Owners :=
  let x := s.clients c
  (s.releaseClient c x.limits).setClient c (plainClient false x.version)

inductive Event where
  | connect (c : ℕ) (version : ClientVersion)
  | userOption (c : ℕ)
  | legit (c : ℕ) (inLobby off passes : Bool)
  | autolegit (c : ℕ) (loggedIn off passes : Bool)
  | ping (c : ℕ) (passes : Bool)
  | createGame (c l : ℕ) (ok : Bool)
  | joinGame (c : ℕ)
  | leaveGame (c : ℕ)
  | normal (l : ℕ)
  | destroyLobby (l : ℕ)
  | disconnect (c : ℕ)

/-- The client that an event is about, which has to be connected. -/
def Event.client : Event → Option ℕ
  | .userOption c | .legit c _ _ _ | .autolegit c _ _ _ | .ping c _ | .createGame c _ _
  | .joinGame c | .leaveGame c | .disconnect c => some c
  | _ => none

def step (s : Owners) : Event → Owners
  | .connect c version =>
    if (s.clients c).connected then s else s.setClient c (plainClient true version)
  | .userOption c => s.setClient c { s.clients c with alwaysLegit := true }
  | .legit c inLobby off passes => if inLobby then handleLegit s c off passes else s
  | .autolegit c loggedIn off passes => if loggedIn then handleAutolegit s c off passes else s
  | .ping c passes => handlePing s c passes
  | .createGame c l ok => lobbyCreateGame s c l ok
  | .joinGame c => joinGame s c
  | .leaveGame c => leaveGame s c
  | .normal l => handleNormal s l
  | .destroyLobby l => lobbyDestroy s l
  | .disconnect c => clientDestroyConnection s c

/-- Whether the client of an event is there. -/
def present (s : Owners) (e : Event) : Bool :=
  e.client.all fun c => (s.clients c).connected

def next (s : Owners) (e : Event) : Owners :=
  if present s e then step s e else s

/-- A ship with its list, on which it has the reference that the list was made with. -/
def started (defLimits : Option ℕ) : Owners where
  defLimits := defLimits
  refs := fun x => if defLimits = some x then 1 else 0
  clients := fun _ => plainClient false .dcv1
  lobbies := fun _ => { live := false, legitMode := false, limitsList := none }
  clientRefs := fun _ => 0
  lobbyRefs := fun _ => 0

/-- A client holds one reference if it is in legit mode, and none otherwise; a lobby in legit mode
holds one, and one that is gone none; and what is in use has not been freed. -/
structure Owned (s : Owners) : Prop where
  clients : ∀ c, s.clientRefs c = if (s.clients c).legit then 1 else 0
  lobbies : ∀ l, (s.lobbies l).legitMode = true → s.lobbyRefs l = 1
  ended : ∀ l, (s.lobbies l).live = false → s.lobbyRefs l = 0
  alive : ∀ c x, (s.clients c).limits = some x → 0 < s.refs x
  lists : ∀ l x, (s.lobbies l).limitsList = some x → 0 < s.refs x

/-- What keeps an event clear of the defects. -/
def Clear (s : Owners) (e : Event) : Prop :=
  present s e = true →
    match e with
    | .legit c inLobby off passes =>
      inLobby = true → (s.clients c).version ≠ .ep3 → (s.clients c).version ≠ .bb →
        off = true ∨ s.defLimits ≠ none ∧ passes = true → (s.clients c).legit = false
    | .autolegit c loggedIn off passes =>
      loggedIn = true → off = false → s.defLimits ≠ none → passes = true →
        (s.clients c).legit = false
    | .leaveGame c => (s.clients c).version ≠ .bb → (s.clients c).legit = false
    | .disconnect c => (s.clients c).legit = false → (s.clients c).limits = none
    | _ => True

/-- Who holds a reference besides the ship: clients on the left, lobbies on the right. -/
structure Holders (s : Owners) (h : Finset (ℕ ⊕ ℕ)) : Prop where
  clients : ∀ c, .inl c ∈ h ↔ (s.clients c).legit = true
  lobbies : ∀ l, .inr l ∈ h ↔ (s.lobbies l).limitsList ≠ none
  count : ∀ d, s.defLimits = some d → s.refs d = 1 + h.card

structure Sound (s : Owners) : Prop where
  clientRefs : ∀ c, s.clientRefs c = if (s.clients c).legit then 1 else 0
  lobbyRefs : ∀ l, s.lobbyRefs l = if (s.lobbies l).limitsList = none then 0 else 1
  flagged : ∀ c, (s.clients c).legit = true → (s.clients c).limits ≠ none
  limits : ∀ c x, (s.clients c).limits = some x → s.defLimits = some x
  lists : ∀ l x, (s.lobbies l).limitsList = some x → s.defLimits = some x
  live : ∀ l, (s.lobbies l).live = false → (s.lobbies l).limitsList = none
  mode : ∀ l, (s.lobbies l).legitMode = true → (s.lobbies l).limitsList ≠ none
  gone : ∀ c, (s.clients c).connected = false →
    (s.clients c).legit = false ∧ (s.clients c).limits = none
  counted : ∃ h, Holders s h

variable {s : Owners} {c l : ℕ}

theorem Sound.refs_pos (h : Sound s) {d : ℕ} (hd : s.defLimits = some d) : 0 < s.refs d := by
  obtain ⟨hs, hholders⟩ := h.counted
  rw [hholders.count d hd]
  omega

theorem Sound.owned (h : Sound s) : Owned s where
  clients := h.clientRefs
  lobbies := fun l hl => by rw [h.lobbyRefs l, if_neg (h.mode l hl)]
  ended := fun l hl => by rw [h.lobbyRefs l, if_pos (h.live l hl)]
  alive := fun c x hx => h.refs_pos (h.limits c x hx)
  lists := fun l x hx => h.refs_pos (h.lists l x hx)

theorem started_sound (d : Option ℕ) : Sound (started d) where
  clientRefs := fun _ => rfl
  lobbyRefs := fun _ => rfl
  flagged := fun _ hc => nomatch hc
  limits := fun _ _ hx => nomatch hx
  lists := fun _ _ hx => nomatch hx
  live := fun _ _ => rfl
  mode := fun _ hl => nomatch hl
  gone := fun _ _ => ⟨rfl, rfl⟩
  counted := by
    refine ⟨∅, fun c => ?_, fun l => ?_, fun x hx => ?_⟩
    · simp [started, plainClient]
    · simp [started]
    · have hx' : d = some x := hx
      simp [started, hx']

theorem Sound.gone_update (h : Sound s) {x : LimitsClient}
    (hgone : x.connected = false → x.legit = false ∧ x.limits = none) (k : ℕ) :
    (Function.update s.clients c x k).connected = false →
      (Function.update s.clients c x k).legit = false ∧
        (Function.update s.clients c x k).limits = none := by
  by_cases hk : k = c
  · rw [hk, Function.update_self]
    exact hgone
  · rw [Function.update_of_ne hk]
    exact h.gone k

/-- A client that keeps its mode and its list. -/
theorem Sound.setClient (h : Sound s) {x : LimitsClient} (hlegit : x.legit = (s.clients c).legit)
    (hlimits : x.limits = (s.clients c).limits)
    (hgone : x.connected = false → x.legit = false ∧ x.limits = none) :
    Sound (s.setClient c x) := by
  have hclient : ∀ k, ((s.setClient c x).clients k).legit = (s.clients k).legit ∧
      ((s.setClient c x).clients k).limits = (s.clients k).limits := by
    intro k
    by_cases hk : k = c
    · rw [hk]
      simp [Owners.setClient, hlegit, hlimits]
    · simp [Owners.setClient, hk]
  obtain ⟨hs, hholders⟩ := h.counted
  refine ⟨fun k => ?_, h.lobbyRefs, fun k => ?_, fun k => ?_, h.lists, h.live, h.mode,
    h.gone_update hgone, hs, fun k => ?_, hholders.lobbies, hholders.count⟩
  · rw [(hclient k).1]
    exact h.clientRefs k
  · rw [(hclient k).1, (hclient k).2]
    exact h.flagged k
  · rw [(hclient k).2]
    exact h.limits k
  · rw [(hclient k).1]
    exact hholders.clients k

/-- A client that takes a reference on the default list. -/
theorem Sound.gain (h : Sound s) {d : ℕ} (hd : s.defLimits = some d)
    (hlegit : (s.clients c).legit = false) {x : LimitsClient} (hconnected : x.connected = true)
    (hx : x.legit = true) (hlimits : x.limits = some d) :
    Sound ((s.retain c d).setClient c x) := by
  have hother : ∀ k, k ≠ c → ((s.retain c d).setClient c x).clients k = s.clients k :=
    fun k hk => Function.update_of_ne hk _ _
  have hself : ((s.retain c d).setClient c x).clients c = x := Function.update_self ..
  obtain ⟨hs, hholders⟩ := h.counted
  have hnew : Sum.inl c ∉ hs := by
    rw [hholders.clients, hlegit]
    decide
  have hgone : x.connected = false → x.legit = false ∧ x.limits = none :=
    fun hc => absurd hconnected (Bool.eq_false_iff.mp hc)
  refine ⟨fun k => ?_, h.lobbyRefs, fun k hk => ?_, fun k y hy => ?_, h.lists, h.live, h.mode,
    h.gone_update hgone, insert (.inl c) hs, fun k => ?_, fun l => ?_, fun e he => ?_⟩
  · by_cases hk : k = c
    · have hzero := h.clientRefs c
      rw [hlegit] at hzero
      rw [hk, hself, hx]
      simp [Owners.setClient, Owners.retain, hzero]
    · rw [hother k hk, ← h.clientRefs k]
      simp [Owners.setClient, Owners.retain, hk]
  · by_cases hc : k = c
    · rw [hc, hself, hlimits]
      exact Option.some_ne_none d
    · rw [hother k hc] at hk ⊢
      exact h.flagged k hk
  · by_cases hc : k = c
    · rw [hc, hself, hlimits] at hy
      rw [← hy]
      exact hd
    · rw [hother k hc] at hy
      exact h.limits k y hy
  · by_cases hc : k = c
    · rw [hc, hself, hx]
      simp
    · rw [hother k hc, ← hholders.clients k]
      simp [hc]
  · rw [Finset.mem_insert, or_iff_right (by simp)]
    exact hholders.lobbies l
  · have he' : d = e := Option.some_inj.mp (hd.symm.trans he)
    have hcount := hholders.count d hd
    rw [Finset.card_insert_of_notMem hnew, ← he']
    simp only [Owners.setClient, Owners.retain, Function.update_self]
    push_cast
    omega

/-- A client that drops the reference that it has. -/
theorem Sound.drop (h : Sound s) {d : ℕ} (hlegit : (s.clients c).legit = true)
    (hd : (s.clients c).limits = some d) {x : LimitsClient} (hx : x.legit = false)
    (hlimits : ∀ y, x.limits = some y → y = d)
    (hgone : x.connected = false → x.legit = false ∧ x.limits = none) :
    Sound ((s.releaseClient c (some d)).setClient c x) := by
  have hdef := h.limits c d hd
  have hother : ∀ k, k ≠ c →
      ((s.releaseClient c (some d)).setClient c x).clients k = s.clients k :=
    fun k hk => Function.update_of_ne hk _ _
  have hself : ((s.releaseClient c (some d)).setClient c x).clients c = x :=
    Function.update_self ..
  obtain ⟨hs, hholders⟩ := h.counted
  have hold : Sum.inl c ∈ hs := (hholders.clients c).mpr hlegit
  refine ⟨fun k => ?_, h.lobbyRefs, fun k hk => ?_, fun k y hy => ?_, h.lists, h.live, h.mode,
    h.gone_update hgone, hs.erase (.inl c), fun k => ?_, fun l => ?_, fun e he => ?_⟩
  · by_cases hk : k = c
    · have hone := h.clientRefs c
      rw [hlegit] at hone
      rw [hk, hself, hx]
      simp [Owners.setClient, Owners.releaseClient, hone]
    · rw [hother k hk, ← h.clientRefs k]
      simp [Owners.setClient, Owners.releaseClient, hk]
  · by_cases hc : k = c
    · rw [hc, hself, hx] at hk
      cases hk
    · rw [hother k hc] at hk ⊢
      exact h.flagged k hk
  · by_cases hc : k = c
    · rw [hc, hself] at hy
      rw [hlimits y hy]
      exact hdef
    · rw [hother k hc] at hy
      exact h.limits k y hy
  · by_cases hc : k = c
    · rw [hc, hself, hx]
      simp
    · rw [hother k hc, ← hholders.clients k]
      simp [hc]
  · rw [Finset.mem_erase, and_iff_right (by simp)]
    exact hholders.lobbies l
  · have he' : d = e := Option.some_inj.mp (hdef.symm.trans he)
    have hcount := hholders.count d hdef
    have hpos := Finset.card_pos.mpr ⟨_, hold⟩
    rw [Finset.card_erase_of_mem hold, ← he']
    simp only [Owners.setClient, Owners.releaseClient, Function.update_self]
    omega

/-- A lobby without a list that stays without one. -/
theorem Sound.setLobby (h : Sound s) {y : LimitsLobby}
    (hlist : y.limitsList = (s.lobbies l).limitsList)
    (hlive : y.live = false → y.limitsList = none)
    (hmode : y.legitMode = true → y.limitsList ≠ none) : Sound (s.setLobby l y) := by
  have hother : ∀ k, k ≠ l → (s.setLobby l y).lobbies k = s.lobbies k :=
    fun k hk => Function.update_of_ne hk _ _
  have hself : (s.setLobby l y).lobbies l = y := Function.update_self ..
  have hlobby : ∀ k, ((s.setLobby l y).lobbies k).limitsList = (s.lobbies k).limitsList := by
    intro k
    by_cases hk : k = l
    · rw [hk, hself, hlist]
    · rw [hother k hk]
  obtain ⟨hs, hholders⟩ := h.counted
  refine ⟨h.clientRefs, fun k => ?_, h.flagged, h.limits, fun k => ?_, fun k hk => ?_,
    fun k hk => ?_, h.gone, hs, hholders.clients, fun k => ?_, hholders.count⟩
  · rw [hlobby k]
    exact h.lobbyRefs k
  · rw [hlobby k]
    exact h.lists k
  · by_cases hl : k = l
    · rw [hl, hself] at hk ⊢
      exact hlive hk
    · rw [hother k hl] at hk ⊢
      exact h.live k hk
  · by_cases hl : k = l
    · rw [hl, hself] at hk ⊢
      exact hmode hk
    · rw [hother k hl] at hk ⊢
      exact h.mode k hk
  · rw [hlobby k]
    exact hholders.lobbies k

theorem Sound.steal (h : Sound s) {d : ℕ} (hlegit : (s.clients c).legit = true)
    (hd : (s.clients c).limits = some d) (hlive : (s.lobbies l).live = false) :
    Sound (steal s c l d) := by
  have hdef := h.limits c d hd
  have hnone := h.live l hlive
  obtain ⟨hs, hholders⟩ := h.counted
  have hold : Sum.inl c ∈ hs := (hholders.clients c).mpr hlegit
  have hnew : Sum.inr l ∉ hs.erase (.inl c) := by
    rw [Finset.mem_erase, not_and_or]
    right
    rw [hholders.lobbies]
    simp [hnone]
  refine ⟨fun k => ?_, fun k => ?_, fun k hk => ?_, fun k y hy => ?_, fun k y hy => ?_,
    fun k hk => ?_, fun k hk => ?_, h.gone_update fun _ => ⟨rfl, rfl⟩,
    insert (.inr l) (hs.erase (.inl c)), fun k => ?_, fun k => ?_, fun e he => ?_⟩
  · have hone := h.clientRefs k
    by_cases hk : k = c
    · rw [hk, hlegit] at hone
      rw [hk]
      simp [LimitsOwnership.steal, hone]
    · simp [LimitsOwnership.steal, hk, hone]
  · have hzero := h.lobbyRefs k
    by_cases hk : k = l
    · rw [hk, if_pos hnone] at hzero
      rw [hk]
      simp [LimitsOwnership.steal, hzero]
    · simp [LimitsOwnership.steal, hk, hzero]
  · by_cases hc : k = c
    · rw [hc] at hk
      simp [LimitsOwnership.steal] at hk
    · have hflag := h.flagged k
      simp only [LimitsOwnership.steal, Function.update_of_ne hc] at hk ⊢
      exact hflag hk
  · by_cases hc : k = c
    · rw [hc] at hy
      simp [LimitsOwnership.steal] at hy
    · simp only [LimitsOwnership.steal, Function.update_of_ne hc] at hy
      exact h.limits k y hy
  · by_cases hl : k = l
    · rw [hl] at hy
      simp only [LimitsOwnership.steal, Function.update_self, Option.some_inj] at hy
      rw [← hy]
      exact hdef
    · simp only [LimitsOwnership.steal, Function.update_of_ne hl] at hy
      exact h.lists k y hy
  · by_cases hl : k = l
    · rw [hl] at hk
      simp [LimitsOwnership.steal] at hk
    · simp only [LimitsOwnership.steal, Function.update_of_ne hl] at hk ⊢
      exact h.live k hk
  · by_cases hl : k = l
    · rw [hl]
      simp [LimitsOwnership.steal]
    · simp only [LimitsOwnership.steal, Function.update_of_ne hl] at hk ⊢
      exact h.mode k hk
  · rw [Finset.mem_insert, Finset.mem_erase, hholders.clients]
    by_cases hc : k = c
    · rw [hc]
      simp [LimitsOwnership.steal]
    · simp [LimitsOwnership.steal, hc]
  · rw [Finset.mem_insert, Finset.mem_erase, hholders.lobbies]
    by_cases hl : k = l
    · rw [hl]
      simp [LimitsOwnership.steal]
    · simp [LimitsOwnership.steal, hl]
  · have he' : d = e := Option.some_inj.mp (hdef.symm.trans he)
    have hcount := hholders.count d hdef
    have hpos := Finset.card_pos.mpr ⟨_, hold⟩
    rw [Finset.card_insert_of_notMem hnew, Finset.card_erase_of_mem hold, ← he']
    simp only [LimitsOwnership.steal]
    omega

theorem Sound.destroy (h : Sound s) : Sound (lobbyDestroy s l) := by
  rw [lobbyDestroy]
  cases hlist : (s.lobbies l).limitsList with
  | none =>
    exact h.setLobby hlist.symm (fun _ => rfl) fun hmode => nomatch hmode
  | some d =>
    have hdef := h.lists l d hlist
    have hother : ∀ k, k ≠ l → ((s.releaseLobby l (some d)).setLobby l
        { live := false, legitMode := false, limitsList := none }).lobbies k = s.lobbies k :=
      fun k hk => Function.update_of_ne hk _ _
    have hself : ((s.releaseLobby l (some d)).setLobby l
        { live := false, legitMode := false, limitsList := none }).lobbies l =
          { live := false, legitMode := false, limitsList := none } := Function.update_self ..
    obtain ⟨hs, hholders⟩ := h.counted
    have hold : Sum.inr l ∈ hs := (hholders.lobbies l).mpr (by simp [hlist])
    refine ⟨h.clientRefs, fun k => ?_, h.flagged, h.limits, fun k y hy => ?_, fun k hk => ?_,
      fun k hk => ?_, h.gone, hs.erase (.inr l), fun k => ?_, fun k => ?_, fun e he => ?_⟩
    · have hone := h.lobbyRefs k
      by_cases hk : k = l
      · rw [hk, hlist] at hone
        rw [hk, hself]
        simp [Owners.setLobby, Owners.releaseLobby, hone]
      · rw [hother k hk, ← hone]
        simp [Owners.setLobby, Owners.releaseLobby, hk]
    · by_cases hl : k = l
      · rw [hl, hself] at hy
        cases hy
      · rw [hother k hl] at hy
        exact h.lists k y hy
    · by_cases hl : k = l
      · rw [hl, hself]
      · rw [hother k hl] at hk ⊢
        exact h.live k hk
    · by_cases hl : k = l
      · rw [hl, hself] at hk
        cases hk
      · rw [hother k hl] at hk ⊢
        exact h.mode k hk
    · rw [Finset.mem_erase, and_iff_right (by simp)]
      exact hholders.clients k
    · rw [Finset.mem_erase, hholders.lobbies]
      by_cases hl : k = l
      · rw [hl, hself]
        simp
      · rw [hother k hl]
        simp [hl]
    · have he' : d = e := Option.some_inj.mp (hdef.symm.trans he)
      have hcount := hholders.count d hdef
      have hpos := Finset.card_pos.mpr ⟨_, hold⟩
      rw [Finset.card_erase_of_mem hold, ← he']
      simp only [Owners.setLobby, Owners.releaseLobby, Function.update_self]
      omega

theorem legitCheck_keeps (h : Sound s) (hconnected : (s.clients c).connected = true)
    (failed : LimitsClient → LimitsClient)
    (hfailed : ∀ x, (failed x).connected = x.connected ∧ (failed x).legit = x.legit ∧
      (failed x).limits = x.limits) (passes : Bool) :
    Keeps Sound Owned (legitCheck s c failed passes)
      (s.defLimits ≠ none ∧ passes = true → (s.clients c).legit = false) := by
  obtain ⟨hsame, hlegit, hlimits⟩ := hfailed (s.clients c)
  have hkept := h.setClient (c := c) hlegit hlimits fun hgone =>
    absurd (hsame.trans hconnected) (Bool.eq_false_iff.mp hgone)
  rw [legitCheck]
  cases hd : s.defLimits with
  | none => exact keeps_of_invariant hkept fun hne => absurd rfl hne.1
  | some d =>
    cases passes with
    | false => exact keeps_of_invariant hkept fun hp => nomatch hp.2
    | true =>
      constructor
      · intro hclear
        exact h.gain hd (hclear ⟨Option.some_ne_none d, rfl⟩) hconnected rfl rfl
      · intro howned _
        have hrefs := howned.clients c
        rw [← Bool.not_eq_true]
        intro hlegit
        have hone := h.clientRefs c
        rw [hlegit] at hone
        simp [Owners.setClient, Owners.retain, hone] at hrefs

/-- The flag of a client is cleared without a release. -/
theorem clearLegit_keeps (h : Sound s) (hconnected : (s.clients c).connected = true) :
    Keeps Sound Owned (s.setClient c { s.clients c with legit := false })
      ((s.clients c).legit = false) := by
  constructor
  · intro hlegit
    exact h.setClient hlegit.symm rfl fun hgone =>
      absurd hconnected (Bool.eq_false_iff.mp hgone)
  · intro howned
    have hrefs := howned.clients c
    have hone := h.clientRefs c
    rw [← Bool.not_eq_true]
    intro hlegit
    rw [hlegit] at hone
    simp [Owners.setClient, hone] at hrefs

theorem handleLegit_keeps (h : Sound s) (hconnected : (s.clients c).connected = true)
    (off passes : Bool) :
    Keeps Sound Owned (handleLegit s c off passes)
      ((s.clients c).version ≠ .ep3 → (s.clients c).version ≠ .bb →
        off = true ∨ s.defLimits ≠ none ∧ passes = true → (s.clients c).legit = false) := by
  rw [handleLegit]
  by_cases hversion : (s.clients c).version = .ep3 ∨ (s.clients c).version = .bb
  · rw [if_pos hversion]
    refine keeps_of_invariant h fun hep3 hbb => ?_
    exact absurd hversion (not_or.mpr ⟨hep3, hbb⟩)
  · rw [if_neg hversion]
    obtain ⟨hep3, hbb⟩ := not_or.mp hversion
    cases off with
    | true =>
      obtain ⟨hsound, hclear⟩ := clearLegit_keeps h hconnected
      exact ⟨fun hP => hsound (hP hep3 hbb (Or.inl rfl)), fun ho _ _ _ => hclear ho⟩
    | false =>
      obtain ⟨hsound, hclear⟩ :=
        legitCheck_keeps h hconnected id (fun _ => ⟨rfl, rfl, rfl⟩) passes
      refine ⟨fun hP => hsound fun hpass => hP hep3 hbb (Or.inr hpass), fun ho _ _ hpass => ?_⟩
      rcases hpass with hoff | hpass
      · cases hoff
      · exact hclear ho hpass

theorem handleAutolegit_keeps (h : Sound s) (hconnected : (s.clients c).connected = true)
    (off passes : Bool) :
    Keeps Sound Owned (handleAutolegit s c off passes)
      (off = false → s.defLimits ≠ none → passes = true → (s.clients c).legit = false) := by
  rw [handleAutolegit]
  cases off with
  | true => exact keeps_of_invariant (h.setClient rfl rfl (h.gone c)) fun hoff => nomatch hoff
  | false =>
    have hset : Sound (s.setClient c { s.clients c with alwaysLegit := true }) :=
      h.setClient rfl rfl (h.gone c)
    have hself : (s.setClient c { s.clients c with alwaysLegit := true }).clients c =
        { s.clients c with alwaysLegit := true } := Function.update_self ..
    have hstill :
        ((s.setClient c { s.clients c with alwaysLegit := true }).clients c).connected = true := by
      rw [hself]
      exact hconnected
    obtain ⟨hsound, hclear⟩ :=
      legitCheck_keeps hset hstill clearAlways (fun _ => ⟨rfl, rfl, rfl⟩) passes
    rw [hself] at hsound hclear
    exact ⟨fun hP => hsound fun hpass => hP rfl hpass.1 hpass.2,
      fun ho _ hd hpass => hclear ho ⟨hd, hpass⟩⟩

theorem handlePing_sound (h : Sound s) (hconnected : (s.clients c).connected = true)
    (passes : Bool) : Sound (handlePing s c passes) := by
  rw [handlePing]
  split_ifs with hcheck
  · obtain ⟨hsound, -⟩ :=
      legitCheck_keeps h hconnected clearAlways (fun _ => ⟨rfl, rfl, rfl⟩) passes
    exact hsound fun _ => hcheck.2.2
  · exact h

theorem lobbyCreateGame_sound (h : Sound s) (ok : Bool) : Sound (lobbyCreateGame s c l ok) := by
  rw [lobbyCreateGame]
  by_cases hlive : (s.lobbies l).live = true
  · rw [if_pos hlive]
    exact h
  rw [if_neg hlive]
  rw [Bool.not_eq_true] at hlive
  have hnone := h.live l hlive
  have hplain : Sound (s.setLobby l { live := true, legitMode := false, limitsList := none }) :=
    h.setLobby hnone.symm (fun _ => rfl) fun hmode => nomatch hmode
  have hmade : ∀ s', Sound s' → Sound (if ok then s' else lobbyDestroy s' l) := by
    intro s' hs'
    split_ifs
    · exact hs'
    · exact hs'.destroy
  refine hmade _ ?_
  cases hlegit : (s.clients c).legit with
  | false => exact hplain
  | true =>
    cases hlimits : (s.clients c).limits with
    | none => exact hplain
    | some d => exact h.steal hlegit hlimits hlive

theorem joinGame_sound (h : Sound s) (hconnected : (s.clients c).connected = true) :
    Sound (joinGame s c) := by
  rw [joinGame]
  split_ifs with hlegit
  · obtain ⟨d, hd⟩ := Option.ne_none_iff_exists'.mp (h.flagged c hlegit)
    have hdrop : Sound ((s.releaseClient c (some d)).setClient c
        { s.clients c with legit := false }) := by
      refine h.drop hlegit hd rfl (fun y hy => ?_) fun hgone => ?_
      · exact Option.some_inj.mp (hy.symm.trans hd)
      · exact absurd hconnected (Bool.eq_false_iff.mp hgone)
    -- the release and the flag are about different fields, so that their order does not matter
    have hswap : ((s.setClient c { s.clients c with legit := false }).releaseClient c
        (s.clients c).limits) = (s.releaseClient c (some d)).setClient c
          { s.clients c with legit := false } := by
      rw [hd]
      rfl
    rw [hswap]
    exact hdrop
  · exact h

theorem clientDestroyConnection_keeps (h : Sound s) :
    Keeps Sound Owned (clientDestroyConnection s c)
      ((s.clients c).legit = false → (s.clients c).limits = none) := by
  rw [clientDestroyConnection]
  cases hlimits : (s.clients c).limits with
  | none =>
    have hlegit : (s.clients c).legit = false := by
      rw [← Bool.not_eq_true]
      exact fun hl => h.flagged c hl hlimits
    refine keeps_of_invariant (h.setClient ?_ ?_ fun _ => ⟨rfl, rfl⟩) fun _ => rfl
    · rw [hlegit]
      rfl
    · rw [hlimits]
      rfl
  | some d =>
    cases hlegit : (s.clients c).legit with
    | true =>
      refine keeps_of_invariant (h.drop hlegit hlimits rfl ?_ fun _ => ⟨rfl, rfl⟩)
        fun hl => nomatch hl
      intro y hy
      cases hy
    | false =>
      refine ⟨fun hP => absurd (hP rfl) (Option.some_ne_none d), fun howned => ?_⟩
      have hzero := h.clientRefs c
      have hrefs := howned.clients c
      rw [hlegit] at hzero
      simp [Owners.setClient, Owners.releaseClient, plainClient, hzero] at hrefs

theorem step_keeps (h : Sound s) {e : Event} (hpresent : present s e = true) :
    Keeps Sound Owned (step s e) (Clear s e) := by
  unfold Clear
  rw [forall_prop_of_true hpresent]
  cases e with
  | connect c version =>
    refine keeps_of_invariant ?_ trivial
    rw [step]
    split_ifs with hconnected
    · exact h
    · rw [Bool.not_eq_true] at hconnected
      obtain ⟨hlegit, hlimits⟩ := h.gone c hconnected
      exact h.setClient hlegit.symm hlimits.symm fun _ => ⟨rfl, rfl⟩
  | userOption c => exact keeps_of_invariant (h.setClient rfl rfl (h.gone c)) trivial
  | legit c inLobby off passes =>
    cases inLobby with
    | false => exact keeps_of_invariant h fun hl => nomatch hl
    | true =>
      obtain ⟨hsound, hclear⟩ := handleLegit_keeps h hpresent off passes
      exact ⟨fun hP => hsound (hP rfl), fun ho _ => hclear ho⟩
  | autolegit c loggedIn off passes =>
    cases loggedIn with
    | false => exact keeps_of_invariant h fun hl => nomatch hl
    | true =>
      obtain ⟨hsound, hclear⟩ := handleAutolegit_keeps h hpresent off passes
      exact ⟨fun hP => hsound (hP rfl), fun ho _ => hclear ho⟩
  | ping c passes => exact keeps_of_invariant (handlePing_sound h hpresent passes) trivial
  | createGame c l ok => exact keeps_of_invariant (lobbyCreateGame_sound h ok) trivial
  | joinGame c => exact keeps_of_invariant (joinGame_sound h hpresent) trivial
  | leaveGame c =>
    rw [step, leaveGame]
    dsimp only
    split_ifs with hbb
    · exact keeps_of_invariant h fun hne => absurd hbb hne
    · obtain ⟨hsound, hclear⟩ := clearLegit_keeps h hpresent
      exact ⟨fun hP => hsound (hP hbb), fun ho _ => hclear ho⟩
  | normal l =>
    refine keeps_of_invariant (h.setLobby rfl ?_ fun hmode => nomatch hmode) trivial
    exact h.live l
  | destroyLobby l => exact keeps_of_invariant h.destroy trivial
  | disconnect c => exact clientDestroyConnection_keeps h

theorem next_keeps (h : Sound s) (e : Event) : Keeps Sound Owned (next s e) (Clear s e) := by
  rw [next]
  split_ifs with hpresent
  · exact step_keeps h hpresent
  · exact keeps_of_invariant h fun hp => absurd hp hpresent

/-- The references on a list of limits are balanced in all states of a run exactly when each event
of the run is clear of the defects. -/
theorem limits_owned (d : Option ℕ) (es : List Event) :
    Run (StepOf next) Clear (started d) es (es.foldl next (started d)) ↔
      ∀ fs, fs <+: es → Owned (fs.foldl next (started d)) :=
  run_iff_prefixes_of_keeps (I := Sound) (fun _ h => h.owned) (fun _ e h => next_keeps h e)
    (started_sound d) es

/-- A client that turns the legit mode on and off again. -/
def onAndOff : List Event :=
  [.connect 0 .gc, .legit 0 true false true, .legit 0 true true true]

theorem limits_not_owned :
    ¬∀ (d : Option ℕ) (es : List Event), Owned (es.foldl next (started d)) := by
  intro h
  have hrefs := (h (some 0) onAndOff).clients 0
  exact absurd hrefs (by decide)

end ShipServer.LimitsOwnership
