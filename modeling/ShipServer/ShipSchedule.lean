import ShipServer.BanLifting
import ShipServer.LabelledRuns

set_option autoImplicit false

/-! What the loop of `ship_thd` does as time goes on: the shutdown, the sweep of the bans, the
connection to the shipgate, and the event of the day. -/

namespace ShipServer.ShipSchedule

open LabelledRuns
open BanLifting (Call banSweep)
open LoginHandlers (BanList GuildcardBan IpBan unexpired)

/-- A month and a day of it, in the order of the calendar. -/
abbrev Day := ℕ ×ₗ ℕ

/-- `sylverant_event_t`. -/
structure CalendarEvent where
  startMonth : ℕ
  startDay : ℕ
  endMonth : ℕ
  endDay : ℕ
  lobbyEvent : ℕ
  gameEvent : ℕ
  deriving DecidableEq

/-- `events`, the first of which is the default one. -/
structure Calendar where
  default : CalendarEvent
  others : List CalendarEvent

def Calendar.event (cal : Calendar) (i : ℕ) : CalendarEvent :=
  (cal.default :: cal.others).getD i cal.default

/-- The tests of `find_current_event` after which an event is passed over. -/
def passedOver (v : CalendarEvent) (m d : ℕ) : Bool :=
  if v.startMonth ≤ v.endMonth ∧ (m < v.startMonth ∨ m > v.endMonth) then true
  else if v.startMonth > v.endMonth ∧ m > v.endMonth ∧ m < v.startMonth then true
  else if m = v.startMonth ∧ d < v.startDay then true
  else if m = v.endMonth ∧ d > v.endDay then true
  else false

/-- The loop of `find_current_event`, from the event `i` on. -/
def scanEvents (m d : ℕ) : ℕ → List CalendarEvent → ℕ
  | _, [] => 0
  | i, v :: vs => if passedOver v m d then scanEvents m d (i + 1) vs else i

def findCurrentEvent (cal : Calendar) (today : Day) : ℕ :=
  if cal.others = [] then 0 else scanEvents (ofLex today).1 (ofLex today).2 1 cal.others

/-- A lobby, and whether it is one of the default ones. -/
structure Lobby where
  isDefault : Bool
  event : ℕ

/-- An attempt to reconnect to the shipgate. -/
structure Attempt where
  time : ℕ
  works : Bool

/-- The part of a `ship_t` that the loop looks after. `deadline` is when `select` returns, at the
latest; `stopped` is when the loop was left because of a shutdown, and `gateError` whether it was
left because of the shipgate. -/
structure Ship where
  run : Bool
  now : ℕ
  deadline : ℤ
  shutdownTime : ℕ
  stopped : Option ℕ
  gateError : Bool
  lastBanSweep : ℕ
  bans : BanList
  sgConnected : Bool
  loginAttempt : ℕ
  attempts : List Attempt
  oldevent : ℕ
  lobbyEvent : ℕ
  gameEvent : ℕ
  lobbies : List Lobby

/-- The surroundings of a turn: the times that are read in it, whether the file of the bans can be
written, whether a connection to the shipgate can be made, the day, and what becomes of the packets
from and to the shipgate. -/
structure Turn where
  now : ℕ
  sweepTime : ℕ
  afterSweep : ℕ
  saved : Bool
  stale : ℕ → ℤ
  reconnects : Bool
  today : Day
  processed : Option ℤ
  sendFails : Bool

def sweepBans (s : Ship) (e : Turn) : Ship :=
  if s.lastBanSweep + 3600 * 24 ≤ e.now then
    { s with
      bans := (banSweep s.bans e.sweepTime e.saved e.stale).bans
      lastBanSweep := e.afterSweep
      now := e.afterSweep }
  else { s with now := e.now }

def reconnect (s : Ship) (e : Turn) : Ship :=
  if s.sgConnected = false ∧ s.loginAttempt < s.now then
    if e.reconnects then
      { s with
        sgConnected := true
        loginAttempt := 0
        attempts := s.attempts ++ [⟨s.now, true⟩] }
    else
      { s with
        loginAttempt := s.now + 14
        attempts := s.attempts ++ [⟨s.now, false⟩] }
  else s

/-- The timeout for `select` after `reconnect`. -/
def timeout (s : Ship) (e : Turn) : ℕ :=
  if s.sgConnected = false ∧ s.loginAttempt < s.now ∧ e.reconnects = false then 15 else 30

/-- `update_lobby_event`, with the new value of `lobby_event`. -/
def updateLobbyEvent (s : Ship) (event : ℕ) : Ship :=
  { s with
    lobbyEvent := event
    lobbies := s.lobbies.map fun l => if l.isDefault then { l with event := event } else l }

def checkEvent (cal : Calendar) (s : Ship) (e : Turn) : Ship :=
  let i := findCurrentEvent cal e.today
  if i = s.oldevent then s
  else
    let v := cal.event i
    let s := if v.lobbyEvent ≠ 0xFF then updateLobbyEvent s v.lobbyEvent else s
    let s := if v.gameEvent ≠ 0xFF then { s with gameEvent := v.gameEvent } else s
    { s with oldevent := i }

/-- `select`, which does not last longer than until `shutdown_time`. -/
def sleep (s : Ship) (timeout : ℕ) : Ship :=
  if s.shutdownTime ≠ 0 ∧ s.now + timeout > s.shutdownTime then
    { s with deadline := s.now + ((s.shutdownTime : ℤ) - s.now) }
  else { s with deadline := s.now + timeout }

def processGate (s : Ship) (e : Turn) : Ship :=
  if s.sgConnected = false then s
  else
    match e.processed with
    | none => { s with sgConnected := !e.sendFails }
    | some rv =>
      if rv = 0 then { s with sgConnected := !e.sendFails }
      else if rv < -1 then { s with sgConnected := false, run := false, gateError := true }
      else { s with sgConnected := false }

/-- A turn of the loop. -/
def turn (cal : Calendar) (s : Ship) (e : Turn) : Ship :=
  if s.shutdownTime ≠ 0 ∧ s.shutdownTime ≤ e.now then
    { s with run := false, now := e.now, stopped := some e.now }
  else
    let s := sweepBans s e
    processGate (sleep (checkEvent cal (reconnect s e) e) (timeout s e)) e

/-- A turn, or what other threads do: `schedule_shutdown`, where the time is read a second time by
`ship_server_shutdown`, bans that are set and lifted, events that are set, and lobbies that come and
go. -/
inductive Event where
  | turn (e : Turn)
  | scheduleShutdown (now check : ℕ) (minutes : BitVec 32)
  | banGuildcard (b : GuildcardBan)
  | banIp (b : IpBan)
  | liftBans (now : ℤ) (saved : Bool) (stale : ℕ → ℤ) (c : Call)
  | setLobbyEvent (event : ℕ)
  | setGameEvent (event : ℕ)
  | createLobby (isDefault : Bool)
  | destroyLobby (i : ℕ)

/-- `schedule_shutdown` and `ship_server_shutdown`; the byte for the pipe ends the `select`. -/
def scheduleShutdown (s : Ship) (now check : ℕ) (minutes : BitVec 32) : Ship :=
  let when_ := now + (minutes * 60).toNat
  if check ≤ when_ then { s with shutdownTime := when_, deadline := min s.deadline check } else s

/-- Nothing is done with a ship whose loop has been left. -/
def next (cal : Calendar) (s : Ship) (e : Event) : Ship :=
  if s.run = false then s
  else
    match e with
    | .turn e => turn cal s e
    | .scheduleShutdown now check minutes => scheduleShutdown s now check minutes
    | .banGuildcard b =>
      { s with bans := { s.bans with guildcardBans := s.bans.guildcardBans ++ [b] } }
    | .banIp b => { s with bans := { s.bans with ipBans := s.bans.ipBans ++ [b] } }
    | .liftBans now saved stale c =>
      { s with bans := (BanLifting.run s.bans now saved stale c).bans }
    | .setLobbyEvent event => updateLobbyEvent s event
    | .setGameEvent event => { s with gameEvent := event }
    | .createLobby isDefault =>
      let event := if isDefault then s.lobbyEvent else s.gameEvent
      { s with lobbies := s.lobbies ++ [⟨isDefault, event⟩] }
    | .destroyLobby i => { s with lobbies := s.lobbies.eraseIdx i }

/-- A ship as `ship_server_start` leaves it at the time `now`, with the bans of its file. -/
def started (cal : Calendar) (now : ℕ) (bans : BanList) : Ship where
  run := true
  now := now
  deadline := now
  shutdownTime := 0
  stopped := none
  gateError := false
  lastBanSweep := now
  bans := bans
  sgConnected := true
  loginAttempt := 0
  attempts := []
  oldevent := 0
  lobbyEvent := cal.default.lobbyEvent
  gameEvent := cal.default.gameEvent
  lobbies := []

section Shutdown

/-- A turn begins at most `delay` seconds after the time for `select` is up. -/
def Prompt (delay : ℕ) (s : Ship) : Event → Prop
  | .turn e => (e.now : ℤ) ≤ s.deadline + delay
  | _ => True

/-- The loop sleeps until the shutdown at most, and it is left in time for it, and not before. -/
structure Punctual (delay : ℕ) (s : Ship) : Prop where
  sleeps : s.run = true → s.shutdownTime ≠ 0 → s.deadline ≤ s.shutdownTime
  stops : ∀ n, s.stopped = some n →
    s.shutdownTime ≠ 0 ∧ s.shutdownTime ≤ n ∧ n ≤ s.shutdownTime + delay
  runs : s.run = false → s.stopped ≠ none ∨ s.gateError = true
  left : s.run = true → s.stopped = none

/-- What a stage of a turn leaves as it is. -/
structure Keeps (s t : Ship) : Prop where
  run : t.run = s.run
  shutdownTime : t.shutdownTime = s.shutdownTime
  stopped : t.stopped = s.stopped
  gateError : t.gateError = s.gateError

theorem Keeps.trans {s t u : Ship} (h : Keeps s t) (h' : Keeps t u) : Keeps s u :=
  ⟨h'.run.trans h.run, h'.shutdownTime.trans h.shutdownTime, h'.stopped.trans h.stopped,
    h'.gateError.trans h.gateError⟩

variable {cal : Calendar} {s : Ship} {e : Turn} {delay : ℕ}

theorem sweepBans_keeps (s : Ship) (e : Turn) : Keeps s (sweepBans s e) := by
  unfold sweepBans
  split <;> exact ⟨rfl, rfl, rfl, rfl⟩

theorem reconnect_keeps (s : Ship) (e : Turn) : Keeps s (reconnect s e) := by
  unfold reconnect
  split
  · split <;> exact ⟨rfl, rfl, rfl, rfl⟩
  · exact ⟨rfl, rfl, rfl, rfl⟩

theorem checkEvent_keeps (cal : Calendar) (s : Ship) (e : Turn) :
    Keeps s (checkEvent cal s e) := by
  unfold checkEvent
  dsimp only
  split
  · exact ⟨rfl, rfl, rfl, rfl⟩
  · split <;> split <;> exact ⟨rfl, rfl, rfl, rfl⟩

theorem sleep_keeps (s : Ship) (timeout : ℕ) : Keeps s (sleep s timeout) := by
  unfold sleep
  split <;> exact ⟨rfl, rfl, rfl, rfl⟩

theorem sleep_deadline (s : Ship) (timeout : ℕ) (h : s.shutdownTime ≠ 0) :
    (sleep s timeout).deadline ≤ s.shutdownTime := by
  unfold sleep
  split
  next => change (s.now : ℤ) + ((s.shutdownTime : ℤ) - s.now) ≤ s.shutdownTime; omega
  next hle =>
    have hnow : s.now + timeout ≤ s.shutdownTime := not_lt.mp fun hlt => hle ⟨h, hlt⟩
    change (s.now : ℤ) + timeout ≤ s.shutdownTime
    omega

/-- What becomes of the shutdown while packets from the shipgate are handled. -/
theorem processGate_cases (s : Ship) (e : Turn) :
    (processGate s e).deadline = s.deadline ∧ (processGate s e).shutdownTime = s.shutdownTime ∧
      (processGate s e).stopped = s.stopped ∧
      ((processGate s e).run = s.run ∨
        (processGate s e).run = false ∧ (processGate s e).gateError = true) := by
  unfold processGate
  split
  · exact ⟨rfl, rfl, rfl, .inl rfl⟩
  · split
    · exact ⟨rfl, rfl, rfl, .inl rfl⟩
    · split
      · exact ⟨rfl, rfl, rfl, .inl rfl⟩
      · split
        · exact ⟨rfl, rfl, rfl, .inr ⟨rfl, rfl⟩⟩
        · exact ⟨rfl, rfl, rfl, .inl rfl⟩

theorem turn_punctual (h : Punctual delay s) (hrun : s.run = true) (he : Prompt delay s (.turn e)) :
    Punctual delay (turn cal s e) := by
  unfold turn
  split
  next hdown =>
    refine ⟨fun hr => (by cases hr), ?_, fun _ => .inl (by simp), fun hr => (by cases hr)⟩
    intro n hn
    cases hn
    have hsleeps := h.sleeps hrun hdown.1
    have hprompt : (e.now : ℤ) ≤ s.deadline + delay := he
    refine ⟨hdown.1, hdown.2, ?_⟩
    change e.now ≤ s.shutdownTime + delay
    omega
  next =>
    dsimp only
    set v := sweepBans s e with hv
    set u := checkEvent cal (reconnect v e) e with hu
    have hkeeps : Keeps s u :=
      ((sweepBans_keeps s e).trans (reconnect_keeps v e)).trans (checkEvent_keeps cal _ e)
    have hsleep := hkeeps.trans (sleep_keeps u (timeout v e))
    obtain ⟨hdeadline, htime, hstopped, hruns⟩ := processGate_cases (sleep u (timeout v e)) e
    have hnone : (processGate (sleep u (timeout v e)) e).stopped = none := by
      rw [hstopped, hsleep.stopped]
      exact h.left hrun
    refine ⟨?_, ?_, ?_, fun _ => hnone⟩
    · intro _ hne
      rw [htime, hsleep.shutdownTime] at hne
      rw [hdeadline, htime, hsleep.shutdownTime, ← hkeeps.shutdownTime]
      exact sleep_deadline u _ (by rwa [hkeeps.shutdownTime])
    · intro n hn
      rw [hnone] at hn
      cases hn
    · intro hfalse
      rcases hruns with hsame | ⟨-, herror⟩
      · rw [hsame, hsleep.run, hrun] at hfalse
        cases hfalse
      · exact .inr herror

theorem scheduleShutdown_punctual (h : Punctual delay s) (hrun : s.run = true) (now check : ℕ)
    (minutes : BitVec 32) : Punctual delay (scheduleShutdown s now check minutes) := by
  unfold scheduleShutdown
  dsimp only
  split
  next hle =>
    refine ⟨fun _ _ => ?_, ?_, fun hr => absurd (hrun.symm.trans hr) (by decide), h.left⟩
    · change min s.deadline (check : ℤ) ≤ ((now + (minutes * 60).toNat : ℕ) : ℤ)
      exact (min_le_right _ _).trans (by exact_mod_cast hle)
    · intro n hn
      rw [show s.stopped = none from h.left hrun] at hn
      cases hn
  next => exact h

theorem next_punctual (h : Punctual delay s) {e : Event} (he : Prompt delay s e) :
    Punctual delay (next cal s e) := by
  have hsame : ∀ t : Ship, t.run = s.run → t.shutdownTime = s.shutdownTime →
      t.deadline = s.deadline → t.stopped = s.stopped → t.gateError = s.gateError →
      Punctual delay t := by
    intro t hrun htime hdeadline hstopped herror
    constructor
    · rw [hrun, htime, hdeadline]
      exact h.sleeps
    · rw [hstopped, htime]
      exact h.stops
    · rw [hrun, hstopped, herror]
      exact h.runs
    · rw [hrun, hstopped]
      exact h.left
  unfold next
  split
  next => exact h
  next hrun =>
    have htrue : s.run = true := by simpa using hrun
    cases e with
    | turn e => exact turn_punctual h htrue he
    | scheduleShutdown now check minutes =>
      exact scheduleShutdown_punctual h htrue now check minutes
    | _ => exact hsame _ rfl rfl rfl rfl rfl

theorem started_punctual (cal : Calendar) (now : ℕ) (bans : BanList) :
    Punctual delay (started cal now bans) := by
  refine ⟨fun _ h => absurd rfl h, ?_, fun h => (by cases h), fun _ => rfl⟩
  intro n hn
  cases hn

end Shutdown

section Duties

variable {cal : Calendar} {s : Ship} {e : Turn} {e' : Event} {delay : ℕ}

/-- The time goes on, a sweep takes `delay` seconds at most, and no ban is over before it is set. -/
def InOrder (delay : ℕ) (s : Ship) : Event → Prop
  | .turn e => s.now ≤ e.now ∧ e.now ≤ e.sweepTime ∧ e.sweepTime ≤ e.afterSweep ∧
      e.afterSweep ≤ e.sweepTime + delay
  | .banGuildcard b => b.endTime = -1 ∨ (s.lastBanSweep : ℤ) ≤ b.endTime + delay
  | .banIp b => b.endTime = -1 ∨ (s.lastBanSweep : ℤ) ≤ b.endTime + delay
  | _ => True

/-- No ban in a list was over long before the time `swept`. -/
structure Unswept (swept delay : ℕ) (bans : BanList) : Prop where
  guildcards : ∀ b ∈ bans.guildcardBans, b.endTime = -1 ∨ (swept : ℤ) ≤ b.endTime + delay
  ips : ∀ b ∈ bans.ipBans, b.endTime = -1 ∨ (swept : ℤ) ≤ b.endTime + delay

/-- The bans are swept every day, and failed attempts to reconnect are followed by others after
fifteen seconds, but not earlier. -/
structure Tended (delay : ℕ) (s : Ship) : Prop where
  swept : s.run = true → s.now < s.lastBanSweep + 3600 * 24
  bans : Unswept s.lastBanSweep delay s.bans
  last : s.loginAttempt = 0 ∨ ∃ p ∈ s.attempts, p.works = false ∧ s.loginAttempt = p.time + 14
  held : ∀ p ∈ s.attempts, p.works = false → p.time + 14 ≤ s.loginAttempt ∨ p.time + 15 ≤ s.now
  spaced : s.attempts.Pairwise fun p q => p.works = false → p.time + 15 ≤ q.time

/-- What the duties depend on. -/
structure Alike (s t : Ship) : Prop where
  now : t.now = s.now
  lastBanSweep : t.lastBanSweep = s.lastBanSweep
  loginAttempt : t.loginAttempt = s.loginAttempt
  attempts : t.attempts = s.attempts

theorem Tended.alike {t : Ship} (h : Tended delay s) (ha : Alike s t)
    (hrun : t.run = true → s.run = true) (hbans : Unswept s.lastBanSweep delay t.bans) :
    Tended delay t where
  swept := fun hr => by
    rw [ha.now, ha.lastBanSweep]
    exact h.swept (hrun hr)
  bans := by
    rw [ha.lastBanSweep]
    exact hbans
  last := by
    rw [ha.loginAttempt, ha.attempts]
    exact h.last
  held := by
    rw [ha.loginAttempt, ha.attempts, ha.now]
    exact h.held
  spaced := by
    rw [ha.attempts]
    exact h.spaced

theorem Unswept.sublist {swept : ℕ} {bans bans' : BanList} (h : Unswept swept delay bans)
    (hg : bans'.guildcardBans.Sublist bans.guildcardBans)
    (hi : bans'.ipBans.Sublist bans.ipBans) : Unswept swept delay bans' :=
  ⟨fun b hb => h.guildcards b (hg.subset hb), fun b hb => h.ips b (hi.subset hb)⟩

theorem banSweep_guildcards (bans : BanList) (now : ℤ) (saved : Bool) (stale : ℕ → ℤ) :
    (banSweep bans now saved stale).bans.guildcardBans =
      bans.guildcardBans.filter fun b => unexpired now b.endTime :=
  BanLifting.left_sweep 0 bans.guildcardBans

theorem banSweep_ips (bans : BanList) (now : ℤ) (saved : Bool) (stale : ℕ → ℤ) :
    (banSweep bans now saved stale).bans.ipBans =
      bans.ipBans.filter fun b => unexpired now b.endTime :=
  BanLifting.left_sweep 0 bans.ipBans

theorem unexpired_cases {now endTime : ℤ} (h : unexpired now endTime = true) :
    endTime = -1 ∨ now ≤ endTime := by
  simp only [unexpired, decide_eq_true_eq] at h
  exact h.symm

/-- After a sweep there is no ban that was over when it began. -/
theorem banSweep_unswept (bans : BanList) {now after : ℕ} (hafter : after ≤ now + delay)
    (saved : Bool) (stale : ℕ → ℤ) :
    Unswept after delay (banSweep bans (now : ℤ) saved stale).bans := by
  constructor
  · intro b hb
    rw [banSweep_guildcards] at hb
    rcases unexpired_cases (List.mem_filter.mp hb).2 with hforever | hle
    · exact .inl hforever
    · right
      omega
  · intro b hb
    rw [banSweep_ips] at hb
    rcases unexpired_cases (List.mem_filter.mp hb).2 with hforever | hle
    · exact .inl hforever
    · right
      omega

theorem pass_sublist {α : Type*} (now : ℤ) (found : α → Bool) (endTime : α → ℤ) (stale : ℕ → ℤ)
    (k : ℕ) (l : List α) : (BanLifting.pass now found endTime stale k l).left.Sublist l := by
  induction l generalizing k with
  | nil => exact .slnil
  | cons i is ih =>
    rw [BanLifting.pass]
    dsimp only
    by_cases hended : (found i || !unexpired now (if found i then stale k else endTime i)) = true
    · rw [if_pos hended]
      exact (ih (k + 1)).cons i
    · rw [if_neg hended]
      exact (ih (k + 1)).cons_cons i

theorem run_unswept {swept : ℕ} {bans : BanList} (h : Unswept swept delay bans) (now : ℤ)
    (saved : Bool) (stale : ℕ → ℤ) (c : Call) :
    Unswept swept delay (BanLifting.run bans now saved stale c).bans := by
  cases c with
  | liftGuildcard gc => exact h.sublist (pass_sublist ..) (List.Sublist.refl _)
  | liftIp ip => exact h.sublist (List.Sublist.refl _) (pass_sublist ..)
  | sweep => exact h.sublist (pass_sublist ..) (pass_sublist ..)

theorem sweepBans_tended (h : Tended delay s) (he : InOrder delay s (.turn e)) :
    Tended delay (sweepBans s e) := by
  obtain ⟨hnow, hsweep, hafter, hdelay⟩ := he
  have hheld : ∀ now, s.now ≤ now → ∀ p ∈ s.attempts, p.works = false →
      p.time + 14 ≤ s.loginAttempt ∨ p.time + 15 ≤ now := fun now hle p hp hworks =>
    (h.held p hp hworks).imp_right fun ht => ht.trans hle
  unfold sweepBans
  split
  next =>
    refine ⟨fun _ => ?_, banSweep_unswept s.bans hdelay e.saved e.stale, h.last, ?_, h.spaced⟩
    · change e.afterSweep < e.afterSweep + 3600 * 24
      omega
    · exact hheld e.afterSweep (by omega)
  next hlt => exact ⟨fun _ => not_le.mp hlt, h.bans, h.last, hheld e.now hnow, h.spaced⟩

theorem sweepBans_now (he : InOrder delay s (.turn e)) : s.now ≤ (sweepBans s e).now := by
  obtain ⟨hnow, hsweep, hafter, -⟩ := he
  unfold sweepBans
  split
  · change s.now ≤ e.afterSweep
    omega
  · exact hnow

/-- An attempt that is made is made late enough. -/
theorem Tended.spaced_concat (h : Tended delay s) (hdue : s.loginAttempt < s.now) (works : Bool) :
    (s.attempts ++ [(⟨s.now, works⟩ : Attempt)]).Pairwise
      fun p q => p.works = false → p.time + 15 ≤ q.time := by
  refine List.pairwise_append.mpr ⟨h.spaced, List.pairwise_singleton _ _, ?_⟩
  intro p hp q hq hworks
  rw [List.mem_singleton.mp hq]
  rcases h.held p hp hworks with hle | hle
  · change p.time + 15 ≤ s.now
    omega
  · exact hle

theorem reconnect_tended (h : Tended delay s) (e : Turn) : Tended delay (reconnect s e) := by
  unfold reconnect
  split
  next hdue =>
    split
    · refine ⟨h.swept, h.bans, .inl rfl, ?_, h.spaced_concat hdue.2 true⟩
      intro p hp hworks
      rcases List.mem_append.mp hp with hp | hp
      · right
        rcases h.held p hp hworks with hle | hle
        · change p.time + 15 ≤ s.now
          omega
        · exact hle
      · rw [List.mem_singleton.mp hp] at hworks
        cases hworks
    · have hmem : (⟨s.now, false⟩ : Attempt) ∈ s.attempts ++ [⟨s.now, false⟩] :=
        List.mem_append_right _ List.mem_cons_self
      refine ⟨h.swept, h.bans, .inr ⟨_, hmem, rfl, rfl⟩, ?_, h.spaced_concat hdue.2 false⟩
      intro p hp hworks
      rcases List.mem_append.mp hp with hp | hp
      · rcases h.held p hp hworks with hle | hle
        · left
          change p.time + 14 ≤ s.now + 14
          omega
        · exact .inr hle
      · rw [List.mem_singleton.mp hp]
        exact .inl le_rfl
  next => exact h

theorem checkEvent_alike (cal : Calendar) (s : Ship) (e : Turn) :
    Alike s (checkEvent cal s e) ∧ (checkEvent cal s e).bans = s.bans := by
  unfold checkEvent
  dsimp only
  split
  · exact ⟨⟨rfl, rfl, rfl, rfl⟩, rfl⟩
  · split <;> split <;> exact ⟨⟨rfl, rfl, rfl, rfl⟩, rfl⟩

theorem sleep_alike (s : Ship) (timeout : ℕ) :
    Alike s (sleep s timeout) ∧ (sleep s timeout).bans = s.bans := by
  unfold sleep
  split <;> exact ⟨⟨rfl, rfl, rfl, rfl⟩, rfl⟩

theorem processGate_alike (s : Ship) (e : Turn) :
    Alike s (processGate s e) ∧ (processGate s e).bans = s.bans := by
  unfold processGate
  split
  · exact ⟨⟨rfl, rfl, rfl, rfl⟩, rfl⟩
  · split
    · exact ⟨⟨rfl, rfl, rfl, rfl⟩, rfl⟩
    · split
      · exact ⟨⟨rfl, rfl, rfl, rfl⟩, rfl⟩
      · split <;> exact ⟨⟨rfl, rfl, rfl, rfl⟩, rfl⟩

theorem processGate_run (s : Ship) (e : Turn) (h : (processGate s e).run = true) :
    s.run = true := by
  rcases (processGate_cases s e).2.2.2 with hsame | ⟨hfalse, -⟩
  · rwa [← hsame]
  · rw [hfalse] at h
    cases h

/-- The stages of a turn after `reconnect`. -/
theorem rest_alike (cal : Calendar) (s : Ship) (n : ℕ) (e : Turn) :
    Alike s (processGate (sleep (checkEvent cal s e) n) e) ∧
      (processGate (sleep (checkEvent cal s e) n) e).bans = s.bans := by
  obtain ⟨hcheck, hb⟩ := checkEvent_alike cal s e
  obtain ⟨hsleep, hb'⟩ := sleep_alike (checkEvent cal s e) n
  obtain ⟨hgate, hb''⟩ := processGate_alike (sleep (checkEvent cal s e) n) e
  exact ⟨⟨hgate.now.trans (hsleep.now.trans hcheck.now),
    hgate.lastBanSweep.trans (hsleep.lastBanSweep.trans hcheck.lastBanSweep),
    hgate.loginAttempt.trans (hsleep.loginAttempt.trans hcheck.loginAttempt),
    hgate.attempts.trans (hsleep.attempts.trans hcheck.attempts)⟩, hb''.trans (hb'.trans hb)⟩

theorem turn_tended (h : Tended delay s) (he : InOrder delay s (.turn e)) :
    Tended delay (turn cal s e) := by
  unfold turn
  split
  next =>
    refine ⟨fun hr => (by cases hr), h.bans, h.last, ?_, h.spaced⟩
    intro p hp hworks
    exact (h.held p hp hworks).imp_right fun ht => ht.trans he.1
  next =>
    dsimp only
    have htended := reconnect_tended (sweepBans_tended h he) e
    obtain ⟨halike, hbans⟩ :=
      rest_alike cal (reconnect (sweepBans s e) e) (timeout (sweepBans s e) e) e
    refine htended.alike halike (fun hr => ?_) (hbans ▸ htended.bans)
    have hrun := processGate_run _ e hr
    rwa [(sleep_keeps _ _).run, (checkEvent_keeps cal _ e).run] at hrun

theorem next_tended (h : Tended delay s) {e : Event} (he : InOrder delay s e) :
    Tended delay (next cal s e) := by
  unfold next
  split
  next => exact h
  next =>
    cases e with
    | turn e => exact turn_tended h he
    | scheduleShutdown now check minutes =>
      dsimp only
      unfold scheduleShutdown
      dsimp only
      split
      · exact h.alike ⟨rfl, rfl, rfl, rfl⟩ id h.bans
      · exact h
    | banGuildcard b =>
      refine h.alike ⟨rfl, rfl, rfl, rfl⟩ id ⟨fun c hc => ?_, h.bans.ips⟩
      rcases List.mem_append.mp hc with hc | hc
      · exact h.bans.guildcards c hc
      · rw [List.mem_singleton.mp hc]
        exact he
    | banIp b =>
      refine h.alike ⟨rfl, rfl, rfl, rfl⟩ id ⟨h.bans.guildcards, fun c hc => ?_⟩
      rcases List.mem_append.mp hc with hc | hc
      · exact h.bans.ips c hc
      · rw [List.mem_singleton.mp hc]
        exact he
    | liftBans now saved stale c =>
      exact h.alike ⟨rfl, rfl, rfl, rfl⟩ id (run_unswept h.bans now saved stale c)
    | _ => exact h.alike ⟨rfl, rfl, rfl, rfl⟩ id h.bans

theorem started_tended (cal : Calendar) (now : ℕ) {bans : BanList}
    (hbans : Unswept now delay bans) : Tended delay (started cal now bans) where
  swept := fun _ => Nat.lt_add_of_pos_right (by decide)
  bans := hbans
  last := .inl rfl
  held := by simp [started]
  spaced := .nil

/-- A turn that begins without a shipgate tries to connect to it, unless that has failed within
the last fourteen seconds. -/
theorem Tended.turn_tries (h : Tended delay s) (he : InOrder delay s (.turn e))
    (hgone : s.sgConnected = false)
    (hup : ¬(s.shutdownTime ≠ 0 ∧ s.shutdownTime ≤ e.now)) (hnow : 0 < s.now) :
    ∃ p ∈ (turn cal s e).attempts, (turn cal s e).now ≤ p.time + 14 := by
  have hv := sweepBans_tended h he
  have hgone' : (sweepBans s e).sgConnected = false := by
    unfold sweepBans
    split <;> exact hgone
  have hpos := hnow.trans_le (sweepBans_now he)
  obtain ⟨halike, -⟩ :=
    rest_alike cal (reconnect (sweepBans s e) e) (timeout (sweepBans s e) e) e
  rw [turn, if_neg hup]
  dsimp only
  rw [halike.attempts, halike.now]
  by_cases hdue : (sweepBans s e).loginAttempt < (sweepBans s e).now
  · have hmem : ∀ w : Bool, (⟨(sweepBans s e).now, w⟩ : Attempt) ∈
        (sweepBans s e).attempts ++ [⟨(sweepBans s e).now, w⟩] :=
      fun w => List.mem_append_right _ List.mem_cons_self
    rw [reconnect, if_pos ⟨hgone', hdue⟩]
    split
    · exact ⟨_, hmem true, Nat.le_add_right _ _⟩
    · exact ⟨_, hmem false, Nat.le_add_right _ _⟩
  · rw [reconnect, if_neg fun hc => hdue hc.2]
    rcases hv.last with hzero | ⟨p, hp, -, hlast⟩
    · omega
    · exact ⟨p, hp, by omega⟩

theorem next_now (he : InOrder delay s e') : s.now ≤ (next cal s e').now := by
  unfold next
  split
  next => exact le_rfl
  next =>
    cases e' with
    | turn e =>
      dsimp only
      unfold turn
      split
      · exact he.1
      · dsimp only
        rw [(rest_alike cal _ _ e).1.now]
        have hkeep : (reconnect (sweepBans s e) e).now = (sweepBans s e).now := by
          unfold reconnect
          split
          · split <;> rfl
          · rfl
        rw [hkeep]
        exact sweepBans_now he
    | scheduleShutdown now check minutes =>
      dsimp only
      unfold scheduleShutdown
      dsimp only
      split <;> exact le_rfl
    | _ => exact le_rfl

end Duties

section Events

variable {cal : Calendar}

/-- The days on which an event takes place, which may begin in one year and end in the next. -/
def Covers (v : CalendarEvent) (today : Day) : Prop :=
  if v.startMonth ≤ v.endMonth then
    toLex (v.startMonth, v.startDay) ≤ today ∧ today ≤ toLex (v.endMonth, v.endDay)
  else toLex (v.startMonth, v.startDay) ≤ today ∨ today ≤ toLex (v.endMonth, v.endDay)

instance decidableCovers (v : CalendarEvent) (today : Day) : Decidable (Covers v today) :=
  inferInstanceAs <| Decidable <|
    if v.startMonth ≤ v.endMonth then
      toLex (v.startMonth, v.startDay) ≤ today ∧ today ≤ toLex (v.endMonth, v.endDay)
    else toLex (v.startMonth, v.startDay) ≤ today ∨ today ≤ toLex (v.endMonth, v.endDay)

/-- The event of a day: the first one that covers it, or the default one. -/
def Calendar.current (cal : Calendar) (today : Day) : CalendarEvent :=
  (cal.others.find? fun v => Covers v today).getD cal.default

theorem passedOver_iff (v : CalendarEvent) (m d : ℕ) :
    passedOver v m d = false ↔ Covers v (toLex (m, d)) := by
  unfold passedOver Covers
  simp only [Prod.Lex.toLex_le_toLex]
  split_ifs <;> simp <;> omega

/-- The loop finds the first event that covers the day. -/
theorem scanEvents_event (today : Day) (pre vs : List CalendarEvent) :
    cal.default :: cal.others = pre ++ vs → 0 < pre.length →
      cal.event (scanEvents (ofLex today).1 (ofLex today).2 pre.length vs) =
        (vs.find? fun v => Covers v today).getD cal.default := by
  induction vs generalizing pre with
  | nil =>
    intro _ _
    rfl
  | cons v vs ih =>
    intro hall hpos
    have hcovers := passedOver_iff v (ofLex today).1 (ofLex today).2
    rw [scanEvents, List.find?_cons]
    cases hp : passedOver v (ofLex today).1 (ofLex today).2 with
    | true =>
      have hnot : ¬Covers v today := fun hc => by
        rw [hcovers.mpr hc] at hp
        cases hp
      have hrest := ih (pre ++ [v]) (by rw [List.append_assoc]; exact hall) (by simp)
      rw [List.length_append, List.length_singleton] at hrest
      simpa [hnot] using hrest
    | false =>
      have hc : Covers v today := hcovers.mp hp
      simp only [hc, decide_true, Option.getD_some]
      change (cal.default :: cal.others).getD pre.length cal.default = v
      rw [hall, List.getD_append_right _ _ _ _ le_rfl, Nat.sub_self]
      rfl

theorem findCurrentEvent_event (cal : Calendar) (today : Day) :
    cal.event (findCurrentEvent cal today) = cal.current today := by
  unfold findCurrentEvent
  split
  next hnone =>
    rw [Calendar.current, hnone]
    rfl
  next => exact scanEvents_event today [cal.default] cal.others rfl Nat.one_pos

/-- The value of a field that the events of some days set, one after the other. -/
def shown (cal : Calendar) (field : CalendarEvent → ℕ) (days : List Day) : ℕ :=
  ((days.map fun today => field (cal.current today)).filter (· ≠ 0xFF)).getLastD
    (field cal.default)

/-- The day of a turn. -/
def Event.day : Event → Option Day
  | .turn e => some e.today
  | _ => none

/-- No event is set by hand. -/
def Event.isAutomatic : Event → Bool
  | .setLobbyEvent _ => false
  | .setGameEvent _ => false
  | _ => true

/-- The lobbies show the event that the days of the turns lead to. -/
structure Shows (cal : Calendar) (days : List Day) (s : Ship) : Prop where
  oldevent : cal.event s.oldevent = (days.map cal.current).getLastD cal.default
  lobbyEvent : s.lobbyEvent = shown cal CalendarEvent.lobbyEvent days
  gameEvent : s.gameEvent = shown cal CalendarEvent.gameEvent days
  lobbies : ∀ l ∈ s.lobbies, l.isDefault = true → l.event = s.lobbyEvent

theorem shown_concat (field : CalendarEvent → ℕ) (days : List Day) (today : Day) :
    shown cal field (days ++ [today]) =
      if field (cal.current today) ≠ 0xFF then field (cal.current today)
      else shown cal field days := by
  unfold shown
  rw [List.map_append, List.filter_append, List.map_singleton]
  by_cases hset : field (cal.current today) ≠ 0xFF
  · rw [if_pos hset, List.filter_singleton, decide_eq_true hset]
    exact List.getLastD_concat ..
  · rw [if_neg hset, List.filter_singleton, decide_eq_false hset]
    simp

/-- A day with the event of the day before changes nothing. -/
theorem shown_same (field : CalendarEvent → ℕ) (days : List Day) (today : Day)
    (h : cal.current today = (days.map cal.current).getLastD cal.default) :
    shown cal field (days ++ [today]) = shown cal field days := by
  rw [shown_concat]
  split
  next hset =>
    induction days using List.reverseRecOn with
    | nil =>
      rw [h]
      rfl
    | append_singleton days day _ =>
      rw [List.map_append, List.map_singleton, List.getLastD_concat] at h
      rw [shown_concat, ← h, if_pos hset]
  next => rfl

variable {days : List Day} {s : Ship}

/-- What the event depends on. -/
structure SameEvents (s t : Ship) : Prop where
  oldevent : t.oldevent = s.oldevent
  lobbyEvent : t.lobbyEvent = s.lobbyEvent
  gameEvent : t.gameEvent = s.gameEvent
  lobbies : t.lobbies = s.lobbies

theorem Shows.same {t : Ship} (h : Shows cal days s) (ht : SameEvents s t) : Shows cal days t where
  oldevent := by rw [ht.oldevent, h.oldevent]
  lobbyEvent := by rw [ht.lobbyEvent, h.lobbyEvent]
  gameEvent := by rw [ht.gameEvent, h.gameEvent]
  lobbies := by
    rw [ht.lobbies, ht.lobbyEvent]
    exact h.lobbies

theorem updateLobbyEvent_lobbies (s : Ship) (event : ℕ) :
    ∀ l ∈ (updateLobbyEvent s event).lobbies, l.isDefault = true → l.event = event := by
  intro l hl hdefault
  obtain ⟨k, -, rfl⟩ := List.mem_map.mp hl
  cases hk : k.isDefault with
  | true => rw [if_pos rfl]
  | false =>
    rw [hk, if_neg (by decide), hk] at hdefault
    cases hdefault

theorem checkEvent_shows (h : Shows cal days s) (e : Turn) :
    Shows cal (days ++ [e.today]) (checkEvent cal s e) := by
  have hevent := findCurrentEvent_event cal e.today
  unfold checkEvent
  dsimp only
  split
  next hsame =>
    rw [hsame] at hevent
    have hcurrent := hevent.symm.trans h.oldevent
    refine ⟨?_, ?_, ?_, h.lobbies⟩
    · rw [List.map_append, List.map_singleton, List.getLastD_concat]
      exact hevent
    · rw [shown_same _ _ _ hcurrent]
      exact h.lobbyEvent
    · rw [shown_same _ _ _ hcurrent]
      exact h.gameEvent
  next =>
    refine ⟨?_, ?_, ?_, ?_⟩
    · rw [List.map_append, List.map_singleton, List.getLastD_concat]
      exact hevent
    · rw [shown_concat, ← hevent]
      split <;> split <;> first | rfl | exact h.lobbyEvent
    · rw [shown_concat, ← hevent]
      split <;> split <;> first | rfl | exact h.gameEvent
    · split <;> split <;> first | exact h.lobbies | exact updateLobbyEvent_lobbies s _

theorem sweepBans_same (s : Ship) (e : Turn) : SameEvents s (sweepBans s e) := by
  unfold sweepBans
  split <;> exact ⟨rfl, rfl, rfl, rfl⟩

theorem reconnect_same (s : Ship) (e : Turn) : SameEvents s (reconnect s e) := by
  unfold reconnect
  split
  · split <;> exact ⟨rfl, rfl, rfl, rfl⟩
  · exact ⟨rfl, rfl, rfl, rfl⟩

theorem sleep_same (s : Ship) (timeout : ℕ) : SameEvents s (sleep s timeout) := by
  unfold sleep
  split <;> exact ⟨rfl, rfl, rfl, rfl⟩

theorem processGate_same (s : Ship) (e : Turn) : SameEvents s (processGate s e) := by
  unfold processGate
  split
  · exact ⟨rfl, rfl, rfl, rfl⟩
  · split
    · exact ⟨rfl, rfl, rfl, rfl⟩
    · split
      · exact ⟨rfl, rfl, rfl, rfl⟩
      · split <;> exact ⟨rfl, rfl, rfl, rfl⟩

theorem turn_shows (h : Shows cal days s) {e : Turn} (hrun : (turn cal s e).run = true) :
    Shows cal (days ++ [e.today]) (turn cal s e) := by
  unfold turn at hrun ⊢
  split at hrun
  next => cases hrun
  next hup =>
    rw [if_neg hup]
    dsimp only
    have hbefore := (h.same (sweepBans_same s e)).same (reconnect_same (sweepBans s e) e)
    exact ((checkEvent_shows hbefore e).same (sleep_same _ _)).same (processGate_same _ e)

theorem next_shows (h : Shows cal days s) {e : Event} (hauto : e.isAutomatic = true)
    (hrun : (next cal s e).run = true) : Shows cal (days ++ e.day.toList) (next cal s e) := by
  have hlive : ¬s.run = false := by
    intro hf
    rw [next.eq_def, if_pos hf, hf] at hrun
    cases hrun
  rw [next.eq_def, if_neg hlive] at hrun ⊢
  have hnone : Shows cal (days ++ []) s := by rwa [List.append_nil]
  cases e with
  | turn e => exact turn_shows h hrun
  | scheduleShutdown now check minutes =>
    refine hnone.same ?_
    dsimp only
    unfold scheduleShutdown
    dsimp only
    split <;> exact ⟨rfl, rfl, rfl, rfl⟩
  | setLobbyEvent event => cases hauto
  | setGameEvent event => cases hauto
  | createLobby isDefault =>
    refine ⟨hnone.oldevent, hnone.lobbyEvent, hnone.gameEvent, ?_⟩
    intro l hl hdefault
    rcases List.mem_append.mp hl with hl | hl
    · exact h.lobbies l hl hdefault
    · rw [List.mem_singleton.mp hl] at hdefault ⊢
      exact if_pos hdefault
  | destroyLobby i =>
    refine ⟨hnone.oldevent, hnone.lobbyEvent, hnone.gameEvent, ?_⟩
    intro l hl
    exact h.lobbies l (List.mem_of_mem_eraseIdx hl)
  | _ => exact hnone.same ⟨rfl, rfl, rfl, rfl⟩

theorem next_run {e : Event} (h : (next cal s e).run = true) : s.run = true := by
  by_contra hf
  rw [next.eq_def, if_pos (by simpa using hf)] at h
  exact hf h

/-- While nobody sets an event by hand, the lobbies and the new games show what the days so far lead
to: the event of the last day that sets one, where the event of a day is the first of the list that
takes place on it, also at the turn of the year. -/
theorem calendar_shows (now : ℕ) (bans : BanList) (es : List Event)
    (hauto : ∀ e ∈ es, e.isAutomatic = true)
    (hrun : (es.foldl (next cal) (started cal now bans)).run = true) :
    Shows cal (es.filterMap Event.day) (es.foldl (next cal) (started cal now bans)) := by
  induction es using List.reverseRecOn with
  | nil => exact ⟨rfl, rfl, rfl, by simp [started]⟩
  | append_singleton es e ih =>
    rw [List.foldl_append] at hrun ⊢
    have hih := ih (fun d hd => hauto d (List.mem_append_left _ hd)) (next_run hrun)
    have hshows := next_shows hih (hauto e (List.mem_append_right _ List.mem_cons_self)) hrun
    rw [List.filterMap_append]
    cases hday : e.day with
    | none => simpa [hday] using hshows
    | some today => simpa [hday] using hshows

end Events

section Examples

/-- Nothing but an event from the 20th of December to the 5th of January. -/
def winter : Calendar where
  default := ⟨1, 1, 12, 31, 0, 0⟩
  others := [⟨12, 20, 1, 5, 1, 255⟩]

def quietTurn (now : ℕ) (today : Day) : Turn where
  now := now
  sweepTime := now
  afterSweep := now
  saved := true
  stale _ := 0
  reconnects := false
  today := today
  processed := some (-1)
  sendFails := false

/-- A shutdown in a minute, put off once. -/
def shutdownTurns : List Event :=
  [.turn (quietTurn 1000 (toLex (6, 1))), .scheduleShutdown 1010 1010 0,
    .scheduleShutdown 1010 1010 1, .turn (quietTurn 1011 (toLex (6, 1))),
    .turn (quietTurn 1028 (toLex (6, 1))),
    .turn (quietTurn 1045 (toLex (6, 1))), .turn (quietTurn 1062 (toLex (6, 1))),
    .turn (quietTurn 1072 (toLex (6, 1)))]

def stoppedShip : Ship :=
  shutdownTurns.foldl (next winter) (started winter 1000 ⟨[], []⟩)

/-- The shipgate is lost in the first turn, and cannot be reached in the next ones. -/
def goneTurns : List Event :=
  [.turn (quietTurn 1001 (toLex (6, 1))), .turn (quietTurn 1002 (toLex (6, 1))),
    .turn (quietTurn 1017 (toLex (6, 1)))]

theorem quietTurn_inOrder {s : Ship} {now : ℕ} (h : s.now ≤ now) (today : Day) :
    InOrder 0 s (.turn (quietTurn now today)) :=
  ⟨h, le_rfl, le_rfl, le_rfl⟩

/-- The event lasts into January. -/
theorem calendar_shows_winter :
    ([Event.turn (quietTurn 1001 (toLex (12, 31))), .turn (quietTurn 1002 (toLex (1, 5)))].foldl
      (next winter) (started winter 1000 ⟨[], []⟩)).lobbyEvent = 1 :=
  (calendar_shows 1000 ⟨[], []⟩ [.turn (quietTurn 1001 (toLex (12, 31))),
    .turn (quietTurn 1002 (toLex (1, 5)))] (by decide) (by decide)).lobbyEvent

end Examples

end ShipServer.ShipSchedule
