import ShipServer.LabelledRuns
import ShipServer.QuestFunctions
import ShipServer.Teams

set_option autoImplicit false

namespace ShipServer.QuestObservers

open LabelledRuns LobbyRooms LobbyFunctions QuestFunctions Teams

/-- A game with the registers that its clients want to have kept up to date: `qposRegs s o` for the
position of the client in slot `s` as the one in slot `o` wants it. The last two fields are
history: who asked. -/
structure ObservedTeam extends Team where
  questing : Bool
  member : ClientId → QuestMember
  qposRegs : Slot → Slot → BitVec 8
  qcountReg : Slot → BitVec 8
  qposBy : Slot → Slot → Option ClientId
  qcountBy : Slot → Option ClientId

/-- A call `send_sync_register(l->clients[slot], reg, value)`; `receiver` is what the slot holds. -/
structure Sync where
  slot : Slot
  receiver : Option ClientId
  reg : BitVec 8
  value : BitVec 32

/-- The first four slots, one after another. -/
def teamSlots : List Slot :=
  [0, 1, 2, 3]

namespace ObservedTeam

def updateQpos (t : ObservedTeam) (c : ClientId) (i : Slot) : List Sync :=
  teamSlots.flatMap fun o =>
    let r := t.qposRegs i o
    if r ≠ 0 then
      [⟨o, t.clients o, r, (t.member c).x⟩, ⟨o, t.clients o, r + 1, (t.member c).y⟩,
        ⟨o, t.clients o, r + 2, (t.member c).z⟩, ⟨o, t.clients o, r + 3, (t.member c).curArea⟩]
    else []

/-- The new number of clients is sent to those who have asked for it. -/
def sendCount (t : ObservedTeam) : List Sync :=
  if t.questing then
    teamSlots.flatMap fun o =>
      let r := t.qcountReg o
      if r ≠ 0 then [⟨o, t.clients o, r, BitVec.ofInt 32 t.numClients⟩] else []
  else []

def join (t : ObservedTeam) (c : ClientId) : ObservedTeam × List Sync :=
  match t.add c with
  | none => (t, [])
  | some (m, _) =>
    let t := { t with toTeam := m }
    (t, t.sendCount)

/-- What a client has asked for is forgotten. -/
def clearColumn (t : ObservedTeam) (i : Slot) : ObservedTeam :=
  { t with
    qposRegs := fun s => if s ∈ teamSlots then Function.update (t.qposRegs s) i 0 else t.qposRegs s
    qcountReg := Function.update t.qcountReg i 0 }

def leave (t : ObservedTeam) (c : ClientId) (lastPreGc : Bool) : ObservedTeam × List Sync :=
  match t.remove c lastPreGc with
  | none => (t, [])
  | some (m, i) =>
    let t := { t with toTeam := m }.clearColumn i
    (t, t.sendCount)

/-- The effects of a quest function on the game. The registers that it sends go to its caller. -/
def apply (c : ClientId) (i : Slot) (t : ObservedTeam) : Effect → ObservedTeam
  | .posUpdates who reg =>
    let s := Fin.castLE (by decide) who
    { t with
      qposRegs := Function.update t.qposRegs s (Function.update (t.qposRegs s) i reg)
      qposBy := Function.update t.qposBy s (Function.update (t.qposBy s) i (some c)) }
  | .countUpdates reg =>
    { t with
      qcountReg := Function.update t.qcountReg i reg
      qcountBy := Function.update t.qcountBy i (some c) }
  | .sync _ _ | .call _ => t

/-- The caller finds its parameters on its stack. -/
def questFunction (t : ObservedTeam) (env : QuestEnv) (team : QuestTeam) (stack : ℤ → BitVec 32)
    (c : ClientId) (i : Slot) : ObservedTeam :=
  ((questFunctionDispatch env team).result stack).effects.foldl (apply c i) t

/-- The handlers of movements and changes of area. -/
def position (t : ObservedTeam) (c : ClientId) (i : Slot) (clientId : ℕ) (x : QuestMember) :
    ObservedTeam × List Sync :=
  if (i : ℕ) = clientId then
    let t := { t with member := Function.update t.member c x }
    (t, if t.questing then t.updateQpos c i else [])
  else (t, [])

end ObservedTeam

/-- What can happen to a game. `x` is the client's record after the handler of the packet has
stored the new position. -/
inductive Event where
  | join (c : ClientId)
  | leave (c : ClientId) (lastPreGc : Bool)
  | questing (flag : Bool)
  | questFunction (env : QuestEnv) (team : QuestTeam) (stack : ℤ → BitVec 32) (c : ClientId)
  | position (c : ClientId) (clientId : ℕ) (x : QuestMember)

/-- The game after an event, and the registers that have been sent to slots. -/
def react (t : ObservedTeam) : Event → ObservedTeam × List Sync
  | .join c => if t.place c = none then t.join c else (t, [])
  | .leave c lastPreGc => t.leave c lastPreGc
  | .questing flag => ({ t with questing := flag }, [])
  | .questFunction env team stack c =>
    match t.place c with
    | none => (t, [])
    | some i => (t.questFunction env team stack c i, [])
  | .position c clientId x =>
    match t.place c with
    | none => (t, [])
    | some i => t.position c i clientId x

def next (t : ObservedTeam) (e : Event) : ObservedTeam :=
  (react t e).1

/-- The client in the slot has asked for something and is still there. -/
def Registered (t : ObservedTeam) (o : Slot) (c : ClientId) : Prop :=
  t.clients o = some c ∧
    ((∃ s, t.qposRegs s o ≠ 0 ∧ t.qposBy s o = some c) ∨
      (t.qcountReg o ≠ 0 ∧ t.qcountBy o = some c))

structure Invariant (t : ObservedTeam) : Prop where
  sound : t.Sound
  position : ∀ s o, t.qposRegs s o ≠ 0 →
    ∃ c, t.clients o = some c ∧ t.qposBy s o = some c
  count : ∀ o, t.qcountReg o ≠ 0 → ∃ c, t.clients o = some c ∧ t.qcountBy o = some c
  subjects : ∀ s o, s ∉ teamSlots → t.qposRegs s o = 0

/-- A game that has just been set up: nobody has asked for anything. -/
structure Fresh (t : ObservedTeam) : Prop where
  sound : t.Sound
  position : ∀ s o, t.qposRegs s o = 0
  count : ∀ o, t.qcountReg o = 0

theorem Fresh.invariant {t : ObservedTeam} (h : Fresh t) : Invariant t where
  sound := h.sound
  position s o hne := absurd (h.position s o) hne
  count o hne := absurd (h.count o) hne
  subjects s o _ := h.position s o

theorem mem_teamSlots {i : Slot} : i ∈ teamSlots ↔ (i : ℕ) < 4 := by
  revert i
  decide

theorem castLE_mem_teamSlots (who : Fin 4) : Fin.castLE (by decide) who ∈ teamSlots :=
  mem_teamSlots.mpr who.isLt

theorem sendCount_registered {t : ObservedTeam} (h : Invariant t) {x : Sync} (hx : x ∈ t.sendCount) :
    ∃ c, x.receiver = some c ∧ Registered t x.slot c := by
  unfold ObservedTeam.sendCount at hx
  split_ifs at hx with hquesting
  · obtain ⟨o, -, hsent⟩ := List.mem_flatMap.mp hx
    dsimp only at hsent
    split_ifs at hsent with hreg
    · obtain ⟨c, hc, hby⟩ := h.count o hreg
      rw [List.mem_singleton.mp hsent]
      exact ⟨c, hc, hc, Or.inr ⟨hreg, hby⟩⟩
    · cases hsent
  · cases hx

theorem updateQpos_registered {t : ObservedTeam} (h : Invariant t) {c : ClientId} {i : Slot}
    {x : Sync} (hx : x ∈ t.updateQpos c i) : ∃ d, x.receiver = some d ∧ Registered t x.slot d := by
  obtain ⟨o, -, hsent⟩ := List.mem_flatMap.mp hx
  dsimp only at hsent
  split_ifs at hsent with hreg
  · obtain ⟨d, hd, hby⟩ := h.position i o hreg
    have hslot : x.slot = o ∧ x.receiver = t.clients o := by
      simp only [List.mem_cons, List.not_mem_nil, or_false] at hsent
      rcases hsent with rfl | rfl | rfl | rfl <;> exact ⟨rfl, rfl⟩
    rw [hslot.1, hslot.2]
    exact ⟨d, hd, hd, Or.inl ⟨i, hreg, hby⟩⟩
  · cases hsent

theorem Invariant.join {t : ObservedTeam} (h : Invariant t) {c : ClientId} {m : Team} {j : Slot}
    (hc : t.place c = none) (hadd : t.add c = some (m, j)) : Invariant { t with toTeam := m } := by
  obtain ⟨hsound, hfree⟩ := h.sound.add hc hadd
  obtain ⟨-, rfl⟩ := Team.add_eq_some hadd
  have hkept : ∀ o d, t.clients o = some d →
      Function.update t.clients j (some c) o = some d := by
    intro o d ho
    have hne : o ≠ j := by
      rintro rfl
      rw [hfree] at ho
      cases ho
    rwa [Function.update_of_ne hne]
  refine ⟨hsound, fun s o hreg => ?_, fun o hreg => ?_, h.subjects⟩
  · obtain ⟨d, hd, hby⟩ := h.position s o hreg
    exact ⟨d, hkept o d hd, hby⟩
  · obtain ⟨d, hd, hby⟩ := h.count o hreg
    exact ⟨d, hkept o d hd, hby⟩

/-- What is left when a column has been cleared. -/
theorem clearColumn_qposRegs {t : ObservedTeam} (h : ∀ s o, s ∉ teamSlots → t.qposRegs s o = 0)
    {i s o : Slot} (hreg : (t.clearColumn i).qposRegs s o ≠ 0) : o ≠ i ∧ t.qposRegs s o ≠ 0 := by
  simp only [ObservedTeam.clearColumn] at hreg
  split_ifs at hreg with hs
  · by_cases ho : o = i
    · rw [ho, Function.update_self] at hreg
      exact absurd rfl hreg
    · rw [Function.update_of_ne ho] at hreg
      exact ⟨ho, hreg⟩
  · exact absurd (h s o hs) hreg

theorem Invariant.leave {t : ObservedTeam} (h : Invariant t) {c : ClientId} {lastPreGc : Bool}
    {m : Team} {i : Slot} (hremove : t.remove c lastPreGc = some (m, i)) :
    Invariant ({ t with toTeam := m }.clearColumn i) := by
  have hsound := h.sound.remove hremove
  obtain ⟨-, -, rfl⟩ := Team.remove_eq_some hremove
  have hkept : ∀ o d, o ≠ i → t.clients o = some d →
      Function.update t.clients i none o = some d := by
    intro o d ho hd
    rwa [Function.update_of_ne ho]
  refine ⟨hsound, fun s o hreg => ?_, fun o hreg => ?_, fun s o hs => ?_⟩
  · obtain ⟨ho, hbefore⟩ := clearColumn_qposRegs h.subjects hreg
    obtain ⟨d, hd, hby⟩ := h.position s o hbefore
    exact ⟨d, hkept o d ho hd, hby⟩
  · change Function.update t.qcountReg i 0 o ≠ 0 at hreg
    by_cases ho : o = i
    · rw [ho, Function.update_self] at hreg
      exact absurd rfl hreg
    · rw [Function.update_of_ne ho] at hreg
      obtain ⟨d, hd, hby⟩ := h.count o hreg
      exact ⟨d, hkept o d ho hd, hby⟩
  · simp only [ObservedTeam.clearColumn, if_neg hs]
    exact h.subjects s o hs

theorem apply_team (c : ClientId) (i : Slot) (t : ObservedTeam) (x : Effect) :
    (t.apply c i x).toTeam = t.toTeam := by
  cases x <;> rfl

theorem Invariant.apply {t : ObservedTeam} (h : Invariant t) {c : ClientId} {i : Slot}
    (hi : t.clients i = some c) (x : Effect) : Invariant (t.apply c i x) := by
  cases x with
  | sync reg value => exact h
  | call request => exact h
  | posUpdates who reg =>
    generalize hwho : (Fin.castLE (by decide) who : Slot) = who'
    have hmem : who' ∈ teamSlots := hwho ▸ castLE_mem_teamSlots who
    have heq : t.apply c i (.posUpdates who reg) =
        { t with
          qposRegs := Function.update t.qposRegs who' (Function.update (t.qposRegs who') i reg)
          qposBy := Function.update t.qposBy who' (Function.update (t.qposBy who') i (some c)) } := by
      rw [← hwho]
      rfl
    rw [heq]
    refine ⟨h.sound, fun s o hreg => ?_, h.count, fun s o hs => ?_⟩
    · dsimp only at hreg ⊢
      by_cases hs : s = who'
      · subst hs
        rw [Function.update_self] at hreg ⊢
        by_cases ho : o = i
        · rw [ho, Function.update_self]
          exact ⟨c, hi, rfl⟩
        · rw [Function.update_of_ne ho] at hreg ⊢
          exact h.position s o hreg
      · rw [Function.update_of_ne hs] at hreg ⊢
        exact h.position s o hreg
    · have hne : s ≠ who' := by
        rintro rfl
        exact hs hmem
      dsimp only
      rw [Function.update_of_ne hne]
      exact h.subjects s o hs
  | countUpdates reg =>
    refine ⟨h.sound, h.position, fun o hreg => ?_, h.subjects⟩
    simp only [ObservedTeam.apply] at hreg ⊢
    by_cases ho : o = i
    · rw [ho, Function.update_self]
      exact ⟨c, hi, rfl⟩
    · rw [Function.update_of_ne ho] at hreg ⊢
      exact h.count o hreg

theorem Invariant.foldl_apply {c : ClientId} {i : Slot} (xs : List Effect) {t : ObservedTeam}
    (h : Invariant t) (hi : t.clients i = some c) :
    Invariant (xs.foldl (ObservedTeam.apply c i) t) := by
  induction xs generalizing t with
  | nil => exact h
  | cons x xs ih =>
    refine ih (h.apply hi x) ?_
    rw [apply_team]
    exact hi

theorem next_invariant {t : ObservedTeam} (h : Invariant t) (e : Event) : Invariant (next t e) := by
  cases e with
  | join c =>
    simp only [next, react]
    split_ifs with hplace
    · unfold ObservedTeam.join
      cases hadd : t.add c with
      | none => exact h
      | some r => exact h.join hplace hadd
    · exact h
  | leave c lastPreGc =>
    simp only [next, react, ObservedTeam.leave]
    cases hremove : t.remove c lastPreGc with
    | none => exact h
    | some r => exact h.leave hremove
  | questing flag => exact ⟨h.sound, h.position, h.count, h.subjects⟩
  | questFunction env team stack c =>
    simp only [next, react]
    cases hplace : t.place c with
    | none => exact h
    | some i => exact h.foldl_apply _ ((h.sound.seated i c).mpr hplace)
  | position c clientId x =>
    simp only [next, react]
    cases hplace : t.place c with
    | none => exact h
    | some i =>
      by_cases hclient : (i : ℕ) = clientId
      · simp only [ObservedTeam.position, if_pos hclient]
        exact ⟨h.sound, h.position, h.count, h.subjects⟩
      · simp only [ObservedTeam.position, if_neg hclient]
        exact h

/-- The registers are sent to clients who have asked for them. -/
theorem react_registered {t : ObservedTeam} (h : Invariant t) {e : Event} {x : Sync}
    (hx : x ∈ (react t e).2) : ∃ c, x.receiver = some c ∧ Registered (next t e) x.slot c := by
  have hnext := next_invariant h e
  cases e with
  | join c =>
    simp only [next, react, ObservedTeam.join] at hx hnext ⊢
    split_ifs at hx hnext ⊢ with hplace
    · cases hadd : t.add c with
      | none => simp [hadd] at hx
      | some r =>
        simp only [hadd] at hx hnext ⊢
        exact sendCount_registered hnext hx
    · cases hx
  | leave c lastPreGc =>
    simp only [next, react, ObservedTeam.leave] at hx hnext ⊢
    cases hremove : t.remove c lastPreGc with
    | none => simp [hremove] at hx
    | some r =>
      simp only [hremove] at hx hnext ⊢
      exact sendCount_registered hnext hx
  | questing flag => cases hx
  | questFunction env team stack c =>
    simp only [react] at hx
    cases hplace : t.place c <;> simp [hplace] at hx
  | position c clientId y =>
    simp only [next, react] at hx hnext ⊢
    cases hplace : t.place c with
    | none => simp [hplace] at hx
    | some i =>
      simp only [hplace, ObservedTeam.position] at hx hnext ⊢
      split_ifs at hx hnext ⊢ with hclient hquesting
      · exact updateQpos_registered hnext hx
      · cases hx
      · cases hx

/-- Whoever is registered with a game is in it, and registers are sent to nobody else. -/
theorem observers_registered {t t' : ObservedTeam} {es : List Event} (hfresh : Fresh t)
    (hrun : Run (StepOf next) Always t es t') :
    (∀ s o, t'.qposRegs s o ≠ 0 → ∃ c, t'.clients o = some c ∧ t'.qposBy s o = some c) ∧
      (∀ o, t'.qcountReg o ≠ 0 → ∃ c, t'.clients o = some c ∧ t'.qcountBy o = some c) ∧
      ∀ e x, x ∈ (react t' e).2 → ∃ c, x.receiver = some c ∧ Registered (next t' e) x.slot c := by
  have hinv : Invariant t' := by
    refine hrun.invariant Invariant hfresh.invariant ?_
    rintro t₀ e t₁ h₀ - rfl
    exact next_invariant h₀ e
  exact ⟨hinv.position, hinv.count, fun _ _ hx => react_registered hinv hx⟩

/-- The registers are indexed within their bounds. -/
theorem place_mem_teamSlots {t : ObservedTeam} (h : Invariant t) {c : ClientId} {i : Slot}
    (hi : t.place c = some i) : i ∈ teamSlots :=
  mem_teamSlots.mpr (h.sound.lt_four hi)

def emptyGame : ObservedTeam where
  type := .game
  version := .gc
  maxClients := 4
  numClients := 0
  clients _ := none
  bursting := false
  passwd := []
  place _ := none
  questing := false
  member _ := ⟨0, 0, 0, 0, 0, 0, 0⟩
  qposRegs _ _ := 0
  qcountReg _ := 0
  qposBy _ _ := none
  qcountBy _ := none

theorem emptyGame_fresh : Fresh emptyGame where
  sound :=
    { room := ⟨by decide, by decide, by decide⟩
      game := rfl
      size := le_rfl
      seated := by
        intro i c
        constructor <;> exact nofun }
  position _ _ := rfl
  count _ := rfl

def plainEnv : QuestEnv where
  now := 0
  random := 0
  shipClients := 0
  blockClients := 0
  shipName := []
  checkString _ := 0
  qflagSent := true
  scriptsLoaded := false
  runScript _ _ _ := (0, [])

/-- A call of `get_pos_updates` for the player in slot 1. -/
def askForSlot1 : ℤ → BitVec 32
  | 0 => 21
  | 1 => 1
  | 2 => 1
  | 3 => 1
  | 4 => 60
  | _ => 0

/-- The first player asks for the position of the second. -/
def watching : List Event :=
  [.join 0, .join 1, .questing true,
    .questFunction plainEnv ⟨fun _ => none, 2, 0, 0, []⟩ askForSlot1 0]

theorem observers_registered_watching :
    (watching.foldl next emptyGame).qposRegs 1 0 = 60 ∧
      ∃ c, (watching.foldl next emptyGame).clients 0 = some c ∧
        (watching.foldl next emptyGame).qposBy 1 0 = some c := by
  have hvalid := observers_registered emptyGame_fresh (run_foldl next emptyGame watching)
  have hreg : (watching.foldl next emptyGame).qposRegs 1 0 = 60 := by
    decide
  exact ⟨hreg, hvalid.1 1 0 (by rw [hreg]; decide)⟩

end ShipServer.QuestObservers
