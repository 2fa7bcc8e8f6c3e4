import ShipServer.LabelledRuns
import ShipServer.Teams

set_option autoImplicit false

namespace ShipServer.QuestLoad

open LabelledRuns Versions LobbyRooms LobbyFunctions Teams

/-- A game whose members load a quest. `doneSent` counts the packets that have told a client to go
on since the quest was sent to it. -/
structure LoadingTeam extends Team where
  clientVersion : ClientId → ClientVersion
  qloadDone : ClientId → Bool
  disconnected : ClientId → Bool
  doneSent : ClientId → ℕ

namespace LoadingTeam

/-- `c2->version >= CLIENT_VERSION_GC`. -/
def Reports (t : LoadingTeam) (c : ClientId) : Prop :=
  ¬t.clientVersion c < .gc

instance (t : LoadingTeam) (c : ClientId) : Decidable (t.Reports c) :=
  inferInstanceAs (Decidable (¬_))

/-- The client in the slot keeps the others waiting. -/
def isLoading (t : LoadingTeam) (i : Slot) : Bool :=
  (t.clients i).any fun c => !t.qloadDone c && decide (t.Reports c)

/-- `send_simple(c, QUEST_LOAD_DONE_TYPE, 0)`. -/
def sendLoadDone (t : LoadingTeam) (sent : ClientId → Bool) (c : ClientId) : LoadingTeam :=
  if sent c then { t with doneSent := Function.update t.doneSent c (t.doneSent c + 1) }
  else { t with disconnected := Function.update t.disconnected c true }

/-- One turn of the loop that sends the packet to everyone. -/
def notify (sent : ClientId → Bool) (t : LoadingTeam) (i : Slot) : LoadingTeam :=
  match t.clients i with
  | none => t
  | some c => if t.Reports c then t.sendLoadDone sent c else t

def processQloadDone (t : LoadingTeam) (sent : ClientId → Bool) (c : ClientId) : LoadingTeam :=
  let t := { t with qloadDone := Function.update t.qloadDone c true }
  if (slots t.toRoom).any t.isLoading then t else (slots t.toRoom).foldl (notify sent) t

/-- `QUEST_LOAD_DONE_TYPE`: Blue Burst clients are answered at once. -/
def handleQloadDone (t : LoadingTeam) (sent : ClientId → Bool) (c : ClientId) : LoadingTeam :=
  if t.clientVersion c = .bb then t.sendLoadDone sent c else t.processQloadDone sent c

/-- The flag that `send_quest` and `send_quest_one` clear. -/
def sendQuest (t : LoadingTeam) (c : ClientId) : LoadingTeam :=
  { t with qloadDone := Function.update t.qloadDone c false
           doneSent := Function.update t.doneSent c 0 }

end LoadingTeam

/-- Reports of the members, departures, and late joiners, who are sent the quest by themselves. -/
inductive Event where
  | qloadDone (sent : ClientId → Bool) (c : ClientId)
  | leave (c : ClientId) (lastPreGc : Bool)
  | join (c : ClientId)
  | sendQuest (c : ClientId)

def next (t : LoadingTeam) : Event → LoadingTeam
  | .qloadDone sent c => if (t.place c).isSome then t.handleQloadDone sent c else t
  | .leave c lastPreGc =>
    match t.remove c lastPreGc with
    | none => t
    | some (m, _) => { t with toTeam := m }
  | .join c =>
    if t.place c = none then
      match t.add c with
      | none => t
      | some (m, _) => { t with toTeam := m }
    else t
  | .sendQuest c => if (t.place c).isSome then t.sendQuest c else t

/-- A member that has to report that it has loaded the quest. -/
def Awaited (t : LoadingTeam) (c : ClientId) : Prop :=
  (t.place c).isSome ∧ t.Reports c

def AllLoaded (t : LoadingTeam) : Prop :=
  ∀ c, Awaited t c → t.qloadDone c = true

/-- The client has been told to go on, or its connection is given up. -/
def Released (t : LoadingTeam) (c : ClientId) : Prop :=
  0 < t.doneSent c ∨ t.disconnected c = true

instance (t : LoadingTeam) (c : ClientId) : Decidable (Released t c) :=
  inferInstanceAs (Decidable (_ ∨ _))

/-- The others wait for this client only. -/
def LastAwaited (t : LoadingTeam) (c : ClientId) : Prop :=
  Awaited t c ∧ t.qloadDone c = false ∧ (∃ d, d ≠ c ∧ Awaited t d) ∧
    ∀ d, d ≠ c → Awaited t d → t.qloadDone d = true

/-- The steps that the barrier can cope with. -/
def Orderly (t : LoadingTeam) : Event → Prop
  | .qloadDone _ c => t.clientVersion c ≠ .bb
  | .leave c _ => ¬LastAwaited t c
  | .join c => t.qloadDone c = false
  | .sendQuest _ => True

/-- A quest has just been sent to all members of a game. -/
structure Fresh (t : LoadingTeam) : Prop where
  sound : t.Sound
  unloaded : ∀ c, t.qloadDone c = false

/-- The loops of the barrier change nothing but who has been told to go on. -/
structure Notified (t t' : LoadingTeam) : Prop where
  team : t'.toTeam = t.toTeam
  clientVersion : t'.clientVersion = t.clientVersion
  qloadDone : t'.qloadDone = t.qloadDone
  released : ∀ c, Released t c → Released t' c

theorem Notified.refl (t : LoadingTeam) : Notified t t :=
  ⟨rfl, rfl, rfl, fun _ h => h⟩

theorem Notified.trans {t t' t'' : LoadingTeam} (h : Notified t t') (h' : Notified t' t'') :
    Notified t t'' :=
  ⟨h'.team.trans h.team, h'.clientVersion.trans h.clientVersion, h'.qloadDone.trans h.qloadDone,
    fun c hc => h'.released c (h.released c hc)⟩

theorem Notified.awaited {t t' : LoadingTeam} (h : Notified t t') (c : ClientId) :
    Awaited t' c ↔ Awaited t c := by
  unfold Awaited LoadingTeam.Reports
  rw [h.team, h.clientVersion]

theorem Notified.allLoaded {t t' : LoadingTeam} (h : Notified t t') :
    AllLoaded t' ↔ AllLoaded t := by
  unfold AllLoaded
  simp only [h.awaited, h.qloadDone]

theorem sendLoadDone_released (t : LoadingTeam) (sent : ClientId → Bool) (c : ClientId) :
    Released (t.sendLoadDone sent c) c := by
  unfold LoadingTeam.sendLoadDone Released
  split_ifs
  · simp
  · simp

theorem sendLoadDone_notified (t : LoadingTeam) (sent : ClientId → Bool) (c : ClientId) :
    Notified t (t.sendLoadDone sent c) := by
  have hother : ∀ d, d ≠ c → Released t d → Released (t.sendLoadDone sent c) d := by
    intro d hd hreleased
    unfold LoadingTeam.sendLoadDone Released at *
    split_ifs <;> simpa [Function.update_of_ne hd] using hreleased
  refine ⟨?_, ?_, ?_, fun d hreleased => ?_⟩
  · unfold LoadingTeam.sendLoadDone
    split_ifs <;> rfl
  · unfold LoadingTeam.sendLoadDone
    split_ifs <;> rfl
  · unfold LoadingTeam.sendLoadDone
    split_ifs <;> rfl
  · by_cases hd : d = c
    · rw [hd]
      exact sendLoadDone_released t sent c
    · exact hother d hd hreleased

theorem notify_notified (sent : ClientId → Bool) (t : LoadingTeam) (i : Slot) :
    Notified t (t.notify sent i) := by
  unfold LoadingTeam.notify
  split
  · exact .refl t
  · split_ifs
    · exact sendLoadDone_notified t sent _
    · exact .refl t

theorem foldl_notified (sent : ClientId → Bool) (is : List Slot) (t : LoadingTeam) :
    Notified t (is.foldl (LoadingTeam.notify sent) t) := by
  induction is generalizing t with
  | nil => exact .refl t
  | cons i is ih => exact (notify_notified sent t i).trans (ih _)

/-- The loop reaches every member that reports. -/
theorem foldl_notify_released (sent : ClientId → Bool) {is : List Slot} {i : Slot} (hi : i ∈ is)
    {t : LoadingTeam} {c : ClientId} (hc : t.clients i = some c) (hreports : t.Reports c) :
    Released (is.foldl (LoadingTeam.notify sent) t) c := by
  induction is generalizing t with
  | nil => cases hi
  | cons j is ih =>
    have hstep := notify_notified sent t j
    rcases List.mem_cons.mp hi with rfl | hmem
    · have hnow : Released (t.notify sent i) c := by
        unfold LoadingTeam.notify
        rw [hc]
        dsimp only
        rw [if_pos hreports]
        exact sendLoadDone_released t sent c
      exact (foldl_notified sent is _).released c hnow
    · refine ih hmem ?_ ?_
      · rw [hstep.team]
        exact hc
      · unfold LoadingTeam.Reports
        rw [hstep.clientVersion]
        exact hreports

theorem mem_slots_of_place {t : LoadingTeam} (ht : t.Sound) {c : ClientId} {i : Slot}
    (hi : t.place c = some i) : t.clients i = some c ∧ i ∈ slots t.toRoom := by
  have hc := (ht.seated i c).mpr hi
  refine ⟨hc, List.mem_filter.mpr ⟨List.mem_finRange i, ?_⟩⟩
  exact decide_eq_true (ht.room.below i c hc)

/-- The test of the barrier. -/
theorem any_isLoading {t : LoadingTeam} (ht : t.Sound) :
    (slots t.toRoom).any t.isLoading = false ↔ AllLoaded t := by
  constructor
  · rintro hnone c ⟨hplace, hreports⟩
    obtain ⟨i, hi⟩ := Option.isSome_iff_exists.mp hplace
    obtain ⟨hc, hmem⟩ := mem_slots_of_place ht hi
    have hdone := List.any_eq_false.mp hnone i hmem
    simpa [LoadingTeam.isLoading, hc, hreports] using hdone
  · intro hall
    refine List.any_eq_false.mpr fun i _ => ?_
    unfold LoadingTeam.isLoading
    cases hc : t.clients i with
    | none => simp
    | some c =>
      have hplace := (ht.seated i c).mp hc
      by_cases hreports : t.Reports c
      · have hdone := hall c ⟨by rw [hplace]; rfl, hreports⟩
        simp [hdone]
      · simp [hreports]

/-- The flag of a client is set. -/
def LoadingTeam.setLoaded (t : LoadingTeam) (c : ClientId) : LoadingTeam :=
  { t with qloadDone := Function.update t.qloadDone c true }

/-- A report either leaves somebody loading, or everyone is told to go on. -/
theorem processQloadDone_cases {t : LoadingTeam} (ht : t.Sound) (sent : ClientId → Bool)
    (c : ClientId) :
    (¬AllLoaded (t.setLoaded c) ∧ t.processQloadDone sent c = t.setLoaded c) ∨
      (AllLoaded (t.setLoaded c) ∧ Notified (t.setLoaded c) (t.processQloadDone sent c) ∧
        ∀ d, Awaited t d → Released (t.processQloadDone sent c) d) := by
  have hset : (t.setLoaded c).Sound := ht
  change (_ ∧ (if (slots (t.setLoaded c).toRoom).any (t.setLoaded c).isLoading then t.setLoaded c
    else _) = _) ∨ (_ ∧ Notified _ (if (slots (t.setLoaded c).toRoom).any (t.setLoaded c).isLoading
    then t.setLoaded c else _) ∧ ∀ d, _ → Released (if (slots (t.setLoaded c).toRoom).any
    (t.setLoaded c).isLoading then t.setLoaded c else _) d)
  cases hany : (slots (t.setLoaded c).toRoom).any (t.setLoaded c).isLoading with
  | true =>
    left
    refine ⟨fun hall => ?_, by rw [if_pos rfl]⟩
    rw [(any_isLoading hset).mpr hall] at hany
    cases hany
  | false =>
    right
    have hall := (any_isLoading hset).mp hany
    simp only [Bool.false_eq_true, if_false]
    refine ⟨hall, foldl_notified sent _ _, ?_⟩
    rintro d ⟨hplace, hreports⟩
    obtain ⟨i, hi⟩ := Option.isSome_iff_exists.mp hplace
    obtain ⟨hd, hmem⟩ := mem_slots_of_place (t := t.setLoaded c) hset hi
    exact foldl_notify_released sent hmem hd hreports

/-- What holds of a quest that is being loaded: nobody waits for a packet that is due, and the
packet is never early. -/
structure Barrier (good : LoadingTeam → Event → Prop) (t : LoadingTeam) : Prop where
  released : AllLoaded t → ∀ c, Awaited t c → Released t c
  inTime : ∀ e c, good t e → t.doneSent c < (next t e).doneSent c → AllLoaded (next t e)

structure Invariant (t : LoadingTeam) : Prop where
  sound : t.Sound
  released : AllLoaded t → ∀ c, Awaited t c → Released t c

theorem Fresh.invariant {t : LoadingTeam} (h : Fresh t) : Invariant t where
  sound := h.sound
  released := by
    intro hall c hc
    have hdone := hall c hc
    rw [h.unloaded c] at hdone
    cases hdone

theorem Invariant.processQloadDone {t : LoadingTeam} (h : Invariant t) (sent : ClientId → Bool)
    (c : ClientId) : Invariant (t.processQloadDone sent c) := by
  rcases processQloadDone_cases h.sound sent c with ⟨hloading, heq⟩ | ⟨-, hnotified, hreleased⟩
  · rw [heq]
    exact ⟨h.sound, fun hall => absurd hall hloading⟩
  · refine ⟨?_, fun _ d hd => hreleased d ((hnotified.awaited d).mp hd)⟩
    rw [hnotified.team]
    exact h.sound

theorem Invariant.leave {t : LoadingTeam} (h : Invariant t) {c : ClientId} {lastPreGc : Bool}
    {m : Team} {i : Slot} (hlast : ¬LastAwaited t c) (hremove : t.remove c lastPreGc = some (m, i)) :
    Invariant { t with toTeam := m } := by
  refine ⟨h.sound.remove hremove, fun hall d hd => ?_⟩
  obtain ⟨-, -, rfl⟩ := Team.remove_eq_some hremove
  have hothers : ∀ x, x ≠ c → Awaited t x → t.qloadDone x = true := by
    intro x hx hawaited
    refine hall x ⟨?_, hawaited.2⟩
    change (Function.update t.place c none x).isSome = true
    rw [Function.update_of_ne hx]
    exact hawaited.1
  have hdc : d ≠ c := by
    rintro rfl
    have hgone : (Function.update t.place d none d).isSome = true := hd.1
    rw [Function.update_self] at hgone
    cases hgone
  have hbefore : Awaited t d := by
    refine ⟨?_, hd.2⟩
    have hplace : (Function.update t.place c none d).isSome = true := hd.1
    rwa [Function.update_of_ne hdc] at hplace
  refine h.released (fun x hx => ?_) d hbefore
  by_cases hxc : x = c
  · -- the one who leaves had reported, or the others would be waiting for it alone
    by_contra hnot
    rw [hxc] at hnot hx
    exact hlast ⟨hx, Bool.eq_false_iff.mpr hnot, ⟨d, hdc, hbefore⟩, hothers⟩
  · exact hothers x hxc hx

theorem Invariant.join {t : LoadingTeam} (h : Invariant t) {c : ClientId} {m : Team} {i : Slot}
    (hc : t.place c = none) (hflag : t.qloadDone c = false) (hadd : t.add c = some (m, i)) :
    Invariant { t with toTeam := m } := by
  refine ⟨(h.sound.add hc hadd).1, fun hall d hd => ?_⟩
  obtain ⟨-, rfl⟩ := Team.add_eq_some hadd
  have hsilent : ¬t.Reports c := by
    intro hreports
    have hdone := hall c ⟨?_, hreports⟩
    · rw [show t.qloadDone c = true from hdone] at hflag
      cases hflag
    · change (Function.update t.place c (some i) c).isSome = true
      rw [Function.update_self]
      rfl
  have hdc : d ≠ c := by
    rintro rfl
    exact hsilent hd.2
  have hsame : ∀ x, x ≠ c → Function.update t.place c (some i) x = t.place x :=
    fun x hx => Function.update_of_ne hx _ _
  have hbefore : Awaited t d := by
    refine ⟨?_, hd.2⟩
    rw [← hsame d hdc]
    exact hd.1
  refine h.released (fun x hx => ?_) d hbefore
  have hxc : x ≠ c := by
    rintro rfl
    exact hsilent hx.2
  refine hall x ⟨?_, hx.2⟩
  change (Function.update t.place c (some i) x).isSome = true
  rw [hsame x hxc]
  exact hx.1

theorem Invariant.sendQuest {t : LoadingTeam} (h : Invariant t) {c : ClientId}
    (hc : (t.place c).isSome = true) : Invariant (t.sendQuest c) := by
  refine ⟨h.sound, fun hall d hd => ?_⟩
  have hsilent : ¬t.Reports c := by
    intro hreports
    have hdone : Function.update t.qloadDone c false c = true := hall c ⟨hc, hreports⟩
    rw [Function.update_self] at hdone
    cases hdone
  have hne : ∀ x, Awaited t x → x ≠ c := by
    rintro x hx rfl
    exact hsilent hx.2
  have hbefore : AllLoaded t := by
    intro x hx
    have hdone : Function.update t.qloadDone c false x = true := hall x hx
    rwa [Function.update_of_ne (hne x hx)] at hdone
  have hreleased := h.released hbefore d hd
  unfold Released LoadingTeam.sendQuest
  dsimp only
  rw [Function.update_of_ne (hne d hd)]
  exact hreleased

theorem next_invariant {t : LoadingTeam} (h : Invariant t) {e : Event} (hgood : Orderly t e) :
    Invariant (next t e) := by
  cases e with
  | qloadDone sent c =>
    simp only [next, LoadingTeam.handleQloadDone]
    split_ifs with hplace hbb
    · exact absurd hbb hgood
    · exact h.processQloadDone sent c
    · exact h
  | leave c lastPreGc =>
    simp only [next]
    cases hremove : t.remove c lastPreGc with
    | none => exact h
    | some r => exact h.leave hgood hremove
  | join c =>
    simp only [next]
    split_ifs with hplace
    · cases hadd : t.add c with
      | none => exact h
      | some r => exact h.join hplace hgood hadd
    · exact h
  | sendQuest c =>
    simp only [next]
    split_ifs with hplace
    · exact h.sendQuest hplace
    · exact h

/-- The packet goes out when nobody is loading any more. -/
theorem next_inTime {t : LoadingTeam} (h : Invariant t) {e : Event} (hgood : Orderly t e)
    {c : ClientId} (hsent : t.doneSent c < (next t e).doneSent c) : AllLoaded (next t e) := by
  cases e with
  | qloadDone sent d =>
    simp only [next, LoadingTeam.handleQloadDone] at hsent ⊢
    split_ifs at hsent ⊢ with hplace hbb
    · exact absurd hbb hgood
    · rcases processQloadDone_cases h.sound sent d with ⟨-, heq⟩ | ⟨hall, hnotified, -⟩
      · rw [heq] at hsent
        exact absurd hsent (lt_irrefl _)
      · exact hnotified.allLoaded.mpr hall
    · exact absurd hsent (lt_irrefl _)
  | leave d lastPreGc =>
    simp only [next] at hsent
    cases hremove : t.remove d lastPreGc <;> simp [hremove] at hsent
  | join d =>
    simp only [next] at hsent
    split_ifs at hsent
    · cases hadd : t.add d <;> simp [hadd] at hsent
    · exact absurd hsent (lt_irrefl _)
  | sendQuest d =>
    simp only [next, LoadingTeam.sendQuest] at hsent
    split_ifs at hsent
    · by_cases hc : c = d
      · simp [hc] at hsent
      · simp [hc] at hsent
    · exact absurd hsent (lt_irrefl _)

/-- Where nobody leaves whom the others wait for, the members of a game start a quest together. -/
theorem questLoad_barrier {t t' : LoadingTeam} {es : List Event} (hfresh : Fresh t)
    (hrun : Run (StepOf next) Orderly t es t') : Barrier Orderly t' := by
  have hinv : Invariant t' := by
    refine hrun.invariant Invariant hfresh.invariant ?_
    rintro t₀ e t₁ h₀ hgood rfl
    exact next_invariant h₀ hgood
  exact ⟨hinv.released, fun _ _ hgood hsent => next_inTime hinv hgood hsent⟩

/-- A game of two Gamecube players. -/
def twoPlayers : LoadingTeam where
  type := .game
  version := .gc
  maxClients := 4
  numClients := 2
  clients i := if i = 0 then some 0 else if i = 1 then some 1 else none
  bursting := false
  passwd := []
  place c := if c = 0 then some 0 else if c = 1 then some 1 else none
  clientVersion _ := .gc
  qloadDone _ := false
  disconnected _ := false
  doneSent _ := 0

theorem twoPlayers_fresh : Fresh twoPlayers where
  sound :=
    { room := ⟨by decide, by decide, by decide⟩
      game := rfl
      size := le_rfl
      seated := by
        intro i c
        change (if i = 0 then some 0 else if i = 1 then some 1 else none) = some c ↔
          (if c = 0 then some 0 else if c = 1 then some 1 else none) = some i
        split_ifs <;> simp_all [eq_comm] }
  unloaded _ := rfl

def everySend (_ : ClientId) : Bool :=
  true

/-- Both players load the quest, and one leaves. -/
def bothLoad : List Event :=
  [.qloadDone everySend 0, .qloadDone everySend 1, .leave 1 false]

theorem questLoad_barrier_bothLoad :
    (bothLoad.foldl next twoPlayers).doneSent 0 = 1 ∧
      Barrier Orderly (bothLoad.foldl next twoPlayers) := by
  have hrun : Run (StepOf next) Orderly twoPlayers bothLoad (bothLoad.foldl next twoPlayers) := by
    refine .move (show ClientVersion.gc ≠ .bb by decide) rfl ?_
    refine .move (show ClientVersion.gc ≠ .bb by decide) rfl ?_
    refine .move (fun hlast => ?_) rfl (.stop _)
    exact absurd hlast.2.1 (by decide)
  exact ⟨by decide, questLoad_barrier twoPlayers_fresh hrun⟩

/-- One player has loaded the quest when the other leaves. It is never told to go on. -/
theorem questLoad_no_barrier :
    ¬∀ t t' es, Fresh t → Run (StepOf next) Always t es t' → Barrier Always t' := by
  intro hall
  have hbarrier := hall twoPlayers _ _ twoPlayers_fresh
    (run_foldl next twoPlayers [.qloadDone everySend 0, .leave 1 false])
  have hloaded : AllLoaded ([.qloadDone everySend 0, .leave 1 false].foldl next twoPlayers) := by
    rintro c ⟨hplace, -⟩
    by_cases hc : c = 0
    · rw [hc]
      decide
    · have hnone : ([.qloadDone everySend 0, .leave 1 false].foldl next twoPlayers).place c = none := by
        change Function.update twoPlayers.place 1 none c = none
        by_cases hc1 : c = 1
        · rw [hc1, Function.update_self]
        · rw [Function.update_of_ne hc1]
          simp [twoPlayers, hc, hc1]
      rw [hnone] at hplace
      cases hplace
  have hreleased := hbarrier.released hloaded 0 ⟨by decide, by decide⟩
  exact absurd hreleased (by decide)

end ShipServer.QuestLoad
