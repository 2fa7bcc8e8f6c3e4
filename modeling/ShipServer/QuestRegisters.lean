import ShipServer.Versions
import ShipServer.QuestFunctions

set_option autoImplicit false

namespace ShipServer.QuestRegisters

open TracedReads Probe QuestFunctions

/-- The register that an effect writes, and its value. -/
def write? : Effect → Option (ℕ × BitVec 32)
  | .sync reg value => some (reg.toNat, value)
  | .call _ => none
  | .posUpdates _ _ => none
  | .countUpdates _ => none

def writes (effects : List Effect) : List (ℕ × BitVec 32) :=
  effects.filterMap write?

/-- A register and the ones after it. -/
def consecutive : ℕ → List (BitVec 32) → List (ℕ × BitVec 32)
  | _, [] => []
  | r, v :: vs => (r, v) :: consecutive (r + 1) vs

/-- What is asked about a player, or `0xFFFFFFFF` if the slot is empty. -/
def valuesOf (values : List (QuestMember → BitVec 32)) (p : Option QuestMember) :
    List (BitVec 32) :=
  values.map fun value => (p.map value).getD 0xFFFFFFFF

/-- The slots of the stack with the registers that a function about players is given. -/
def requested (m : ℤ → BitVec 32) : List ℤ :=
  if m 3 = 0xFFFFFFFF then [4, 5, 6, 7] else [4]

def playersAsked (l : QuestTeam) (m : ℤ → BitVec 32) (values : List (QuestMember → BitVec 32)) :
    List (ℕ × BitVec 32) :=
  if m 3 = 0xFFFFFFFF then
    consecutive (m 4).toNat (valuesOf values (l.clients 0)) ++
      consecutive (m 5).toNat (valuesOf values (l.clients 1)) ++
      consecutive (m 6).toNat (valuesOf values (l.clients 2)) ++
      consecutive (m 7).toNat (valuesOf values (l.clients 3))
  else if h : (m 3).toNat < 4 then
    consecutive (m 4).toNat (valuesOf values (l.clients ⟨(m 3).toNat, h⟩))
  else []

/-- The string that is given to be checked: characters up to NUL, or letters counted from 1. -/
def censored (sr : Bool) (args : List (BitVec 32)) : List (BitVec 8) :=
  if sr then (args.takeWhile (· ≠ 0)).map fun v => (v + 64).setWidth 8
  else (args.map (·.setWidth 8)).takeWhile (· ≠ 0)

def arguments (m : ℤ → BitVec 32) : List (BitVec 32) :=
  (List.range (m 1).toNat).map fun (i : ℕ) => m ((i : ℤ) + 3)

/-- The registers and values that a call of one of the ship's functions asks for. -/
def asked (env : QuestEnv) (l : QuestTeam) (m : ℤ → BitVec 32) : List (ℕ × BitVec 32) :=
  match (m 0).toNat with
  | 0 => playersAsked l m [fun p => p.sectionId.setWidth 32]
  | 1 => consecutive (m 3).toNat [env.now]
  | 2 => consecutive (m 3).toNat [l.numClients]
  | 3 => playersAsked l m [fun p => p.chClass.setWidth 32]
  | 4 => playersAsked l m [fun p => attr p.chClass genders]
  | 5 => playersAsked l m [fun p => attr p.chClass races]
  | 6 => playersAsked l m [fun p => attr p.chClass jobs]
  | 7 => playersAsked l m [QuestMember.curArea]
  | 8 => playersAsked l m [QuestMember.x, QuestMember.y, QuestMember.z]
  | 9 =>
    consecutive (m 5).toNat
      [BitVec.ofNat 32 (env.random.toNat % ((m 4 - m 3).toNat + 1) + (m 3).toNat)]
  | 10 => consecutive (m 3).toNat [env.shipClients]
  | 11 => consecutive (m 3).toNat [env.blockClients]
  | 18 => consecutive (m (m 1 + 3).toNat).toNat [env.checkString (censored false (arguments m))]
  | 19 => consecutive (m (m 1 + 3).toNat).toNat [env.checkString (censored true (arguments m))]
  | 20 => consecutive (m 3).toNat [l.randSeed]
  | 21 => playersAsked l m [QuestMember.x, QuestMember.y, QuestMember.z, QuestMember.curArea]
  | 22 => playersAsked l m [fun p => p.level + 1]
  | 23 =>
    consecutive (m 3).toNat ((List.range 3).map fun k =>
      nameByte env (4 * k) ||| nameByte env (4 * k + 1) <<< 8 |||
        nameByte env (4 * k + 2) <<< 16 ||| nameByte env (4 * k + 3) <<< 24)
  | 24 =>
    consecutive (m 3).toNat ((List.range 6).map fun k =>
      nameByte env (2 * k) ||| nameByte env (2 * k + 1) <<< 16)
  | 25 => consecutive (m 3).toNat [26]
  | 26 => consecutive (m 3).toNat [l.numClients]
  | _ => []

/-- The writes that a call asks for. What a function of a script sends is its own affair, but the
registers are the ones that it is given. -/
def Exact (env : QuestEnv) (l : QuestTeam) (m : ℤ → BitVec 32) (effects : List Effect) : Prop :=
  if 0x80000000 < m 0 then
    ∀ reg, reg ∈ (writes effects).map Prod.fst ↔
      ∃ i : ℕ, i < (m 2).toNat ∧ reg = (m ((i : ℤ) + (m 1).toInt + 3)).toNat
  else writes effects = asked env l m

/-- Nothing is written without success, and with it what was asked for. -/
structure AllOrNothing (env : QuestEnv) (l : QuestTeam) (m : ℤ → BitVec 32) (out : Outcome) :
    Prop where
  refused : out.ret ≠ retNoError → writes out.effects = []
  served : out.ret = retNoError → Exact env l m out.effects

/-- A call about players that is not refused, and that gives a register with too few behind it for
the values. -/
def Wraps (m : ℤ → BitVec 32) (width : ℕ) : Prop :=
  m 1 = 1 ∧ (m 3 = 0xFFFFFFFF ∨ (m 3).toNat < 4) ∧ (m 2).toNat = (requested m).length ∧
    (∀ i ∈ requested m, ¬255 < m i) ∧ ∃ i ∈ requested m, 256 < (m i).toNat + width

/-- The function that a script has defined for the number on the stack is called. -/
def Runs (env : QuestEnv) (l : QuestTeam) (m : ℤ → BitVec 32) (f : QFunc) : Prop :=
  0x80000000 < m 0 ∧ env.scriptsLoaded = true ∧
    l.qfuncList.find? (fun f => f.funcId = m 0) = some f ∧ m 1 = f.nargs ∧ m 2 = f.nretvals ∧
    ∀ i ∈ f.retSlots, ¬255 < m i

/-- What a script answers to a call. -/
def scriptOutcome (env : QuestEnv) (m : ℤ → BitVec 32) (f : QFunc) : Outcome :=
  let answer := env.runScript (m 0) (f.argSlots.map m) (f.retSlots.map m)
  ⟨answer.1, answer.2.map fun rv => .sync rv.1 rv.2⟩

section Writes

theorem writes_append (es es' : List Effect) : writes (es ++ es') = writes es ++ writes es' :=
  List.filterMap_append

/-- The values that are sent to a register and the ones after it. -/
def syncs (r : BitVec 32) (vs : List (BitVec 32)) : List Effect :=
  vs.mapIdx fun i v => sync (r + BitVec.ofNat 32 i) v

theorem syncs_cons (r v : BitVec 32) (vs : List (BitVec 32)) :
    syncs r (v :: vs) = sync r v :: syncs (r + 1) vs := by
  have hshift : ∀ i, r + BitVec.ofNat 32 (i + 1) = r + 1 + BitVec.ofNat 32 i := by
    intro i
    rw [BitVec.ofNat_add, add_comm (BitVec.ofNat 32 i), ← add_assoc]
    rfl
  rw [syncs, List.mapIdx_cons, syncs]
  refine congrArg₂ List.cons ?_ ?_
  · exact congrArg (sync · v) (BitVec.add_zero r)
  · refine congrArg (List.mapIdx · vs) ?_
    funext i w
    rw [hshift]

/-- Registers that all exist are written as asked. -/
theorem writes_syncs {r : BitVec 32} {vs : List (BitVec 32)} (h : r.toNat + vs.length ≤ 256) :
    writes (syncs r vs) = consecutive r.toNat vs := by
  induction vs generalizing r with
  | nil => rfl
  | cons v vs ih =>
    rw [List.length_cons] at h
    have hnext : (r + 1).toNat = r.toNat + 1 := by
      rw [BitVec.toNat_add]
      exact Nat.mod_eq_of_lt (show r.toNat + 1 < 2 ^ 32 by omega)
    have hreg : (r.setWidth 8).toNat = r.toNat := by
      rw [BitVec.toNat_setWidth]
      exact Nat.mod_eq_of_lt (by omega)
    have hrest : writes (syncs (r + 1) vs) = consecutive (r.toNat + 1) vs := by
      rw [ih (by omega), hnext]
    rw [syncs_cons, consecutive, ← hrest, ← hreg]
    rfl

theorem lt_of_mem_writes {es : List Effect} {p : ℕ × BitVec 32} (h : p ∈ writes es) :
    p.1 < 256 := by
  obtain ⟨e, -, he⟩ := List.mem_filterMap.mp h
  cases e with
  | sync reg value =>
    cases he
    exact reg.isLt
  | call _ => cases he
  | posUpdates _ _ => cases he
  | countUpdates _ => cases he

/-- The last register of a row. -/
theorem exists_mem_consecutive {r n : ℕ} {vs : List (BitVec 32)} (hn : n < vs.length) :
    ∃ v, (r + n, v) ∈ consecutive r vs := by
  induction vs generalizing r n with
  | nil => exact absurd hn (Nat.not_lt_zero n)
  | cons v vs ih =>
    cases n with
    | zero => exact ⟨v, List.mem_cons_self⟩
    | succ n =>
      obtain ⟨w, hw⟩ := @ih (r + 1) n (Nat.lt_of_succ_lt_succ hn)
      rw [Nat.add_right_comm] at hw
      exact ⟨w, List.mem_cons_of_mem _ hw⟩

theorem valuesOf_length (values : List (QuestMember → BitVec 32)) (p : Option QuestMember) :
    (valuesOf values p).length = values.length :=
  List.length_map _

theorem sendValues_eq (values : List (QuestMember → BitVec 32)) (p : Option QuestMember)
    (r : BitVec 32) : sendValues values p r = syncs r (valuesOf values p) := by
  rw [sendValues, syncs, valuesOf]
  refine List.ext_getElem? fun i => ?_
  rw [List.getElem?_mapIdx, List.getElem?_mapIdx, List.getElem?_map, Option.map_map]
  rfl

theorem sendValue_eq (value : QuestMember → BitVec 32) (p : Option QuestMember)
    (r : BitVec 32) : sendValue value p r = sendValues [value] p r := by
  simp [sendValue, sendValues]

end Writes

section Functions

variable {env : QuestEnv} {l : QuestTeam} {m : ℤ → BitVec 32}

theorem allOrNothing_refuse {code : BitVec 32} (hcode : code ≠ retNoError) :
    Returns m (AllOrNothing env l m) (refuse code) :=
  ⟨fun _ => rfl, fun h => absurd h hcode⟩

theorem allOrNothing_guard {P : Prop} [Decidable P] {code : BitVec 32} {p : QuestFunction}
    (hcode : code ≠ retNoError) (hp : ¬P → Returns m (AllOrNothing env l m) p) :
    Returns m (AllOrNothing env l m) (if P then refuse code else p) :=
  Returns.ite (fun _ => allOrNothing_refuse hcode) hp

theorem allOrNothing_finish (hid : ¬0x80000000 < m 0) {effects : List Effect}
    (h : writes effects = asked env l m) :
    Returns m (AllOrNothing env l m) (finish effects) := by
  refine ⟨fun hret => absurd rfl hret, fun _ => ?_⟩
  rw [Exact, if_neg hid]
  exact h

theorem noArguments_allOrNothing (hid : ¬0x80000000 < m 0) {limit : BitVec 32}
    {answer : BitVec 32 → List Effect} {vs : List (BitVec 32)}
    (hasked : asked env l m = consecutive (m 3).toNat vs)
    (hanswer : ∀ r, writes (answer r) = writes (syncs r vs))
    (hlimit : limit.toNat + vs.length ≤ 256) :
    Returns m (AllOrNothing env l m) (noArguments limit answer) := by
  unfold noArguments
  refine Returns.step (allOrNothing_guard (by decide) fun _ => Returns.step ?_)
  refine allOrNothing_guard (by decide) fun _ => Returns.step ?_
  refine allOrNothing_guard (by decide) fun hreg => allOrNothing_finish hid ?_
  have hle : (m 3).toNat ≤ limit.toNat := not_lt.mp hreg
  rw [hanswer, hasked]
  exact writes_syncs (by omega)

theorem badRegister_result (is : List ℤ) :
    (badRegister is).result m = true ↔ ∃ i ∈ is, 255 < m i := by
  induction is with
  | nil =>
    constructor
    · intro h
      cases h
    · rintro ⟨i, hi, -⟩
      exact absurd hi List.not_mem_nil
  | cons i is ih =>
    have hcons : (badRegister (i :: is)).result m =
        if 255 < m i then true else (badRegister is).result m :=
      result_ite m (255 < m i) (pure true) (badRegister is)
    simp only [hcons, List.mem_cons, exists_eq_or_imp]
    by_cases hi : 255 < m i
    · rw [if_pos hi]
      exact iff_of_true rfl (Or.inl hi)
    · rw [if_neg hi, ih]
      exact ⟨Or.inr, fun h => h.resolve_left hi⟩

theorem forPlayers_allOrNothing (hid : ¬0x80000000 < m 0)
    {register : Fin 4 → BitVec 32 → List Effect} {values : List (QuestMember → BitVec 32)}
    (hregister : ∀ i r, writes (register i r) = [])
    (hasked : asked env l m = playersAsked l m values) (hfits : ¬Wraps m values.length) :
    Returns m (AllOrNothing env l m) (forPlayers l register (sendValues values)) := by
  have hwrites : ∀ r p, r.toNat + values.length ≤ 256 →
      writes (sendValues values p r) = consecutive r.toNat (valuesOf values p) := by
    intro r p hr
    rw [sendValues_eq]
    exact writes_syncs (by rw [valuesOf_length]; exact hr)
  unfold forPlayers
  refine Returns.step (allOrNothing_guard (by decide) fun h₁ => Returns.step ?_)
  rw [not_not] at h₁
  refine Returns.ite (fun hall => ?_) fun hone => Returns.dite (fun hwho => ?_) fun _ =>
    allOrNothing_refuse (by decide)
  · refine Returns.step (allOrNothing_guard (by decide) fun h₂ => Returns.bind ?_)
    refine allOrNothing_guard (by decide) fun hbad => ?_
    refine Returns.step (Returns.step (Returns.step (Returns.step ?_)))
    refine allOrNothing_finish hid ?_
    have hslots : requested m = [4, 5, 6, 7] := if_pos hall
    have hfits' : ∀ i ∈ requested m, (m i).toNat + values.length ≤ 256 := by
      intro i hi
      rw [← not_lt]
      intro hwraps
      refine hfits ⟨h₁, Or.inl hall, ?_, ?_, i, hi, hwraps⟩
      · rw [hslots, not_not.mp h₂]
        rfl
      · intro j hj hlarge
        rw [hslots] at hj
        exact hbad ((badRegister_result _).mpr ⟨j, hj, hlarge⟩)
    rw [hslots] at hfits'
    rw [hasked, playersAsked, if_pos hall]
    simp only [writes_append, hregister, List.nil_append]
    rw [hwrites _ _ (hfits' 4 (by decide)), hwrites _ _ (hfits' 5 (by decide)),
      hwrites _ _ (hfits' 6 (by decide)), hwrites _ _ (hfits' 7 (by decide))]
  · refine Returns.step (allOrNothing_guard (by decide) fun h₂ => Returns.step ?_)
    refine allOrNothing_guard (by decide) fun hreg => allOrNothing_finish hid ?_
    have hslots : requested m = [4] := if_neg hone
    have hfits' : (m 4).toNat + values.length ≤ 256 := by
      rw [← not_lt]
      intro hwraps
      refine hfits ⟨h₁, Or.inr hwho, ?_, ?_, 4, ?_, hwraps⟩
      · rw [hslots, not_not.mp h₂]
        rfl
      · intro j hj
        rw [hslots, List.mem_singleton] at hj
        rw [hj]
        exact hreg
      · rw [hslots]
        exact List.mem_singleton_self _
    rw [hasked, playersAsked, if_neg hone, dif_pos hwho, writes_append, hregister,
      List.nil_append]
    exact hwrites _ _ hfits'

/-- What a call that is not refused returns. -/
theorem forPlayers_served {width : ℕ} (h : Wraps m width)
    (register : Fin 4 → BitVec 32 → List Effect)
    (answer : Option QuestMember → BitVec 32 → List Effect) :
    Returns m (fun out => out.ret = retNoError) (forPlayers l register answer) := by
  obtain ⟨h₁, hwho, h₂, hregs, -⟩ := h
  unfold forPlayers
  refine Returns.step ?_
  rw [if_neg (not_not.mpr h₁)]
  refine Returns.step (Returns.ite (fun hall => ?_) fun hone => ?_)
  · have hslots : requested m = [4, 5, 6, 7] := if_pos hall
    rw [hslots] at h₂ hregs
    refine Returns.step ?_
    rw [if_neg (not_not.mpr (BitVec.eq_of_toNat_eq h₂))]
    refine Returns.bind ?_
    have hgood : ¬(badRegister [4, 5, 6, 7]).result m = true := by
      rw [badRegister_result]
      rintro ⟨i, hi, hlarge⟩
      exact hregs i hi hlarge
    rw [if_neg hgood]
    exact Returns.step (Returns.step (Returns.step (Returns.step (returns_pure rfl))))
  · have hslots : requested m = [4] := if_neg hone
    rw [hslots] at h₂ hregs
    rw [dif_pos (hwho.resolve_left hone)]
    refine Returns.step ?_
    rw [if_neg (not_not.mpr (BitVec.eq_of_toNat_eq h₂))]
    refine Returns.step ?_
    rw [if_neg (hregs 4 List.mem_cons_self)]
    exact returns_pure rfl

/-- The values for a register that a call names are among the ones that it asks for. -/
theorem playersAsked_row (l : QuestTeam) {m : ℤ → BitVec 32}
    (values : List (QuestMember → BitVec 32))
    (hwho : m 3 = 0xFFFFFFFF ∨ (m 3).toNat < 4) {i : ℤ} (hi : i ∈ requested m) :
    ∃ p, ∀ q ∈ consecutive (m i).toNat (valuesOf values p), q ∈ playersAsked l m values := by
  by_cases hall : m 3 = 0xFFFFFFFF
  · have hslots : requested m = [4, 5, 6, 7] := if_pos hall
    rw [playersAsked, if_pos hall]
    simp only [hslots, List.mem_cons, List.not_mem_nil, or_false] at hi
    simp only [List.mem_append]
    rcases hi with rfl | rfl | rfl | rfl
    · exact ⟨_, fun q hq => Or.inl (Or.inl (Or.inl hq))⟩
    · exact ⟨_, fun q hq => Or.inl (Or.inl (Or.inr hq))⟩
    · exact ⟨_, fun q hq => Or.inl (Or.inr hq)⟩
    · exact ⟨_, fun q hq => Or.inr hq⟩
  · have hslots : requested m = [4] := if_neg hall
    rw [hslots, List.mem_singleton] at hi
    rw [playersAsked, if_neg hall, dif_pos (hwho.resolve_left hall), hi]
    exact ⟨_, fun q hq => hq⟩

/-- No byte is the number of a register behind the last one. -/
theorem forPlayers_not_allOrNothing (hid : ¬0x80000000 < m 0)
    {register : Fin 4 → BitVec 32 → List Effect} {values : List (QuestMember → BitVec 32)}
    (hasked : asked env l m = playersAsked l m values) (hvalues : values ≠ [])
    (h : Wraps m values.length) :
    ¬Returns m (AllOrNothing env l m) (forPlayers l register (sendValues values)) := by
  intro hgood
  have hexact := hgood.served (forPlayers_served h register (sendValues values))
  rw [Exact, if_neg hid, hasked] at hexact
  obtain ⟨-, hwho, -, -, i, hi, hlarge⟩ := h
  obtain ⟨p, hrow⟩ := playersAsked_row l values hwho hi
  have hpos : 0 < values.length := List.length_pos_iff.mpr hvalues
  obtain ⟨v, hv⟩ := @exists_mem_consecutive (m i).toNat (values.length - 1)
    (valuesOf values p) (by rw [valuesOf_length]; omega)
  have hsmall := hrow _ hv
  rw [← hexact] at hsmall
  have hlt : (m i).toNat + (values.length - 1) < 256 := lt_of_mem_writes hsmall
  omega

theorem wraps_one : ¬Wraps m 1 := by
  rintro ⟨-, -, -, hregs, i, hi, hlarge⟩
  have hle : (m i).toNat ≤ 255 := not_lt.mp (hregs i hi)
  omega

theorem getRandomInteger_allOrNothing (hid : ¬0x80000000 < m 0)
    (hasked : asked env l m = consecutive (m 5).toNat
      [BitVec.ofNat 32 (env.random.toNat % ((m 4 - m 3).toNat + 1) + (m 3).toNat)]) :
    Returns m (AllOrNothing env l m) (getRandomInteger env) := by
  unfold getRandomInteger
  refine Returns.step (allOrNothing_guard (by decide) fun _ => Returns.step ?_)
  refine allOrNothing_guard (by decide) fun _ => Returns.step ?_
  refine allOrNothing_guard (by decide) fun hreg => Returns.step (Returns.step ?_)
  refine allOrNothing_guard (by decide) fun _ => allOrNothing_finish hid ?_
  have hle : (m 5).toNat ≤ 255 := not_lt.mp hreg
  rw [hasked, ← writes_syncs (show (m 5).toNat + 1 ≤ 256 by omega), syncs_cons]
  rfl

theorem request_allOrNothing (req : QFlagRequest) :
    Returns m (AllOrNothing env l m) (request env req) := by
  unfold request
  refine Returns.ite (fun _ => ⟨fun _ => rfl, fun hret => ?_⟩) fun _ =>
    allOrNothing_refuse (by decide)
  exact absurd hret (show ¬retNotYet = retNoError by decide)

theorem getQuestFlag_allOrNothing (ctl : BitVec 32) :
    Returns m (AllOrNothing env l m) (getQuestFlag env l ctl) := by
  unfold getQuestFlag
  refine Returns.step (allOrNothing_guard (by decide) fun _ => Returns.step ?_)
  refine allOrNothing_guard (by decide) fun _ => Returns.step ?_
  exact allOrNothing_guard (by decide) fun _ => Returns.step (request_allOrNothing _)

theorem setQuestFlag_allOrNothing (long : Bool) (ctl : BitVec 32) :
    Returns m (AllOrNothing env l m) (setQuestFlag env l long ctl) := by
  unfold setQuestFlag
  refine Returns.step (allOrNothing_guard (by decide) fun _ => Returns.step ?_)
  refine allOrNothing_guard (by decide) fun _ => Returns.step ?_
  refine allOrNothing_guard (by decide) fun _ => Returns.step ?_
  exact allOrNothing_guard (by decide) fun _ => Returns.step (request_allOrNothing _)

theorem delQuestFlag_allOrNothing (ctl : BitVec 32) :
    Returns m (AllOrNothing env l m) (delQuestFlag env l ctl) := by
  unfold delQuestFlag
  refine Returns.step (allOrNothing_guard (by decide) fun _ => Returns.step ?_)
  refine allOrNothing_guard (by decide) fun _ => Returns.step ?_
  refine allOrNothing_guard (by decide) fun _ => Returns.step ?_
  exact allOrNothing_guard (by decide) fun _ => Returns.step (request_allOrNothing _)

theorem letter_ne_zero {v : BitVec 32} (hle : ¬26 < v) : (v + 64).setWidth 8 ≠ 0 := by
  have hsmall : v.toNat ≤ 26 := not_lt.mp hle
  intro h
  have hzero : ((v + 64).setWidth 8).toNat = 0 := congrArg BitVec.toNat h
  have hsum : (v + 64).toNat = v.toNat + 64 := by
    rw [BitVec.toNat_add]
    exact Nat.mod_eq_of_lt (show v.toNat + 64 < 2 ^ 32 by omega)
  rw [BitVec.toNat_setWidth, hsum] at hzero
  omega

theorem readString_characters (i : ℤ) (is : List ℤ) :
    (readString false (i :: is)).result m =
      if 127 < m i then none
      else ((readString false is).result m).map fun s => (m i).setWidth 8 :: s := by
  rw [readString, result_bind]
  change (if 127 < m i then (pure none : Probe ℤ (BitVec 32) _) else _).result m = _
  simp only [result_ite, result_bind, result_pure, Bool.false_eq_true, false_and, if_false]
  rfl

theorem readString_letters (i : ℤ) (is : List ℤ) :
    (readString true (i :: is)).result m =
      if 26 < m i then none
      else if m i = 0 then some []
      else ((readString true is).result m).map fun s => (m i + 64).setWidth 8 :: s := by
  rw [readString, result_bind]
  change (if 26 < m i then (pure none : Probe ℤ (BitVec 32) _)
    else if true = true ∧ m i = 0 then pure (some []) else _).result m = _
  simp only [result_ite, result_bind, result_pure, true_and, if_true]
  rfl

/-- The string that is checked is the one that was given. -/
theorem readString_spec {sr : Bool} {is : List ℤ} {s : List (BitVec 8)}
    (h : (readString sr is).result m = some s) :
    s.takeWhile (· ≠ 0) = censored sr (is.map m) := by
  induction is generalizing s with
  | nil =>
    cases h
    cases sr <;> rfl
  | cons i is ih =>
    cases sr with
    | false =>
      rw [readString_characters] at h
      split_ifs at h with hlarge
      obtain ⟨s', hs', rfl⟩ := Option.map_eq_some_iff.mp h
      have hrest := ih hs'
      simp only [censored, Bool.false_eq_true, if_false] at hrest ⊢
      rw [List.map_cons, List.map_cons, List.takeWhile_cons, List.takeWhile_cons, hrest]
    | true =>
      rw [readString_letters] at h
      split_ifs at h with hlarge hend
      · cases h
        simp [censored, hend]
      · obtain ⟨s', hs', rfl⟩ := Option.map_eq_some_iff.mp h
        have hrest := ih hs'
        have hletter := letter_ne_zero hlarge
        simp only [censored, if_true] at hrest ⊢
        rw [List.map_cons, List.takeWhile_cons_of_pos (by simpa using hletter),
          List.takeWhile_cons_of_pos (by simpa using hend), hrest, List.map_cons]

theorem wordCensorCheck_allOrNothing (hid : ¬0x80000000 < m 0) (sr : Bool)
    (hasked : asked env l m = consecutive (m (m 1 + 3).toNat).toNat
      [env.checkString (censored sr (arguments m))]) :
    Returns m (AllOrNothing env l m) (wordCensorCheck env sr) := by
  unfold wordCensorCheck
  refine Returns.step (allOrNothing_guard (by decide) fun _ => Returns.step ?_)
  refine allOrNothing_guard (by decide) fun _ => Returns.step ?_
  refine allOrNothing_guard (by decide) fun hreg => Returns.bind ?_
  cases hread : (readString sr _).result m with
  | none => exact allOrNothing_refuse (by decide)
  | some s =>
    have hargs : s.takeWhile (· ≠ 0) = censored sr (arguments m) := by
      rw [readString_spec hread, List.map_map]
      rfl
    have hle : (m (m 1 + 3).toNat).toNat ≤ 255 := not_lt.mp hreg
    refine allOrNothing_finish hid ?_
    rw [hasked, ← writes_syncs (show (m (m 1 + 3).toNat).toNat + 1 ≤ 256 by omega), syncs_cons,
      hargs]
    rfl

theorem readSlots_result (is : List ℤ) : (readSlots is).result m = is.map m := by
  induction is with
  | nil => rfl
  | cons i is ih =>
    rw [List.map_cons, ← ih, readSlots, result_bind, result_bind]
    rfl

/-- A call of a function of a script, from the registers of the script on, is what the script
makes of it. -/
theorem scriptExecuteQfunc_allOrNothing_iff (hid : 0x80000000 < m 0) :
    Returns m (AllOrNothing env l m) (scriptExecuteQfunc env l) ↔
      ∀ f, Runs env l m f → AllOrNothing env l m (scriptOutcome env m f) := by
  have hresult : ∀ f, Runs env l m f →
      (scriptExecuteQfunc env l).result m = scriptOutcome env m f := by
    rintro f ⟨-, hloaded, hfind, hargs, hrets, hregs⟩
    have hgood : ¬(badRegister f.retSlots).result m = true := by
      rw [badRegister_result]
      rintro ⟨i, hi, hlarge⟩
      exact hregs i hi hlarge
    unfold scriptExecuteQfunc
    rw [if_neg (by rw [hloaded]; decide), result_bind, slot, result_cell, hfind]
    dsimp only
    rw [result_bind, slot, result_cell, if_neg (not_not.mpr hargs), result_bind, slot, result_cell,
      if_neg (not_not.mpr hrets), result_bind, if_neg hgood, result_bind, result_bind,
      readSlots_result, readSlots_result]
    rfl
  constructor
  · intro h f hruns
    rw [← hresult f hruns]
    exact h
  · intro h
    unfold scriptExecuteQfunc
    refine allOrNothing_guard (by decide) fun hloaded => Returns.step ?_
    rw [Bool.not_eq_false] at hloaded
    cases hfind : l.qfuncList.find? (fun f => f.funcId = m 0) with
    | none => exact allOrNothing_refuse (by decide)
    | some f =>
      refine Returns.step (allOrNothing_guard (by decide) fun hargs => Returns.step ?_)
      refine allOrNothing_guard (by decide) fun hrets => Returns.bind ?_
      refine allOrNothing_guard (by decide) fun hbad => Returns.bind (Returns.bind ?_)
      rw [readSlots_result, readSlots_result]
      refine h f ⟨hid, hloaded, hfind, not_not.mp hargs, not_not.mp hrets, fun i hi hlarge => ?_⟩
      exact hbad ((badRegister_result _).mpr ⟨i, hi, hlarge⟩)

theorem dispatch_script (hid : 0x80000000 < m 0) :
    (questFunctionDispatch env l).result m = (scriptExecuteQfunc env l).result m := by
  unfold questFunctionDispatch
  rw [result_bind, slot, result_cell, if_pos hid]

theorem dispatch_position (hid : m 0 = 8) :
    (questFunctionDispatch env l).result m = (getClientPosition l).result m := by
  unfold questFunctionDispatch
  rw [result_bind, slot, result_cell, hid]
  rfl

theorem dispatch_posUpdates (hid : m 0 = 21) :
    (questFunctionDispatch env l).result m = (getPosUpdates l).result m := by
  unfold questFunctionDispatch
  rw [result_bind, slot, result_cell, hid]
  rfl

/-- The ship's own functions. -/
theorem dispatch_allOrNothing (hid : ¬0x80000000 < m 0) (hposition : ¬(m 0 = 8 ∧ Wraps m 3))
    (hupdates : ¬(m 0 = 21 ∧ Wraps m 4)) :
    Returns m (AllOrNothing env l m) (questFunctionDispatch env l) := by
  have hnone : ∀ (i : Fin 4) (r : BitVec 32),
      writes ((fun (_ : Fin 4) (_ : BitVec 32) => ([] : List Effect)) i r) = [] :=
    fun _ _ => rfl
  have hone : ∀ (r v : BitVec 32), writes [sync r v] = writes (syncs r [v]) := by
    intro r v
    rw [syncs_cons]
    rfl
  have hplayers : ∀ value : QuestMember → BitVec 32, asked env l m = playersAsked l m [value] →
      Returns m (AllOrNothing env l m) (forPlayers l (fun _ _ => []) (sendValue value)) := by
    intro value hasked
    have hsend : sendValue value = sendValues [value] := by
      funext p r
      exact sendValue_eq value p r
    rw [hsend]
    exact forPlayers_allOrNothing hid hnone hasked wraps_one
  have hvalue : ∀ v : BitVec 32, asked env l m = consecutive (m 3).toNat [v] →
      Returns m (AllOrNothing env l m) (noArguments 255 fun r => [sync r v]) :=
    fun v hasked => noArguments_allOrNothing hid hasked (fun r => hone r v) (show 255 + 1 ≤ 256 by decide)
  unfold questFunctionDispatch
  refine Returns.step ?_
  rw [if_neg hid]
  split
  case h_1 heq => exact hplayers _ (by rw [asked, heq]; rfl)
  case h_2 heq => exact hvalue _ (by rw [asked, heq]; rfl)
  case h_3 heq => exact hvalue _ (by rw [asked, heq]; rfl)
  case h_4 heq => exact hplayers _ (by rw [asked, heq]; rfl)
  case h_5 heq => exact hplayers _ (by rw [asked, heq]; rfl)
  case h_6 heq => exact hplayers _ (by rw [asked, heq]; rfl)
  case h_7 heq => exact hplayers _ (by rw [asked, heq]; rfl)
  case h_8 heq => exact hplayers _ (by rw [asked, heq]; rfl)
  case h_9 heq =>
    refine forPlayers_allOrNothing hid hnone (by rw [asked, heq]; rfl) fun hwraps => ?_
    exact hposition ⟨BitVec.eq_of_toNat_eq heq, hwraps⟩
  case h_10 heq => exact getRandomInteger_allOrNothing hid (by rw [asked, heq]; rfl)
  case h_11 heq => exact hvalue _ (by rw [asked, heq]; rfl)
  case h_12 heq => exact hvalue _ (by rw [asked, heq]; rfl)
  case h_13 => exact getQuestFlag_allOrNothing _
  case h_14 => exact setQuestFlag_allOrNothing _ _
  case h_15 => exact getQuestFlag_allOrNothing _
  case h_16 => exact setQuestFlag_allOrNothing _ _
  case h_17 => exact delQuestFlag_allOrNothing _
  case h_18 => exact delQuestFlag_allOrNothing _
  case h_19 heq => exact wordCensorCheck_allOrNothing hid false (by rw [asked, heq]; rfl)
  case h_20 heq => exact wordCensorCheck_allOrNothing hid true (by rw [asked, heq]; rfl)
  case h_21 heq => exact hvalue _ (by rw [asked, heq]; rfl)
  case h_22 heq =>
    refine forPlayers_allOrNothing hid (fun _ _ => rfl) (by rw [asked, heq]; rfl) fun hwraps => ?_
    exact hupdates ⟨BitVec.eq_of_toNat_eq heq, hwraps⟩
  case h_23 heq => exact hplayers _ (by rw [asked, heq]; rfl)
  case h_24 heq =>
    refine noArguments_allOrNothing hid (by rw [asked, heq]; rfl) (fun _ => rfl) ?_
    exact show 253 + 3 ≤ 256 by decide
  case h_25 heq =>
    refine noArguments_allOrNothing hid (by rw [asked, heq]; rfl) (fun _ => rfl) ?_
    exact show 250 + 6 ≤ 256 by decide
  case h_26 heq => exact hvalue _ (by rw [asked, heq]; rfl)
  case h_27 heq =>
    exact noArguments_allOrNothing hid (by rw [asked, heq]; rfl) (fun r => hone r _)
      (show 255 + 1 ≤ 256 by decide)
  case h_28 => exact allOrNothing_refuse (by decide)

end Functions

/-- A call of a quest function writes no register unless it succeeds, and then exactly those that
it is asked for, if and only if it is not one for positions with a register too near to the end,
and not one of a script that does otherwise. -/
theorem questFunctions_allOrNothing (env : QuestEnv) (l : QuestTeam) (m : ℤ → BitVec 32) :
    AllOrNothing env l m ((questFunctionDispatch env l).result m) ↔
      ¬(m 0 = 8 ∧ Wraps m 3) ∧ ¬(m 0 = 21 ∧ Wraps m 4) ∧
        ∀ f, Runs env l m f → AllOrNothing env l m (scriptOutcome env m f) := by
  constructor
  · intro h
    refine ⟨?_, ?_, fun f hruns => ?_⟩
    · rintro ⟨hid, hwraps⟩
      rw [dispatch_position hid] at h
      exact forPlayers_not_allOrNothing (by rw [hid]; decide) (by rw [asked, hid]; rfl)
        (List.cons_ne_nil _ _) hwraps h
    · rintro ⟨hid, hwraps⟩
      rw [dispatch_posUpdates hid] at h
      exact forPlayers_not_allOrNothing (by rw [hid]; decide) (by rw [asked, hid]; rfl)
        (List.cons_ne_nil _ _) hwraps h
    · rw [dispatch_script hruns.1] at h
      exact (scriptExecuteQfunc_allOrNothing_iff hruns.1).mp h f hruns
  · rintro ⟨hposition, hupdates, hscript⟩
    by_cases hid : 0x80000000 < m 0
    · rw [dispatch_script hid]
      exact (scriptExecuteQfunc_allOrNothing_iff hid).mpr hscript
    · exact dispatch_allOrNothing hid hposition hupdates

/-- A game with one member, at (7, 8, 9). -/
def lonely : QuestTeam :=
  { clients := fun i => if i = 0 then some ⟨1, 2, 3, 4, 7, 8, 9⟩ else none
    numClients := 1
    randSeed := 0
    qid := 0
    qfuncList := [] }

def quiet : QuestEnv :=
  { now := 0, random := 0, shipClients := 1, blockClients := 1, shipName := []
    checkString := fun _ => 0, qflagSent := true, scriptsLoaded := false
    runScript := fun _ _ _ => (0, []) }

/-- The position of the player in slot 0, from register 254 on. -/
def position254 : ℤ → BitVec 32 :=
  fun i => if i = 0 then 8 else if i = 1 then 1 else if i = 2 then 1 else if i = 4 then 254 else 0

/-- The third value goes to register 0. -/
theorem questFunctions_not_allOrNothing :
    (questFunctionDispatch quiet lonely).result position254 =
        ⟨retNoError, [.sync 254 7, .sync 255 8, .sync 0 9]⟩ ∧
      ¬AllOrNothing quiet lonely position254
        ((questFunctionDispatch quiet lonely).result position254) := by
  have hout : (questFunctionDispatch quiet lonely).result position254 =
      ⟨retNoError, [.sync 254 7, .sync 255 8, .sync 0 9]⟩ := by
    decide
  refine ⟨hout, fun h => ?_⟩
  rw [hout] at h
  have hexact := h.served rfl
  rw [Exact, if_neg (by decide)] at hexact
  exact absurd hexact (by decide)

end ShipServer.QuestRegisters
