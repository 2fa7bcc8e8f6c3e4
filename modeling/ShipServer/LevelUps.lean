import ShipServer.Versions

set_option autoImplicit false

/-! Experience, levels and the stats that come with them. -/

namespace ShipServer.LevelUps

open Versions

section Climbing

variable {ok ok' : ℕ → Prop} {cap s m n : ℕ}

/-- Where a climb can get from a start: every step on the way is allowed. -/
def climbs (ok : ℕ → Prop) (cap s : ℕ) : Set ℕ :=
  { n | s ≤ n ∧ n ≤ cap ∧ ∀ k, s < k → k ≤ n → ok k }

/-- A climb is as far as it gets when it is at the cap or the next step is not allowed. -/
theorem isGreatest_climbs_self (hs : s ≤ cap) (hstop : s = cap ∨ ¬ok (s + 1)) :
    IsGreatest (climbs ok cap s) s := by
  refine ⟨⟨le_rfl, hs, fun k hlt hle => absurd hlt (by omega)⟩, ?_⟩
  rintro n ⟨hsn, hn, hall⟩
  by_contra hlt
  rcases hstop with hcap | hno
  · omega
  · exact hno (hall (s + 1) (by omega) (by omega))

/-- What one climb allows a later one allows too. Then they are one climb. -/
theorem isGreatest_climbs_trans (h : IsGreatest (climbs ok cap s) m)
    (hok : ∀ k, ok k → ok' k) (h' : IsGreatest (climbs ok' cap m) n) :
    IsGreatest (climbs ok' cap s) n := by
  obtain ⟨⟨hsm, -, hlow⟩, -⟩ := h
  obtain ⟨⟨hmn, hn, hhigh⟩, hbound⟩ := h'
  refine ⟨⟨hsm.trans hmn, hn, ?_⟩, ?_⟩
  · intro k hlt hle
    by_cases hkm : k ≤ m
    · exact hok k (hlow k hlt hkm)
    · exact hhigh k (not_le.mp hkm) hle
  · rintro l ⟨hsl, hl, hall⟩
    by_cases hml : m ≤ l
    · exact hbound ⟨hml, hl, fun k hlt hle => hall k (hsm.trans_lt hlt) hle⟩
    · exact (not_le.mp hml).le.trans hmn

/-- A climb may begin with any step that is allowed. -/
theorem isGreatest_climbs_step (hok : ok (s + 1))
    (h : IsGreatest (climbs ok cap (s + 1)) n) : IsGreatest (climbs ok cap s) n := by
  obtain ⟨⟨hsn, hn, hall⟩, hbound⟩ := h
  refine ⟨⟨(Nat.le_succ s).trans hsn, hn, ?_⟩, ?_⟩
  · intro k hlt hle
    rcases Nat.lt_or_ge (s + 1) k with hlater | hfirst
    · exact hall k hlater hle
    · obtain rfl : k = s + 1 := by omega
      exact hok
  · rintro l ⟨hsl, hl, hclimb⟩
    by_cases hfirst : s + 1 ≤ l
    · exact hbound ⟨hfirst, hl, fun k hlt hle => hclimb k (by omega) hle⟩
    · omega

end Climbing

/-- The stats that go up with the level. -/
inductive Stat where
  | atp
  | mst
  | evp
  | hp
  | dfp
  | ata
  deriving DecidableEq

/-- `bb_level_entry_t`. -/
structure LevelEntry where
  stats : Stat → BitVec 8
  exp : BitVec 32

/-- `char_stats.levels`. -/
abbrev LevelTable := Fin 12 → Fin 200 → LevelEntry

structure Character where
  stats : Stat → BitVec 16
  level : BitVec 32
  exp : BitVec 32
  chClass : Fin 12

structure ExpClient where
  version : ClientVersion
  bbPl : Option Character

def giveStats (stats : Stat → BitVec 16) (ent : LevelEntry) (k : Stat) : BitVec 16 :=
  stats k + (ent.stats k).setWidth 16

/-- The entry at an index, or `none` past the end of the table. -/
def levelEntry (levels : Fin 200 → LevelEntry) (i : ℕ) : Option LevelEntry :=
  if h : i < 200 then some (levels ⟨i, h⟩) else none

/-- The loop over the levels gained: the stats and the level it ends with, or `none` if it reads
past the end of the table. -/
def levelLoop (levels : Fin 200 → LevelEntry) (expTotal : BitVec 32) (stats : Stat → BitVec 16)
    (level : ℕ) : Option ((Stat → BitVec 16) × ℕ) :=
  match levelEntry levels (level + 1) with
  | none => none
  | some ent =>
    if ent.exp ≤ expTotal then
      if level + 1 < 199 then levelLoop levels expTotal (giveStats stats ent) (level + 1)
      else some (giveStats stats ent, level + 1)
    else
      some (stats, level)
termination_by 199 - level

def clientGiveExp (t : LevelTable) (c : ExpClient) (exp : BitVec 32) : Option (Int × ExpClient) :=
  if c.version ≠ .bb then some (-1, c)
  else
    match c.bbPl with
    | none => some (-1, c)
    | some ch =>
      if 199 ≤ ch.level then some (0, c)
      else
        let expTotal := ch.exp + exp
        (levelLoop (t ch.chClass) expTotal ch.stats ch.level.toNat).map fun r =>
          (0, { c with
            bbPl := some { ch with stats := r.1, level := BitVec.ofNat 32 r.2, exp := expTotal } })

def clientGiveLevel (t : LevelTable) (c : ExpClient) (levelReq : BitVec 32) :
    Option (Int × ExpClient) :=
  if c.version ≠ .bb then some (-1, c)
  else
    match c.bbPl with
    | none => some (-1, c)
    | some ch =>
      if 199 < levelReq then some (-1, c)
      else if levelReq ≤ ch.level then some (0, c)
      else
        (levelEntry (t ch.chClass) levelReq.toNat).map fun ent =>
          (0, { c with bbPl := some { ch with level := levelReq, exp := ent.exp } })

/-- A Blue Burst client with its character. -/
def blueBurst (ch : Character) : ExpClient where
  version := .bb
  bbPl := some ch

/-- The client after a sequence of awards, unless one of them reads past the table. -/
def giveAll (t : LevelTable) (c : ExpClient) (awards : List (BitVec 32)) : Option ExpClient :=
  awards.foldlM (fun c exp => (clientGiveExp t c exp).map Prod.snd) c

def totalExp (ch : Character) (awards : List (BitVec 32)) : ℕ :=
  ch.exp.toNat + (awards.map BitVec.toNat).sum

/-- The total reaches the threshold of level `k`. -/
def Affords (levels : Fin 200 → LevelEntry) (total k : ℕ) : Prop :=
  ∀ h : k < 200, (levels ⟨k, h⟩).exp.toNat ≤ total

/-- What the levels above one level up to another add to a stat. -/
def gained (levels : Fin 200 → LevelEntry) (k : Stat) (s n : ℕ) : ℕ :=
  ∑ i ∈ Finset.univ.filter fun i : Fin 200 => s < i ∧ (i : ℕ) ≤ n, ((levels i).stats k).toNat

/-- The client has the greatest level within reach of its total, and the stats of the levels it
gained. -/
structure Awarded (t : LevelTable) (ch : Character) (total : ℕ) (ch' : Character) : Prop where
  level : IsGreatest (climbs (Affords (t ch.chClass) total) 199 ch.level.toNat) ch'.level.toNat
  stats : ∀ k, ch'.stats k =
    ch.stats k + BitVec.ofNat 16 (gained (t ch.chClass) k ch.level.toNat ch'.level.toNat)

theorem affords_mono {levels : Fin 200 → LevelEntry} {total total' : ℕ} (h : total ≤ total')
    (k : ℕ) (hk : Affords levels total k) : Affords levels total' k :=
  fun hlt => (hk hlt).trans h

theorem gained_self (levels : Fin 200 → LevelEntry) (k : Stat) (s : ℕ) :
    gained levels k s s = 0 := by
  refine Finset.sum_eq_zero ?_
  intro i hi
  rw [Finset.mem_filter] at hi
  omega

theorem gained_add (levels : Fin 200 → LevelEntry) (k : Stat) {s m n : ℕ} (hs : s ≤ m)
    (hm : m ≤ n) : gained levels k s m + gained levels k m n = gained levels k s n := by
  have hdisjoint : Disjoint (Finset.univ.filter fun i : Fin 200 => s < i ∧ (i : ℕ) ≤ m)
      (Finset.univ.filter fun i : Fin 200 => m < i ∧ (i : ℕ) ≤ n) := by
    rw [Finset.disjoint_filter]
    intro i _ hlow hhigh
    omega
  have hunion : (Finset.univ.filter fun i : Fin 200 => s < i ∧ (i : ℕ) ≤ n) =
      (Finset.univ.filter fun i : Fin 200 => s < i ∧ (i : ℕ) ≤ m) ∪
        Finset.univ.filter fun i : Fin 200 => m < i ∧ (i : ℕ) ≤ n := by
    ext i
    simp only [Finset.mem_filter, Finset.mem_univ, true_and, Finset.mem_union]
    omega
  rw [gained, gained, gained, hunion, Finset.sum_union hdisjoint]

theorem gained_succ (levels : Fin 200 → LevelEntry) (k : Stat) {s : ℕ} (h : s + 1 < 200) :
    gained levels k s (s + 1) = ((levels ⟨s + 1, h⟩).stats k).toNat := by
  have hone : (Finset.univ.filter fun i : Fin 200 => s < i ∧ (i : ℕ) ≤ s + 1) =
      {⟨s + 1, h⟩} := by
    ext i
    simp only [Finset.mem_filter, Finset.mem_univ, true_and, Finset.mem_singleton, Fin.ext_iff]
    omega
  rw [gained, hone, Finset.sum_singleton]

/-- One level's stats, and those of the levels after it. -/
theorem giveStats_gained (levels : Fin 200 → LevelEntry) (k : Stat) {s n : ℕ} (h : s + 1 < 200)
    (hn : s + 1 ≤ n) (stats : Stat → BitVec 16) :
    giveStats stats (levels ⟨s + 1, h⟩) k + BitVec.ofNat 16 (gained levels k (s + 1) n) =
      stats k + BitVec.ofNat 16 (gained levels k s n) := by
  rw [← gained_add levels k (Nat.le_succ s) hn, gained_succ levels k h, giveStats,
    BitVec.ofNat_add, BitVec.add_assoc]
  congr 2
  exact (BitVec.ofNat_toNat 16 _).symm

/-- From below the cap, the loop ends inside the table with the greatest level within reach. -/
theorem levelLoop_spec (levels : Fin 200 → LevelEntry) (expTotal : BitVec 32)
    (stats : Stat → BitVec 16) {level : ℕ} (h : level < 199) :
    ∃ stats' n, levelLoop levels expTotal stats level = some (stats', n) ∧
      IsGreatest (climbs (Affords levels expTotal.toNat) 199 level) n ∧
      ∀ k, stats' k = stats k + BitVec.ofNat 16 (gained levels k level n) := by
  induction hgap : 199 - level generalizing level stats with
  | zero => omega
  | succ gap ih =>
    have hindex : level + 1 < 200 := by omega
    have hentry : levelEntry levels (level + 1) = some (levels ⟨level + 1, hindex⟩) :=
      dif_pos hindex
    rw [levelLoop, hentry]
    dsimp only
    by_cases hexp : (levels ⟨level + 1, hindex⟩).exp ≤ expTotal
    · rw [if_pos hexp]
      by_cases hmore : level + 1 < 199
      · obtain ⟨stats', n, hloop, hgreatest, hstats⟩ :=
          ih (giveStats stats (levels ⟨level + 1, hindex⟩)) hmore (by omega)
        rw [if_pos hmore]
        refine ⟨stats', n, hloop, isGreatest_climbs_step (fun _ => hexp) hgreatest, ?_⟩
        intro k
        rw [hstats k, giveStats_gained levels k hindex hgreatest.1.1]
      · have hcap : level + 1 = 199 := by omega
        rw [if_neg hmore]
        refine ⟨_, level + 1, rfl, isGreatest_climbs_step (fun _ => hexp) ?_, ?_⟩
        · exact isGreatest_climbs_self hcap.le (.inl hcap)
        · intro k
          rw [← giveStats_gained levels k hindex le_rfl, gained_self]
          exact (BitVec.add_zero _).symm
    · rw [if_neg hexp]
      refine ⟨stats, level, rfl, isGreatest_climbs_self h.le (.inr ?_), ?_⟩
      · intro haffords
        exact hexp (haffords hindex)
      · intro k
        rw [gained_self]
        exact (BitVec.add_zero _).symm

/-- An award that leaves no level within reach unreached. -/
theorem clientGiveExp_spec (t : LevelTable) {ch : Character} (exp : BitVec 32)
    (hlevel : ch.level.toNat ≤ 199) (htotal : ch.exp.toNat + exp.toNat < 2 ^ 32) :
    ∃ ch', clientGiveExp t (blueBurst ch) exp = some (0, blueBurst ch') ∧
      Awarded t ch (ch.exp.toNat + exp.toNat) ch' ∧ ch'.chClass = ch.chClass ∧
      ch'.exp.toNat ≤ ch.exp.toNat + exp.toNat ∧
      (ch'.level.toNat = 199 ∨ ch'.exp.toNat = ch.exp.toNat + exp.toNat) := by
  have hversion : ¬(blueBurst ch).version ≠ .bb := not_not.mpr rfl
  rw [clientGiveExp, if_neg hversion]
  dsimp only [blueBurst]
  by_cases hmax : 199 ≤ ch.level
  · have hcap : ch.level.toNat = 199 := le_antisymm hlevel hmax
    rw [if_pos hmax]
    refine ⟨ch, rfl, ⟨?_, ?_⟩, rfl, Nat.le_add_right _ _, .inl hcap⟩
    · exact isGreatest_climbs_self hlevel (.inl hcap)
    · intro k
      rw [gained_self]
      exact (BitVec.add_zero _).symm
  · have hlt : ch.level.toNat < 199 := not_le.mp hmax
    have hsum : (ch.exp + exp).toNat = ch.exp.toNat + exp.toNat := by
      rw [BitVec.toNat_add, Nat.mod_eq_of_lt htotal]
    obtain ⟨stats', n, hloop, hgreatest, hstats⟩ :=
      levelLoop_spec (t ch.chClass) (ch.exp + exp) ch.stats hlt
    have hn : (BitVec.ofNat 32 n).toNat = n := by
      have hle := hgreatest.1.2.1
      rw [BitVec.toNat_ofNat]
      omega
    rw [if_neg hmax, hloop]
    rw [hsum] at hgreatest
    refine ⟨_, rfl, ⟨?_, ?_⟩, rfl, hsum.le, .inr hsum⟩
    · dsimp only
      rwa [hn]
    · intro k
      dsimp only
      rw [hn, hstats k]

/-- Two awards in a row are one. -/
theorem Awarded.trans {t : LevelTable} {ch ch' ch'' : Character} {m n : ℕ}
    (h : Awarded t ch m ch') (hclass : ch'.chClass = ch.chClass) (hmn : m ≤ n)
    (h' : Awarded t ch' n ch'') : Awarded t ch n ch'' := by
  have hlevel := h'.level
  rw [hclass] at hlevel
  refine ⟨isGreatest_climbs_trans h.level (affords_mono hmn) hlevel, ?_⟩
  intro k
  have hgained := gained_add (t ch.chClass) k h.level.1.1 hlevel.1.1
  rw [h'.stats k, h.stats k, hclass, ← hgained, BitVec.ofNat_add, BitVec.add_assoc]

/-- At the cap, no award changes anything. -/
theorem Awarded.of_cap {t : LevelTable} {ch ch' : Character} {m n : ℕ} (h : Awarded t ch m ch')
    (hcap : ch.level.toNat = 199) : Awarded t ch n ch' := by
  obtain ⟨⟨hlow, hhigh, -⟩, -⟩ := h.level
  have hend : ch'.level.toNat = 199 := by omega
  refine ⟨?_, h.stats⟩
  rw [hend, hcap]
  exact isGreatest_climbs_self le_rfl (.inl rfl)

/-- The level and the stats after awards follow from the total alone. -/
theorem Awarded.unique {t : LevelTable} {ch ch' ch'' : Character} {n : ℕ} (h : Awarded t ch n ch')
    (h' : Awarded t ch n ch'') : ch'.level = ch''.level ∧ ch'.stats = ch''.stats := by
  have hlevel : ch'.level.toNat = ch''.level.toNat := h.level.unique h'.level
  refine ⟨BitVec.eq_of_toNat_eq hlevel, ?_⟩
  funext k
  rw [h.stats k, h'.stats k, hlevel]

/-- A sequence of awards, one at least, does what one award of their sum would do. -/
theorem giveAll_spec (t : LevelTable) {ch : Character} (exp : BitVec 32) (awards : List (BitVec 32))
    (hlevel : ch.level.toNat ≤ 199) (htotal : totalExp ch (exp :: awards) < 2 ^ 32) :
    ∃ ch', giveAll t (blueBurst ch) (exp :: awards) = some (blueBurst ch') ∧
      Awarded t ch (totalExp ch (exp :: awards)) ch' := by
  induction awards generalizing ch exp with
  | nil =>
    have hone : totalExp ch [exp] = ch.exp.toNat + exp.toNat := by
      simp [totalExp]
    rw [hone] at htotal ⊢
    obtain ⟨ch', hgive, hawarded, -⟩ := clientGiveExp_spec t exp hlevel htotal
    refine ⟨ch', ?_, hawarded⟩
    simp [giveAll, hgive]
  | cons next awards ih =>
    have hsum : totalExp ch (exp :: next :: awards) =
        ch.exp.toNat + exp.toNat + ((next :: awards).map BitVec.toNat).sum := by
      rw [totalExp, List.map_cons, List.sum_cons, Nat.add_assoc]
    rw [hsum] at htotal ⊢
    obtain ⟨ch₁, hgive, hawarded, hclass, hexp, hend⟩ :=
      clientGiveExp_spec t exp hlevel (by omega)
    have hle : ch₁.level.toNat ≤ 199 := hawarded.level.1.2.1
    have hrest : totalExp ch₁ (next :: awards) < 2 ^ 32 := by
      rw [totalExp]
      omega
    obtain ⟨ch', hgives, hnext⟩ := ih next hle hrest
    refine ⟨ch', ?_, hawarded.trans hclass (Nat.le_add_right _ _) ?_⟩
    · rw [giveAll, List.foldlM_cons, hgive]
      exact hgives
    · rcases hend with hcap | hadded
      · exact hnext.of_cap hcap
      · rwa [totalExp, hadded] at hnext

/-- What a sequence of awards should do: none of them reads past the table, and the character ends
with what its total of experience is worth. -/
def PaysOut (t : LevelTable) (ch : Character) (awards : List (BitVec 32)) : Prop :=
  ∃ ch', giveAll t (blueBurst ch) awards = some (blueBurst ch') ∧
    Awarded t ch (totalExp ch awards) ch'

/-- The thresholds of a class do not decrease. -/
def Ordered (t : LevelTable) : Prop :=
  ∀ cl, Monotone fun i => (t cl i).exp.toNat

/-- Any sequence of awards to a character of level 199 at most pays out, if there is an award in it
at all, and how it is split does not matter. No awards change nothing. -/
theorem giveAll_pays (t : LevelTable) (ch : Character) (awards : List (BitVec 32))
    (hlevel : ch.level.toNat ≤ 199) (htotal : totalExp ch awards < 2 ^ 32) :
    (awards = [] → giveAll t (blueBurst ch) awards = some (blueBurst ch)) ∧
    (awards ≠ [] → PaysOut t ch awards ∧
      ∀ awards' ch' ch'', awards' ≠ [] → totalExp ch awards' = totalExp ch awards →
        giveAll t (blueBurst ch) awards = some (blueBurst ch') →
        giveAll t (blueBurst ch) awards' = some (blueBurst ch'') →
        ch'.level = ch''.level ∧ ch'.stats = ch''.stats) := by
  have hpays (awards : List (BitVec 32)) (hsome : awards ≠ [])
      (htotal : totalExp ch awards < 2 ^ 32) : PaysOut t ch awards := by
    cases awards with
    | nil => exact absurd rfl hsome
    | cons exp awards => exact giveAll_spec t exp awards hlevel htotal
  have hchar {ch ch' : Character} (h : some (blueBurst ch) = some (blueBurst ch')) : ch = ch' :=
    Option.some.inj (congrArg ExpClient.bbPl (Option.some.inj h))
  constructor
  · rintro rfl
    rfl
  · intro hsome
    refine ⟨hpays awards hsome htotal, ?_⟩
    intro awards' ch' ch'' hsome' hsum hgive hgive'
    obtain ⟨d, hd, hawarded⟩ := hpays awards hsome htotal
    obtain ⟨d', hd', hawarded'⟩ := hpays awards' hsome' (hsum.trans_lt htotal)
    obtain rfl := hchar (hd.symm.trans hgive)
    obtain rfl := hchar (hd'.symm.trans hgive')
    rw [hsum] at hawarded'
    exact hawarded.unique hawarded'

/-- A table without thresholds. -/
def freeLevels (_ : Fin 12) (_ : Fin 200) : LevelEntry where
  stats _ := 1
  exp := 0

def newcomer : Character where
  stats _ := 10
  level := 0
  exp := 0
  chClass := 0

theorem giveAll_pays_newcomer :
    (newcomer.level.toNat ≤ 199 ∧ totalExp newcomer [20, 30] < 2 ^ 32) ∧
      PaysOut freeLevels newcomer [20, 30] :=
  ⟨by decide, ((giveAll_pays freeLevels newcomer [20, 30] (by decide) (by decide)).2
    (by decide)).1⟩

/-- A character that could reach a level already stays where it is without an award. -/
theorem not_paysOut : ¬∀ t ch awards, Ordered t → totalExp ch awards < 2 ^ 32 →
    PaysOut t ch awards := by
  intro h
  have hordered : Ordered freeLevels := fun _ _ _ _ => le_rfl
  obtain ⟨ch', hgive, hawarded⟩ := h freeLevels newcomer [] hordered (by decide)
  have hsame : newcomer = ch' :=
    Option.some.inj (congrArg ExpClient.bbPl (Option.some.inj hgive))
  have hclimb : 1 ∈ climbs (Affords (freeLevels newcomer.chClass) (totalExp newcomer [])) 199
      newcomer.level.toNat :=
    ⟨by decide, by decide, fun _ _ _ _ => Nat.zero_le _⟩
  have hreach := hawarded.level.2 hclimb
  rw [← hsame] at hreach
  exact absurd hreach (by decide)

/-- The experience that a character lacks for a level. -/
def missingExp (t : LevelTable) (ch : Character) (n : Fin 200) : BitVec 32 :=
  (t ch.chClass n).exp - ch.exp

/-- A level given for free leaves the character that an award of the missing experience would. -/
def LevelsAsEarned (t : LevelTable) (ch : Character) (n : Fin 200) : Prop :=
  ∃ c, (clientGiveLevel t (blueBurst ch) (BitVec.ofNat 32 n)).map Prod.snd = some c ∧
    (clientGiveExp t (blueBurst ch) (missingExp t ch n)).map Prod.snd = some c

section FreeLevels

variable {t : LevelTable} {ch : Character} {n : Fin 200}

theorem toNat_level (n : Fin 200) : (BitVec.ofNat 32 n).toNat = n := by
  rw [BitVec.toNat_ofNat]
  omega

theorem clientGiveLevel_eq (hlevel : ch.level.toNat < n) :
    (clientGiveLevel t (blueBurst ch) (BitVec.ofNat 32 n)).map Prod.snd =
      some (blueBurst { ch with level := BitVec.ofNat 32 n, exp := (t ch.chClass n).exp }) := by
  have hversion : ¬(blueBurst ch).version ≠ .bb := not_not.mpr rfl
  have hreq : ¬199 < BitVec.ofNat 32 n := by
    rw [BitVec.lt_def, toNat_level]
    exact not_lt.mpr (Nat.lt_succ_iff.mp n.isLt)
  have hnew : ¬BitVec.ofNat 32 n ≤ ch.level := by
    rw [BitVec.le_def, toNat_level]
    exact not_le.mpr hlevel
  have hentry : levelEntry (t ch.chClass) (BitVec.ofNat 32 n).toNat = some (t ch.chClass n) := by
    rw [toNat_level]
    exact dif_pos n.isLt
  rw [clientGiveLevel, if_neg hversion]
  dsimp only [blueBurst]
  rw [if_neg hreq, if_neg hnew, hentry]
  rfl

/-- Exactly the levels up to `n` are within reach of the threshold of `n`. -/
theorem climbs_to (hlevel : ch.level.toNat < n) (hordered : Ordered t)
    (hgap : ∀ h : (n : ℕ) + 1 < 200,
      (t ch.chClass n).exp.toNat < (t ch.chClass ⟨n + 1, h⟩).exp.toNat) :
    IsGreatest (climbs (Affords (t ch.chClass) (t ch.chClass n).exp.toNat) 199 ch.level.toNat)
      (n : ℕ) := by
  refine ⟨⟨hlevel.le, Nat.lt_succ_iff.mp n.isLt, ?_⟩, ?_⟩
  · intro k _ hk hlt
    exact hordered ch.chClass (Fin.le_def.mpr hk)
  · rintro l ⟨-, hl, hall⟩
    by_contra hbeyond
    have hnext : (n : ℕ) + 1 < 200 := by omega
    have hle := hall (n + 1) (by omega) (by omega) hnext
    exact absurd (hgap hnext) (not_lt.mpr hle)

theorem clientGiveExp_missing (hlevel : ch.level.toNat < n) (hordered : Ordered t)
    (hgap : ∀ h : (n : ℕ) + 1 < 200,
      (t ch.chClass n).exp.toNat < (t ch.chClass ⟨n + 1, h⟩).exp.toNat) :
    ∃ stats, (clientGiveExp t (blueBurst ch) (missingExp t ch n)).map Prod.snd =
        some (blueBurst { ch with
          stats := stats, level := BitVec.ofNat 32 n, exp := (t ch.chClass n).exp }) ∧
      ∀ k, stats k = ch.stats k + BitVec.ofNat 16 (gained (t ch.chClass) k ch.level.toNat n) := by
  have hversion : ¬(blueBurst ch).version ≠ .bb := not_not.mpr rfl
  have hlt : ch.level.toNat < 199 := by omega
  have hmax : ¬199 ≤ ch.level := not_le.mpr hlt
  have hsum : ch.exp + missingExp t ch n = (t ch.chClass n).exp := by
    rw [missingExp, BitVec.add_comm]
    exact BitVec.sub_add_cancel _ _
  obtain ⟨stats, m, hloop, hgreatest, hstats⟩ :=
    levelLoop_spec (t ch.chClass) (t ch.chClass n).exp ch.stats hlt
  have hm : m = n := hgreatest.unique (climbs_to hlevel hordered hgap)
  rw [hm] at hloop hstats
  refine ⟨stats, ?_, hstats⟩
  rw [clientGiveExp, if_neg hversion]
  dsimp only [blueBurst]
  rw [if_neg hmax, hsum, hloop]
  rfl

/-- The entries of a table are bytes, so that no stat gains a multiple of 2^16 but 0. -/
theorem gained_lt (levels : Fin 200 → LevelEntry) (k : Stat) (s m : ℕ) :
    gained levels k s m < 2 ^ 16 := by
  have hle : gained levels k s m ≤ ∑ _i : Fin 200, 255 := by
    refine (Finset.sum_le_sum_of_subset (Finset.filter_subset _ _)).trans ?_
    refine Finset.sum_le_sum fun i _ => ?_
    have hbyte := ((levels i).stats k).isLt
    omega
  rw [Finset.sum_const, Finset.card_univ, Fintype.card_fin, smul_eq_mul] at hle
  omega

theorem gained_eq_zero_iff (levels : Fin 200 → LevelEntry) (k : Stat) (s m : ℕ) :
    BitVec.ofNat 16 (gained levels k s m) = 0 ↔
      ∀ i : Fin 200, s < i → (i : ℕ) ≤ m → (levels i).stats k = 0 := by
  have hnat : BitVec.ofNat 16 (gained levels k s m) = 0 ↔ gained levels k s m = 0 := by
    have hlt := gained_lt levels k s m
    constructor
    · intro h
      have hmod := congrArg BitVec.toNat h
      rwa [BitVec.toNat_ofNat, Nat.mod_eq_of_lt hlt] at hmod
    · intro h
      rw [h]
      rfl
  rw [hnat, gained, Finset.sum_eq_zero_iff]
  constructor
  · intro hall i hs hm
    exact BitVec.eq_of_toNat_eq (hall i (Finset.mem_filter.mpr ⟨Finset.mem_univ i, hs, hm⟩))
  · intro hall i hi
    obtain ⟨-, hs, hm⟩ := Finset.mem_filter.mp hi
    rw [hall i hs hm]
    rfl

/-- Levels given for free are as earned exactly when those levels raise no stat. -/
theorem levelsAsEarned_iff (hlevel : ch.level.toNat < n) (hordered : Ordered t)
    (hgap : ∀ h : (n : ℕ) + 1 < 200,
      (t ch.chClass n).exp.toNat < (t ch.chClass ⟨n + 1, h⟩).exp.toNat) :
    LevelsAsEarned t ch n ↔
      ∀ i : Fin 200, ch.level.toNat < i → i ≤ n → ∀ k, (t ch.chClass i).stats k = 0 := by
  obtain ⟨stats, hexp, hstats⟩ := clientGiveExp_missing hlevel hordered hgap
  have hsame (k : Stat) : stats k = ch.stats k ↔
      BitVec.ofNat 16 (gained (t ch.chClass) k ch.level.toNat n) = 0 := by
    rw [hstats k]
    constructor
    · intro h
      bv_omega
    · intro h
      bv_omega
  have hearned : LevelsAsEarned t ch n ↔ ∀ k, stats k = ch.stats k := by
    rw [LevelsAsEarned, clientGiveLevel_eq hlevel, hexp]
    constructor
    · rintro ⟨c, hc, hc'⟩ k
      have hchar := Option.some.inj (congrArg ExpClient.bbPl (Option.some.inj (hc.trans hc'.symm)))
      exact (congrFun (congrArg Character.stats hchar) k).symm
    · intro hall
      obtain rfl : stats = ch.stats := funext hall
      exact ⟨_, rfl, rfl⟩
  rw [hearned]
  constructor
  · intro hall i hs hm k
    exact (gained_eq_zero_iff _ k _ _).mp ((hsame k).mp (hall k)) i hs hm
  · intro hall k
    exact (hsame k).mpr ((gained_eq_zero_iff _ k _ _).mpr fun i hs hm => hall i hs hm k)

end FreeLevels

/-- A table whose thresholds are the levels themselves. -/
def plainLevels (_ : Fin 12) (i : Fin 200) : LevelEntry where
  stats _ := 1
  exp := BitVec.ofNat 32 i

theorem exp_plainLevels (cl : Fin 12) (i : Fin 200) : (plainLevels cl i).exp.toNat = i :=
  toNat_level i

theorem ordered_plainLevels : Ordered plainLevels := by
  intro cl i j hij
  dsimp only
  rw [exp_plainLevels, exp_plainLevels]
  exact hij

theorem levelsAsEarned_iff_newcomer :
    LevelsAsEarned plainLevels newcomer 2 ↔
      ∀ i : Fin 200, newcomer.level.toNat < i → i ≤ 2 →
        ∀ k, (plainLevels newcomer.chClass i).stats k = 0 :=
  levelsAsEarned_iff (by decide) ordered_plainLevels (by decide)

/-- The first level for free does not come with its stats. -/
theorem not_levelsAsEarned : ¬∀ (t : LevelTable) (ch : Character) (n : Fin 200),
    ch.level.toNat < n → Ordered t →
    (∀ h : (n : ℕ) + 1 < 200,
      (t ch.chClass n).exp.toNat < (t ch.chClass ⟨n + 1, h⟩).exp.toNat) →
    LevelsAsEarned t ch n := by
  intro h
  obtain ⟨c, hlevel, hexp⟩ :=
    h plainLevels newcomer 1 (by decide) ordered_plainLevels (by decide)
  have hmissing : missingExp plainLevels newcomer 1 = 1 := by decide
  have hearned : clientGiveExp plainLevels (blueBurst newcomer) 1 =
      some (0, blueBurst { newcomer with stats := fun _ => 11, level := 1, exp := 1 }) := by
    simp [clientGiveExp, blueBurst, newcomer, levelLoop, levelEntry, plainLevels]
    rfl
  rw [hmissing, hearned] at hexp
  rw [clientGiveLevel_eq (by decide)] at hlevel
  have hchar := Option.some.inj
    (congrArg ExpClient.bbPl (Option.some.inj (hlevel.trans hexp.symm)))
  exact absurd (congrFun (congrArg Character.stats hchar) .atp) (by decide)

end ShipServer.LevelUps
