import ShipServer.MapDrops

set_option autoImplicit false

namespace ShipServer.SemiRares

open Versions DropItems DropGenerators MapDrops

/-- The index of an item that may have stars. -/
def itemIndex (pmt : Pmt) (code : BitVec 32) : Option (BitVec 32) :=
  if part code 0 = 0 then pmtLookupWeapon pmt code
  else if part code 0 = 1 ∧ (part code 1 = 1 ∨ part code 1 = 2) then
    (pmtLookupGuard pmt code).map PmtGuard.index
  else if part code 0 = 1 ∧ part code 1 = 3 then pmtLookupUnit pmt code
  else none

/-- The star rating of an item that the loaded tables have. -/
def rating (pmt : Pmt) (code : BitVec 32) : Option (BitVec 8) :=
  (itemIndex pmt code).bind fun i =>
    if i - pmt.weaponLowest < pmt.starMax then some (pmt.starTable (i - pmt.weaponLowest)) else none

/-- The item belongs to the byte behind the table, which a lookup reads as well. -/
def Behind (pmt : Pmt) (code : BitVec 32) : Prop :=
  ∃ i, itemIndex pmt code = some i ∧ i - pmt.weaponLowest = pmt.starMax

def SemiRare (pmt : Pmt) (code : BitVec 32) : Prop :=
  ∃ stars, rating pmt code = some stars ∧ 9 ≤ stars

/-- The tables of a generation. -/
def tables (env : DropEnv) : Family → Pmt
  | .v2 => env.v2Pmt
  | .gc => env.gcPmt
  | .bb => env.bbPmt

/-- The versions of games that a generation's function is set up for. -/
def IsFamily : Family → ClientVersion → Prop
  | .v2, v => v = .dcv1 ∨ v = .dcv2 ∨ v = .pc
  | .gc, v => v = .gc ∨ v = .xbox
  | .bb, v => v = .bb

/-- The policy that a request falls under, if anything may drop. -/
def policyOf (env : DropEnv) (l : DropLobby) (r : DropInput) : Family → Option DropPolicy
  | .v2 =>
    if r.ptIndex = 0x30 then v2BoxPolicy env l
    else v2EnemyPolicy env l r.req.toNat r.ptIndex.toNat
  | .gc | .bb => some (v3Policy env l)

/-- The last checks before a generation's item is sent. -/
def sender (env : DropEnv) (l : DropLobby) (r : DropInput) :
    Family → ItemWords → Bool → Option ItemWords
  | .v2 | .gc => checkAndSend env l r.version
  | .bb => checkAndSendBb env

/-- The list of limits of the game, if it has one and looks at it, lets the item through. -/
def Legit (l : DropLobby) (r : DropInput) (it : ItemWords) : Family → Prop
  | .v2 | .gc => ∀ check v, l.limits = some check → itemVersion r.version = some v →
    check v it = true
  | .bb => True

theorem pmtLookupStars_eq (pmt : Pmt) (code : BitVec 32) :
    pmtLookupStars pmt code = starsOf pmt (itemIndex pmt code) := by
  unfold pmtLookupStars itemIndex
  by_cases hdata : pmt.haveData = false
  · rw [if_pos hdata]
    unfold pmtLookupWeapon pmtLookupGuard pmtLookupUnit
    simp only [hdata, if_true]
    split_ifs <;> rfl
  · rw [if_neg hdata]
    split_ifs <;> rfl

/-- What a lookup finds: the rating of the item, the byte behind the table, or nothing. -/
theorem lookup_cases (pmt : Pmt) (code : BitVec 32) :
    (∃ stars, rating pmt code = some stars ∧ ¬Behind pmt code ∧
      pmtLookupStars pmt code = stars) ∨
    (rating pmt code = none ∧ Behind pmt code ∧
      pmtLookupStars pmt code = pmt.starTable pmt.starMax) ∨
    (rating pmt code = none ∧ ¬Behind pmt code ∧ pmtLookupStars pmt code = noStars) := by
  rw [pmtLookupStars_eq]
  unfold rating Behind
  cases hindex : itemIndex pmt code with
  | none =>
    refine Or.inr (Or.inr ⟨rfl, ?_, rfl⟩)
    rintro ⟨i, hi, -⟩
    cases hi
  | some i =>
    have hbehind : (∃ j, some i = some j ∧ j - pmt.weaponLowest = pmt.starMax) ↔
        i - pmt.weaponLowest = pmt.starMax := by
      constructor
      · rintro ⟨j, hj, heq⟩
        cases hj
        exact heq
      · intro heq
        exact ⟨i, rfl, heq⟩
    rw [hbehind, Option.bind_some, starsOf]
    generalize i - pmt.weaponLowest = offset
    by_cases hlt : offset < pmt.starMax
    · have hne : offset ≠ pmt.starMax := by bv_omega
      have hle : ¬pmt.starMax < offset := by bv_omega
      left
      rw [if_pos hlt, if_neg hle]
      exact ⟨_, rfl, hne, rfl⟩
    · right
      rw [if_neg hlt]
      by_cases heq : offset = pmt.starMax
      · have hle : ¬pmt.starMax < offset := by bv_omega
        rw [if_neg hle, heq]
        exact Or.inl ⟨rfl, rfl, rfl⟩
      · have hgt : pmt.starMax < offset := by bv_omega
        rw [if_pos hgt]
        exact Or.inr ⟨rfl, heq, rfl⟩

/-- A lookup tells a generation before the last whether an item is semi-rare: neither is the rating
the one that stands for none, nor does the byte behind the table look like a high one. -/
def Told (pmt : Pmt) (code : BitVec 32) : Prop :=
  rating pmt code ≠ some noStars ∧
    (Behind pmt code → pmt.starTable pmt.starMax = noStars ∨ pmt.starTable pmt.starMax < 9)

/-- The same for the last generation, which takes no rating for a high one. -/
def ToldBb (pmt : Pmt) (code : BitVec 32) : Prop :=
  rating pmt code ≠ none ∨ Behind pmt code ∧ pmt.starTable pmt.starMax < 9

theorem semiRare_some {pmt : Pmt} {code : BitVec 32} {stars : BitVec 8}
    (h : rating pmt code = some stars) : SemiRare pmt code ↔ 9 ≤ stars := by
  unfold SemiRare
  rw [h]
  constructor
  · rintro ⟨_, ⟨⟩, hstars⟩
    exact hstars
  · intro hstars
    exact ⟨stars, rfl, hstars⟩

theorem semiRare_none {pmt : Pmt} {code : BitVec 32} (h : rating pmt code = none) :
    ¬SemiRare pmt code := by
  rintro ⟨stars, hstars, -⟩
  rw [h] at hstars
  cases hstars

theorem told_iff (pmt : Pmt) (code : BitVec 32) :
    (pmtLookupStars pmt code ≠ noStars ∧ 9 ≤ pmtLookupStars pmt code ↔ SemiRare pmt code) ↔
      Told pmt code := by
  unfold Told
  rcases lookup_cases pmt code with ⟨stars, hrating, hin, heq⟩ | ⟨hrating, hin, heq⟩ |
    ⟨hrating, hin, heq⟩
  · rw [heq, semiRare_some hrating, hrating]
    constructor
    · intro hiff
      refine ⟨?_, fun hbehind => absurd hbehind hin⟩
      rintro ⟨⟩
      exact (hiff.mpr (by decide)).1 rfl
    · rintro ⟨hstars, -⟩
      exact ⟨And.right, fun hhigh => ⟨fun hno => hstars (congrArg some hno), hhigh⟩⟩
  · have hrare := semiRare_none hrating
    rw [heq, hrating, iff_false_right hrare, not_and_or, not_not, BitVec.not_le]
    exact ⟨fun hbyte => ⟨(fun h => nomatch h), fun _ => hbyte⟩, fun htold => htold.2 hin⟩
  · have hrare := semiRare_none hrating
    rw [heq, hrating, iff_false_right hrare]
    refine iff_of_true (fun hhigh => hhigh.1 rfl) ⟨(fun h => nomatch h), fun hbehind => ?_⟩
    exact absurd hbehind hin

theorem toldBb_iff (pmt : Pmt) (code : BitVec 32) :
    (9 ≤ pmtLookupStars pmt code ↔ SemiRare pmt code) ↔ ToldBb pmt code := by
  unfold ToldBb
  rcases lookup_cases pmt code with ⟨stars, hrating, hin, heq⟩ | ⟨hrating, hin, heq⟩ |
    ⟨hrating, hin, heq⟩
  · rw [heq, semiRare_some hrating, hrating]
    exact iff_of_true Iff.rfl (Or.inl fun h => nomatch h)
  · have hrare := semiRare_none hrating
    rw [heq, iff_false_right hrare, BitVec.not_le]
    constructor
    · exact fun hbyte => Or.inr ⟨hin, hbyte⟩
    · rintro (hrated | ⟨-, hbyte⟩)
      · exact absurd hrating hrated
      · exact hbyte
  · have hrare := semiRare_none hrating
    rw [heq, iff_false_right hrare]
    refine iff_of_false (fun hlow => hlow (by decide)) ?_
    rintro (hrated | ⟨hbehind, -⟩)
    · exact hrated hrating
    · exact hin hbehind

/-- Where the senders follow the rule, if the restriction is in force. A client of a version without
a list of limits gets past the check of the stars if the game has such a list. -/
def Follows (env : DropEnv) (l : DropLobby) (r : DropInput) (it : ItemWords) : Family → Prop
  | .v2 =>
    if l.limits.isSome = true ∧ itemVersion r.version = none then ¬SemiRare env.v2Pmt it.item0
    else Told env.v2Pmt it.item0
  | .gc =>
    if l.limits.isSome = true ∧ itemVersion r.version = none then ¬SemiRare env.gcPmt it.item0
    else Told env.gcPmt it.item0
  | .bb => ToldBb env.bbPmt it.item0

theorem held_iff {p : Prop} [Decidable p] (it : ItemWords) :
    (if p then none else some it) = none ↔ p := by
  split_ifs with h
  · exact iff_of_true rfl h
  · exact iff_of_false (fun hno => nomatch hno) h

theorem checkStars_iff {env : DropEnv} {l : DropLobby} {pmt : Pmt} {it : ItemWords} {csr : Bool}
    (hstars : restrictedStars env l it.item0 = pmtLookupStars pmt it.item0) :
    (checkStars env l it csr = none ↔ csr = true ∧ SemiRare pmt it.item0) ↔
      (csr = true → Told pmt it.item0) := by
  unfold checkStars
  rw [hstars]
  cases csr with
  | false =>
    have hlow : ¬((0 : BitVec 8) ≠ noStars ∧ 9 ≤ (0 : BitVec 8)) := by decide
    rw [if_neg Bool.false_ne_true, if_neg hlow]
    refine iff_of_true (iff_of_false (fun h => nomatch h) fun h => ?_) fun h => ?_
    · exact absurd h.1 Bool.false_ne_true
    · exact absurd h Bool.false_ne_true
  | true =>
    rw [← told_iff, if_pos rfl]
    change ((if pmtLookupStars pmt it.item0 ≠ noStars ∧ 9 ≤ pmtLookupStars pmt it.item0
      then none else some it) = none ↔ _) ↔ _
    rw [held_iff, and_iff_right rfl]
    exact ⟨fun h _ => h, fun h => h rfl⟩

/-- What `check_and_send` does for one of the first two generations. -/
theorem checkAndSend_iff {env : DropEnv} {l : DropLobby} {r : DropInput} {pmt : Pmt}
    {it : ItemWords} {csr : Bool}
    (hstars : restrictedStars env l it.item0 = pmtLookupStars pmt it.item0)
    (hlegit : ∀ check v, l.limits = some check → itemVersion r.version = some v →
      check v it = true) :
    (checkAndSend env l r.version it csr = none ↔ csr = true ∧ SemiRare pmt it.item0) ↔
      (csr = true → if l.limits.isSome = true ∧ itemVersion r.version = none
        then ¬SemiRare pmt it.item0 else Told pmt it.item0) := by
  unfold checkAndSend
  cases hlimits : l.limits with
  | none =>
    rw [if_neg fun h => nomatch h.1]
    exact checkStars_iff hstars
  | some check =>
    cases hversion : itemVersion r.version with
    | none =>
      rw [if_pos ⟨rfl, rfl⟩]
      constructor
      · intro hiff hcsr hrare
        exact nomatch hiff.mpr ⟨hcsr, hrare⟩
      · intro hcommon
        refine iff_of_false (fun h => nomatch h) ?_
        rintro ⟨hcsr, hrare⟩
        exact hcommon hcsr hrare
    | some v =>
      dsimp only
      rw [if_pos (hlegit check v hlimits hversion), if_neg fun h => nomatch h.2]
      exact checkStars_iff hstars

theorem checkAndSendBb_iff {env : DropEnv} {it : ItemWords} {csr : Bool} :
    (checkAndSendBb env it csr = none ↔ csr = true ∧ SemiRare env.bbPmt it.item0) ↔
      (csr = true → ToldBb env.bbPmt it.item0) := by
  unfold checkAndSendBb
  rw [← toldBb_iff, held_iff]
  exact and_congr_right_iff

theorem sender_iff {env : DropEnv} {l : DropLobby} {r : DropInput} {family : Family}
    {it : ItemWords} (hfamily : IsFamily family l.version) (hlegit : Legit l r it family)
    (csr : Bool) :
    (sender env l r family it csr = none ↔
      csr = true ∧ SemiRare (tables env family) it.item0) ↔
      (csr = true → Follows env l r it family) := by
  cases family with
  | v2 =>
    refine checkAndSend_iff ?_ hlegit
    unfold restrictedStars
    rcases hfamily with h | h | h <;> rw [h] <;> rfl
  | gc =>
    refine checkAndSend_iff ?_ hlegit
    unfold restrictedStars
    rcases hfamily with h | h <;> rw [h] <;> rfl
  | bb => exact checkAndSendBb_iff

/-- A drop that has been decided goes through the last checks under the policy that it came with. -/
theorem decide_sent {G : Generation} {map : GameMap} {rng : Rng} {x : MapEntry}
    {item : Gen (Option (ItemWords × DropPolicy))} {it : ItemWords}
    (h : (G.decide map rng x item).chosen = some it) :
    ∃ policy, (item.run rng).1 = some (it, policy) ∧
      (G.decide map rng x item).sent = G.send it policy.csr := by
  change (item.run rng).1.map Prod.fst = some it at h
  obtain ⟨⟨it', policy⟩, hitem, rfl⟩ := Option.map_eq_some_iff.mp h
  refine ⟨policy, hitem, ?_⟩
  change ((item.run rng).1.bind fun it => G.send it.1 it.2.csr) = _
  rw [hitem]
  rfl

theorem map_policy {policy policy' : DropPolicy} {x : Gen (Option ItemWords)} {rng : Rng}
    {it : ItemWords}
    (h : (StateT.run (m := Id) (do let item ← x; return item.map fun it => (it, policy)) rng).1 =
      some (it, policy')) : policy = policy' := by
  change ((x.run rng).1.map fun it => (it, policy)) = _ at h
  obtain ⟨it', -, heq⟩ := Option.map_eq_some_iff.mp h
  cases heq
  rfl

theorem enemyItem_policy {G : Generation} {area : ℤ} {mid ptIndex : ℕ} {rng : Rng}
    {it : ItemWords} {policy : DropPolicy}
    (h : ((G.enemyItem area mid ptIndex).run rng).1 = some (it, policy)) :
    G.enemyPolicy mid ptIndex = some policy := by
  unfold Generation.enemyItem at h
  change (StateT.run (m := Id) (if ¬rng 0 % 100 < (G.ent.enemyDar ptIndex).signExtend 32 then _
    else _) _).1 = _ at h
  by_cases hdrops : rng 0 % 100 < (G.ent.enemyDar ptIndex).signExtend 32
  · rw [if_neg (not_not.mpr hdrops)] at h
    cases hpolicy : G.enemyPolicy mid ptIndex with
    | none =>
      rw [hpolicy] at h
      cases h
    | some policy' =>
      rw [hpolicy] at h
      rw [map_policy h]
  · rw [if_pos hdrops] at h
    cases h

theorem boxItem_policy {G : Generation} {area : ℤ} {obj : GameObject} {rng : Rng}
    {it : ItemWords} {policy : DropPolicy}
    (h : ((G.boxItem area obj).run rng).1 = some (it, policy)) : G.boxPolicy = some policy := by
  unfold Generation.boxItem at h
  cases hpolicy : G.boxPolicy with
  | none =>
    rw [hpolicy] at h
    cases h
  | some policy' =>
    rw [hpolicy] at h
    rw [map_policy h]

theorem enemyDrop_sent {G : Generation} {area : ℤ} {r : DropInput} {map : GameMap} {rng : Rng}
    {it : ItemWords} (h : (G.enemyDrop area r map rng).chosen = some it) :
    ∃ policy, G.enemyPolicy r.req.toNat r.ptIndex.toNat = some policy ∧
      (G.enemyDrop area r map rng).sent = G.send it policy.csr := by
  unfold Generation.enemyDrop at h ⊢
  dsimp only at h ⊢
  split_ifs at h ⊢
  · cases h
  · cases h
  · obtain ⟨policy, hitem, hsent⟩ := decide_sent h
    exact ⟨policy, enemyItem_policy hitem, hsent⟩

theorem boxDrop_sent {G : Generation} {episode : ℤ} {r : DropInput} {map : GameMap} {rng : Rng}
    {it : ItemWords} (h : (G.boxDrop episode r map rng).chosen = some it) :
    ∃ policy, G.boxPolicy = some policy ∧
      (G.boxDrop episode r map rng).sent = G.send it policy.csr := by
  unfold Generation.boxDrop at h ⊢
  dsimp only at h ⊢
  split_ifs at h ⊢
  · cases h
  · cases h
  · cases harea : dropArea episode r.curArea with
    | none =>
      rw [harea] at h
      cases h
    | some area =>
      rw [harea] at h
      obtain ⟨policy, hitem, hsent⟩ := decide_sent h
      exact ⟨policy, boxItem_policy hitem, hsent⟩

/-- The item of a drop goes through its generation's last checks, with the restriction that the
policy for the request has. -/
theorem dropfunc_sent {family : Family} {env : DropEnv} {l : DropLobby} {r : DropInput}
    {map : GameMap} {rng : Rng} {it : ItemWords}
    (h : (dropfunc family env l r map rng).chosen = some it) :
    ∃ policy, policyOf env l r family = some policy ∧
      (dropfunc family env l r map rng).sent = sender env l r family it policy.csr := by
  cases family with
  | v2 =>
    change (ptGenerateV2Drop env l r map rng).chosen = some it at h
    change ∃ policy, _ ∧ (ptGenerateV2Drop env l r map rng).sent = _
    unfold ptGenerateV2Drop at h ⊢
    unfold policyOf
    dsimp only
    by_cases hindex : 0x33 < r.ptIndex
    · rw [if_pos hindex] at h
      cases h
    · rw [if_neg hindex] at h ⊢
      by_cases hbox : r.ptIndex = 0x30
      · unfold ptGenerateV2Boxdrop at h ⊢
        rw [if_pos hbox, if_neg (not_not.mpr hbox)] at h
        rw [if_pos hbox, if_pos hbox, if_neg (not_not.mpr hbox)]
        exact boxDrop_sent h
      · rw [if_neg hbox] at h
        rw [if_neg hbox, if_neg hbox]
        cases harea : dropArea 1 r.curArea with
        | none =>
          rw [harea] at h
          cases h
        | some area =>
          rw [harea] at h
          exact enemyDrop_sent h
  | gc =>
    change (ptGenerateGcDrop env l r map rng).chosen = some it at h
    change ∃ policy, _ ∧ (ptGenerateGcDrop env l r map rng).sent = _
    unfold ptGenerateGcDrop at h ⊢
    split_ifs at h ⊢ with hbox
    · unfold ptGenerateGcBoxdrop at h ⊢
      rw [if_neg (not_not.mpr hbox)] at h ⊢
      exact boxDrop_sent h
    · cases harea : dropArea l.episode r.curArea with
      | none =>
        rw [harea] at h
        cases h
      | some area =>
        rw [harea] at h
        exact enemyDrop_sent h
  | bb =>
    change (ptGenerateBbDrop env l r map rng).chosen = some it at h
    change ∃ policy, _ ∧ (ptGenerateBbDrop env l r map rng).sent = _
    unfold ptGenerateBbDrop at h ⊢
    split_ifs at h ⊢ with hepisode hbox
    · cases h
    · unfold ptGenerateBbBoxdrop at h ⊢
      rw [if_neg hepisode, if_neg (not_not.mpr hbox)] at h ⊢
      exact boxDrop_sent h
    · cases harea : dropArea l.episode r.curArea with
      | none =>
        rw [harea] at h
        cases h
      | some area =>
        rw [harea] at h
        exact enemyDrop_sent h

/-- An item that a server drop has chosen, and that the game's list of limits lets through, is held
back exactly if the restriction is in force and the item is semi-rare, if and only if the senders
follow the rule for it. -/
theorem semiRares_heldBack {family : Family} {env : DropEnv} {l : DropLobby} {r : DropInput}
    {map : GameMap} {rng : Rng} {it : ItemWords} (hfamily : IsFamily family l.version)
    (hchosen : (dropfunc family env l r map rng).chosen = some it)
    (hlegit : Legit l r it family) :
    ∃ policy, policyOf env l r family = some policy ∧
      (((dropfunc family env l r map rng).sent = none ↔
        policy.csr = true ∧ SemiRare (tables env family) it.item0) ↔
        (policy.csr = true → Follows env l r it family)) := by
  obtain ⟨policy, hpolicy, hsent⟩ := dropfunc_sent hchosen
  refine ⟨policy, hpolicy, ?_⟩
  rw [hsent]
  exact sender_iff hfamily hlegit policy.csr

/-- A game with a quest, on a ship that allows no semi-rare items in quests. -/
def questForest (version : ClientVersion) : DropLobby :=
  { forest with version := version, qid := 1 }

/-- The meseta of the first enemy is not held back. -/
theorem semiRares_heldBack_meseta :
    ¬(dropfunc .gc mesetaOnly (questForest .gc) (forestRequest 0) ⟨[⟨false⟩], []⟩
      fun _ => 2).sent = none := by
  have hnone : rating noPmt 4 = none := by decide
  have hcommon : ¬SemiRare noPmt 4 := semiRare_none hnone
  have hchosen : (dropfunc .gc mesetaOnly (questForest .gc) (forestRequest 0) ⟨[⟨false⟩], []⟩
      fun _ => 2).chosen = some ⟨4, 0, 0, 5⟩ := by decide
  have hfamily : IsFamily .gc (questForest .gc).version := Or.inl rfl
  have hlegit : Legit (questForest .gc) (forestRequest 0) ⟨4, 0, 0, 5⟩ .gc :=
    fun _ _ h => nomatch h
  obtain ⟨policy, -, hiff⟩ := semiRares_heldBack hfamily hchosen hlegit
  have hfollows : Follows mesetaOnly (questForest .gc) (forestRequest 0) ⟨4, 0, 0, 5⟩ .gc := by
    unfold Follows
    rw [if_neg fun h => nomatch h.1]
    constructor
    · intro hrated
      cases hnone.symm.trans hrated
    · rintro ⟨i, hi, -⟩
      cases hi
  intro hsent
  exact hcommon ((hiff.mpr fun _ => hfollows).mp hsent).2

/-- A Blue Burst game holds it back. -/
theorem semiRares_not_heldBack :
    ¬ ∀ family env l r map rng it policy, IsFamily family l.version →
      (dropfunc family env l r map rng).chosen = some it → Legit l r it family →
      policyOf env l r family = some policy →
      ((dropfunc family env l r map rng).sent = none ↔
        policy.csr = true ∧ SemiRare (tables env family) it.item0) := by
  intro h
  have hnone : rating noPmt 4 = none := by decide
  have hchosen : (dropfunc .bb mesetaOnly (questForest .bb) (forestRequest 0) ⟨[⟨false⟩], []⟩
      fun _ => 2).chosen = some ⟨4, 0, 0, 5⟩ := by decide
  have hiff := h .bb mesetaOnly (questForest .bb) (forestRequest 0) ⟨[⟨false⟩], []⟩ (fun _ => 2)
    ⟨4, 0, 0, 5⟩ ⟨false, true⟩ rfl hchosen trivial rfl
  exact semiRare_none hnone (hiff.mp (by decide)).2

end ShipServer.SemiRares
