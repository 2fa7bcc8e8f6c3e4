import ShipServer.CensorAgreement
import ShipServer.WordReads

set_option autoImplicit false

namespace ShipServer.WordMemory

open TracedReads Probe WordCheck
open WordCensor (censorChar Sharp HasLetter Search Text)

/-- A machine that has read nothing but what it may read, with the text in its memory. -/
structure Good (lists : Lists) (base : ℕ) (c : Machine) (wstr : List WChar) : Prop where
  words : HoldsWords lists c.mem
  shows : Shows c.mem base wstr
  inside : ∀ a ∈ c.reads, Inside lists (base + wstr.length) a
  pos : ∀ x ∈ wstr, 0 < x

section Turns

variable {letter : WChar → WChar → Bool} {lists : Lists} {east : Bool} {base : ℕ} {c : Machine}
  {wstr : List WChar}

theorem Good.run {α : Type} {p : Probe Addr WChar α} (h : Good lists base c wstr)
    (hp : Within c.mem (Inside lists (base + wstr.length)) p) :
    Good lists base (c.run p).2 wstr where
  words := h.words
  shows := h.shows
  inside a ha := (List.mem_append.mp ha).elim (h.inside a) (hp a)
  pos := h.pos

theorem good_censorLetter {t : Text} (h : Good lists base c t.wstr) (skip : ℕ) {j k : ℕ}
    (hk : j + k ≤ t.wstr.length) :
    Good lists base (censorLetter skip (base + j) k c) (WordCensor.writeAt skip j k t).wstr := by
  have hfaded : WordCensor.Faded t.wstr (WordCensor.writeAt skip j k t).wstr :=
    WordCensor.faded_overwrite skip j 1 k t
  have hplace : base + j + k = base + (j + k) := Nat.add_assoc _ _ _
  have hread := h.shows (j + k) hk
  have hreads : ∀ a ∈ c.reads ++ [.wstr (base + (j + k))],
      Inside lists (base + (WordCensor.writeAt skip j k t).wstr.length) a := by
    intro a ha
    rw [hfaded.length]
    rcases List.mem_append.mp ha with hold | hnew
    · exact h.inside a hold
    · rw [List.mem_singleton.mp hnew]
      exact Nat.add_le_add_left hk base
  rw [censorLetter, hplace, hread]
  by_cases hx : t.wstr.getD (j + k) 0 ≠ 0 ∧ t.wstr.getD (j + k) 0 ≠ space
  · rw [if_pos hx]
    refine ⟨?_, ?_, hreads, hfaded.pos h.pos⟩
    · intro e i cells hcells p hp
      have hne : Addr.word e i p ≠ .wstr (base + (j + k)) := by
        intro heq
        cases heq
      dsimp only
      rw [Function.update_of_ne hne]
      exact h.words e i cells hcells p hp
    · intro i hi
      rw [hfaded.length] at hi
      dsimp only
      rw [WordCensor.getD_writeAt, Function.update_apply]
      by_cases hi' : j + k = i
      · subst hi'
        rw [if_pos rfl, if_pos ⟨rfl, hx⟩]
      · have hne : Addr.wstr (base + i) ≠ .wstr (base + (j + k)) := by
          intro heq
          have := Addr.wstr.inj heq
          omega
        rw [if_neg hne, if_neg fun h' => hi' h'.1]
        exact h.shows i hi
  · rw [if_neg hx]
    refine ⟨h.words, fun i hi => ?_, hreads, hfaded.pos h.pos⟩
    rw [hfaded.length] at hi
    rw [WordCensor.getD_writeAt, if_neg]
    · exact h.shows i hi
    · rintro ⟨rfl, h'⟩
      exact hx h'

theorem good_censorLetters {t : Text} (h : Good lists base c t.wstr) (skip : ℕ) {j n k : ℕ}
    (hk : j + k + n ≤ t.wstr.length + 1) :
    Good lists base (censorLetters skip (base + j) n k c)
      (WordCensor.overwrite skip j n k t).wstr := by
  induction n generalizing k c t with
  | zero => exact h
  | succ n ih =>
    have hlen : (WordCensor.writeAt skip j k t).wstr.length = t.wstr.length :=
      (WordCensor.faded_overwrite skip j 1 k t).length
    refine ih (good_censorLetter h skip (by omega)) ?_
    rw [hlen]
    omega

theorem nextPlace_eq {s : Look} {s' : Search} (hlen : s.len2 = s'.len2) {x : WChar}
    (hx : x = space ↔ s'.ends = true) (j : ℕ) : nextPlace s j x = s'.next j := by
  rw [nextPlace, WordCensor.Search.next, hlen]
  exact if_congr hx rfl rfl

/-- A run of the list model is a run of the machine that stays inside. -/
theorem good_loop (hspace : KeepsSpace letter) (hstop : Stops letter) {words : List (List WChar)}
    (hwords : Spelled lists east 0 (lists east) words) (hletter : ∀ word ∈ words, HasLetter word)
    {fuel j : ℕ} {s : Look} {s' s₁' : Search} {t t₁ : Text} (hs : Same lists s s')
    (hc : Good lists base c t.wstr) (hfresh : words = [] → s'.matched = false)
    (hrun : WordCensor.censorLoop letter words t.wstr.length fuel j s' t = some (s₁', t₁)) :
    ∃ s₁ c₁, censorLoop letter east (lists east) base t.wstr.length fuel j s c = some (s₁, c₁) ∧
      Same lists s₁ s₁' ∧ Good lists base c₁ t₁.wstr := by
  induction fuel generalizing j s s' c t with
  | zero => cases hrun
  | succ fuel ih =>
    rw [WordCensor.censorLoop] at hrun
    rw [censorLoop]
    by_cases hj : j < t.wstr.length
    · have hnul : c.mem (.wstr (base + t.wstr.length)) = 0 := by
        rw [hc.shows _ le_rfl]
        exact List.getD_eq_default _ _ le_rfl
      have hlook := @same_lookWords letter lists c.mem east 0 _ words hwords hc.words hletter base j
        t.wstr hc.shows hj.le s s' hs
      have hwithin := @within_lookWords letter lists c.mem east 0 hstop _ _ hwords hc.words base _
        t.wstr.length j hnul hj.le s
      have hgood := hc.run hwithin
      have hcases := @WordCensor.search_cases letter t.wstr j words s'
      rw [if_pos hj] at hrun ⊢
      generalize hr : c.run (lookWords letter east base t.wstr.length j 0 (lists east) s) = r
        at hgood ⊢
      obtain ⟨look, c'⟩ := r
      have hfirst := congrArg Prod.fst hr
      have hsame : Same lists look (WordCensor.search letter t.wstr j words s') := by
        rw [← show _ = look from hfirst]
        exact hlook
      have hfresh' : words = [] → (WordCensor.search letter t.wstr j words s').matched = false := by
        rintro rfl
        exact hfresh rfl
      dsimp only at hgood hrun ⊢
      by_cases hm : (WordCensor.search letter t.wstr j words s').matched = true
      · obtain ⟨hlen2, hskip, hin, hends⟩ := hsame.found (hsame.matched.trans hm)
        rw [if_pos hm] at hrun
        rw [if_pos (hsame.matched.trans hm)]
        have hbound : j + 0 + look.len2 ≤ t.wstr.length + 1 := by
          rcases hcases with ⟨hnil, heq⟩ | ⟨word, _, hyes, heq⟩ | ⟨_, hno, _⟩
          · rw [heq, hfresh hnil] at hm
            cases hm
          · rw [hlen2, heq]
            exact ((WordCensor.matchedAt_padded hspace hc.pos word hj.le).mp hyes).1
          · rw [hno] at hm
            cases hm
        have hcensored := good_censorLetters hgood look.skip hbound
        have hlast := hcensored.run (within_cell (hin _))
        have hx := hends _ hcensored.words
        have hlen := (WordCensor.faded_overwrite look.skip j look.len2 0 t).length
        rw [← hlen2, ← hskip] at hrun
        have hnext := nextPlace_eq hlen2 hx j
        have hrest := ih (t := WordCensor.overwrite look.skip j look.len2 0 t) hsame hlast hfresh'
          (by rw [hlen]; exact hrun)
        rw [hlen, ← hnext] at hrest
        exact hrest
      · have hno : (WordCensor.search letter t.wstr j words s').matched = false :=
          Bool.eq_false_iff.mpr hm
        rw [if_neg hm] at hrun
        rw [if_neg (by rw [hsame.matched]; exact hm)]
        exact ih hsame hgood hfresh' hrun
    · rw [if_neg hj] at hrun ⊢
      cases hrun
      exact ⟨s, c, rfl, hs, hc⟩

end Turns

section Strings

variable {lists : Lists} {mem : Addr → WChar} {str : List WChar}

/-- The length of the marker. -/
def baseOf (str : List WChar) : ℕ := if marked str then 2 else 0

theorem baseOf_le (str : List WChar) : baseOf str ≤ str.length := by
  rw [baseOf]
  split
  · exact WordCensor.marked_length ‹_›
  · exact Nat.zero_le _

theorem stripped_eq (str : List WChar) : stripped str = str.drop (baseOf str) := by
  rw [stripped, baseOf]
  split <;> rfl

theorem length_stripped (str : List WChar) : baseOf str + (stripped str).length = str.length := by
  have hle := baseOf_le str
  rw [stripped_eq, List.length_drop]
  omega

theorem shows_stripped (h : Shows mem 0 str) : Shows mem (baseOf str) (stripped str) := by
  intro k hk
  have hlen := length_stripped str
  have hat := h (baseOf str + k) (by omega)
  rw [Nat.zero_add] at hat
  rw [hat, stripped_eq, List.getD_eq_getElem?_getD, List.getD_eq_getElem?_getD, List.getElem?_drop]

/-- The marker is seen when the string has at least as many bytes as characters. -/
theorem result_markerLength (h : Shows mem 0 str) {size : ℕ} (hsize : str.length ≤ size) :
    (markerLength size).result mem = baseOf str := by
  have hat {k : ℕ} (hk : k ≤ str.length) : mem (.wstr k) = str.getD k 0 := by
    have hk' := h k hk
    rwa [Nat.zero_add] at hk'
  have htab {k : ℕ} {c : WChar} (hc : c ≠ 0) (hk : str.getD k 0 = c) : k < str.length :=
    WordCensor.lt_of_getD (by rw [hk]; exact hc)
  rw [markerLength, baseOf, marked, result_ite, result_bind, result_cell, hat (Nat.zero_le _),
    result_ite, result_bind, result_cell, result_pure, result_pure]
  by_cases hfirst : str.getD 0 0 = tab
  · have hone : 1 ≤ str.length := htab (by decide) hfirst
    rw [if_pos hfirst, hat hone, hfirst, beq_self_eq_true, Bool.and_true]
    by_cases hsecond : str.getD 1 0 = 74 ∨ str.getD 1 0 = 69
    · have htwo : 2 ≤ str.length := by
        rcases hsecond with h1 | h1
        · exact htab (by decide) h1
        · exact htab (by decide) h1
      have hbool : (str.getD 1 0 == 74 || str.getD 1 0 == 69) = true := by
        rw [Bool.or_eq_true, beq_iff_eq, beq_iff_eq]
        exact hsecond
      rw [if_pos (htwo.trans hsize), if_pos hsecond, hbool, decide_eq_true htwo]
      rfl
    · have hbool : (str.getD 1 0 == 74 || str.getD 1 0 == 69) = false := by
        rw [Bool.eq_false_iff, ne_eq, Bool.or_eq_true, beq_iff_eq, beq_iff_eq]
        exact hsecond
      rw [if_neg hsecond, hbool, Bool.and_false, ite_self]
      rfl
  · rw [if_neg hfirst, beq_false_of_ne hfirst, Bool.and_false, Bool.false_and, ite_self]
    rfl

theorem within_markerLength (h : Shows mem 0 str) (size : ℕ) :
    Within mem (Inside lists str.length) (markerLength size) := by
  refine Within.ite (fun _ => ?_) fun _ => within_pure _
  refine Within.step (Nat.zero_le str.length) (Within.ite (fun htab => ?_) fun _ => within_pure _)
  have hfirst := h 0 (Nat.zero_le _)
  rw [Nat.add_zero, htab] at hfirst
  have hone : 0 < str.length := WordCensor.lt_of_getD (by rw [← hfirst]; decide)
  exact Within.step hone (within_pure _)

theorem within_checkPlaces {letter : WChar → WChar → Bool} (hstop : Stops letter) {east : Bool}
    {words : List (List WChar)} (hwords : Spelled lists east 0 (lists east) words)
    (hm : HoldsWords lists mem) {base e len : ℕ} (hend : mem (.wstr (base + e)) = 0) {n j : ℕ}
    (hj : j + n ≤ e + 1) :
    Within mem (Inside lists (base + e)) (checkPlaces letter east base len (lists east) n j) := by
  induction n generalizing j with
  | zero => exact within_pure _
  | succ n ih =>
    refine (within_lookWords hstop hwords hm hend (by omega) _).bind ?_
    exact Within.ite (fun _ => within_pure _) fun _ => ih (by omega)

/-- The check reads only the words and the string, when the string has at most one byte more than
characters. -/
theorem within_check {data : Smutdata} (hwest : Spelled lists false 0 (lists false) data.west)
    (heast : Spelled lists true 0 (lists true) data.east) (hm : HoldsWords lists mem)
    (hshows : Shows mem 0 str) {bytes : ℕ} (hlow : str.length ≤ bytes)
    (hhigh : bytes ≤ str.length + 1) (which : BitVec 32) :
    Within mem (Inside lists str.length) (smutdataCheckString (some lists) bytes which) := by
  have hlen := length_stripped str
  have hend : mem (.wstr (baseOf str + (stripped str).length)) = 0 := by
    rw [shows_stripped hshows _ le_rfl]
    exact List.getD_eq_default _ _ le_rfl
  have hlist (on : Prop) [Decidable on] {letter : WChar → WChar → Bool} (hstop : Stops letter)
      (east : Bool) {words : List (List WChar)}
      (hwords : Spelled lists east 0 (lists east) words) :
      Within mem (Inside lists str.length)
        (checkList on letter east (baseOf str) (bytes - baseOf str) (lists east)) := by
    refine Within.ite (fun _ => ?_) fun _ => within_pure _
    rw [← hlen]
    exact within_checkPlaces hstop hwords hm hend (by omega)
  rw [smutdataCheckString]
  refine Within.ite (fun _ => within_pure _) fun _ => ?_
  refine (within_markerLength hshows bytes).bind ?_
  rw [result_markerLength hshows hlow]
  refine (hlist _ stops_west false hwest).bind (Within.ite (fun _ => within_pure _) fun _ => ?_)
  exact (hlist _ stops_east true heast).bind (within_pure _)

theorem good_list {letter : WChar → WChar → Bool} (on : Prop) [Decidable on]
    (hspace : KeepsSpace letter) (hstop : Stops letter) {east : Bool}
    {words : List (List WChar)} (hwords : Spelled lists east 0 (lists east) words)
    (hletter : ∀ word ∈ words, HasLetter word) {base fuel : ℕ} {s : Look} {s' s₁' : Search}
    {c : Machine} {t t₁ : Text} (hs : Same lists s s') (hc : Good lists base c t.wstr)
    (hfresh : on → words = [] → s'.matched = false)
    (hrun : WordCensor.censorList on letter words t.wstr.length fuel s' t = some (s₁', t₁)) :
    ∃ s₁ c₁, censorList on letter east (lists east) base t.wstr.length fuel s c = some (s₁, c₁) ∧
      Same lists s₁ s₁' ∧ Good lists base c₁ t₁.wstr := by
  rw [WordCensor.censorList] at hrun
  rw [censorList]
  by_cases hon : on
  · rw [if_pos hon] at hrun ⊢
    exact good_loop hspace hstop hwords hletter hs hc (hfresh hon) hrun
  · rw [if_neg hon] at hrun ⊢
    cases hrun
    exact ⟨s, c, rfl, hs, hc⟩

theorem inside_readOut {c : Machine} {chars : ℕ} (h : ∀ a ∈ c.reads, Inside lists chars a) :
    ∀ a ∈ (readOut chars c).reads, Inside lists chars a := by
  have hwithin : Within c.mem (Inside lists chars) (wcslen .wstr chars 0) :=
    within_wcslen (Nat.zero_le _) le_rfl (fun h => absurd rfl h) fun k hk => hk
  intro a ha
  rcases List.mem_append.mp ha with ha | ha
  · rcases List.mem_append.mp ha with ha | ha
    · exact h a ha
    · exact hwithin a ha
  · exact hwithin a ha

/-- The censor of a string that is converted to its end comes to its end, and reads only the words
and the string. -/
theorem censor_inside {data : Smutdata} (hwest : Spelled lists false 0 (lists false) data.west)
    (heast : Spelled lists true 0 (lists true) data.east)
    (hletter : ∀ word ∈ data.west ++ data.east, HasLetter word) (hm : HoldsWords lists mem)
    (hshows : Shows mem 0 str) (hpos : ∀ c ∈ str, 0 < c) {which : BitVec 32}
    (hending : which &&& smutdataWest ≠ 0 → which &&& smutdataEast ≠ 0 → data.east = [] →
      ¬WordCensor.Reaches westLetter data.west (stripped str)) :
    ∃ n, ∀ fuel, n ≤ fuel → ∃ c,
      smutdataCensorString fuel (some lists) ⟨str, true⟩ which mem = some c ∧
        ∀ a ∈ c.reads, Inside lists str.length a := by
  have hlen := length_stripped str
  by_cases hboth : which &&& smutdataBoth = 0
  · refine ⟨0, fun fuel _ => ⟨readOut str.length ⟨mem, []⟩, ?_, ?_⟩⟩
    · rw [smutdataCensorString, if_pos hboth]
    · exact inside_readOut fun a ha => absurd ha List.not_mem_nil
  · have hposT : ∀ c ∈ stripped str, 0 < c := fun c hc => hpos c (mem_stripped hc)
    have hwestletter : ∀ word ∈ data.west, HasLetter word :=
      fun word hword => hletter word (List.mem_append_left _ hword)
    have heastletter : ∀ word ∈ data.east, HasLetter word :=
      fun word hword => hletter word (List.mem_append_right _ hword)
    obtain ⟨s₁, s₂, t₁, t₂, h⟩ := WordCensor.both_staged hletter hposT which
    have hlen₁ := h.first.faded.length
    have hlen₂ := h.second.faded.length
    have hbegin : Good lists (baseOf str)
        (Machine.run (markerLength str.length) ⟨mem, []⟩).2 (stripped str) := by
      refine Good.run ⟨hm, shows_stripped hshows, fun a ha => absurd ha List.not_mem_nil, hposT⟩ ?_
      rw [hlen]
      exact within_markerLength hshows _
    have hsize : str.length - baseOf str = (stripped str).length := by omega
    refine ⟨(stripped str).length + 1, fun fuel hfuel => ?_⟩
    obtain ⟨look₁, c₁, heq₁, hsame₁, hgood₁⟩ := @good_list lists westLetter _ _ keepsSpace_west
      stops_west false _ hwest hwestletter (baseOf str) fuel ⟨false, 0, 0, .outside 0⟩
      ⟨false, [], 0⟩ s₁ _ ⟨stripped str, []⟩ t₁ ⟨rfl, fun h => absurd h Bool.false_ne_true⟩ hbegin
      (fun _ _ => rfl) (h.westRun fuel hfuel)
    obtain ⟨look₂, c₂, heq₂, _, hgood₂⟩ := @good_list lists eastLetter _ _ keepsSpace_east
      stops_east true _ heast heastletter (baseOf str) fuel look₁ s₁ s₂ c₁ t₁ t₂ hsame₁ hgood₁
      (h.fresh hending) (by rw [hlen₁]; exact h.eastRun fuel hfuel)
    refine ⟨readOut str.length c₂, ?_, inside_readOut ?_⟩
    · have hmarker : Machine.run (markerLength str.length) ⟨mem, []⟩ =
          (baseOf str, (Machine.run (markerLength str.length) ⟨mem, []⟩).2) :=
        Prod.ext (result_markerLength hshows le_rfl) rfl
      rw [hlen₁] at heq₂
      rw [smutdataCensorString, if_neg hboth]
      dsimp only
      rw [if_pos rfl, hmarker]
      dsimp only
      rw [hsize, heq₁]
      dsimp only [Option.bind_eq_bind, Option.bind_some]
      rw [heq₂]
      rfl
    · have hinside := hgood₂.inside
      rwa [hlen₂, hlen₁, hlen] at hinside

end Strings

end ShipServer.WordMemory
