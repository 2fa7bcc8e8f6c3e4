import ShipServer.QuestLists

set_option autoImplicit false

/-! How the quest lists of a ship are loaded, replaced and destroyed. -/

namespace ShipServer.QuestReload

open Versions QuestLists

/-- A place of `qlist`. -/
abbrev Place := ClientVersion × Lang

/-- The places in the order of the loops. -/
def places : List Place :=
  versions ×ˢ List.finRange 8

/-- A list that has been read. The number tells it from the lists read before and after it. -/
structure ReadList where
  number : ℕ
  quests : QuestList

/-- What stands at a place: `other` is memory that was never written. -/
inductive Slot where
  | empty
  | other
  | list (l : ReadList)

/-- A pointer to a quest of a list. -/
structure QuestPtr where
  list : ℕ
  quest : ℕ
  deriving DecidableEq

structure Elem where
  qid : BitVec 32
  qptr : Place → Option QuestPtr

def Elem.new (qid : BitVec 32) : Elem where
  qid := qid
  qptr _ := none

def Elem.set (e : Elem) (p : Place) (r : QuestPtr) : Elem :=
  { e with qptr := Function.update e.qptr p (some r) }

def questLookup (map : List Elem) (qid : BitVec 32) : Option Elem :=
  map.find? fun e => e.qid = qid

/-- `elem->qptr[version][language] = q` for the element that `quest_lookup` finds. -/
def setPtr (p : Place) (r : QuestPtr) (qid : BitVec 32) : List Elem → List Elem
  | [] => []
  | e :: es => if e.qid = qid then e.set p r :: es else e :: setPtr p r qid es

/-- The map while lists are mapped, and how often `quest_add` has asked for memory. -/
structure Mapping where
  elems : List Elem
  mallocs : ℕ

/-- `quest_map`, from a quest of the list on: whether it came to the end of the list, and the
map. `alloc` says which calls of `malloc` succeed. -/
def questMap (alloc : ℕ → Bool) (p : Place) (number : ℕ) :
    ℕ → List ListedQuest → Mapping → Bool × Mapping
  | _, [], m => (true, m)
  | i, q :: qs, m =>
    if (questLookup m.elems q.qid).isSome then
      questMap alloc p number (i + 1) qs
        { m with elems := setPtr p ⟨number, i⟩ q.qid m.elems }
    else if alloc m.mallocs then
      questMap alloc p number (i + 1) qs
        { elems := m.elems ++ [(Elem.new q.qid).set p ⟨number, i⟩], mallocs := m.mallocs + 1 }
    else (false, { m with mallocs := m.mallocs + 1 })

/-- What a load finds: the files that can be read, the memory, and what was on the stack where
the local `qlist` is. -/
structure Load where
  file : Place → Option QuestList
  alloc : ℕ → Bool
  stack : Place → Slot

/-- A ship's quests. The last two fields record the lists that were read and the numbers of those
that were destroyed, in order. -/
structure ShipQuests where
  qlist : Place → Slot
  qmap : List Elem
  read : List ReadList
  destroyed : List ℕ

/-- The variables of `load_quests` while it reads. -/
structure Loading where
  qlist : Place → Slot
  map : Mapping
  read : List ReadList
  destroyed : List ℕ

/-- The numbers that a place adds to the record when it is destroyed. -/
def Slot.numbers : Slot → List ℕ
  | .list l => [l.number]
  | _ => []

section Source

/- `left` is what `sylverant_quests_destroy` leaves in a list that it destroys. -/
variable (left : Slot → Slot)

/-- The body of the loop that reads. -/
def readPlace (load : Load) (t : Loading) (p : Place) : Loading :=
  match load.file p with
  | none => t
  | some quests =>
    let l : ReadList := ⟨t.read.length, quests⟩
    let mapped := questMap load.alloc p l.number 0 quests.flatten t.map
    if mapped.1 then
      { t with
        qlist := Function.update t.qlist p (.list l)
        map := mapped.2
        read := t.read ++ [l] }
    else
      { qlist := Function.update t.qlist p (left (.list l))
        map := mapped.2
        read := t.read ++ [l]
        destroyed := t.destroyed ++ [l.number] }

def ShipQuests.begin (s : ShipQuests) (load : Load) : Loading where
  qlist := load.stack
  map := { elems := [], mallocs := 0 }
  read := s.read
  destroyed := s.destroyed

/-- `load_quests`, with its result. -/
def loadQuests (s : ShipQuests) (configured : Bool) (load : Load) (initial : Bool) :
    ShipQuests × ℤ :=
  if configured then
    let t := places.foldl (readPlace left load) (s.begin load)
    let old := if initial then [] else places.flatMap fun p => (s.qlist p).numbers
    ({ qlist := t.qlist
       qmap := t.map.elems
       read := t.read
       destroyed := t.destroyed ++ old }, 0)
  else ({ s with qmap := [] }, -1)

/-- `clean_quests`. -/
def cleanQuests (s : ShipQuests) : ShipQuests where
  qlist p := left (s.qlist p)
  qmap := []
  read := s.read
  destroyed := s.destroyed ++ places.flatMap fun p => (s.qlist p).numbers

/-- `refresh_quests`, with the text that the client gets. -/
def refreshQuests (configured : Bool) (s : ShipQuests) (localGm : Bool) (load : Load) :
    ShipQuests × Option String :=
  if localGm then
    let loaded := loadQuests left s configured load false
    (loaded.1, some (if loaded.2 = 0 then "\tE\tC7Updated quests."
      else "\tE\tC7No quests configured."))
  else (s, none)

/-- The quests of a ship that has just been allocated. -/
def fresh : ShipQuests where
  qlist _ := .empty
  qmap := []
  read := []
  destroyed := []

/-- The initial load, and refreshes by clients with and without the privilege. -/
def reloads (configured : Bool) (first : Load) (rest : List (Bool × Load)) : ShipQuests :=
  rest.foldl (fun s r => (refreshQuests left configured s r.1 r.2).1)
    (loadQuests left fresh configured first true).1

end Source

/-- `qmap`'s entry for a quest. -/
def entry (map : List Elem) (qid : BitVec 32) (p : Place) : Option QuestPtr :=
  (questLookup map qid).bind fun e => e.qptr p

/-- The last quest with an id among the quests of a list, from quest `i` on. -/
def lastFrom (number i : ℕ) (quests : List ListedQuest) (qid : BitVec 32) : Option QuestPtr :=
  ((quests.zipIdx i).reverse.find? fun x => x.1.qid = qid).map fun x => ⟨number, x.2⟩

/-- The last quest with an id in the list at a place. -/
def Slot.lastQuest : Slot → BitVec 32 → Option QuestPtr
  | .list l, qid => lastFrom l.number 0 l.quests.flatten qid
  | _, _ => none

/-- What a ship's quests are to be between two loads. -/
structure ShipQuests.Sound (s : ShipQuests) : Prop where
  stored : ∀ p, s.qlist p = .empty ∨
    ∃ l, s.qlist p = .list l ∧ l ∈ s.read ∧ l.number ∉ s.destroyed
  once : (s.qmap.map Elem.qid).Nodup
  points : ∀ p qid, entry s.qmap qid p = (s.qlist p).lastQuest qid

/-- The ids of the quests in the files. -/
def Load.ids (load : Load) : Finset (BitVec 32) :=
  (places.flatMap fun p => ((load.file p).getD []).flatten.map fun q => q.qid).toFinset

/-- Every file can be read, unless the memory of its list happens to be clear, and there is memory
for every id. -/
structure Load.Complete (load : Load) : Prop where
  reads : ∀ p, load.file p = none → load.stack p = .empty
  maps : ∀ k < load.ids.card, load.alloc k = true

section Map

variable {map : List Elem} {qid : BitVec 32} {p : Place}

theorem qids_setPtr (p : Place) (r : QuestPtr) (qid : BitVec 32) (map : List Elem) :
    (setPtr p r qid map).map Elem.qid = map.map Elem.qid := by
  induction map with
  | nil => rfl
  | cons e es ih =>
    rw [setPtr]
    split_ifs
    · rfl
    · rw [List.map_cons, ih, List.map_cons]

theorem questLookup_isSome :
    (questLookup map qid).isSome = true ↔ qid ∈ map.map Elem.qid := by
  simp [questLookup]

theorem entry_cons (e : Elem) (es : List Elem) (qid : BitVec 32) (p : Place) :
    entry (e :: es) qid p = if e.qid = qid then e.qptr p else entry es qid p := by
  by_cases h : e.qid = qid
  · simp [entry, questLookup, h]
  · simp [entry, questLookup, h]

theorem Elem.set_qptr (e : Elem) (p p' : Place) (r : QuestPtr) :
    (e.set p r).qptr p' = if p' = p then some r else e.qptr p' := by
  simp [Elem.set, Function.update_apply]

theorem entry_setPtr (p : Place) (r : QuestPtr) {qid : BitVec 32} {map : List Elem}
    (h : qid ∈ map.map Elem.qid) (qid' : BitVec 32) (p' : Place) :
    entry (setPtr p r qid map) qid' p' =
      if qid = qid' ∧ p' = p then some r else entry map qid' p' := by
  induction map with
  | nil => cases h
  | cons e es ih =>
    rw [setPtr]
    by_cases he : e.qid = qid
    · rw [if_pos he, entry_cons, entry_cons, Elem.set_qptr]
      change (if e.qid = qid' then _ else _) = _
      rw [he]
      split_ifs <;> simp_all
    · have hes : qid ∈ es.map Elem.qid :=
        (List.mem_cons.mp h).resolve_left fun heq => he heq.symm
      rw [if_neg he, entry_cons, entry_cons, ih hes]
      split_ifs <;> simp_all

theorem entry_add (p : Place) (r : QuestPtr) {qid : BitVec 32} {map : List Elem}
    (h : qid ∉ map.map Elem.qid) (qid' : BitVec 32) (p' : Place) :
    entry (map ++ [(Elem.new qid).set p r]) qid' p' =
      if qid = qid' ∧ p' = p then some r else entry map qid' p' := by
  induction map with
  | nil =>
    rw [List.nil_append, entry_cons, Elem.set_qptr]
    change (if qid = qid' then _ else _) = _
    simp only [Elem.new, entry, questLookup, List.find?_nil, Option.bind_none]
    split_ifs <;> simp_all
  | cons e es ih =>
    rw [List.map_cons, List.mem_cons, not_or] at h
    rw [List.cons_append, entry_cons, entry_cons, ih h.2]
    have hne : ¬e.qid = qid := fun heq => h.1 heq.symm
    split_ifs <;> simp_all

theorem lastFrom_cons (number i : ℕ) (q : ListedQuest) (qs : List ListedQuest) (qid : BitVec 32) :
    lastFrom number i (q :: qs) qid =
      (lastFrom number (i + 1) qs qid).or (if q.qid = qid then some ⟨number, i⟩ else none) := by
  rw [lastFrom, lastFrom, List.zipIdx_cons, List.reverse_cons, List.find?_append]
  cases (qs.zipIdx (i + 1)).reverse.find? fun x => x.1.qid = qid with
  | none =>
    by_cases h : q.qid = qid
    · simp [h]
    · simp [h]
  | some x => rfl

/-- A map whose ids are among `ids`, all of them once, and each allocated once. -/
structure Mapping.Good (ids : Finset (BitVec 32)) (m : Mapping) : Prop where
  once : (m.elems.map Elem.qid).Nodup
  inside : ∀ qid ∈ m.elems.map Elem.qid, qid ∈ ids
  counted : m.mallocs = m.elems.length

theorem Mapping.Good.mallocs_lt {ids : Finset (BitVec 32)} {m : Mapping} (h : m.Good ids)
    (hin : qid ∈ ids) (hnew : qid ∉ m.elems.map Elem.qid) : m.mallocs < ids.card := by
  have hnodup : (qid :: m.elems.map Elem.qid).Nodup := List.nodup_cons.mpr ⟨hnew, h.once⟩
  have hsub : (qid :: m.elems.map Elem.qid).toFinset ⊆ ids := by
    intro x hx
    rcases List.mem_cons.mp (List.mem_toFinset.mp hx) with rfl | hrest
    · exact hin
    · exact h.inside x hrest
  have hcard := Finset.card_le_card hsub
  rw [List.toFinset_card_of_nodup hnodup, List.length_cons, List.length_map] at hcard
  rw [h.counted]
  omega

theorem Mapping.Good.add {ids : Finset (BitVec 32)} {m : Mapping} (h : m.Good ids)
    (hin : qid ∈ ids) (hnew : qid ∉ m.elems.map Elem.qid) (p : Place) (r : QuestPtr) :
    ({ elems := m.elems ++ [(Elem.new qid).set p r], mallocs := m.mallocs + 1 } :
      Mapping).Good ids := by
  have hids : (m.elems ++ [(Elem.new qid).set p r]).map Elem.qid =
      m.elems.map Elem.qid ++ [qid] := List.map_append
  refine ⟨?_, ?_, ?_⟩
  · rw [hids]
    exact List.Nodup.append h.once (List.nodup_singleton qid) (by simpa using hnew)
  · intro x hx
    rw [hids, List.mem_append, List.mem_singleton] at hx
    rcases hx with hx | rfl
    · exact h.inside x hx
    · exact hin
  · change m.mallocs + 1 = (m.elems ++ [(Elem.new qid).set p r]).length
    rw [List.length_append, h.counted]
    rfl

theorem Mapping.Good.set {ids : Finset (BitVec 32)} {m : Mapping} (h : m.Good ids) (p : Place)
    (r : QuestPtr) (qid : BitVec 32) :
    ({ m with elems := setPtr p r qid m.elems } : Mapping).Good ids := by
  refine ⟨?_, ?_, ?_⟩
  · change ((setPtr p r qid m.elems).map Elem.qid).Nodup
    rw [qids_setPtr]
    exact h.once
  · change ∀ x ∈ (setPtr p r qid m.elems).map Elem.qid, x ∈ ids
    rw [qids_setPtr]
    exact h.inside
  · have hlen := congrArg List.length (qids_setPtr p r qid m.elems)
    rw [List.length_map, List.length_map] at hlen
    exact h.counted.trans hlen.symm

/-- With memory for every id a list is mapped to its end, and its last quests are the entries. -/
theorem questMap_spec {alloc : ℕ → Bool} {ids : Finset (BitVec 32)}
    (halloc : ∀ k < ids.card, alloc k = true) (p : Place) (number i : ℕ)
    {quests : List ListedQuest} (hquests : ∀ q ∈ quests, q.qid ∈ ids) {m : Mapping}
    (hm : m.Good ids) :
    (questMap alloc p number i quests m).1 = true ∧
      (questMap alloc p number i quests m).2.Good ids ∧
      ∀ qid p', entry (questMap alloc p number i quests m).2.elems qid p' =
        if p' = p then (lastFrom number i quests qid).or (entry m.elems qid p')
        else entry m.elems qid p' := by
  induction quests generalizing i m with
  | nil =>
    refine ⟨rfl, hm, fun qid p' => ?_⟩
    change entry m.elems qid p' = if p' = p then entry m.elems qid p' else entry m.elems qid p'
    rw [ite_self]
  | cons q qs ih =>
    have hq := hquests q List.mem_cons_self
    have hqs : ∀ q' ∈ qs, q'.qid ∈ ids := fun q' h => hquests q' (List.mem_cons_of_mem q h)
    have hstep : ∀ {e e' : Option QuestPtr} (qid : BitVec 32) (p' : Place),
        e = (if q.qid = qid ∧ p' = p then some ⟨number, i⟩ else e') →
        (if p' = p then (lastFrom number (i + 1) qs qid).or e else e) =
          if p' = p then (lastFrom number i (q :: qs) qid).or e' else e' := by
      intro e e' qid p' he
      rw [he, lastFrom_cons, Option.or_assoc]
      by_cases hp : p' = p
      · by_cases hid : q.qid = qid
        · simp [hp, hid]
        · simp [hid]
      · simp [hp]
    rw [questMap]
    by_cases hfound : q.qid ∈ m.elems.map Elem.qid
    · rw [if_pos (questLookup_isSome.mpr hfound)]
      obtain ⟨hok, hgood, hentry⟩ := ih (i + 1) hqs (hm.set p ⟨number, i⟩ q.qid)
      refine ⟨hok, hgood, fun qid p' => ?_⟩
      rw [hentry]
      exact hstep qid p' (entry_setPtr p ⟨number, i⟩ hfound qid p')
    · rw [if_neg fun h => hfound (questLookup_isSome.mp h),
        if_pos (halloc _ (hm.mallocs_lt hq hfound))]
      obtain ⟨hok, hgood, hentry⟩ := ih (i + 1) hqs (hm.add hq hfound p ⟨number, i⟩)
      refine ⟨hok, hgood, fun qid p' => ?_⟩
      rw [hentry]
      exact hstep qid p' (entry_add p ⟨number, i⟩ hfound qid p')

end Map

section Loads

variable {left : Slot → Slot} {s : ShipQuests} {load : Load}

theorem mem_places (p : Place) : p ∈ places := by
  change p ∈ List.product versions (List.finRange 8)
  rw [List.pair_mem_product]
  refine ⟨?_, List.mem_finRange p.2⟩
  cases p.1 <;> decide

theorem nodup_places : places.Nodup :=
  List.Nodup.product (by decide) (List.nodup_finRange 8)

theorem mem_ids {p : Place} {quests : QuestList} (hfile : load.file p = some quests)
    {q : ListedQuest} (hq : q ∈ quests.flatten) : q.qid ∈ load.ids := by
  refine List.mem_toFinset.mpr (List.mem_flatMap.mpr ⟨p, mem_places p, ?_⟩)
  rw [hfile]
  exact List.mem_map_of_mem hq

/-- The lists that were read have their places in the order of the reads as numbers, those that
were not destroyed stand at one place each, and no other list was destroyed, or one twice. -/
structure ShipQuests.Owned (s : ShipQuests) : Prop where
  sound : s.Sound
  numbers : s.read.map ReadList.number = List.range s.read.length
  destroyed : s.destroyed.Nodup
  kept : ∀ l ∈ s.read, l.number ∈ s.destroyed ∨ ∃ p, s.qlist p = .list l
  apart : ∀ p p' l l', s.qlist p = .list l → s.qlist p' = .list l' → l.number = l'.number → p = p'
  known : ∀ n ∈ s.destroyed, n < s.read.length

/-- What `load_quests` has done when it has been to the places `done`. -/
structure Loading.After (s : ShipQuests) (load : Load) (done : List Place) (t : Loading) :
    Prop where
  good : t.map.Good load.ids
  later : ∀ p, p ∉ done → t.qlist p = load.stack p ∧ ∀ qid, entry t.map.elems qid p = none
  placed : ∀ p ∈ done, t.qlist p = .empty ∨
    ∃ l, t.qlist p = .list l ∧ l ∈ t.read ∧ s.read.length ≤ l.number
  points : ∀ p ∈ done, ∀ qid, entry t.map.elems qid p = (t.qlist p).lastQuest qid
  apart : ∀ p ∈ done, ∀ p' ∈ done, ∀ l l', t.qlist p = .list l → t.qlist p' = .list l' →
    l.number = l'.number → p = p'
  numbers : t.read.map ReadList.number = List.range t.read.length
  grown : s.read.length ≤ t.read.length
  kept : ∀ l ∈ t.read, l ∈ s.read ∨ ∃ p ∈ done, t.qlist p = .list l
  destroyed : t.destroyed = s.destroyed

theorem number_lt {read : List ReadList}
    (h : read.map ReadList.number = List.range read.length) {l : ReadList} (hl : l ∈ read) :
    l.number < read.length :=
  List.mem_range.mp (h ▸ List.mem_map_of_mem hl)

theorem after_begin (h : s.Owned) (load : Load) : (s.begin load).After s load [] where
  good :=
    { once := List.nodup_nil
      inside := fun _ hq => absurd hq List.not_mem_nil
      counted := rfl }
  later _ _ := ⟨rfl, fun _ => rfl⟩
  placed _ hp := absurd hp List.not_mem_nil
  points _ hp := absurd hp List.not_mem_nil
  apart _ hp := absurd hp List.not_mem_nil
  numbers := h.numbers
  grown := le_refl _
  kept _ hl := Or.inl hl
  destroyed := rfl

/-- A file that is not there leaves what was on the stack, which is clear. -/
theorem Loading.After.skip {done : List Place} {t : Loading} (h : t.After s load done) {p : Place}
    (hp : p ∉ done) (hstack : load.stack p = .empty) : t.After s load (p :: done) := by
  obtain ⟨hslot, hentry⟩ := h.later p hp
  rw [hstack] at hslot
  refine ⟨h.good, ?_, ?_, ?_, ?_, h.numbers, h.grown, ?_, h.destroyed⟩
  · exact fun p' hp' => h.later p' fun hin => hp' (List.mem_cons_of_mem p hin)
  · intro p' hp'
    rcases List.mem_cons.mp hp' with rfl | hin
    · exact Or.inl hslot
    · exact h.placed p' hin
  · intro p' hp' qid
    rcases List.mem_cons.mp hp' with rfl | hin
    · rw [hentry, hslot]
      rfl
    · exact h.points p' hin qid
  · intro p₁ hp₁ p₂ hp₂ l l' hl hl'
    rcases List.mem_cons.mp hp₁ with rfl | hin₁
    · rw [hslot] at hl
      cases hl
    · rcases List.mem_cons.mp hp₂ with rfl | hin₂
      · rw [hslot] at hl'
        cases hl'
      · exact h.apart p₁ hin₁ p₂ hin₂ l l' hl hl'
  · intro l hl
    rcases h.kept l hl with hold | ⟨p', hin, hl'⟩
    · exact Or.inl hold
    · exact Or.inr ⟨p', List.mem_cons_of_mem p hin, hl'⟩

/-- A list that is read and mapped takes its place. -/
theorem Loading.After.put {done : List Place} {t : Loading} (h : t.After s load done) {p : Place}
    (hp : p ∉ done) {quests : QuestList} {map : Mapping} (hgood : map.Good load.ids)
    (hentry : ∀ qid p', entry map.elems qid p' =
      if p' = p then
        (lastFrom t.read.length 0 quests.flatten qid).or (entry t.map.elems qid p')
      else entry t.map.elems qid p') :
    Loading.After s load (p :: done)
      { qlist := Function.update t.qlist p (.list ⟨t.read.length, quests⟩)
        map := map
        read := t.read ++ [⟨t.read.length, quests⟩]
        destroyed := t.destroyed } := by
  have hne : ∀ p' ∈ done, p' ≠ p := fun p' hin heq => hp (heq ▸ hin)
  have hold : ∀ p' ∈ done,
      Function.update t.qlist p (.list ⟨t.read.length, quests⟩) p' = t.qlist p' :=
    fun p' hin => Function.update_of_ne (hne p' hin) _ _
  have hself : Function.update t.qlist p (.list ⟨t.read.length, quests⟩) p =
      .list ⟨t.read.length, quests⟩ := Function.update_self p _ _
  have hsmall : ∀ p' ∈ done, ∀ l, t.qlist p' = .list l → l.number < t.read.length := by
    intro p' hin l hl
    rcases h.placed p' hin with hempty | ⟨l', hl', hread, _⟩
    · rw [hempty] at hl
      cases hl
    · rw [hl'] at hl
      cases hl
      exact number_lt h.numbers hread
  refine ⟨hgood, ?_, ?_, ?_, ?_, ?_, ?_, ?_, h.destroyed⟩
  · intro p' hp'
    rw [List.mem_cons, not_or] at hp'
    obtain ⟨hslot, hnone⟩ := h.later p' hp'.2
    refine ⟨(Function.update_of_ne hp'.1 _ _).trans hslot, fun qid => ?_⟩
    rw [hentry, if_neg hp'.1, hnone]
  · intro p' hp'
    rcases List.mem_cons.mp hp' with rfl | hin
    · exact Or.inr ⟨_, hself, List.mem_append_right _ List.mem_cons_self, h.grown⟩
    · rcases h.placed p' hin with hempty | ⟨l, hl, hread, hle⟩
      · exact Or.inl ((hold p' hin).trans hempty)
      · exact Or.inr ⟨l, (hold p' hin).trans hl, List.mem_append_left _ hread, hle⟩
  · intro p' hp' qid
    change _ = (Function.update t.qlist p (.list ⟨t.read.length, quests⟩) p').lastQuest qid
    rcases List.mem_cons.mp hp' with rfl | hin
    · rw [hentry, if_pos rfl, hself, (h.later p' hp).2, Option.or_none]
      rfl
    · rw [hentry, if_neg (hne p' hin), hold p' hin]
      exact h.points p' hin qid
  · intro p₁ hp₁ p₂ hp₂ l l' hl hl' hnumber
    change Function.update t.qlist p _ p₁ = _ at hl
    change Function.update t.qlist p _ p₂ = _ at hl'
    rcases List.mem_cons.mp hp₁ with rfl | hin₁
    · rcases List.mem_cons.mp hp₂ with rfl | hin₂
      · rfl
      · rw [hself] at hl
        cases hl
        rw [hold p₂ hin₂] at hl'
        exact absurd hnumber (hsmall p₂ hin₂ l' hl').ne'
    · rw [hold p₁ hin₁] at hl
      rcases List.mem_cons.mp hp₂ with rfl | hin₂
      · rw [hself] at hl'
        cases hl'
        exact absurd hnumber (hsmall p₁ hin₁ l hl).ne
      · rw [hold p₂ hin₂] at hl'
        exact h.apart p₁ hin₁ p₂ hin₂ l l' hl hl' hnumber
  · change (t.read ++ [_]).map ReadList.number = List.range (t.read ++ [_]).length
    rw [List.map_append, h.numbers, List.length_append, List.length_singleton, List.range_succ]
    rfl
  · change s.read.length ≤ (t.read ++ [_]).length
    rw [List.length_append]
    exact h.grown.trans (Nat.le_add_right _ _)
  · intro l hl
    rcases List.mem_append.mp hl with hin | hnew
    · rcases h.kept l hin with hread | ⟨p', hdone, hl'⟩
      · exact Or.inl hread
      · exact Or.inr ⟨p', List.mem_cons_of_mem p hdone, (hold p' hdone).trans hl'⟩
    · rw [List.mem_singleton.mp hnew]
      exact Or.inr ⟨p, List.mem_cons_self, hself⟩

/-- One place of the loop. -/
theorem Loading.After.step {done : List Place} {t : Loading} (h : t.After s load done)
    (hload : load.Complete) {p : Place} (hp : p ∉ done) :
    (readPlace left load t p).After s load (p :: done) := by
  rw [readPlace]
  cases hfile : load.file p with
  | none => exact h.skip hp (hload.reads p hfile)
  | some quests =>
    obtain ⟨hok, hgood, hentry⟩ := questMap_spec hload.maps p t.read.length 0
      (fun q hq => mem_ids hfile hq) h.good
    dsimp only
    rw [if_pos hok]
    exact h.put hp hgood hentry

theorem after_foldl (hload : load.Complete) (ps : List Place) {done : List Place} {t : Loading}
    (h : t.After s load done) (hps : (ps ++ done).Nodup) :
    ∃ done', (∀ p, p ∈ done' ↔ p ∈ ps ∨ p ∈ done) ∧
      (ps.foldl (readPlace left load) t).After s load done' := by
  induction ps generalizing done t with
  | nil => exact ⟨done, by simp, h⟩
  | cons p ps ih =>
    rw [List.cons_append, List.nodup_cons, List.mem_append, not_or] at hps
    have hnodup : (ps ++ p :: done).Nodup := by
      rw [List.nodup_middle, List.nodup_cons, List.mem_append, not_or]
      exact hps
    obtain ⟨done', hmem, hafter⟩ := ih (h.step hload hps.1.2) hnodup
    refine ⟨done', fun p' => ?_, hafter⟩
    rw [hmem, List.mem_cons, List.mem_cons]
    tauto

theorem mem_slot_numbers {slot : Slot} {n : ℕ} :
    n ∈ slot.numbers ↔ ∃ l, slot = .list l ∧ l.number = n := by
  cases slot with
  | list l =>
    constructor
    · intro hn
      exact ⟨l, rfl, (List.mem_singleton.mp hn).symm⟩
    · rintro ⟨l', hl, hn⟩
      cases hl
      exact List.mem_singleton.mpr hn.symm
  | empty | other => simp [Slot.numbers]

theorem mem_numbers {n : ℕ} :
    n ∈ (places.flatMap fun p => (s.qlist p).numbers) ↔
      ∃ p l, s.qlist p = .list l ∧ l.number = n := by
  simp only [List.mem_flatMap, mem_slot_numbers, mem_places, true_and]

/-- The numbers at all places, which are destroyed at a refresh and at the end. -/
theorem nodup_numbers (h : s.Owned) : (places.flatMap fun p => (s.qlist p).numbers).Nodup := by
  refine List.nodup_flatMap.mpr ⟨fun p _ => ?_, nodup_places.imp fun {p p'} hne => ?_⟩
  · cases s.qlist p with
    | list l => exact List.nodup_singleton _
    | empty | other => exact List.nodup_nil
  · intro n hn hn'
    obtain ⟨l, hl, hnumber⟩ := mem_slot_numbers.mp hn
    obtain ⟨l', hl', hnumber'⟩ := mem_slot_numbers.mp hn'
    exact hne (h.apart p p' l l' hl hl' (hnumber.trans hnumber'.symm))

/-- The lists at the places and the ones already destroyed are different ones. -/
theorem nodup_cleaned (h : s.Owned) :
    (s.destroyed ++ places.flatMap fun p => (s.qlist p).numbers).Nodup := by
  refine List.Nodup.append h.destroyed (nodup_numbers h) fun n hn hn' => ?_
  obtain ⟨p, l, hp, hnumber⟩ := mem_numbers.mp hn'
  rcases h.sound.stored p with hempty | ⟨l', hl', _, hkept⟩
  · rw [hempty] at hp
    cases hp
  · rw [hl'] at hp
    cases hp
    exact hkept (hnumber ▸ hn)

theorem mem_cleaned (h : s.Owned) {l : ReadList} (hl : l ∈ s.read) :
    l.number ∈ s.destroyed ++ places.flatMap fun p => (s.qlist p).numbers := by
  rcases h.kept l hl with hold | ⟨p, hp⟩
  · exact List.mem_append_left _ hold
  · exact List.mem_append_right _ (mem_numbers.mpr ⟨p, l, hp, rfl⟩)

theorem cleaned_lt (h : s.Owned) {n : ℕ}
    (hn : n ∈ s.destroyed ++ places.flatMap fun p => (s.qlist p).numbers) : n < s.read.length := by
  rcases List.mem_append.mp hn with hold | hnew
  · exact h.known n hold
  · obtain ⟨p, l, hp, rfl⟩ := mem_numbers.mp hnew
    rcases h.sound.stored p with hempty | ⟨l', hl', hread, _⟩
    · rw [hempty] at hp
      cases hp
    · rw [hl'] at hp
      cases hp
      exact number_lt h.numbers hread

theorem owned_fresh : fresh.Owned where
  sound :=
    { stored := fun _ => Or.inl rfl
      once := List.nodup_nil
      points := fun _ _ => rfl }
  numbers := rfl
  destroyed := List.nodup_nil
  kept _ hl := absurd hl List.not_mem_nil
  apart _ _ _ _ hl := by cases hl
  known _ hn := absurd hn List.not_mem_nil

/-- The swap: the new lists are all newer than what has been destroyed. -/
theorem owned_swap {t : Loading} {done : List Place} (hdone : ∀ p, p ∈ done)
    (ht : t.After s load done) {destroyed : List ℕ} (hnodup : destroyed.Nodup)
    (hlt : ∀ n ∈ destroyed, n < s.read.length) (hold : ∀ l ∈ s.read, l.number ∈ destroyed) :
    ShipQuests.Owned
      { qlist := t.qlist
        qmap := t.map.elems
        read := t.read
        destroyed := destroyed } where
  sound :=
    { stored := by
        intro p
        rcases ht.placed p (hdone p) with hempty | ⟨l, hl, hread, hle⟩
        · exact Or.inl hempty
        · exact Or.inr ⟨l, hl, hread, fun hin => (hlt _ hin).not_ge hle⟩
      once := ht.good.once
      points := fun p qid => ht.points p (hdone p) qid }
  numbers := ht.numbers
  destroyed := hnodup
  kept := by
    intro l hl
    rcases ht.kept l hl with hread | ⟨p, _, hp⟩
    · exact Or.inl (hold l hread)
    · exact Or.inr ⟨p, hp⟩
  apart p p' l l' := ht.apart p (hdone p) p' (hdone p') l l'
  known n hn := (hlt n hn).trans_le ht.grown

theorem loaded (h : s.Owned) (hload : load.Complete) :
    ∃ done, (∀ p, p ∈ done) ∧
      (places.foldl (readPlace left load) (s.begin load)).After s load done := by
  have hnodup : (places ++ []).Nodup := by
    rw [List.append_nil]
    exact nodup_places
  obtain ⟨done, hmem, hafter⟩ := after_foldl hload places (after_begin h load) hnodup
  exact ⟨done, fun p => (hmem p).mpr (Or.inl (mem_places p)), hafter⟩

variable (left) in
theorem owned_first (hload : load.Complete) :
    (loadQuests left fresh true load true).1.Owned := by
  obtain ⟨done, hdone, hafter⟩ := loaded owned_fresh hload
  have hnone : (places.foldl (readPlace left load) (fresh.begin load)).destroyed ++ [] = [] := by
    rw [hafter.destroyed]
    rfl
  have howned := owned_swap hdone hafter List.nodup_nil
    (fun _ hn => absurd hn List.not_mem_nil) (fun _ hl => absurd hl List.not_mem_nil)
  rw [← hnone] at howned
  exact howned

variable (left) in
theorem owned_refresh (h : s.Owned) (localGm : Bool)
    (hload : localGm = true → load.Complete) :
    (refreshQuests left true s localGm load).1.Owned := by
  cases localGm with
  | false => exact h
  | true =>
    obtain ⟨done, hdone, hafter⟩ := loaded h (hload rfl)
    have howned := owned_swap hdone hafter (nodup_cleaned h) (fun _ => cleaned_lt h)
      (fun _ => mem_cleaned h)
    rw [← hafter.destroyed] at howned
    exact howned

theorem reloads_unconfigured (left : Slot → Slot) (first : Load) (rest : List (Bool × Load)) :
    reloads left false first rest = fresh := by
  change rest.foldl _ fresh = fresh
  induction rest with
  | nil => rfl
  | cons r rest ih =>
    have hstep : (refreshQuests left false fresh r.1 r.2).1 = fresh := by
      cases r.1 <;> rfl
    rw [List.foldl_cons, hstep]
    exact ih

variable (left) in
theorem owned_reloads {configured : Bool} {first : Load} {rest : List (Bool × Load)}
    (h : configured = true → first.Complete ∧ ∀ r ∈ rest, r.1 = true → r.2.Complete) :
    (reloads left configured first rest).Owned := by
  cases configured with
  | false =>
    rw [reloads_unconfigured]
    exact owned_fresh
  | true =>
    obtain ⟨hfirst, hrest⟩ := h rfl
    clear h
    rw [reloads]
    have hstart := owned_first left hfirst
    generalize (loadQuests left fresh true first true).1 = s at hstart ⊢
    induction rest generalizing s with
    | nil => exact hstart
    | cons r rest ih =>
      rw [List.foldl_cons]
      exact ih (fun r' hr' => hrest r' (List.mem_cons_of_mem r hr')) _
        (owned_refresh left hstart r.1 (hrest r List.mem_cons_self))

end Loads

/-- As long as every load reads and maps all of the files, the lists and the map of the ship are
sound after it, and the clean-up destroys what the refreshes did not. -/
theorem questReload_sound (left : Slot → Slot) (configured : Bool) (first : Load)
    (rest : List (Bool × Load))
    (h : configured = true → first.Complete ∧ ∀ r ∈ rest, r.1 = true → r.2.Complete) :
    (reloads left configured first rest).Sound ∧
      ∀ l ∈ (cleanQuests left (reloads left configured first rest)).read,
        (cleanQuests left (reloads left configured first rest)).destroyed.count l.number = 1 := by
  have howned := owned_reloads left h
  refine ⟨howned.sound, fun l hl => ?_⟩
  exact List.count_eq_one_of_mem (nodup_cleaned howned) (mem_cleaned howned hl)

/-- A directory with a list of no quests in every file but the ones of `missing`. -/
def emptyLists (missing : Place → Bool) : Load where
  file p := if missing p then none else some []
  alloc _ := true
  stack _ := .other

theorem questReload_sound_twice :
    (reloads id true (emptyLists fun _ => false) [(true, emptyLists fun _ => false)]).Sound ∧
      ∀ l ∈ (cleanQuests id (reloads id true (emptyLists fun _ => false)
          [(true, emptyLists fun _ => false)])).read,
        (cleanQuests id (reloads id true (emptyLists fun _ => false)
          [(true, emptyLists fun _ => false)])).destroyed.count l.number = 1 := by
  have hcomplete : (emptyLists fun _ => false).Complete :=
    { reads := fun _ h => by cases h
      maps := fun _ _ => rfl }
  refine questReload_sound id true _ _ fun _ => ⟨hcomplete, fun r hr _ => ?_⟩
  rw [List.mem_singleton.mp hr]
  exact hcomplete

/-- The place of a file that is missing is never written, and `qlist` gets what was there. -/
theorem questReload_not_sound :
    ¬∀ (left : Slot → Slot) (configured : Bool) (first : Load) (rest : List (Bool × Load)),
      (reloads left configured first rest).Sound ∧
        ∀ l ∈ (cleanQuests left (reloads left configured first rest)).read,
          (cleanQuests left (reloads left configured first rest)).destroyed.count l.number = 1 := by
  intro h
  have hother : (reloads id true (emptyLists fun p => p = (.dcv1, japanese)) []).qlist
      (.dcv1, japanese) = .other := rfl
  rcases (h id true (emptyLists fun p => p = (.dcv1, japanese)) []).1.stored
    (.dcv1, japanese) with hempty | ⟨l, hl, _⟩
  · rw [hother] at hempty
    cases hempty
  · rw [hother] at hl
    cases hl

end ShipServer.QuestReload
