import ShipServer.KeyedStores
import ShipServer.QstFiles
import ShipServer.QuestMapCache
import ShipServer.QuestReload

set_option autoImplicit false

/-! The cache of the maps of quests: when its files are written, and what games find in them. -/

namespace ShipServer.QuestCaches

open Versions RecordStreams StringReads QstFiles QuestMapCache QuestReload KeyedStores
open QuestLists (ListedQuest Lang QuestList versions)
open QuestSetup (mapVersion)

/-- The files under `.mapcache`, each in the directory of a version and named by a quest's id. -/
abbrev Caches := ClientVersion × BitVec 32 → Option (List UInt8)

/-- What a load of the quests finds on the disk: the lists, which of their categories are for
battles or challenges, the file of each quest, whether the directories of the cache could be made,
and which of its files can be opened. `junk` stands in memory behind a file that has been read. -/
structure Disk extends Load where
  modes : Place → ℕ → Bool
  quest : Place → ListedQuest → Option (List UInt8)
  dirs : Bool
  opens : ClientVersion × BitVec 32 → Bool
  junk : ℕ → UInt8

/-- `quest_cat_type`, for the quest at a place of a list: whether its category is for battles or
challenges. -/
def questCatType : (ℕ → Bool) → QuestList → ℕ → Bool
  | _, [], _ => false
  | modes, cat :: cats, i =>
    if i < cat.length then modes 0
    else questCatType (fun n => modes (n + 1)) cats (i - cat.length)

/-- The layout that `read_and_dec_qst` goes by. -/
def qstKind : ClientVersion → Option QstKind
  | .dcv1 | .dcv2 => some .dc
  | .gc => some .gc
  | .pc => some .pc
  | .bb => some .bb
  | .ep3 | .xbox => none

section Source

/- `decompress` is `decompress_dat`, with the sections of what comes out, and `left` is what
`sylverant_quests_destroy` leaves in a list. -/
variable (decompress : List UInt8 → Option (List QuestDat)) (parseMap : ParseMap)
  (left : Slot → Slot)

/-- `read_and_dec_dat` and `read_and_dec_qst`. The loop of the latter is given up after as many
turns as the file has bytes. -/
def readAndDec (disk : Disk) (v : ClientVersion) (q : ListedQuest) (file : List UInt8) :
    Option (List QuestDat) :=
  match q.format with
  | .bindat => decompress file
  | .qst =>
    (qstKind v).bind fun kind =>
      ((kind.layout.readQst file.length (file.length + 1)).result
        (memory file disk.junk)).join.bind decompress

/-- The enemies of the maps in front of the first one that cannot be parsed, and whether there is
none of these. -/
def expandUpTo (episode : ℕ) : List QuestDat → List GameEnemy × Bool
  | [] => ([], true)
  | hdr :: hdrs =>
    match expand parseMap episode hdr with
    | none => ([], false)
    | some en => (en ++ (expandUpTo episode hdrs).1, (expandUpTo episode hdrs).2)

/-- The file that `cache_quest_enemies` leaves. The place of the count is skipped at first, so that
the file only gets there when there are enemies behind it. -/
def cacheFile (episode : ℕ) (dat : List QuestDat) : List UInt8 :=
  let (objects, ptrs) := parseQuestObjects dat
  let front := le32 objects ++
    (areas.flatMap fun i => ((ptrs.objects i).map objectsOf).getD []).flatten
  let parsed := expandUpTo parseMap episode (areas.flatMap fun i => (ptrs.enemies i).toList)
  let file := if parsed.1 = [] then front
    else front ++ List.replicate 4 0 ++ parsed.1.flatMap encodeEnemy
  if parsed.2 then overwrite file front.length (le32 (BitVec.ofNat 32 parsed.1.length)) else file

/-- The quest that a pointer leads to. -/
def questAt (s : ShipQuests) (p : Place) (r : QuestPtr) : Option (QuestList × ListedQuest) :=
  match s.qlist p with
  | .list l => if l.number = r.list then l.quests.flatten[r.quest]?.map (l.quests, ·) else none
  | _ => none

/-- The first language that an element of the map has a quest in. -/
def firstLang (e : Elem) (v : ClientVersion) : Option (Lang × QuestPtr) :=
  (List.finRange 8).findSome? fun k => (e.qptr (v, k)).map (k, ·)

/-- What is to be cached for a quest that has been found: its episode and its sections. -/
def cacheQuest (disk : Disk) (v : ClientVersion) (k : Lang) (quests : QuestList) (i : ℕ)
    (q : ListedQuest) : Option (ℕ × List QuestDat) :=
  if questCatType (disk.modes (v, k)) quests i then none
  else if disk.opens (v, q.qid) then
    ((disk.quest (v, k) q).bind (readAndDec decompress disk v q)).map (q.episode, ·)
  else none

/-- The body of the loop over the versions. -/
def cacheElem (disk : Disk) (s : ShipQuests) (caches : Caches) (at' : Elem × ClientVersion) :
    Caches :=
  match firstLang at'.1 at'.2 with
  | none => caches
  | some (k, r) =>
    match questAt s (at'.2, k) r with
    | none => caches
    | some (quests, q) =>
      match cacheQuest decompress disk at'.2 k quests r.quest q with
      | none => caches
      | some (episode, dat) =>
        Function.update caches (at'.2, q.qid) (some (cacheFile parseMap episode dat))

/-- The versions that have caches of their own. -/
def cachedVersions : List ClientVersion :=
  versions.filter fun v => v ≠ .pc

def questCacheMaps (disk : Disk) (s : ShipQuests) (caches : Caches) : Caches :=
  if disk.dirs then
    (s.qmap ×ˢ cachedVersions).foldl (cacheElem decompress parseMap disk s) caches
  else caches

/-- The quests of a ship and the files of their cache. -/
structure Site where
  quests : ShipQuests
  caches : Caches

/-- `load_quests`. -/
def loadQuests (site : Site) (disk : Disk) (initial : Bool) : Site :=
  let s := (QuestReload.loadQuests left site.quests true disk.toLoad initial).1
  { quests := s
    caches := questCacheMaps decompress parseMap disk s site.caches }

/-- `refresh_quests`. -/
def refreshQuests (site : Site) (localGm : Bool) (disk : Disk) : Site :=
  if localGm then loadQuests decompress parseMap left site disk false else site

/-- The load at the start of the ship, and refreshes by clients with and without the privilege. -/
def reloads (caches : Caches) (first : Disk) (rest : List (Bool × Disk)) : Site :=
  rest.foldl (fun site r => refreshQuests decompress parseMap left site r.1 r.2)
    (loadQuests decompress parseMap left ⟨fresh, caches⟩ first true)

/-- What a game gets for a quest. The caches of PC games are those of version 2. -/
def gameMap (site : Site) (l : MapLobby) (v : ClientVersion) (qid : BitVec 32) :
    ℤ × Option QuestMap :=
  loadQuestEnemies l (site.caches (mapVersion v, qid))

end Source

/-- The loads that have taken place. -/
def loadsOf (first : Disk) (rest : List (Bool × Disk)) : List Disk :=
  first :: (rest.filter fun r => r.1).map fun r => r.2

/-- The quest that counts for the cache: of the first language whose list has the id, the last one
that has it. -/
def Disk.source (disk : Disk) (v : ClientVersion) (qid : BitVec 32) :
    Option (Lang × QuestList × ℕ × ListedQuest) :=
  (List.finRange 8).findSome? fun k => (disk.file (v, k)).bind fun quests =>
    (quests.flatten.zipIdx.reverse.find? fun x => x.1.qid = qid).map fun x =>
      (k, quests, x.2, x.1)

/-- What a load has to cache for a version and a quest, by the files alone. -/
def Disk.cached (decompress : List UInt8 → Option (List QuestDat)) (disk : Disk)
    (at' : ClientVersion × BitVec 32) : Option (ℕ × List QuestDat) :=
  if disk.dirs = true ∧ at'.1 ≠ .pc then
    (disk.source at'.1 at'.2).bind fun x =>
      cacheQuest decompress disk at'.1 x.1 x.2.1 x.2.2.1 x.2.2.2
  else none

section Lists

variable {left : Slot → Slot} {load : Load}

/-- What stands at a place after a load. -/
def Placed (load : Load) (p : Place) (slot : Slot) : Prop :=
  match load.file p with
  | none => slot = .empty
  | some quests => ∃ number, slot = .list ⟨number, quests⟩

theorem placed_readPlace {s : ShipQuests} {done : List Place} {t : Loading}
    (h : t.After s load done) (hload : load.Complete) {p : Place} (hp : p ∉ done) :
    Placed load p ((readPlace left load t p).qlist p) := by
  rw [Placed, readPlace]
  cases hfile : load.file p with
  | none =>
    dsimp only
    rw [(h.later p hp).1]
    exact hload.reads p hfile
  | some quests =>
    obtain ⟨hok, -, -⟩ := questMap_spec hload.maps p t.read.length 0
      (fun q hq => mem_ids hfile hq) h.good
    dsimp only
    rw [if_pos hok]
    exact ⟨t.read.length, Function.update_self _ _ _⟩

theorem qlist_readPlace (t : Loading) {p p' : Place} (h : p' ≠ p) :
    (readPlace left load t p).qlist p' = t.qlist p' := by
  rw [readPlace]
  cases load.file p with
  | none => rfl
  | some quests =>
    dsimp only
    split_ifs <;> exact Function.update_of_ne h _ _

theorem placed_foldl {s : ShipQuests} (hload : load.Complete) (ps : List Place)
    {done : List Place} {t : Loading} (h : t.After s load done) (hps : (ps ++ done).Nodup)
    (hdone : ∀ p ∈ done, Placed load p (t.qlist p)) :
    ∀ p ∈ ps ++ done, Placed load p ((ps.foldl (readPlace left load) t).qlist p) := by
  induction ps generalizing done t with
  | nil => exact hdone
  | cons p ps ih =>
    rw [List.cons_append, List.nodup_cons, List.mem_append, not_or] at hps
    have hnodup : (ps ++ p :: done).Nodup := by
      rw [List.nodup_middle, List.nodup_cons, List.mem_append, not_or]
      exact hps
    have hnext : ∀ p' ∈ p :: done, Placed load p' ((readPlace left load t p).qlist p') := by
      intro p' hp'
      rcases List.mem_cons.mp hp' with rfl | hin
      · exact placed_readPlace h hload hps.1.2
      · rw [qlist_readPlace t fun heq : p' = p => hps.1.2 (heq ▸ hin)]
        exact hdone p' hin
    intro p' hp'
    apply ih (h.step hload hps.1.2) hnodup hnext
    simp only [List.cons_append, List.mem_cons, List.mem_append] at hp' ⊢
    tauto

variable (left) in
theorem placed_loadQuests {s : ShipQuests} (h : s.Owned) (hload : load.Complete) (initial : Bool)
    (p : Place) :
    Placed load p ((QuestReload.loadQuests left s true load initial).1.qlist p) := by
  have hnodup : (places ++ []).Nodup := by
    rw [List.append_nil]
    exact nodup_places
  have hnone : ∀ p ∈ ([] : List Place), Placed load p ((s.begin load).qlist p) := by
    intro p hp
    cases hp
  apply placed_foldl hload places (after_begin h load) hnodup hnone
  rw [List.append_nil]
  exact mem_places p

end Lists

section Pass

variable {decompress : List UInt8 → Option (List QuestDat)} {parseMap : ParseMap} {disk : Disk}
  {s : ShipQuests}

theorem findSome?_bind {α β γ : Type*} {f : α → Option β} {g : α → Option γ} {h : β → Option γ}
    (hnone : ∀ a, f a = none → g a = none)
    (hsome : ∀ a b, f a = some b → (h b).isSome ∧ g a = h b) (l : List α) :
    l.findSome? g = (l.findSome? f).bind h := by
  induction l with
  | nil => rfl
  | cons a l ih =>
    rw [List.findSome?_cons, List.findSome?_cons]
    cases hf : f a with
    | none =>
      rw [hnone a hf]
      exact ih
    | some b =>
      obtain ⟨hb, hg⟩ := hsome a b hf
      obtain ⟨c, hc⟩ := Option.isSome_iff_exists.mp hb
      rw [hg, hc]
      exact hc.symm

theorem lastFrom_eq (number : ℕ) (quests : List ListedQuest) (qid : BitVec 32) :
    lastFrom number 0 quests qid =
      (quests.zipIdx.reverse.find? fun x => x.1.qid = qid).map fun x => ⟨number, x.2⟩ := rfl

/-- The pointers of the map lead to the quests of the files. -/
theorem source_eq (hplaced : ∀ p, Placed disk.toLoad p (s.qlist p)) {e : Elem}
    (hptr : ∀ p, e.qptr p = (s.qlist p).lastQuest e.qid) (v : ClientVersion) :
    disk.source v e.qid = (firstLang e v).bind fun x =>
      (questAt s (v, x.1) x.2).map fun y => (x.1, y.1, x.2.quest, y.2) := by
  unfold Disk.source firstLang
  apply findSome?_bind
  · intro k hk
    rw [Option.map_eq_none_iff, hptr] at hk
    have hslot := hplaced (v, k)
    rw [Placed] at hslot
    cases hfile : disk.file (v, k) with
    | none => rfl
    | some quests =>
      rw [hfile] at hslot
      obtain ⟨number, hslot⟩ := hslot
      rw [hslot, Slot.lastQuest, lastFrom_eq, Option.map_eq_none_iff] at hk
      rw [Option.bind_some, hk]
      rfl
  · intro k b hb
    rw [hptr, Option.map_eq_some_iff] at hb
    obtain ⟨r, hr, rfl⟩ := hb
    have hslot := hplaced (v, k)
    rw [Placed] at hslot
    cases hfile : disk.file (v, k) with
    | none =>
      rw [hfile] at hslot
      rw [hslot] at hr
      cases hr
    | some quests =>
      rw [hfile] at hslot
      obtain ⟨number, hslot⟩ := hslot
      rw [hslot, Slot.lastQuest, lastFrom_eq, Option.map_eq_some_iff] at hr
      obtain ⟨x, hx, rfl⟩ := hr
      have hget : quests.flatten[x.2]? = some x.1 := by
        have hmem := List.mem_reverse.mp (List.mem_of_find?_eq_some hx)
        exact List.mem_zipIdx_iff_getElem?.mp hmem
      rw [Option.bind_some, hx]
      simp [questAt, hslot, hget]

theorem qid_of_source {v : ClientVersion} {qid : BitVec 32}
    {x : Lang × QuestList × ℕ × ListedQuest} (h : disk.source v qid = some x) :
    x.2.2.2.qid = qid := by
  obtain ⟨k, -, hk⟩ := List.exists_of_findSome?_eq_some h
  obtain ⟨quests, -, hq⟩ := Option.bind_eq_some_iff.mp hk
  obtain ⟨y, hy, rfl⟩ := Option.map_eq_some_iff.mp hq
  have hid := List.find?_some hy
  simpa using hid

theorem questLookup_self {map : List Elem} (h : (map.map Elem.qid).Nodup) {e : Elem}
    (he : e ∈ map) : questLookup map e.qid = some e := by
  induction map with
  | nil => cases he
  | cons e' es ih =>
    rw [List.map_cons, List.nodup_cons] at h
    rcases List.mem_cons.mp he with rfl | hin
    · simp [questLookup]
    · have hne : e'.qid ≠ e.qid := fun heq => h.1 (heq ▸ List.mem_map_of_mem hin)
      rw [questLookup, List.find?_cons_of_neg (by simpa using hne)]
      exact ih h.2 hin

/-- The key of an element in a version. -/
def keyOf (at' : Elem × ClientVersion) : ClientVersion × BitVec 32 :=
  (at'.2, at'.1.qid)

/-- What is written for an element in a version. -/
def valueOf (decompress : List UInt8 → Option (List QuestDat)) (parseMap : ParseMap) (disk : Disk)
    (at' : Elem × ClientVersion) : Option (List UInt8) :=
  ((disk.source at'.2 at'.1.qid).bind fun x =>
    cacheQuest decompress disk at'.2 x.1 x.2.1 x.2.2.1 x.2.2.2).map fun y =>
      cacheFile parseMap y.1 y.2

theorem cacheElem_eq (hplaced : ∀ p, Placed disk.toLoad p (s.qlist p)) {e : Elem}
    (hptr : ∀ p, e.qptr p = (s.qlist p).lastQuest e.qid) (v : ClientVersion) (caches : Caches) :
    cacheElem decompress parseMap disk s caches (e, v) =
      put keyOf (valueOf decompress parseMap disk) caches (e, v) := by
  have hsource := source_eq hplaced hptr v
  rw [cacheElem, put, valueOf]
  dsimp only
  cases hfirst : firstLang e v with
  | none =>
    rw [hfirst] at hsource
    rw [hsource]
    rfl
  | some x =>
    obtain ⟨k, r⟩ := x
    rw [hfirst] at hsource
    dsimp only
    cases hat : questAt s (v, k) r with
    | none =>
      rw [Option.bind_some, hat] at hsource
      rw [hsource]
      rfl
    | some y =>
      obtain ⟨quests, q⟩ := y
      rw [Option.bind_some, hat] at hsource
      have hqid : q.qid = e.qid := qid_of_source hsource
      rw [hsource]
      dsimp only [Option.map_some, Option.bind_some]
      cases cacheQuest decompress disk v k quests r.quest q with
      | none => rfl
      | some z =>
        dsimp only [Option.map_some, keyOf]
        rw [hqid]

theorem mem_pairs {e : Elem} {v : ClientVersion} :
    (e, v) ∈ s.qmap ×ˢ cachedVersions ↔ e ∈ s.qmap ∧ v ∈ cachedVersions :=
  List.pair_mem_product

theorem nodup_keys (h : (s.qmap.map Elem.qid).Nodup) :
    ((s.qmap ×ˢ cachedVersions).map keyOf).Nodup := by
  have hversions : cachedVersions.Nodup := by decide
  apply List.Nodup.map_on _ (List.Nodup.product (List.Nodup.of_map _ h) hversions)
  rintro ⟨e, v⟩ he ⟨e', v'⟩ he' heq
  rw [mem_pairs] at he he'
  obtain ⟨rfl, hqid⟩ := Prod.mk.inj heq
  rw [List.inj_on_of_nodup_map h he.1 he'.1 hqid]

theorem mem_cachedVersions {v : ClientVersion} : v ∈ cachedVersions ↔ v ≠ .pc := by
  cases v <;> decide

/-- A pass writes the files for which the lists have something, and leaves the others alone. -/
theorem questCacheMaps_apply (hsound : s.Sound)
    (hplaced : ∀ p, Placed disk.toLoad p (s.qlist p)) (caches : Caches)
    (at' : ClientVersion × BitVec 32) :
    questCacheMaps decompress parseMap disk s caches at' =
      ((disk.cached decompress at').map fun x => cacheFile parseMap x.1 x.2).or (caches at') := by
  obtain ⟨v, qid⟩ := at'
  have hmem : ∀ e ∈ s.qmap, ∀ p, e.qptr p = (s.qlist p).lastQuest e.qid := by
    intro e he p
    rw [← hsound.points p e.qid, entry, questLookup_self hsound.once he]
    rfl
  rw [questCacheMaps, Disk.cached]
  by_cases hdirs : disk.dirs = true
  · rw [if_pos hdirs]
    have hfold : (s.qmap ×ˢ cachedVersions).foldl (cacheElem decompress parseMap disk s) caches =
        (s.qmap ×ˢ cachedVersions).foldl (put keyOf (valueOf decompress parseMap disk)) caches := by
      apply List.foldl_ext
      rintro caches ⟨e, v⟩ he
      exact cacheElem_eq hplaced (hmem e (mem_pairs.mp he).1) v caches
    rw [hfold]
    by_cases hv : v = .pc
    · rw [if_neg fun h => h.2 hv]
      apply foldl_put_of_ne
      rintro ⟨e, v'⟩ he heq
      exact mem_cachedVersions.mp (mem_pairs.mp he).2 ((congrArg Prod.fst heq).trans hv)
    · rw [if_pos ⟨hdirs, hv⟩]
      by_cases hqid : qid ∈ s.qmap.map Elem.qid
      · obtain ⟨e, he, rfl⟩ := List.mem_map.mp hqid
        exact foldl_put_of_mem (i := (e, v)) (nodup_keys hsound.once)
          (mem_pairs.mpr ⟨he, mem_cachedVersions.mpr hv⟩) caches
      · have habsent : ∀ p, entry s.qmap qid p = none := by
          intro p
          have hnone := Option.not_isSome_iff_eq_none.mp fun h => hqid (questLookup_isSome.mp h)
          rw [entry, hnone]
          rfl
        have hsource := source_eq (e := ⟨qid, entry s.qmap qid⟩) hplaced
          (fun p => hsound.points p qid) v
        have hfirst : firstLang ⟨qid, entry s.qmap qid⟩ v = none := by
          simp [firstLang, habsent]
        rw [hfirst] at hsource
        change disk.source v qid = none at hsource
        rw [hsource]
        apply foldl_put_of_ne
        rintro ⟨e, v'⟩ he heq
        have heq : e.qid = qid := congrArg Prod.snd heq
        exact hqid (heq ▸ List.mem_map_of_mem (mem_pairs.mp he).1)
  · rw [if_neg hdirs, if_neg fun h => hdirs h.1]
    rfl

end Pass

section Runs

variable {decompress : List UInt8 → Option (List QuestDat)} {parseMap : ParseMap}
  {left : Slot → Slot}

/-- The files that a load writes. -/
def written (decompress : List UInt8 → Option (List QuestDat)) (parseMap : ParseMap) (disk : Disk)
    (at' : ClientVersion × BitVec 32) : Option (List UInt8) :=
  (disk.cached decompress at').map fun x => cacheFile parseMap x.1 x.2

theorem owned_loadQuests {site : Site} (h : site.quests.Owned) {disk : Disk}
    (hdisk : disk.toLoad.Complete) :
    (loadQuests decompress parseMap left site disk false).quests.Owned :=
  owned_refresh left h true fun _ => hdisk

theorem caches_loadQuests {site : Site} (h : site.quests.Owned) {disk : Disk}
    (hdisk : disk.toLoad.Complete) {initial : Bool}
    (hloaded : (loadQuests decompress parseMap left site disk initial).quests.Sound) :
    (loadQuests decompress parseMap left site disk initial).caches =
      renew site.caches (written decompress parseMap disk) := by
  funext at'
  exact questCacheMaps_apply hloaded (placed_loadQuests left h hdisk initial) site.caches at'

theorem caches_foldl {site : Site} (h : site.quests.Owned) (rest : List (Bool × Disk))
    (hrest : ∀ r ∈ rest, r.1 = true → r.2.toLoad.Complete) :
    (rest.foldl (fun site r => refreshQuests decompress parseMap left site r.1 r.2) site).caches =
      ((rest.filter fun r => r.1).map fun r => written decompress parseMap r.2).foldl renew
        site.caches := by
  induction rest generalizing site with
  | nil => rfl
  | cons r rest ih =>
    obtain ⟨localGm, disk⟩ := r
    have hrest' : ∀ r ∈ rest, r.1 = true → r.2.toLoad.Complete :=
      fun r hr => hrest r (List.mem_cons_of_mem _ hr)
    cases localGm with
    | false => exact ih h hrest'
    | true =>
      have hdisk := hrest (true, disk) List.mem_cons_self rfl
      have howned : (loadQuests decompress parseMap left site disk false).quests.Owned :=
        owned_loadQuests h hdisk
      rw [List.foldl_cons, refreshQuests, if_pos rfl, ih howned hrest',
        caches_loadQuests h hdisk howned.sound]
      rfl

theorem caches_reloads (left : Slot → Slot) (caches : Caches) {first : Disk}
    {rest : List (Bool × Disk)} (h : ∀ disk ∈ loadsOf first rest, disk.toLoad.Complete) :
    (reloads decompress parseMap left caches first rest).caches =
      ((loadsOf first rest).map (written decompress parseMap)).foldl renew caches := by
  have hfirst : first.toLoad.Complete := h first List.mem_cons_self
  have hrest : ∀ r ∈ rest, r.1 = true → r.2.toLoad.Complete := by
    intro r hr hgm
    exact h r.2 (List.mem_cons_of_mem _ (List.mem_map_of_mem (List.mem_filter.mpr ⟨hr, hgm⟩)))
  have howned : (loadQuests decompress parseMap left ⟨fresh, caches⟩ first true).quests.Owned :=
    owned_first left hfirst
  rw [reloads, caches_foldl howned rest hrest, caches_loadQuests owned_fresh hfirst howned.sound]
  simp [loadsOf, Function.comp_def]

theorem foldl_written (loads : List Disk) (caches : Caches) (at' : ClientVersion × BitVec 32) :
    (loads.map (written decompress parseMap)).foldl renew caches at' =
      ((loads.reverse.findSome? fun disk => disk.cached decompress at').map
        fun x => cacheFile parseMap x.1 x.2).or (caches at') := by
  rw [foldl_renew, ← List.map_reverse, List.findSome?_map, List.map_findSome?]
  rfl

end Runs

section Reading

variable {parseMap : ParseMap} {episode : ℕ} {dat : List QuestDat}

/-- The sections of enemies that the table leads to. -/
def enemySections (dat : List QuestDat) : List QuestDat :=
  areas.flatMap fun i => (sectionsOf dat .enemies i).getLast?.toList

/-- The objects of an area are in one section. -/
def WholeObjects (dat : List QuestDat) : Prop :=
  ∀ i, ∀ hdr ∈ (sectionsOf dat .objects i).dropLast, objectsOf hdr = []

instance decidableWholeObjects (dat : List QuestDat) : Decidable (WholeObjects dat) :=
  inferInstanceAs (Decidable (∀ i, ∀ hdr ∈ (sectionsOf dat .objects i).dropLast,
    objectsOf hdr = []))

/-- What a game reads from a cache file: the whole map, if all of its maps could be parsed. If not,
a file that ends in front of the count is refused, and in another one the count is still zero. -/
def readBack (parseMap : ParseMap) (l : MapLobby) (episode : ℕ) (dat : List QuestDat) :
    ℤ × Option QuestMap :=
  let objs : List GameObject := (allObjects dat).map fun data => ⟨data, 0⟩
  let parsed := expandUpTo parseMap episode (enemySections dat)
  if parsed.2 then (0, some ⟨objs, parsed.1.map (fixup l)⟩)
  else if parsed.1 = [] then (-5, none)
  else (0, some ⟨objs, []⟩)

theorem length_expandUpTo (hdrs : List QuestDat) :
    (expandUpTo parseMap episode hdrs).1.length ≤ hdrs.length * 0xB50 := by
  induction hdrs with
  | nil => exact Nat.zero_le _
  | cons hdr hdrs ih =>
    rw [expandUpTo]
    cases hen : expand parseMap episode hdr with
    | none => exact Nat.zero_le _
    | some en =>
      have hfits := parseMap.fits _ _ _ _ en hen
      simp only [List.length_append, List.length_cons]
      omega

theorem length_enemySections (dat : List QuestDat) : (enemySections dat).length ≤ 17 := by
  have hone (i : Fin 17) : ((sectionsOf dat .enemies i).getLast?.toList).length ≤ 1 := by
    cases (sectionsOf dat .enemies i).getLast? <;> simp
  have hsum := List.sum_le_card_nsmul
    (areas.map fun i => ((sectionsOf dat .enemies i).getLast?.toList).length) 1
    (by simp [hone])
  rw [enemySections, List.length_flatMap]
  simp [areas] at hsum ⊢
  exact hsum

/-- What stands in a cache file behind the objects. -/
def enemyPart (parsed : List GameEnemy × Bool) : List UInt8 :=
  if parsed.2 then le32 (BitVec.ofNat 32 parsed.1.length) ++ parsed.1.flatMap encodeEnemy
  else if parsed.1 = [] then []
  else le32 0 ++ parsed.1.flatMap encodeEnemy

theorem overwrite_end (file bytes : List UInt8) :
    overwrite file file.length bytes = file ++ bytes := by
  simp [overwrite, List.drop_eq_nil_of_le]

theorem cacheFile_eq (hobjects : WholeObjects dat) :
    cacheFile parseMap episode dat =
      le32 (BitVec.ofNat 32 (allObjects dat).length) ++ ((allObjects dat).flatten ++
        enemyPart (expandUpTo parseMap episode (enemySections dat))) := by
  have hlast : (areas.flatMap fun i =>
      ((sectionsOf dat .objects i).getLast?.map objectsOf).getD []) = allObjects dat := by
    unfold allObjects
    congr 1
    funext i
    exact ofLast_eq_of_nil (hobjects i)
  unfold cacheFile enemyPart
  have henemies : (areas.flatMap fun i => (sectionsOf dat .enemies i).getLast?.toList) =
    enemySections dat := rfl
  simp only [parseQuestObjects_count, parseQuestObjects_ptrs, hlast, henemies]
  generalize expandUpTo parseMap episode (enemySections dat) = parsed
  generalize hfront : le32 (BitVec.ofNat 32 (allObjects dat).length) ++ (allObjects dat).flatten =
    front
  rw [← List.append_assoc, hfront]
  by_cases hens : parsed.1 = []
  · cases parsed.2 <;> simp [hens, overwrite_end]
  · have hcount : (le32 (BitVec.ofNat 32 parsed.1.length)).length =
      (List.replicate 4 (0 : UInt8)).length := rfl
    simp only [if_neg hens]
    rw [overwrite_append hcount, List.append_assoc, List.append_assoc]
    cases parsed.2 <;> rfl

theorem expandAll_eq (hdrs : List QuestDat) :
    expandAll parseMap episode hdrs =
      if (expandUpTo parseMap episode hdrs).2 then some (expandUpTo parseMap episode hdrs).1
      else none := by
  induction hdrs with
  | nil => rfl
  | cons hdr hdrs ih =>
    rw [expandAll, expandUpTo, ih]
    cases expand parseMap episode hdr with
    | none => rfl
    | some en => cases (expandUpTo parseMap episode hdrs).2 <;> simp

/-- A file is complete just when all of its maps can be parsed. -/
theorem cacheQuestEnemies_eq (dat : List QuestDat) :
    cacheQuestEnemies parseMap episode dat =
      if (expandUpTo parseMap episode (enemySections dat)).2 then
        some (cacheFile parseMap episode dat)
      else none := by
  have henemies : (areas.flatMap fun i => (sectionsOf dat .enemies i).getLast?.toList) =
    enemySections dat := rfl
  unfold cacheQuestEnemies cacheFile
  simp only [parseQuestObjects_ptrs, henemies, expandAll_eq]
  split_ifs with hparsed hens
  · have hcount : (le32 0).length = (List.replicate 4 (0 : UInt8)).length := rfl
    simp only [hens, Option.map_some, List.flatMap_nil]
    rw [overwrite_end]
    exact congrArg some ((overwrite_append hcount _ []).trans (List.append_nil _))
  · rfl
  · rfl

theorem length_of_mem_allObjects {data : List UInt8} (h : data ∈ allObjects dat) :
    data.length = 68 := by
  obtain ⟨i, -, hi⟩ := List.mem_flatMap.mp h
  obtain ⟨hdr, -, hdr_mem⟩ := List.mem_flatMap.mp hi
  exact length_of_mem_objectsOf hdr_mem

section Objects

variable {l : MapLobby} (hl : l.challenge = false ∧ l.battle = false) {objs : List (List UInt8)}
  (hobjs : ∀ data ∈ objs, data.length = 68) (hcount : objs.length < 2 ^ 32)
  {rest : List UInt8}

include hobjs hcount in
theorem readRecords_objects :
    readRecords 68 (BitVec.ofNat 32 objs.length).toNat (objs.flatten ++ rest) =
      some (objs, rest) := by
  rw [BitVec.toNat_ofNat, Nat.mod_eq_of_lt hcount]
  exact readRecords_flatten hobjs rest

include hl hobjs hcount

/-- A file that ends behind its objects. -/
theorem loadQuestEnemies_short (hrest : rest.length < 4) :
    loadQuestEnemies l (some (le32 (BitVec.ofNat 32 objs.length) ++ (objs.flatten ++ rest))) =
      (-5, none) := by
  have hlong : ¬(le32 (BitVec.ofNat 32 objs.length) ++ (objs.flatten ++ rest)).length < 4 := by
    rw [List.length_append, length_le32]
    omega
  have hdrop : (le32 (BitVec.ofNat 32 objs.length) ++ (objs.flatten ++ rest)).drop 4 =
    objs.flatten ++ rest := rfl
  unfold loadQuestEnemies
  simp only [hl.1, hl.2, Bool.false_eq_true, or_self, if_false, if_neg hlong, readLe32_le32, hdrop,
    readRecords_objects hobjs hcount, if_pos hrest]

theorem loadQuestEnemies_records (hrest : 4 ≤ rest.length) {ens : List (List UInt8)}
    {tail : List UInt8}
    (hens : readRecords 12 (readLe32 (rest.take 4)).toNat (rest.drop 4) = some (ens, tail)) :
    loadQuestEnemies l (some (le32 (BitVec.ofNat 32 objs.length) ++ (objs.flatten ++ rest))) =
      (0, some ⟨objs.map fun data => ⟨data, 0⟩, (ens.map decodeEnemy).map (fixup l)⟩) :=
  (loadQuestEnemies_eq_zero hl _ _ _).mpr
    ⟨objs, rest, ens, tail, readRecords_objects hobjs hcount, hrest, hens, rfl⟩

end Objects

/-- Behind the count stand the enemies. -/
theorem readRecords_enemies (ens : List GameEnemy) :
    readRecords 12 ens.length (ens.flatMap encodeEnemy) = some (ens.map encodeEnemy, []) := by
  have hsize : ∀ r ∈ ens.map encodeEnemy, r.length = 12 := by
    intro r hr
    obtain ⟨e, -, rfl⟩ := List.mem_map.mp hr
    exact length_encodeEnemy e
  have hread := readRecords_flatten hsize []
  rw [List.length_map, List.append_nil] at hread
  exact hread

theorem loadQuestEnemies_cacheFile {l : MapLobby} (hobjects : WholeObjects dat)
    (hsize : (dat.map fun hdr => 16 + hdr.data.length).sum < 2 ^ 32)
    (hl : l.challenge = false ∧ l.battle = false) :
    loadQuestEnemies l (some (cacheFile parseMap episode dat)) =
      readBack parseMap l episode dat := by
  have hcount := (length_allObjects_le dat).trans_lt hsize
  have hobjs : ∀ data ∈ allObjects dat, data.length = 68 := fun _ => length_of_mem_allObjects
  have hens : (expandUpTo parseMap episode (enemySections dat)).1.length < 2 ^ 32 := by
    have hlen : (expandUpTo parseMap episode (enemySections dat)).1.length ≤
        (enemySections dat).length * 0xB50 := length_expandUpTo _
    have hsections := length_enemySections dat
    omega
  have hdrop (n : BitVec 32) (bytes : List UInt8) : (le32 n ++ bytes).drop 4 = bytes := rfl
  have hlong (n : BitVec 32) (bytes : List UInt8) : 4 ≤ (le32 n ++ bytes).length := by
    rw [List.length_append, length_le32]
    omega
  rw [cacheFile_eq hobjects, readBack, enemyPart]
  generalize expandUpTo parseMap episode (enemySections dat) = parsed at hens
  obtain ⟨ens, ok⟩ := parsed
  dsimp only at hens ⊢
  cases ok with
  | true =>
    rw [if_pos rfl, if_pos rfl]
    have hread : readRecords 12
        (readLe32 ((le32 (BitVec.ofNat 32 ens.length) ++ ens.flatMap encodeEnemy).take 4)).toNat
        ((le32 (BitVec.ofNat 32 ens.length) ++ ens.flatMap encodeEnemy).drop 4) =
          some (ens.map encodeEnemy, []) := by
      rw [readLe32_le32, hdrop, BitVec.toNat_ofNat, Nat.mod_eq_of_lt hens]
      exact readRecords_enemies ens
    rw [loadQuestEnemies_records hl hobjs hcount (hlong _ _) hread]
    simp [Function.comp_def, decodeEnemy_encodeEnemy]
  | false =>
    rw [if_neg Bool.false_ne_true, if_neg Bool.false_ne_true]
    by_cases hnil : ens = []
    · rw [if_pos hnil, if_pos hnil]
      exact loadQuestEnemies_short hl hobjs hcount (Nat.zero_lt_succ 3)
    · rw [if_neg hnil, if_neg hnil]
      have hread : readRecords 12 (readLe32 ((le32 0 ++ ens.flatMap encodeEnemy).take 4)).toNat
          ((le32 0 ++ ens.flatMap encodeEnemy).drop 4) = some ([], ens.flatMap encodeEnemy) := by
        rw [readLe32_le32, hdrop]
        rfl
      exact loadQuestEnemies_records hl hobjs hcount (hlong _ _) hread

end Reading

section Games

variable {decompress : List UInt8 → Option (List QuestDat)} {parseMap : ParseMap}

end Games

def plainQuest (qid : BitVec 32) : ListedQuest where
  flag16 := false
  dataFl := false
  joinable := false
  syncRegs := false
  serverFlag16Reg := 0
  serverDataReg := 0
  serverCtlReg := 0
  syncedRegs := []
  monsterTypes := []
  monsterIds := []
  onloadScript := none
  beforeloadScript := none
  qid := qid
  event := 0
  maxPlayers := 4
  minPlayers := 1
  privileges := 0
  startTime := 0
  endTime := 0
  hidden := false
  noDc := false
  noPc := false
  noGc := false
  noXb := false
  episode := 1
  format := .bindat
  name := []
  desc := []

/-- A directory with these quests in the English list for version 2. -/
def englishQuests (quests : QuestList) : Disk where
  file p := some (if p = (.dcv2, QuestLists.english) then quests else [])
  alloc _ := true
  stack _ := .empty
  modes _ _ := false
  quest _ _ := some []
  dirs := true
  opens _ := true
  junk _ := 0

theorem complete_englishQuests (quests : QuestList) : (englishQuests quests).toLoad.Complete where
  reads _ h := by cases h
  maps _ _ := rfl

/-- A Hildebear, and in the next area a record that stands for nothing. -/
def halfMap : List QuestDat :=
  [⟨.enemies, 1, hildebear⟩, ⟨.enemies, 2, List.replicate 72 0⟩]

/-- The quest is no longer there when the lists are read again. -/
def twoLoads : List Disk :=
  loadsOf (englishQuests [[plainQuest 5]]) [(true, englishQuests [])]

theorem complete_twoLoads : ∀ disk ∈ twoLoads, disk.toLoad.Complete := by
  intro disk hdisk
  rcases List.mem_cons.mp hdisk with rfl | hin
  · exact complete_englishQuests _
  · rw [List.mem_singleton.mp hin]
    exact complete_englishQuests _

/-- The Hildebear is in the file, but the game has no monsters at all. -/
example : readBack parseHildebear ⟨false, false, 0, 0⟩ 1 halfMap = (0, some ⟨[], []⟩) := by
  decide

end ShipServer.QuestCaches
