import ShipServer.MapDrops

set_option autoImplicit false

/-! The boxes that the players of a game break, and the scripts that run for them. -/

namespace ShipServer.BoxBreaks

open Versions LabelledRuns DropGenerators MapDrops

abbrev ClientId := ℕ

/-- What `handle_objhit_tech` reads of a character, also behind the ends of the two arrays. -/
structure Skills where
  version : ClientVersion
  techniques : BitVec 8 → BitVec 8
  boosts : BitVec 8 → BitVec 8

/-- What the subcommands of hits have in common. -/
structure PhysHit where
  pktLen : BitVec 16
  size : BitVec 8
  objects : ℕ → BitVec 16

/-- The time is in milliseconds. -/
structure TechHit extends PhysHit where
  tech : BitVec 8
  level : BitVec 8
  skills : Skills
  now : ℕ+

/-- A game: its map, if it has one, and the boxes that scripts have run for since then, each with
the client that has hit it. -/
structure Game where
  map : Option GameMap
  broken : List (ClientId × ℕ)

/-- The games, the timers of the clients, and whether an object outside of a map has been
accessed. -/
structure Server where
  game : ℕ → Game
  aoeTimer : ClientId → ℕ
  outside : Bool

def isBox (skin : BitVec 32) : Bool :=
  (skin &&& 0xFFFF).toNat ∈ [0x0088, 0x0092, 0x0161, 0x0162, 0x0200, 0x0203]

/-- The object that an id names. -/
def objectOf (bid : BitVec 16) : Option ℕ :=
  if bid &&& 0xF000 = 0x4000 then some (bid &&& 0x0FFF).toNat else none

/-- `handle_objhit_common`, for a game with a map. -/
def handleObjhitCommon (l : ℕ) (c : ClientId) (s : Server) (bid : BitVec 16) : Server :=
  match (s.game l).map, objectOf bid with
  | some map, some i =>
    if i > map.objs.length then s
    else
      match map.objs[i]? with
      | none => { s with outside := true }
      | some gobj =>
        if gobj.flags &&& 0x80000000 ≠ 0 then s
        else
          let broken := (s.game l).broken
          { s with
            game := Function.update s.game l
              { map := some (hitObject bid map)
                broken := if isBox gobj.skin then (c, i) :: broken else broken } }
  | _, _ => s

/-- The size of the subcommand is that of the packet. -/
def PhysHit.sane (p : PhysHit) : Bool :=
  decide (p.pktLen.toNat = 4 + 4 * p.size.toNat) && decide (2 ≤ p.size.toNat)

def PhysHit.ids (p : PhysHit) : List (BitVec 16) :=
  (List.range (p.size.toNat - 2)).map p.objects

/-- `handle_objhit_phys`. -/
def handleObjhitPhys (l : ℕ) (c : ClientId) (p : PhysHit) (s : Server) : Server :=
  if p.sane then p.ids.foldl (handleObjhitCommon l c) s else s

/-- `tlindex`, which has no case for level 24. -/
def tlindex (level : BitVec 8) : ℕ :=
  let n := level.toNat
  if n < 5 then 0
  else if n < 10 then 1
  else if n < 15 then 2
  else if n < 20 then 3
  else if n < 24 ∨ n = 25 then 4
  else 5

/-- The level that a technique is taken to have. -/
def TechHit.techLevel (p : TechHit) : BitVec 8 :=
  let known := p.skills.techniques p.tech
  let known := if known = 0xFF then p.level else known
  let boosted :=
    if p.skills.version < .dcv2 then known else known + p.skills.boosts p.tech
  if boosted < p.level then p.level else boosted

/-- How long a technique on an area hits objects. -/
def TechHit.window (p : TechHit) : Option ℕ :=
  match p.tech.toNat with
  | 1 => [5000, 6000, 7000, 8000, 9000, 10000][tlindex p.techLevel]?
  | 2 => [1500, 1400, 1300, 1200, 1100, 1100][tlindex p.techLevel]?
  | 3 => some 1500
  | 4 => some 2200
  | 5 => [1200, 1100, 950, 800, 750, 750][tlindex p.techLevel]?
  | 7 => [1000, 900, 700, 700, 700, 700][tlindex p.techLevel]?
  | 8 => [1200, 1100, 950, 800, 750, 750][tlindex p.techLevel]?
  | _ => none

/-- Foie, Zonde and Grants. -/
def TechHit.single (p : TechHit) : Bool :=
  p.tech.toNat ∈ [0, 6, 9]

/-- `handle_objhit_tech`. -/
def handleObjhitTech (l : ℕ) (c : ClientId) (p : TechHit) (s : Server) : Server :=
  if p.sane = true ∧ (s.game l).map ≠ none then
    if p.single then if p.size = 3 then handleObjhitCommon l c s (p.objects 0) else s
    else
      match p.window with
      | some t => { s with aoeTimer := Function.update s.aoeTimer c (p.now + t) }
      | none => s
  else s

/-- `handle_objhit`. -/
def handleObjhit (l : ℕ) (c : ClientId) (now : ℕ+) (bid : BitVec 16) (s : Server) : Server :=
  if s.aoeTimer c < now then s else handleObjhitCommon l c s bid

/-- A client is new on the ship, a game gets a map or loses it, or a client in a game has hit
something. -/
inductive Event where
  | connects (c : ClientId)
  | load (l : ℕ) (map : Option GameMap)
  | phys (l : ℕ) (c : ClientId) (p : PhysHit)
  | tech (l : ℕ) (c : ClientId) (p : TechHit)
  | objhit (l : ℕ) (c : ClientId) (now : ℕ+) (bid : BitVec 16)

def next (s : Server) : Event → Server
  | .connects c => { s with aoeTimer := Function.update s.aoeTimer c 0 }
  | .load l map => { s with game := Function.update s.game l ⟨map, []⟩ }
  | .phys l c p => handleObjhitPhys l c p s
  | .tech l c p => handleObjhitTech l c p s
  | .objhit l c now bid => handleObjhit l c now bid s

def started : Server where
  game _ := ⟨none, []⟩
  aoeTimer _ := 0
  outside := false

/-- The client has used a technique on an area, and its window ends at this time. -/
def Opens (c : ClientId) (stop : ℕ) : Event → Prop
  | .tech _ c' p => c' = c ∧ ∃ t, p.window = some t ∧ stop = p.now + t
  | _ => False

/-- The hit names the object: as one of those of a physical attack, as the only one of a technique
on one target, or by itself while a window of the client's is open. -/
def Breaks (past : List Event) (l : ℕ) (c : ClientId) (i : ℕ) : Event → Prop
  | .phys l' c' p => l' = l ∧ c' = c ∧ ∃ bid ∈ p.ids, objectOf bid = some i
  | .tech l' c' p => l' = l ∧ c' = c ∧ p.single = true ∧ p.size = 3 ∧
      objectOf (p.objects 0) = some i
  | .objhit l' c' now bid => l' = l ∧ c' = c ∧ objectOf bid = some i ∧
      ∃ f ∈ past, ∃ stop, Opens c stop f ∧ now ≤ stop
  | _ => False

/-- One of the events is a hit that names the object. -/
def Caused (es : List Event) (l : ℕ) (c : ClientId) (i : ℕ) : Prop :=
  ∃ pre e post, es = pre ++ e :: post ∧ Breaks pre l c i e

/-- The boxes that scripts have run for are boxes of the map with their marks, each of them once. -/
structure GameSound (P : ClientId → ℕ → Prop) (g : Game) : Prop where
  marked : ∀ x ∈ g.broken, ∃ map gobj, g.map = some map ∧ map.objs[x.2]? = some gobj ∧
    isBox gobj.skin = true ∧ gobj.flags &&& 0x80000000 ≠ 0
  once : (g.broken.map Prod.snd).Nodup
  caused : ∀ x ∈ g.broken, P x.1 x.2

def Sound (P : ℕ → ClientId → ℕ → Prop) (s : Server) : Prop :=
  ∀ l, GameSound (P l) (s.game l)

section Hits

variable {P Q : ℕ → ClientId → ℕ → Prop} {s : Server} {l : ℕ} {c : ClientId} {bid : BitVec 16}

theorem objs_hitObject {i : ℕ} (h : objectOf bid = some i) (map : GameMap) :
    (hitObject bid map).objs =
      map.objs.modify i fun gobj => { gobj with flags := gobj.flags ||| 0x80000000 } := by
  rw [objectOf] at h
  split at h
  next hobject =>
    cases h
    rw [hitObject, if_pos hobject]
  next => cases h

theorem mark_set (flags : BitVec 32) : (flags ||| 0x80000000) &&& 0x80000000 ≠ (0 : BitVec 32) := by
  intro h
  have hbit := congrArg (fun x : BitVec 32 => x.getLsbD 31) h
  simp at hbit

/-- What a hit does, if anything. -/
inductive Hit (l : ℕ) (c : ClientId) (s : Server) (bid : BitVec 16) : Server → Prop where
  | nothing : Hit l c s bid s
  | outside (map : GameMap) (hmap : (s.game l).map = some map)
      (hobject : objectOf bid = some map.objs.length) : Hit l c s bid { s with outside := true }
  | marks (map : GameMap) (i : ℕ) (gobj : GameObject) (hmap : (s.game l).map = some map)
      (hobject : objectOf bid = some i) (hget : map.objs[i]? = some gobj)
      (hfree : gobj.flags &&& 0x80000000 = 0) :
      Hit l c s bid
        { s with
          game := Function.update s.game l
            { map := some (hitObject bid map)
              broken := if isBox gobj.skin then (c, i) :: (s.game l).broken
                else (s.game l).broken } }

theorem handleObjhitCommon_hit (l : ℕ) (c : ClientId) (s : Server) (bid : BitVec 16) :
    Hit l c s bid (handleObjhitCommon l c s bid) := by
  rw [handleObjhitCommon]
  split
  next map i hmap hobject =>
    split
    next => exact .nothing
    next hle =>
      split
      next hget =>
        have hlength := List.getElem?_eq_none_iff.1 hget
        exact .outside map hmap (by rw [hobject]; congr 1; omega)
      next gobj hget =>
        split
        next => exact .nothing
        next hfree => exact .marks map i gobj hmap hobject hget (not_not.1 hfree)
  next => exact .nothing

theorem Sound.mono (h : Sound P s) (hPQ : ∀ l c i, P l c i → Q l c i) : Sound Q s := by
  intro l
  exact ⟨(h l).marked, (h l).once, fun x hx => hPQ l x.1 x.2 ((h l).caused x hx)⟩

theorem Sound.hit {t : Server} (h : Sound P s) (hP : ∀ i, objectOf bid = some i → P l c i)
    (ht : Hit l c s bid t) : Sound P t := by
  cases ht with
  | nothing => exact h
  | outside => exact h
  | marks map i gobj hmap hobject hget hfree =>
    intro l'
    by_cases hl : l' = l
    · subst hl
      simp only [Function.update_self]
      have hmodify := objs_hitObject hobject map
      have hkept : ∀ x ∈ (s.game l').broken, ∃ map' gobj', some (hitObject bid map) = some map' ∧
          map'.objs[x.2]? = some gobj' ∧ isBox gobj'.skin = true ∧
          gobj'.flags &&& 0x80000000 ≠ 0 := by
        intro x hx
        obtain ⟨map₀, gobj₀, hmap₀, hget₀, hbox₀, hmark₀⟩ := (h l').marked x hx
        rw [hmap] at hmap₀
        cases hmap₀
        refine ⟨_, gobj₀, rfl, ?_, hbox₀, hmark₀⟩
        have hne : i ≠ x.2 := by
          intro heq
          rw [← heq, hget] at hget₀
          cases hget₀
          exact hmark₀ hfree
        rw [hmodify, List.getElem?_modify, hget₀]
        simp [hne]
      by_cases hbox : isBox gobj.skin = true
      · rw [if_pos hbox]
        have hnew : i ∉ (s.game l').broken.map Prod.snd := by
          intro hmem
          obtain ⟨x, hx, rfl⟩ := List.mem_map.1 hmem
          obtain ⟨map₀, gobj₀, hmap₀, hget₀, -, hmark₀⟩ := (h l').marked x hx
          rw [hmap] at hmap₀
          cases hmap₀
          rw [hget] at hget₀
          cases hget₀
          exact hmark₀ hfree
        refine ⟨fun x hx => ?_, ?_, fun x hx => ?_⟩
        · rcases List.mem_cons.1 hx with rfl | hx
          · refine ⟨_, { gobj with flags := gobj.flags ||| 0x80000000 }, rfl, ?_, hbox, mark_set _⟩
            rw [hmodify, List.getElem?_modify, hget]
            simp
          · exact hkept x hx
        · exact List.nodup_cons.2 ⟨hnew, (h l').once⟩
        · rcases List.mem_cons.1 hx with rfl | hx
          · exact hP i hobject
          · exact (h l').caused x hx
      · rw [if_neg hbox]
        exact ⟨hkept, (h l').once, (h l').caused⟩
    · simp only [Function.update_of_ne hl]
      exact h l'

theorem Sound.common (h : Sound P s) (hP : ∀ i, objectOf bid = some i → P l c i) :
    Sound P (handleObjhitCommon l c s bid) :=
  h.hit hP (handleObjhitCommon_hit l c s bid)

theorem Sound.foldl (h : Sound P s) {bids : List (BitVec 16)}
    (hP : ∀ bid ∈ bids, ∀ i, objectOf bid = some i → P l c i) :
    Sound P (bids.foldl (handleObjhitCommon l c) s) := by
  induction bids generalizing s with
  | nil => exact h
  | cons bid bids ih =>
    exact ih (h.common (hP bid List.mem_cons_self))
      fun bid' hbid' => hP bid' (List.mem_cons_of_mem bid hbid')

end Hits

/-- A timer that has been set ends with a window of the client's. -/
def Timed (es : List Event) (s : Server) : Prop :=
  ∀ c, s.aoeTimer c = 0 ∨ ∃ f ∈ es, ∃ stop, Opens c stop f ∧ s.aoeTimer c ≤ stop

section Runs

variable {s : Server} {es : List Event}

theorem Caused.append {l i : ℕ} {c : ClientId} (h : Caused es l c i) (fs : List Event) :
    Caused (es ++ fs) l c i := by
  obtain ⟨pre, e, post, rfl, hbreaks⟩ := h
  exact ⟨pre, e, post ++ fs, by simp, hbreaks⟩

theorem caused_last {l i : ℕ} {c : ClientId} {e : Event} (h : Breaks es l c i e) :
    Caused (es ++ [e]) l c i :=
  ⟨es, e, [], rfl, h⟩

theorem Hit.aoeTimer {l : ℕ} {c : ClientId} {bid : BitVec 16} {t : Server}
    (h : Hit l c s bid t) : t.aoeTimer = s.aoeTimer := by
  cases h <;> rfl

theorem aoeTimer_common (l : ℕ) (c : ClientId) (s : Server) (bid : BitVec 16) :
    (handleObjhitCommon l c s bid).aoeTimer = s.aoeTimer :=
  (handleObjhitCommon_hit l c s bid).aoeTimer

theorem aoeTimer_foldl (l : ℕ) (c : ClientId) (s : Server) (bids : List (BitVec 16)) :
    (bids.foldl (handleObjhitCommon l c) s).aoeTimer = s.aoeTimer := by
  induction bids generalizing s with
  | nil => rfl
  | cons bid bids ih =>
    apply (ih (handleObjhitCommon l c s bid)).trans
    exact aoeTimer_common l c s bid

theorem Timed.append (h : Timed es s) (fs : List Event) : Timed (es ++ fs) s := by
  intro c
  apply (h c).imp_right
  rintro ⟨f, hf, hstop⟩
  exact ⟨f, List.mem_append_left fs hf, hstop⟩

theorem Timed.same {t : Server} (h : Timed es s) (ht : t.aoeTimer = s.aoeTimer) : Timed es t := by
  intro c
  rw [ht]
  exact h c

theorem next_timed (h : Timed es s) (e : Event) : Timed (es ++ [e]) (next s e) := by
  have hold := h.append [e]
  cases e with
  | connects c =>
    intro c'
    by_cases hc : c' = c
    · subst hc
      left
      simp [next]
    · have hsame : (next s (.connects c)).aoeTimer c' = s.aoeTimer c' := by
        simp [next, hc]
      rw [hsame]
      exact hold c'
  | load l map => exact hold.same rfl
  | phys l c p =>
    apply hold.same
    rw [next, handleObjhitPhys]
    split
    next => exact aoeTimer_foldl l c s p.ids
    next => rfl
  | tech l c p =>
    rw [next, handleObjhitTech]
    split
    next =>
      split
      next =>
        split
        next => exact hold.same (aoeTimer_common l c s (p.objects 0))
        next => exact hold
      next =>
        split
        next t ht =>
          intro c'
          by_cases hc : c' = c
          · subst hc
            right
            have hlast : Event.tech l c' p ∈ es ++ [Event.tech l c' p] := by simp
            exact ⟨_, hlast, p.now + t, ⟨rfl, t, ht, rfl⟩, by simp⟩
          · simp only [Function.update_of_ne hc]
            exact hold c'
        next => exact hold
    next => exact hold
  | objhit l c now bid =>
    apply hold.same
    rw [next, handleObjhit]
    split
    next => rfl
    next => exact aoeTimer_common l c s bid

theorem next_sound (h : Sound (Caused es) s) (htimed : Timed es s) (e : Event) :
    Sound (Caused (es ++ [e])) (next s e) := by
  have hold : Sound (Caused (es ++ [e])) s := h.mono fun l c i hcaused => hcaused.append [e]
  cases e with
  | connects c => exact hold
  | load l map =>
    intro l'
    by_cases hl : l' = l
    · subst hl
      simp only [next, Function.update_self]
      exact ⟨by simp, by simp, by simp⟩
    · simp only [next, Function.update_of_ne hl]
      exact hold l'
  | phys l c p =>
    rw [next, handleObjhitPhys]
    split
    next =>
      apply hold.foldl
      intro bid hbid i hobject
      exact caused_last ⟨rfl, rfl, bid, hbid, hobject⟩
    next => exact hold
  | tech l c p =>
    rw [next, handleObjhitTech]
    split
    next =>
      split
      next hsingle =>
        split
        next hsize =>
          apply hold.common
          intro i hobject
          exact caused_last ⟨rfl, rfl, hsingle, hsize, hobject⟩
        next => exact hold
      next =>
        split
        next => exact hold
        next => exact hold
    next => exact hold
  | objhit l c now bid =>
    rw [next, handleObjhit]
    split
    next => exact hold
    next hopen =>
      apply hold.common
      intro i hobject
      have hnow := now.pos
      obtain hzero | ⟨f, hf, stop, hopens, hstop⟩ := htimed c
      · omega
      · exact caused_last ⟨rfl, rfl, hobject, f, hf, stop, hopens, by omega⟩

end Runs

/-- The id does not name the object behind the last one of the map. -/
def Within (s : Server) (l : ℕ) (bid : BitVec 16) : Prop :=
  ∀ map, (s.game l).map = some map → objectOf bid ≠ some map.objs.length

/-- None of the ids that are looked at does. -/
def Inside (s : Server) : Event → Prop
  | .phys l _ p => p.sane = true → ∀ bid ∈ p.ids, Within s l bid
  | .tech l _ p => p.sane = true → p.single = true → p.size = 3 → Within s l (p.objects 0)
  | .objhit l c now bid => now ≤ s.aoeTimer c → Within s l bid
  | _ => True

section Accesses

variable {s t : Server} {l : ℕ} {c : ClientId} {bid : BitVec 16}

/-- The maps keep their lengths. -/
theorem Hit.within_iff (h : Hit l c s bid t) (bid' : BitVec 16) :
    Within t l bid' ↔ Within s l bid' := by
  cases h with
  | nothing => rfl
  | outside => rfl
  | marks map i gobj hmap hobject =>
    have hlength : (hitObject bid map).objs.length = map.objs.length := by
      rw [objs_hitObject hobject, List.length_modify]
    simp [Within, hmap, hlength]

theorem Hit.outside_of_true (h : Hit l c s bid t) (hs : s.outside = true) : t.outside = true := by
  cases h with
  | nothing => exact hs
  | outside => rfl
  | marks => exact hs

theorem common_outside_iff (hs : s.outside = false) :
    (handleObjhitCommon l c s bid).outside = false ↔ Within s l bid := by
  constructor
  · intro hinside map hmap hobject
    rw [handleObjhitCommon, hmap, hobject] at hinside
    simp at hinside
  · intro hwithin
    have hhit := handleObjhitCommon_hit l c s bid
    generalize handleObjhitCommon l c s bid = t at hhit ⊢
    cases hhit with
    | nothing => exact hs
    | outside map hmap hobject => exact absurd hobject (hwithin map hmap)
    | marks => exact hs

theorem foldl_outside_of_true {bids : List (BitVec 16)} (hs : s.outside = true) :
    (bids.foldl (handleObjhitCommon l c) s).outside = true := by
  induction bids generalizing s with
  | nil => exact hs
  | cons bid bids ih => exact ih ((handleObjhitCommon_hit l c s bid).outside_of_true hs)

theorem foldl_outside_iff {bids : List (BitVec 16)} (hs : s.outside = false) :
    (bids.foldl (handleObjhitCommon l c) s).outside = false ↔ ∀ bid ∈ bids, Within s l bid := by
  induction bids generalizing s with
  | nil => simp [hs]
  | cons bid bids ih =>
    rw [List.foldl_cons, List.forall_mem_cons, ← common_outside_iff hs]
    have hhit := handleObjhitCommon_hit l c s bid
    cases hout : (handleObjhitCommon l c s bid).outside with
    | true => simp [foldl_outside_of_true hout]
    | false =>
      rw [ih hout]
      simp [hhit.within_iff]

theorem next_outside_iff (hs : s.outside = false) (e : Event) :
    (next s e).outside = false ↔ Inside s e := by
  cases e with
  | connects c => simp [next, Inside, hs]
  | load l map => simp [next, Inside, hs]
  | phys l c p =>
    rw [next, handleObjhitPhys, Inside]
    split
    next hsane => simp [foldl_outside_iff hs, hsane]
    next hsane => simp [hs, hsane]
  | tech l c p =>
    rw [next, handleObjhitTech, Inside]
    split
    next hsane =>
      split
      next hsingle =>
        split
        next hsize => simp [common_outside_iff hs, hsane.1, hsingle, hsize]
        next hsize => exact ⟨fun _ _ _ hthree => absurd hthree hsize, fun _ => hs⟩
      next hsingle =>
        split
        next => simp [hs, hsingle]
        next => simp [hs, hsingle]
    next hsane =>
      by_cases hmap : (s.game l).map = none
      · simp [hs, Within, hmap]
      · have hinsane : p.sane ≠ true := fun h => hsane ⟨h, hmap⟩
        simp [hs, hinsane]
  | objhit l c now bid =>
    rw [next, handleObjhit, Inside]
    split
    next hclosed => simp [hs, hclosed]
    next hopen => simp [common_outside_iff hs, not_lt.1 hopen]

/-- Through any run, only objects of the maps are accessed exactly when no hit that is looked at
names the object behind the last one, which the check of the range lets through. -/
theorem objects_inside (es : List Event) :
    Run (StepOf next) Inside started es (es.foldl next started) ↔
      ∀ fs, fs <+: es → (fs.foldl next started).outside = false :=
  run_iff_prefixes (fun s : Server => s.outside = false) (fun _ e hs => next_outside_iff hs e)
    rfl es

end Accesses

end ShipServer.BoxBreaks
