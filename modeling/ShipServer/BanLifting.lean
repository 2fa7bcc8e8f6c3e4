import ShipServer.LoginHandlers

set_option autoImplicit false

/-! Bans that are lifted, and those that run out. -/

namespace ShipServer.BanLifting

open LoginHandlers

/-- What is done to the nodes of a queue. A node is freed together with its reason. -/
inductive Event where
  | read (k : ℕ)
  | unlink (k : ℕ)
  | free (k : ℕ)
  deriving DecidableEq

def Event.node : Event → ℕ
  | .read k => k
  | .unlink k => k
  | .free k => k

/-- A queue after a pass over its nodes. -/
structure Pass (α : Type*) where
  left : List α
  trace : List Event
  numLifted : ℕ
  numMatching : ℕ

section Passes

variable {α : Type*}

def removal (k : ℕ) : Bool → List Event
  | true => [.unlink k, .free k]
  | false => []

/-- The loop over a queue, from node `k` on. The end of the ban is read after a node that matches
has been freed: `stale` is what that memory holds by then. -/
def pass (now : ℤ) (found : α → Bool) (endTime : α → ℤ) (stale : ℕ → ℤ) : ℕ → List α → Pass α
  | _, [] => ⟨[], [], 0, 0⟩
  | k, i :: is =>
    let rest := pass now found endTime stale (k + 1) is
    let ended := !unexpired now (if found i then stale k else endTime i)
    { left := if found i || ended then rest.left else i :: rest.left
      trace := .read k :: removal k (found i) ++ .read k :: removal k ended ++ rest.trace
      numLifted := (found i).toNat + ended.toNat + rest.numLifted
      numMatching := (found i).toNat + rest.numMatching }

/-- No node is read once it has been freed. -/
def Unread (trace : List Event) : Prop :=
  trace.Pairwise fun e f => ∀ k, e = .free k → f ≠ .read k

/-- The pass takes out exactly the nodes it should, once each, and leaves them alone afterwards. -/
structure Removes (removed : α → Bool) (before : List α) (p : Pass α) : Prop where
  left : p.left = before.filter fun i => !removed i
  once : ∀ k (h : k < before.length), removed (before.get ⟨k, h⟩) = true →
    p.trace.count (.unlink k) = 1 ∧ p.trace.count (.free k) = 1
  unread : Unread p.trace

end Passes

/-- A `sockaddr_storage`. The bytes of `sin_addr` are other ones than those of `sin6_addr`. -/
structure Sockaddr where
  inet : Bool
  sAddr : BitVec 32
  s6Addr : Fin 4 → BitVec 32

def Sockaddr.address (ip : Sockaddr) : Address :=
  if ip.inet then .inet ip.sAddr else .inet6 ip.s6Addr

/-- The comparison of the pass over the IP bans, which looks at the family of the ban only. -/
def ipFound (ip : Sockaddr) (i : IpBan) : Bool :=
  if i.ipv6 then eqIp6 ip.s6Addr i.ipAddr i.netmask else i.ipAddr 0 = ip.sAddr

/-- The value returned, the bans afterwards, and the passes over both queues. -/
structure Outcome where
  rv : Int
  gcPass : Pass GuildcardBan
  ipPass : Pass IpBan

def Outcome.bans (o : Outcome) : BanList where
  guildcardBans := o.gcPass.left
  ipBans := o.ipPass.left

/-- A queue that is not looked at. -/
def untouched {α : Type*} (l : List α) : Pass α :=
  ⟨l, [], 0, 0⟩

def lifted (saved : Bool) (numLifted numMatching : ℕ) : Int :=
  if numLifted = 0 then -1
  else if saved then if numMatching = 0 then -1 else 0
  else -2

def banLiftGuildcardBan (s : BanList) (now : ℤ) (saved : Bool) (stale : ℕ → ℤ)
    (guildcard : BitVec 32) : Outcome :=
  let p := pass now (fun i => i.bannedGc = guildcard) GuildcardBan.endTime stale 0 s.guildcardBans
  { rv := lifted saved p.numLifted p.numMatching, gcPass := p, ipPass := untouched s.ipBans }

def banLiftIpBan (s : BanList) (now : ℤ) (saved : Bool) (stale : ℕ → ℤ) (ip : Sockaddr) : Outcome :=
  let p := pass now (ipFound ip) IpBan.endTime stale 0 s.ipBans
  { rv := lifted saved p.numLifted p.numMatching, gcPass := untouched s.guildcardBans, ipPass := p }

def banSweep (s : BanList) (now : ℤ) (saved : Bool) (stale : ℕ → ℤ) : Outcome :=
  let p := pass now (fun _ => false) GuildcardBan.endTime stale 0 s.guildcardBans
  let q := pass now (fun _ => false) IpBan.endTime stale 0 s.ipBans
  { rv := if p.numLifted + q.numLifted = 0 ∨ saved then 0 else -1, gcPass := p, ipPass := q }

inductive Call where
  | liftGuildcard (guildcard : BitVec 32)
  | liftIp (ip : Sockaddr)
  | sweep

def run (s : BanList) (now : ℤ) (saved : Bool) (stale : ℕ → ℤ) : Call → Outcome
  | .liftGuildcard guildcard => banLiftGuildcardBan s now saved stale guildcard
  | .liftIp ip => banLiftIpBan s now saved stale ip
  | .sweep => banSweep s now saved stale

namespace Call

/-- The guildcard bans that a call should take out. -/
def gcRemoved (now : ℤ) : Call → GuildcardBan → Bool
  | .liftGuildcard guildcard, i => i.bannedGc = guildcard || !unexpired now i.endTime
  | .liftIp _, _ => false
  | .sweep, i => !unexpired now i.endTime

def ipRemoved (now : ℤ) : Call → IpBan → Bool
  | .liftGuildcard _, _ => false
  | .liftIp ip, i => ipFound ip i || !unexpired now i.endTime
  | .sweep, i => !unexpired now i.endTime

/-- What was to be lifted is no longer banned. -/
def Freed (c : Call) (s : BanList) (now : ℤ) : Prop :=
  match c with
  | .liftGuildcard guildcard => isGuildcardBanned s now guildcard = none
  | .liftIp ip => isIpBanned s now ip.address = none
  | .sweep => True

/-- No ban in the list is one that the call is to lift. -/
def NoneFound (c : Call) (s : BanList) : Prop :=
  match c with
  | .liftGuildcard guildcard => ∀ i ∈ s.guildcardBans, i.bannedGc ≠ guildcard
  | .liftIp ip => ∀ i ∈ s.ipBans, ipFound ip i = false
  | .sweep => True

end Call

/-- A call takes out the bans it should, and decides nothing else anew, then or later. -/
structure Lifts (s : BanList) (now : ℤ) (saved : Bool) (stale : ℕ → ℤ) (c : Call) : Prop where
  guildcards : Removes (c.gcRemoved now) s.guildcardBans (run s now saved stale c).gcPass
  ips : Removes (c.ipRemoved now) s.ipBans (run s now saved stale c).ipPass
  freed : (run s now saved stale c).rv = 0 → ∀ t, now ≤ t → c.Freed (run s now saved stale c).bans t
  sameGuildcard : ∀ t, now ≤ t → ∀ guildcard, c ≠ .liftGuildcard guildcard →
    isGuildcardBanned (run s now saved stale c).bans t guildcard = isGuildcardBanned s t guildcard
  sameIp : ∀ t, now ≤ t → ∀ a, (∀ i ∈ s.ipBans, c.ipRemoved now i = true → ¬i.Covers a) →
    isIpBanned (run s now saved stale c).bans t a = isIpBanned s t a

section Passes

variable {α : Type*} {now : ℤ} {found : α → Bool} {endTime : α → ℤ} {stale : ℕ → ℤ}

theorem pass_cons (k : ℕ) (i : α) (is : List α) :
    (pass now found endTime stale k (i :: is)).trace =
      (.read k :: removal k (found i) ++ .read k ::
        removal k (!unexpired now (if found i then stale k else endTime i))) ++
        (pass now found endTime stale (k + 1) is).trace := by
  rw [pass]

theorem mem_removal {k : ℕ} {b : Bool} {e : Event} (h : e ∈ removal k b) :
    e = .unlink k ∨ e = .free k := by
  cases b
  · cases h
  · simpa [removal] using h

/-- The trace from node `k` on is about later nodes too, and no others. -/
theorem le_node_of_mem {k : ℕ} {l : List α} {e : Event}
    (h : e ∈ (pass now found endTime stale k l).trace) : k ≤ e.node := by
  induction l generalizing k with
  | nil => cases h
  | cons i is ih =>
    rw [pass_cons, List.mem_append] at h
    rcases h with hfirst | hrest
    · have hremoval (b : Bool) (h : e ∈ removal k b) : e.node = k := by
        rcases mem_removal h with rfl | rfl
        · rfl
        · rfl
      simp only [List.cons_append, List.mem_cons, List.mem_append] at hfirst
      rcases hfirst with rfl | hfound | rfl | hended
      · exact le_rfl
      · exact (hremoval _ hfound).ge
      · exact le_rfl
      · exact (hremoval _ hended).ge
    · exact (Nat.le_succ k).trans (ih hrest)

/-- A node that is found is read after it has been freed. -/
theorem not_unread {k : ℕ} {l : List α} {i : α} (hi : i ∈ l) (hfound : found i = true) :
    ¬Unread (pass now found endTime stale k l).trace := by
  induction l generalizing k with
  | nil => cases hi
  | cons j js ih =>
    rw [pass_cons]
    intro hunread
    obtain ⟨hfirst, hrest, -⟩ := List.pairwise_append.mp hunread
    rcases List.mem_cons.mp hi with rfl | hlater
    · rw [hfound] at hfirst
      obtain ⟨-, -, hcross⟩ := List.pairwise_append.mp hfirst
      exact hcross (.free k) (by simp [removal]) (.read k) List.mem_cons_self k rfl rfl
    · exact ih hlater hrest

theorem pass_congr (k : ℕ) {l : List α} (h : ∀ i ∈ l, found i = false) :
    pass now found endTime stale k l = pass now (fun _ => false) endTime stale k l := by
  induction l generalizing k with
  | nil => rfl
  | cons i is ih =>
    rw [pass, pass, ih (k + 1) fun j hj => h j (List.mem_cons_of_mem i hj),
      h i List.mem_cons_self]

theorem numMatching_sweep (k : ℕ) (l : List α) :
    (pass now (fun _ => false) endTime stale k l).numMatching = 0 := by
  induction l generalizing k with
  | nil => rfl
  | cons i is ih =>
    rw [pass]
    exact (Nat.zero_add _).trans (ih (k + 1))

theorem numMatching_eq_zero (k : ℕ) {l : List α} (h : ∀ i ∈ l, found i = false) :
    (pass now found endTime stale k l).numMatching = 0 := by
  rw [pass_congr k h, numMatching_sweep]

theorem left_sweep (k : ℕ) (l : List α) :
    (pass now (fun _ => false) endTime stale k l).left =
      l.filter fun i => unexpired now (endTime i) := by
  induction l generalizing k with
  | nil => rfl
  | cons i is ih =>
    rw [pass, List.filter_cons]
    cases hend : unexpired now (endTime i) <;> simp [hend, ih]

/-- Where nothing is found, a node is freed only when it has been read for the last time. -/
theorem trace_sweep_cons (k : ℕ) (i : α) (is : List α) :
    (pass now (fun _ => false) endTime stale k (i :: is)).trace =
      (.read k :: .read k :: removal k (!unexpired now (endTime i))) ++
        (pass now (fun _ => false) endTime stale (k + 1) is).trace := by
  rw [pass_cons]
  rfl

theorem node_eq_of_mem {k : ℕ} {b : Bool} {e : Event}
    (h : e ∈ .read k :: .read k :: removal k b) : e.node = k := by
  simp only [List.mem_cons] at h
  rcases h with rfl | rfl | h
  · rfl
  · rfl
  · rcases mem_removal h with rfl | rfl
    · rfl
    · rfl

theorem unread_sweep (k : ℕ) (l : List α) :
    Unread (pass now (fun _ => false) endTime stale k l).trace := by
  induction l generalizing k with
  | nil => exact List.Pairwise.nil
  | cons i is ih =>
    rw [trace_sweep_cons]
    refine List.pairwise_append.mpr ⟨?_, ih (k + 1), ?_⟩
    · cases !unexpired now (endTime i) <;> simp [removal]
    · intro e he f hf n hfree hread
      have hlater := le_node_of_mem hf
      have hnode := node_eq_of_mem he
      rw [hread] at hlater
      rw [hfree] at hnode
      exact absurd (hlater.trans_eq hnode) (Nat.not_succ_le_self k)

theorem count_eq_zero {k : ℕ} {l : List α} {e : Event} (h : e.node < k) :
    (pass now (fun _ => false) endTime stale k l).trace.count e = 0 := by
  refine List.count_eq_zero_of_not_mem ?_
  intro hmem
  have hle := le_node_of_mem hmem
  omega

theorem once_sweep (k : ℕ) (l : List α) (j : ℕ) (h : j < l.length)
    (hended : unexpired now (endTime l[j]) = false) :
    (pass now (fun _ => false) endTime stale k l).trace.count (.unlink (k + j)) = 1 ∧
      (pass now (fun _ => false) endTime stale k l).trace.count (.free (k + j)) = 1 := by
  induction l generalizing k j with
  | nil => cases h
  | cons i is ih =>
    rw [trace_sweep_cons]
    cases j with
    | zero =>
      have hi : unexpired now (endTime i) = false := hended
      rw [hi, List.count_append, List.count_append, count_eq_zero (Nat.lt_succ_self k),
        count_eq_zero (Nat.lt_succ_self k)]
      simp [removal]
    | succ j =>
      have hfirst (e : Event) (he : e.node = k + (j + 1)) :
          (.read k :: .read k :: removal k (!unexpired now (endTime i))).count e = 0 := by
        refine List.count_eq_zero_of_not_mem ?_
        intro hmem
        have hnode := node_eq_of_mem hmem
        omega
      have hrest := ih (k + 1) j (Nat.lt_of_succ_lt_succ h) hended
      rw [Nat.add_assoc, Nat.add_comm 1 j] at hrest
      rw [List.count_append, List.count_append, hfirst (.unlink _) rfl, hfirst (.free _) rfl,
        Nat.zero_add, Nat.zero_add]
      exact hrest

/-- A pass does what it should exactly when it finds nothing. -/
theorem removes_pass_iff (l : List α) :
    Removes (fun i => found i || !unexpired now (endTime i)) l
      (pass now found endTime stale 0 l) ↔ ∀ i ∈ l, found i = false := by
  constructor
  · intro h i hi
    by_contra hfound
    exact not_unread hi (Bool.of_not_eq_false hfound) h.unread
  · intro h
    rw [pass_congr 0 h]
    refine ⟨?_, ?_, unread_sweep 0 l⟩
    · rw [left_sweep]
      refine List.filter_congr fun i hi => ?_
      rw [h i hi, Bool.false_or, Bool.not_not]
    · intro k hk hremoved
      have hended : unexpired now (endTime l[k]) = false := by
        have hnot := h l[k] (List.getElem_mem hk)
        simpa [hnot] using hremoved
      rw [← Nat.zero_add k]
      exact once_sweep 0 l k hk hended

theorem removes_untouched (l : List α) : Removes (fun _ => false) l (untouched l) := by
  refine ⟨(List.filter_eq_self.mpr fun _ _ => rfl).symm, ?_, List.Pairwise.nil⟩
  intro k hk hremoved
  cases hremoved

end Passes

section Decisions

variable {s : BanList} {now t : ℤ}

theorem unexpired_mono (h : now ≤ t) {endTime : ℤ} (ht : unexpired t endTime = true) :
    unexpired now endTime = true := by
  simp only [unexpired, decide_eq_true_eq] at ht ⊢
  omega

/-- A search among the nodes that stay finds what a search among all of them does, if it looks for
none of the others. -/
theorem find_filter {α : Type*} {keep p : α → Bool} {l : List α}
    (h : ∀ i ∈ l, p i = true → keep i = true) : (l.filter keep).find? p = l.find? p := by
  rw [List.find?_filter]
  refine List.find?_congr fun i hi => ?_
  cases hp : p i
  · simp
  · simp [h i hi hp]

theorem sameGuildcard_of_left {bans : BanList} {removed : GuildcardBan → Bool}
    {guildcard : BitVec 32}
    (hleft : bans.guildcardBans = s.guildcardBans.filter fun i => !removed i)
    (hkeep : ∀ i ∈ s.guildcardBans, i.bannedGc = guildcard → unexpired t i.endTime = true →
      removed i = false) :
    isGuildcardBanned bans t guildcard = isGuildcardBanned s t guildcard := by
  rw [isGuildcardBanned, isGuildcardBanned, hleft, find_filter]
  intro i hi hmatch
  obtain ⟨hgc, hend⟩ := of_decide_eq_true hmatch
  rw [hkeep i hi hgc hend]
  rfl

theorem sameIp_of_left {bans : BanList} {removed : IpBan → Bool} {a : Address}
    (hleft : bans.ipBans = s.ipBans.filter fun i => !removed i)
    (hkeep : ∀ i ∈ s.ipBans, i.Covers a → removed i = false) :
    isIpBanned bans t a = isIpBanned s t a := by
  cases a with
  | inet sAddr =>
    rw [isIpBanned, isIpBanned, isIp4Banned, isIp4Banned, hleft, find_filter]
    intro i hi hmatch
    obtain ⟨hfamily, -, haddr⟩ := of_decide_eq_true hmatch
    rw [hkeep i hi ⟨hfamily, haddr⟩]
    rfl
  | inet6 s6Addr =>
    rw [isIpBanned, isIpBanned, isIp6Banned, isIp6Banned, hleft, find_filter]
    intro i hi hmatch
    obtain ⟨hfamily, -, haddr⟩ := of_decide_eq_true hmatch
    rw [hkeep i hi ⟨hfamily, of_decide_eq_true haddr⟩]
    rfl

theorem lifted_ne_zero (saved : Bool) (n : ℕ) : lifted saved n 0 ≠ 0 := by
  unfold lifted
  rw [if_pos (rfl : 0 = 0)]
  split_ifs <;> decide

end Decisions

section Calls

variable {s : BanList} {now : ℤ} {saved : Bool} {stale : ℕ → ℤ} {c : Call}

theorem run_guildcards (h : c.NoneFound s) :
    Removes (c.gcRemoved now) s.guildcardBans (run s now saved stale c).gcPass := by
  cases c with
  | liftGuildcard guildcard =>
    exact (removes_pass_iff s.guildcardBans).mpr fun i hi => decide_eq_false (h i hi)
  | liftIp ip => exact removes_untouched s.guildcardBans
  | sweep => exact (removes_pass_iff s.guildcardBans).mpr fun _ _ => rfl

theorem run_ips (h : c.NoneFound s) :
    Removes (c.ipRemoved now) s.ipBans (run s now saved stale c).ipPass := by
  cases c with
  | liftGuildcard guildcard => exact removes_untouched s.ipBans
  | liftIp ip => exact (removes_pass_iff s.ipBans).mpr h
  | sweep => exact (removes_pass_iff s.ipBans).mpr fun _ _ => rfl

/-- A call that finds nothing to lift does not report success. -/
theorem run_freed (h : c.NoneFound s) (hrv : (run s now saved stale c).rv = 0) (t : ℤ) :
    c.Freed (run s now saved stale c).bans t := by
  cases c with
  | liftGuildcard guildcard =>
    have hnone : ∀ i ∈ s.guildcardBans, decide (i.bannedGc = guildcard) = false :=
      fun i hi => decide_eq_false (h i hi)
    rw [run, banLiftGuildcardBan] at hrv
    dsimp only at hrv
    rw [numMatching_eq_zero 0 hnone] at hrv
    exact absurd hrv (lifted_ne_zero _ _)
  | liftIp ip =>
    rw [run, banLiftIpBan] at hrv
    dsimp only at hrv
    rw [numMatching_eq_zero 0 h] at hrv
    exact absurd hrv (lifted_ne_zero _ _)
  | sweep => trivial

/-- The guildcard bans that a call takes out are of the guildcard to lift, or over. -/
theorem gcRemoved_eq_false {i : GuildcardBan} (hc : c ≠ .liftGuildcard i.bannedGc)
    (hend : unexpired now i.endTime = true) : c.gcRemoved now i = false := by
  cases c with
  | liftGuildcard guildcard =>
    have hne : i.bannedGc ≠ guildcard := fun heq => hc (by rw [heq])
    simp [Call.gcRemoved, hne, hend]
  | liftIp ip => rfl
  | sweep => simp [Call.gcRemoved, hend]

end Calls

/-- A call does what it should exactly when the list holds nothing that it is to lift. -/
theorem lifts_iff (s : BanList) (now : ℤ) (saved : Bool) (stale : ℕ → ℤ) (c : Call) :
    Lifts s now saved stale c ↔ c.NoneFound s := by
  constructor
  · intro h
    cases c with
    | liftGuildcard guildcard =>
      intro i hi
      exact of_decide_eq_false ((removes_pass_iff s.guildcardBans).mp h.guildcards i hi)
    | liftIp ip => exact (removes_pass_iff s.ipBans).mp h.ips
    | sweep => trivial
  · intro h
    refine ⟨run_guildcards h, run_ips h, fun hrv t _ => run_freed h hrv t, ?_, ?_⟩
    · intro t ht guildcard hc
      refine sameGuildcard_of_left (run_guildcards h).left fun i _ hgc hend => ?_
      exact gcRemoved_eq_false (hgc ▸ hc) (unexpired_mono ht hend)
    · intro t _ a hcovers
      refine sameIp_of_left (run_ips h).left fun i hi hcover => ?_
      by_contra hremoved
      exact hcovers i hi (Bool.of_not_eq_false hremoved) hcover

/-- One ban of one guildcard, without an end. -/
def oneBan : BanList where
  guildcardBans := [⟨"", -1, 42⟩]
  ipBans := []

/-- Lifting the only ban reads its end when it has been freed. -/
theorem not_lifts : ¬∀ s now saved stale c, Lifts s now saved stale c := by
  intro h
  have hunread := (h oneBan 0 true (fun _ => -1) (.liftGuildcard 42)).guildcards.unread
  have hread : ¬Unread (pass 0 (fun i => i.bannedGc = 42) GuildcardBan.endTime (fun _ => -1) 0
      oneBan.guildcardBans).trace :=
    not_unread List.mem_cons_self (decide_eq_true rfl)
  exact hread hunread

end ShipServer.BanLifting
