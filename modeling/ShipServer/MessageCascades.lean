import ShipServer.LabelledRuns
import ShipServer.PartialOrbits

set_option autoImplicit false

/-! Messages in flight that may be answered when they are delivered, in any order, and when the last
of the answers comes. -/

namespace ShipServer.MessageCascades

open LabelledRuns PartialOrbits

variable {α : Type*}

variable {answer : α → Option α} {m : α}

/-- The last answer comes at some time. -/
def Stops (answer : α → Option α) (m : α) : Prop :=
  ∃ k, orbit answer m k = none

/-- How often a message and the answers to it are delivered. -/
noncomputable def lifetime (answer : α → Option α) (m : α) : ℕ :=
  sInf {k | orbit answer m k = none}

theorem stops_of_answer {a : α} (h : answer m = some a) : Stops answer m ↔ Stops answer a := by
  constructor
  · rintro ⟨k, hk⟩
    cases k with
    | zero => cases hk
    | succ k =>
      rw [orbit_succ', h] at hk
      exact ⟨k, hk⟩
  · rintro ⟨k, hk⟩
    refine ⟨k + 1, ?_⟩
    rw [orbit_succ', h]
    exact hk

theorem lifetime_of_none (h : answer m = none) : lifetime answer m = 1 := by
  have hmem : 1 ∈ {k | orbit answer m k = none} := by
    rw [Set.mem_ofPred_eq, orbit_one, h]
  refine le_antisymm (Nat.sInf_le hmem) ?_
  refine le_csInf ⟨1, hmem⟩ fun k hk => ?_
  cases k with
  | zero => cases hk
  | succ k => exact Nat.succ_le_succ (Nat.zero_le k)

theorem lifetime_of_some {a : α} (h : answer m = some a) (hstops : Stops answer a) :
    lifetime answer m = lifetime answer a + 1 := by
  have hstep : ∀ k, orbit answer m (k + 1) = orbit answer a k := by
    intro k
    rw [orbit_succ', h, Option.bind_some]
  have hlast : orbit answer a (lifetime answer a) = none := Nat.sInf_mem hstops
  refine le_antisymm (Nat.sInf_le ?_) (le_csInf ((stops_of_answer h).2 hstops) fun k hk => ?_)
  · rw [Set.mem_ofPred_eq, hstep, hlast]
  · cases k with
    | zero => cases hk
    | succ k =>
      rw [Set.mem_ofPred_eq, hstep] at hk
      exact Nat.succ_le_succ (Nat.sInf_le hk)

/-- One of the messages in flight is delivered, and its answer sets out. -/
inductive Delivers [DecidableEq α] (answer : α → Option α) (ms : Multiset α) (m : α) :
    Multiset α → Prop where
  | deliver (h : m ∈ ms) : Delivers answer ms m (ms.erase m + ((answer m).elim 0 fun a => {a}))

/-- How often something is delivered until nothing is in flight. -/
noncomputable def total (answer : α → Option α) (ms : Multiset α) : ℕ :=
  (ms.map (lifetime answer)).sum

section Runs

variable [DecidableEq α] {ms ns : Multiset α} {es : List α}

theorem Delivers.stops (h : Delivers answer ms m ns) (hms : ∀ a ∈ ms, Stops answer a) :
    ∀ a ∈ ns, Stops answer a := by
  obtain ⟨hm⟩ := h
  intro a ha
  rcases Multiset.mem_add.1 ha with ha | ha
  · exact hms a (Multiset.mem_of_mem_erase ha)
  · cases hanswer : answer m with
    | none =>
      rw [hanswer] at ha
      exact absurd ha (Multiset.notMem_zero a)
    | some b =>
      rw [hanswer, Option.elim_some, Multiset.mem_singleton] at ha
      subst ha
      exact (stops_of_answer hanswer).1 (hms m hm)

theorem Delivers.total_eq (h : Delivers answer ms m ns) (hms : ∀ a ∈ ms, Stops answer a) :
    total answer ms = total answer ns + 1 := by
  obtain ⟨hm⟩ := h
  have hsplit : total answer ms = lifetime answer m + total answer (ms.erase m) := by
    rw [total, ← Multiset.cons_erase hm, Multiset.map_cons, Multiset.sum_cons,
      Multiset.erase_cons_head, total]
  rw [hsplit, total, total, Multiset.map_add, Multiset.sum_add]
  cases hanswer : answer m with
  | none =>
    rw [lifetime_of_none hanswer]
    simp only [Option.elim_none, Multiset.map_zero, Multiset.sum_zero]
    omega
  | some a =>
    rw [lifetime_of_some hanswer ((stops_of_answer hanswer).1 (hms m hm))]
    simp only [Option.elim_some, Multiset.map_singleton, Multiset.sum_singleton]
    omega

/-- The deliveries of a run and those still to come are always the same number. -/
theorem run_total (h : Run (Delivers answer) Always ms es ns) (hms : ∀ a ∈ ms, Stops answer a) :
    es.length + total answer ns = total answer ms := by
  induction h with
  | stop ms => exact Nat.zero_add _
  | move _ taken _ ih =>
    rw [taken.total_eq hms, ← ih (taken.stops hms), List.length_cons]
    omega

/-- A message that is answered without end keeps a run going for any time. -/
theorem run_endless (hm : m ∈ ms) (hnever : ¬ Stops answer m) (n : ℕ) :
    ∃ es ns, es.length = n ∧ Run (Delivers answer) Always ms es ns := by
  induction n generalizing ms m with
  | zero => exact ⟨[], ms, rfl, .stop ms⟩
  | succ n ih =>
    cases hanswer : answer m with
    | none => exact absurd ⟨1, hanswer⟩ hnever
    | some a =>
      have hstep : Delivers answer ms m (ms.erase m + ((answer m).elim 0 fun a => {a})) :=
        .deliver hm
      have ha : a ∈ ms.erase m + ((answer m).elim 0 fun a => {a}) := by
        rw [hanswer]
        exact Multiset.mem_add.2 (.inr (Multiset.mem_singleton_self a))
      obtain ⟨es, ns, hlength, hrun⟩ := ih ha fun h => hnever ((stops_of_answer hanswer).2 h)
      exact ⟨m :: es, ns, by rw [List.length_cons, hlength], .move trivial hstep hrun⟩

/-- The number of deliveries is bounded exactly when no message is answered without end. -/
theorem bounded_iff :
    (∃ n, ∀ es ns, Run (Delivers answer) Always ms es ns → es.length ≤ n) ↔
      ∀ m ∈ ms, Stops answer m := by
  constructor
  · rintro ⟨n, hn⟩ m hm
    by_contra hnever
    obtain ⟨es, ns, hlength, hrun⟩ := run_endless hm hnever (n + 1)
    have hle := hn es ns hrun
    omega
  · intro hms
    refine ⟨total answer ms, fun es ns hrun => ?_⟩
    have htotal := run_total hrun hms
    omega

end Runs

end ShipServer.MessageCascades
