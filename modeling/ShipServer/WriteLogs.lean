import Mathlib

set_option autoImplicit false

namespace ShipServer.WriteLogs

/-- A write to a register of a replicated store. -/
structure Write (W K V : Type*) where
  writer : W
  key : K
  value : V

variable {W K V : Type*} [DecidableEq K]

/-- The value of a register after a log, for a replica that gets the writes of some writers. -/
def valueBy (p : W → Bool) (k : K) (v : V) : List (Write W K V) → V
  | [] => v
  | x :: log => valueBy p k (if x.key = k ∧ p x.writer = true then x.value else v) log

/-- The last of these writes, if there is any. -/
def lastBy (p : W → Bool) (k : K) (log : List (Write W K V)) : Option (Write W K V) :=
  (log.filter fun x => decide (x.key = k ∧ p x.writer = true)).getLast?

/-- The log as everybody sees it. -/
def value (k : K) (v : V) (log : List (Write W K V)) : V :=
  valueBy (fun _ => true) k v log

def last (k : K) (log : List (Write W K V)) : Option (Write W K V) :=
  lastBy (fun _ => true) k log

theorem valueBy_append (p : W → Bool) (k : K) (v : V) (log log' : List (Write W K V)) :
    valueBy p k v (log ++ log') = valueBy p k (valueBy p k v log) log' := by
  induction log generalizing v with
  | nil => rfl
  | cons x log ih =>
    rw [List.cons_append, valueBy, valueBy]
    exact ih _

theorem lastBy_cons (p : W → Bool) (k : K) (x : Write W K V) (log : List (Write W K V)) :
    lastBy p k (x :: log) =
      if x.key = k ∧ p x.writer = true then some ((lastBy p k log).getD x)
      else lastBy p k log := by
  unfold lastBy
  rw [List.filter_cons]
  by_cases hx : x.key = k ∧ p x.writer = true
  · rw [if_pos (decide_eq_true hx), if_pos hx, List.getLast?_cons]
  · rw [if_neg (by rwa [decide_eq_true_iff]), if_neg hx]

theorem valueBy_eq (p : W → Bool) (k : K) (v : V) (log : List (Write W K V)) :
    valueBy p k v log = (lastBy p k log).elim v Write.value := by
  induction log generalizing v with
  | nil => rfl
  | cons x log ih =>
    rw [valueBy, lastBy_cons, ih]
    by_cases hx : x.key = k ∧ p x.writer = true
    · rw [if_pos hx, if_pos hx]
      cases lastBy p k log <;> rfl
    · rw [if_neg hx, if_neg hx]

theorem lastBy_of_last_none {p : W → Bool} {k : K} {log : List (Write W K V)}
    (hx : last k log = none) : lastBy p k log = none := by
  unfold last lastBy at *
  rw [List.getLast?_eq_none_iff, List.filter_eq_nil_iff] at *
  intro z hz hzp
  refine hx z hz (decide_eq_true ?_)
  exact ⟨(of_decide_eq_true hzp).1, rfl⟩

/-- The last write is one of the writes that the replica gets, if its writer is among them. -/
theorem lastBy_of_last {p : W → Bool} {k : K} {log : List (Write W K V)} {x : Write W K V}
    (hx : last k log = some x) (hp : p x.writer = true) : lastBy p k log = some x := by
  induction log with
  | nil => cases hx
  | cons y log ih =>
    unfold last at *
    rw [lastBy_cons] at hx ⊢
    by_cases hkey : y.key = k
    · rw [if_pos ⟨hkey, rfl⟩, Option.some_inj] at hx
      cases hrest : lastBy (fun _ => true) k log with
      | none =>
        rw [hrest, Option.getD_none] at hx
        subst hx
        rw [if_pos ⟨hkey, hp⟩]
        rw [lastBy_of_last_none hrest, Option.getD_none]
      | some z =>
        rw [hrest, Option.getD_some] at hx
        subst hx
        have hlast := ih hrest
        rw [hlast, Option.getD_some, ite_self]
    · rw [if_neg (fun h => hkey h.1)] at hx
      rw [if_neg (fun h => hkey h.1)]
      exact ih hx

theorem valueBy_of_forall_ne {p : W → Bool} {k : K} {log : List (Write W K V)}
    (h : ∀ x ∈ log, x.key ≠ k) (v : V) : valueBy p k v log = v := by
  induction log with
  | nil => rfl
  | cons x log ih =>
    rw [valueBy, if_neg (fun hx => h x List.mem_cons_self hx.1)]
    exact ih fun y hy => h y (List.mem_cons_of_mem x hy)

section KeepsUp

variable [DecidableEq W]

/-- The writes of everybody but one replica. -/
def valueByOthers (d : W) (k : K) (v : V) (log : List (Write W K V)) : V :=
  valueBy (fun w => decide (w ≠ d)) k v log

/-- The writes of one replica. -/
def valueByOwn (d : W) (k : K) (v : V) (log : List (Write W K V)) : V :=
  valueBy (fun w => decide (w = d)) k v log

/-- If the last write is the replica's own, the last one of the others has the same value. -/
def KeepsUp (d : W) (k : K) (log : List (Write W K V)) : Prop :=
  ∀ x, last k log = some x → x.writer = d →
    ∀ y, lastBy (fun w => decide (w ≠ d)) k log = some y → y.value = x.value

theorem valueByOthers_of_last_ne {d : W} {k : K} {log : List (Write W K V)} {x : Write W K V}
    (hlast : last k log = some x) (hx : x.writer ≠ d) (v v' : V) :
    valueByOthers d k v log = value k v' log := by
  have hother : lastBy (fun w => decide (w ≠ d)) k log = some x :=
    lastBy_of_last hlast (decide_eq_true hx)
  unfold valueByOthers value
  rw [valueBy_eq, valueBy_eq, hother]
  change x.value = (last k log).elim v' Write.value
  rw [hlast]
  rfl

/-- A replica that has made its own writes at once, and that is given the writes of the others
afterwards, has the last value just if it has not been given an older write instead of its own. -/
theorem valueByOthers_own_iff (d : W) (k : K) (v : V) (log : List (Write W K V)) :
    valueByOthers d k (valueByOwn d k v log) log = value k v log ↔ KeepsUp d k log := by
  cases hlast : last k log with
  | none =>
    unfold valueByOthers valueByOwn value KeepsUp
    rw [valueBy_eq, valueBy_eq, valueBy_eq, lastBy_of_last_none hlast, lastBy_of_last_none hlast,
      lastBy_of_last_none hlast, hlast]
    exact iff_of_true rfl nofun
  | some x =>
    by_cases hx : x.writer = d
    · have hown : lastBy (fun w => decide (w = d)) k log = some x :=
        lastBy_of_last hlast (decide_eq_true hx)
      have hall : lastBy (fun _ => true) k log = some x := hlast
      unfold valueByOthers valueByOwn value KeepsUp
      rw [valueBy_eq, valueBy_eq, valueBy_eq, hown, hall, hlast]
      constructor
      · intro heq z hz _ y hy
        cases hz
        rw [hy] at heq
        exact heq
      · intro h
        cases hothers : lastBy (fun w => decide (w ≠ d)) k log with
        | none => rfl
        | some y => exact h x rfl hx y hothers
    · refine iff_of_true (valueByOthers_of_last_ne hlast hx _ v) ?_
      intro z hz hzd
      rw [hlast] at hz
      cases hz
      exact absurd hzd hx

/-- A replica that may have been reset keeps up, or has been given nothing since its reset. -/
theorem KeepsUp.value_or {d : W} {k : K} {log : List (Write W K V)} (h : KeepsUp d k log)
    {v v₀ v' : V} {reset : Prop} (hv : v' = valueByOwn d k v log ∨ reset ∧ v' = v₀) :
    valueByOthers d k v' log = value k v log ∨ reset ∧ valueByOthers d k v' log = v₀ := by
  rcases hv with rfl | ⟨hreset, rfl⟩
  · exact Or.inl ((valueByOthers_own_iff d k v log).mpr h)
  cases hothers : lastBy (fun w => decide (w ≠ d)) k log with
  | none =>
    unfold valueByOthers
    rw [valueBy_eq, hothers]
    exact Or.inr ⟨hreset, rfl⟩
  | some y =>
    left
    cases hlast : last k log with
    | none =>
      rw [lastBy_of_last_none hlast] at hothers
      cases hothers
    | some x =>
      by_cases hx : x.writer = d
      · have hall : lastBy (fun _ => true) k log = some x := hlast
        unfold valueByOthers value
        rw [valueBy_eq, valueBy_eq, hothers, hall]
        exact h x hlast hx y hothers
      · exact valueByOthers_of_last_ne hlast hx _ v

/-- Nothing older is in a log of at most one write. -/
theorem keepsUp_of_length_le {log : List (Write W K V)} (h : log.length ≤ 1) (d : W) (k : K) :
    KeepsUp d k log := by
  intro x hx hxd y hy
  obtain ⟨hmem, hother⟩ := List.mem_filter.mp (List.mem_of_getLast? hy)
  have hxmem := (List.mem_filter.mp (List.mem_of_getLast? hx)).1
  match log, h with
  | [z], _ =>
    rw [List.mem_singleton] at hmem hxmem
    subst hmem
    subst hxmem
    exact absurd hxd (of_decide_eq_true (of_decide_eq_true hother).2)

end KeepsUp

end ShipServer.WriteLogs
