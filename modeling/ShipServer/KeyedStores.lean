import Mathlib

set_option autoImplicit false

/-! Stores that are filled again and again: items are put in one after the other, each under its
own key, and an item without a value leaves what is there. -/

namespace ShipServer.KeyedStores

variable {ι κ β : Type*}

section Put

variable [DecidableEq κ] (key : ι → κ) (value : ι → Option β)

def put (s : κ → Option β) (i : ι) : κ → Option β :=
  match value i with
  | none => s
  | some b => Function.update s (key i) (some b)

variable {key value}

theorem put_self (s : κ → Option β) (i : ι) :
    put key value s i (key i) = (value i).or (s (key i)) := by
  unfold put
  cases value i <;> simp

theorem put_of_ne (s : κ → Option β) {i : ι} {k : κ} (h : key i ≠ k) :
    put key value s i k = s k := by
  unfold put
  cases value i with
  | none => rfl
  | some b => simp [h.symm]

theorem foldl_put_of_ne {items : List ι} {k : κ} (h : ∀ i ∈ items, key i ≠ k)
    (s : κ → Option β) : items.foldl (put key value) s k = s k := by
  induction items generalizing s with
  | nil => rfl
  | cons i items ih =>
    rw [List.foldl_cons, ih fun j hj => h j (List.mem_cons_of_mem i hj)]
    exact put_of_ne s (h i List.mem_cons_self)

/-- With different keys, an item is where it has been put. -/
theorem foldl_put_of_mem {items : List ι} (hkeys : (items.map key).Nodup) {i : ι}
    (hi : i ∈ items) (s : κ → Option β) :
    items.foldl (put key value) s (key i) = (value i).or (s (key i)) := by
  induction items generalizing s with
  | nil => cases hi
  | cons j items ih =>
    rw [List.map_cons, List.nodup_cons] at hkeys
    rw [List.foldl_cons]
    rcases List.mem_cons.mp hi with rfl | hin
    · have hne : ∀ j ∈ items, key j ≠ key i := by
        intro j hj heq
        exact hkeys.1 (heq ▸ List.mem_map_of_mem hj)
      rw [foldl_put_of_ne hne]
      exact put_self s i
    · have hne : key j ≠ key i := fun heq => hkeys.1 (heq ▸ List.mem_map_of_mem hin)
      rw [ih hkeys.2 hin, put_of_ne s hne]

end Put

/-- The store after another pass. -/
def renew (s : κ → Option β) (pass : κ → Option β) (k : κ) : Option β :=
  (pass k).or (s k)

/-- The last pass that had a value for a key decides. -/
theorem foldl_renew (passes : List (κ → Option β)) (s : κ → Option β) (k : κ) :
    passes.foldl renew s k = (passes.reverse.findSome? fun pass => pass k).or (s k) := by
  induction passes generalizing s with
  | nil => rfl
  | cons pass passes ih =>
    rw [List.foldl_cons, ih, List.reverse_cons, List.findSome?_append, Option.or_assoc]
    simp [renew]

end ShipServer.KeyedStores
