import Mathlib

set_option autoImplicit false

namespace ShipServer.LuaApi

/-- A value of Lua. Functions are known by what they stand for, tables by number, and `array` is
a table with the entries 1, 2 and so on that is used nowhere else. -/
inductive Value (F : Type*) where
  | nil
  | boolean (b : Bool)
  | number (n : ℤ)
  | text
  | pointer (p : ℕ)
  | function (f : F)
  | table (t : ℕ)
  | array (xs : List ℤ)

abbrev Table (F : Type*) := List (ℕ × Value F)

/-- The stack, from the top on, and the tables. Table 0 is the registry. -/
structure State (F : Type*) where
  stack : List (Value F)
  tables : ℕ → Table F
  nextTable : ℕ

/-- The pseudo index of the registry, or -1, -2 and so on. -/
inductive Index where
  | registry
  | top (k : ℕ)

/-- A new key of a table for `luaL_ref`: a positive number that is not in use. -/
structure RefAllocator where
  fresh : List ℕ → ℕ
  positive : ∀ used, 0 < fresh used
  unused : ∀ used, fresh used ∉ used

variable {F : Type*}

def keys (t : Table F) : List ℕ :=
  t.map Prod.fst

def entry (t : Table F) (n : ℕ) : Value F :=
  (t.lookup n).getD .nil

namespace State

/-- The table at an index. At an index without a table the functions below are not defined. -/
def tableAt (s : State F) : Index → Option ℕ
  | .registry => some 0
  | .top k =>
    match s.stack[k - 1]? with
    | some (.table t) => some t
    | _ => none

def push (s : State F) (v : Value F) : State F :=
  { s with stack := v :: s.stack }

def pop (s : State F) (n : ℕ) : Option (State F) :=
  if n ≤ s.stack.length then some { s with stack := s.stack.drop n } else none

def pushvalue (s : State F) (k : ℕ) : Option (State F) :=
  s.stack[k - 1]?.map s.push

def newtable (s : State F) : State F :=
  { s with
    stack := .table s.nextTable :: s.stack
    tables := Function.update s.tables s.nextTable []
    nextTable := s.nextTable + 1 }

def rawgeti (s : State F) (i : Index) (n : ℕ) : Option (State F) :=
  (s.tableAt i).map fun t => s.push (entry (s.tables t) n)

/-- `luaL_ref`. The index is that of the table before the value is popped. -/
def ref (s : State F) (alloc : RefAllocator) (i : Index) : Option (State F × ℕ) :=
  match s.tableAt i, s.stack with
  | some t, v :: rest =>
    let n := alloc.fresh (keys (s.tables t))
    some ({ s with stack := rest, tables := Function.update s.tables t ((n, v) :: s.tables t) }, n)
  | _, _ => none

/-- `luaL_unref`. -/
def unref (s : State F) (i : Index) (n : ℕ) : Option (State F) :=
  (s.tableAt i).map fun t =>
    { s with tables := Function.update s.tables t ((s.tables t).filter fun e => e.1 ≠ n) }

/-- `lua_pcall` with one result, and the function that is called, if it is one. -/
def pcall (s : State F) (nargs : ℕ) (result : Value F) :
    Option (State F × Option (F × List (Value F))) :=
  match s.stack[nargs]? with
  | none => none
  | some callee =>
    let called := match callee with
      | .function f => some (f, (s.stack.take nargs).reverse)
      | _ => none
    some ({ s with stack := result :: s.stack.drop (nargs + 1) }, called)

@[simp] theorem pop_push (s : State F) (v : Value F) : (s.push v).pop 1 = some s := by
  simp [push, pop]

theorem stack_pop {s s' : State F} {n : ℕ} (h : s.pop n = some s') :
    s'.stack = s.stack.drop n := by
  rw [pop] at h
  split_ifs at h
  cases h
  rfl

theorem stack_pushvalue {s s' : State F} {k : ℕ} (h : s.pushvalue k = some s') :
    ∃ v, s'.stack = v :: s.stack := by
  obtain ⟨v, -, rfl⟩ := Option.map_eq_some_iff.mp h
  exact ⟨v, rfl⟩

theorem stack_ref {s s' : State F} {alloc : RefAllocator} {i : Index} {n : ℕ}
    (h : s.ref alloc i = some (s', n)) : s'.stack = s.stack.tail := by
  rw [ref] at h
  split at h
  · next hstack =>
    cases h
    rw [hstack]
    rfl
  · cases h

theorem foldl_push (s : State F) (args : List (Value F)) :
    args.foldl push s = { s with stack := args.reverse ++ s.stack } := by
  induction args generalizing s with
  | nil => rfl
  | cons v args ih =>
    rw [List.foldl_cons, ih]
    simp [push]

/-- A function that is called takes itself and its arguments off the stack. -/
theorem pcall_foldl_push (s : State F) (f : F) (args : List (Value F)) (result : Value F) :
    (args.foldl push (s.push (.function f))).pcall args.length result =
      some (s.push result, some (f, args)) := by
  have hdrop : (args.reverse ++ .function f :: s.stack).drop (args.length + 1) = s.stack := by
    rw [List.drop_append, List.length_reverse, List.drop_eq_nil_of_le (by simp)]
    simp
  rw [foldl_push, pcall]
  simp [push, hdrop]

end State

theorem entry_cons_self (t : Table F) (n : ℕ) (v : Value F) : entry ((n, v) :: t) n = v := by
  simp [entry]

theorem entry_cons_ne {t : Table F} {n m : ℕ} (v : Value F) (h : m ≠ n) :
    entry ((n, v) :: t) m = entry t m := by
  have hne : (m == n) = false := by simpa using h
  rw [entry, List.lookup_cons, hne, entry]

theorem entry_filter_ne {t : Table F} {n m : ℕ} (h : m ≠ n) :
    entry (t.filter fun e => e.1 ≠ n) m = entry t m := by
  induction t with
  | nil => rfl
  | cons e t ih =>
    obtain ⟨k, v⟩ := e
    by_cases hk : k = n
    · rw [List.filter_cons_of_neg (by simp [hk]), ih, entry_cons_ne]
      rw [hk]
      exact h
    · rw [List.filter_cons_of_pos (by simp [hk])]
      by_cases hm : m = k
      · rw [hm, entry_cons_self, entry_cons_self]
      · rw [entry_cons_ne v hm, entry_cons_ne v hm, ih]

theorem mem_keys_of_entry {t : Table F} {n : ℕ} (h : entry t n ≠ .nil) : n ∈ keys t := by
  induction t with
  | nil => exact absurd rfl h
  | cons e t ih =>
    obtain ⟨k, v⟩ := e
    by_cases hn : n = k
    · rw [hn]
      exact List.mem_cons_self
    · rw [entry_cons_ne v hn] at h
      exact List.mem_cons_of_mem _ (ih h)

/-- The first key past those in use. -/
def nextKey : RefAllocator where
  fresh := fun used => used.foldr max 0 + 1
  positive := fun _ => Nat.succ_pos _
  unused := by
    intro used hmem
    have hle : ∀ l : List ℕ, ∀ k ∈ l, k ≤ l.foldr max 0 := by
      intro l
      induction l with
      | nil => exact fun k hk => absurd hk List.not_mem_nil
      | cons m l ih =>
        rw [List.forall_mem_cons]
        exact ⟨le_max_left _ _, fun k hk => (ih k hk).trans (le_max_right _ _)⟩
    have hself := hle used _ hmem
    omega

end ShipServer.LuaApi
