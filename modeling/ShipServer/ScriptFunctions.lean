import ShipServer.LuaApi
import ShipServer.QuestStack

set_option autoImplicit false

/-! The quest functions that scripts register for a lobby. -/

namespace ShipServer.ScriptFunctions

open LabelledRuns LuaApi QuestFunctions QuestStack

variable {F : Type*}

/-- `lobby_qfunc_t`. -/
structure LobbyQFunc extends QFunc where
  scriptId : ℕ

/-- The Lua state, and the table and the list of a lobby. -/
structure QuestScripts (F : Type*) where
  lua : State F
  scriptTable : ℕ
  qfuncList : List LobbyQFunc

/-- `QUEST_SCRIPT_START`. -/
def questScriptStart : ℕ := 0x80000000

/-- `script_add_lobby_qfunc_locked`, with the function on top of the stack. It has no result where
it follows a NULL pointer. -/
def scriptAddLobbyQfuncLocked (alloc : RefAllocator) (s : QuestScripts F) (f : QFunc)
    (malloc : Bool) : Option (QuestScripts F × Bool) := do
  let lua ← s.lua.rawgeti .registry s.scriptTable
  -- the loop goes on to the end of the list, where its pointer is NULL
  if s.qfuncList.any fun i => i.funcId = f.funcId then none
  else if malloc = false then some ({ s with lua := lua }, false)
  else
    let lua ← lua.pushvalue 2
    let (lua, n) ← lua.ref alloc (.top 2)
    let lua ← lua.pop 2
    some ({ s with lua := lua, qfuncList := { f with scriptId := n } :: s.qfuncList }, true)

/-- `lobby_setQuestFunction_lua`, with the numbers that a script gives. -/
def setQuestFunction (alloc : RefAllocator) (s : QuestScripts F) (fnum : ℤ) (f : F)
    (argcnt rvcnt : ℤ) (malloc : Bool) : Option (QuestScripts F × Bool) :=
  if fnum < questScriptStart then some (s, false)
  else do
    let frame : List (Value F) :=
      [.number rvcnt, .number argcnt, .function f, .number fnum, .pointer 0]
    let q : QFunc := { funcId := BitVec.ofInt 32 fnum, nargs := BitVec.ofInt 32 argcnt
                       nretvals := BitVec.ofInt 32 rvcnt }
    let (s', ok) ← scriptAddLobbyQfuncLocked alloc
      { s with lua := { s.lua with stack := .function f :: frame } } q malloc
    let lua ← s'.lua.pop 1
    some ({ s' with lua := { lua with stack := s.lua.stack } }, ok)

def scriptRemoveLobbyQfuncLocked (s : QuestScripts F) (id : BitVec 32) :
    Option (QuestScripts F × Bool) :=
  match s.qfuncList.find? fun i => i.funcId = id with
  | none => some (s, false)
  | some i => do
    let lua ← s.lua.rawgeti .registry s.scriptTable
    let lua ← lua.unref (.top 2) i.scriptId
    let lua ← lua.pop 1
    some ({ s with lua := lua, qfuncList := s.qfuncList.eraseP fun i => i.funcId = id }, true)

/-- `lobby_clearQuestFunction_lua`, with more arguments than it asks for on top of the stack. -/
def clearQuestFunction (s : QuestScripts F) (fnum : ℤ) (extra : List (Value F)) :
    Option (QuestScripts F × Bool) :=
  if fnum < questScriptStart then some (s, false)
  else do
    let (s', ok) ← scriptRemoveLobbyQfuncLocked
      { s with lua := { s.lua with stack := extra ++ [.number fnum, .pointer 0] } }
      (BitVec.ofInt 32 fnum)
    some ({ s' with lua := { s'.lua with stack := s.lua.stack } }, ok)

/-- The functions that a quest call runs, with their arguments, and the slots of the call stack
that it looks at. What it returns is left to `QuestFunctions`. -/
structure Reply (F : Type*) where
  calls : List (F × List (Value F))
  reads : List ℤ

/-- The slots of the registers for the return values, up to the first one that is not valid. -/
def checkedSlots (m : ℤ → BitVec 32) (slots : List ℤ) : List ℤ :=
  slots.takeWhile (fun j => ¬255 < m j) ++ (slots.dropWhile fun j => ¬255 < m j).take 1

/-- The values of slots, as a table for a function. -/
def slotTable (m : ℤ → BitVec 32) (slots : List ℤ) : Value F :=
  .array (slots.map fun j => (m j).toNat)

/-- The two counts and the registers agree with the function. -/
def counted (f : QFunc) (m : ℤ → BitVec 32) : Bool :=
  m 1 = f.nargs ∧ m 2 = f.nretvals ∧ ∀ j ∈ f.retSlots, ¬255 < m j

/-- `script_execute_qfunc` for the client 1 in the lobby 0. -/
def scriptExecuteQfunc (s : QuestScripts F) (m : ℤ → BitVec 32) :
    Option (QuestScripts F × Reply F) :=
  match s.qfuncList.find? fun i => i.funcId = m 0 with
  | none => some (s, { calls := [], reads := [0] })
  | some i =>
    if m 1 ≠ i.nargs then some (s, { calls := [], reads := [0, 1] })
    else if m 2 ≠ i.nretvals then some (s, { calls := [], reads := [0, 1, 2] })
    else if ∃ j ∈ i.retSlots, 255 < m j then
      some (s, { calls := [], reads := [0, 1, 2] ++ checkedSlots m i.retSlots })
    else do
      let lua ← s.lua.rawgeti .registry s.scriptTable
      let lua ← lua.rawgeti (.top 1) i.scriptId
      let args := [.pointer 1, .pointer 0, slotTable m i.argSlots, slotTable m i.retSlots]
      let (lua, called) ← (args.foldl State.push lua).pcall 4 .nil
      let lua ← lua.pop 1
      let lua ← lua.pop 1
      let reads := [0, 1, 2] ++ checkedSlots m i.retSlots ++ i.argSlots ++ i.retSlots
      some ({ s with lua := lua }, { calls := called.toList, reads := reads })

/-- `quest_function_dispatch`: the functions below `QUEST_SCRIPT_START` run no script. -/
def questFunctionDispatch (s : QuestScripts F) (m : ℤ → BitVec 32) :
    Option (QuestScripts F × Reply F) :=
  if 0x80000000 < m 0 then scriptExecuteQfunc s m else some (s, { calls := [], reads := [] })

inductive Event (F : Type*) where
  | register (fnum : ℤ) (f : F) (argcnt rvcnt : ℤ) (malloc : Bool)
  | remove (fnum : ℤ) (extra : List (Value F))
  | call (c : QuestClient)

/-- A call that is not complete yet goes no further. -/
def enter (alloc : RefAllocator) (s : QuestScripts F) :
    Event F → Option (QuestScripts F × Reply F)
  | .register fnum f argcnt rvcnt malloc =>
    (setQuestFunction alloc s fnum f argcnt rvcnt malloc).map
      fun r => (r.1, { calls := [], reads := [] })
  | .remove fnum extra =>
    (clearQuestFunction s fnum extra).map fun r => (r.1, { calls := [], reads := [] })
  | .call c =>
    if c.Complete then questFunctionDispatch s c.qStack
    else some (s, { calls := [], reads := [] })

/-- The functions that are registered, with the counts that the script gave. -/
abbrev Registered (F : Type*) := ℤ → Option (F × ℤ × ℤ)

/-- The registrations that are accepted, and the removals. -/
def Registered.next (r : Registered F) : Event F → Registered F
  | .register fnum f argcnt rvcnt malloc =>
    if questScriptStart ≤ fnum ∧ malloc then Function.update r fnum (some (f, argcnt, rvcnt))
    else r
  | .remove fnum _ => Function.update r fnum none
  | .call _ => r

/-- The slots after the first three, from the one after `skip` more on. -/
def slotsAfter (skip count : ℤ) : List ℤ :=
  (List.range count.toNat).map fun (j : ℕ) => j + skip + 3

/-- What a call of a registered function is to run: the function gets its arguments and its
registers in order, if the counts match and the registers are valid. -/
def Registered.answer (r : Registered F) (m : ℤ → BitVec 32) : List (F × List (Value F)) :=
  match r (m 0).toNat with
  | none => []
  | some (f, a, n) =>
    if ((m 1).toNat : ℤ) = a ∧ ((m 2).toNat : ℤ) = n ∧ ∀ j ∈ slotsAfter a n, ¬255 < m j then
      [(f, [.pointer 1, .pointer 0, slotTable m (slotsAfter 0 a), slotTable m (slotsAfter a n)])]
    else []

def Registered.due (r : Registered F) : Event F → List (F × List (Value F))
  | .call c => if c.Complete then r.answer c.qStack else []
  | _ => []

/-- The slots that have been pushed for a call. -/
def pushed : Event F → ℤ
  | .call c => c.top
  | _ => 0

/-- What an event has led to, beside what was due. -/
structure Step (F : Type*) where
  reply : Reply F
  due : List (F × List (Value F))
  top : ℤ

structure Trace (F : Type*) where
  scripts : QuestScripts F
  registered : Registered F
  history : List (Step F)
  stuck : Bool

def next (alloc : RefAllocator) (t : Trace F) (e : Event F) : Trace F :=
  if t.stuck then t
  else
    match enter alloc t.scripts e with
    | none => { t with stuck := true }
    | some (s, reply) =>
      { t with
        scripts := s
        registered := t.registered.next e
        history := t.history ++
          [{ reply := reply, due := t.registered.due e, top := pushed e }] }

/-- A new lobby with the table 1 under the reference `n`. -/
def created (n : ℕ) : Trace F where
  scripts :=
    { lua := { stack := [], tables := fun t => if t = 0 then [(n, .table 1)] else []
               nextTable := 2 }
      scriptTable := n, qfuncList := [] }
  registered := fun _ => none
  history := []
  stuck := false

structure Faithful (t : Trace F) : Prop where
  returned : t.stuck = false
  once : (t.scripts.qfuncList.map fun i => i.funcId).Nodup
  exact : ∀ x ∈ t.history, x.reply.calls = x.due ∧ ∀ i ∈ x.reply.reads, Below x.top i

/-- A number that a word of the client may be, above the start of the script functions. -/
def Callable (fnum : ℤ) : Prop :=
  questScriptStart < fnum ∧ fnum < 2 ^ 32

/-- What keeps a registration or a removal clear of the defects. -/
def Clear (t : Trace F) : Event F → Prop
  | .register fnum _ argcnt rvcnt _ => questScriptStart ≤ fnum →
      Callable fnum ∧ t.registered fnum = none ∧
        (0 ≤ argcnt ∧ argcnt < 2 ^ 31) ∧ 0 ≤ rvcnt ∧ rvcnt < 2 ^ 31
  | .remove fnum _ => questScriptStart ≤ fnum → t.registered (BitVec.ofInt 32 fnum).toNat = none
  | .call _ => True

/-- The entry of the list for a function that is registered. -/
structure Matches (t : Table F) (i : LobbyQFunc) (x : F × ℤ × ℤ) : Prop where
  script : entry t i.scriptId = .function x.1
  args : (i.nargs.toNat : ℤ) = x.2.1
  args_lt : i.nargs.toNat < 2 ^ 31
  rets : (i.nretvals.toNat : ℤ) = x.2.2
  rets_lt : i.nretvals.toNat < 2 ^ 31

/-- The list has one entry for each function that is registered, with its reference. -/
structure Rep (s : QuestScripts F) (r : Registered F) : Prop where
  table : entry (s.lua.tables 0) s.scriptTable = .table 1
  once : (s.qfuncList.map fun i => i.funcId).Nodup
  listed : ∀ i ∈ s.qfuncList, ∃ x, r i.funcId.toNat = some x ∧ Matches (s.lua.tables 1) i x
  registered : ∀ id x, r id = some x →
    Callable id ∧ ∃ i ∈ s.qfuncList, (i.funcId.toNat : ℤ) = id

variable {alloc : RefAllocator} {s : QuestScripts F} {r : Registered F}

theorem toInt_toNat_of_lt {b : BitVec 32} (h : b.toNat < 2 ^ 31) : b.toInt = b.toNat := by
  rw [BitVec.toInt_eq_toNat_of_lt]
  omega

theorem argSlots_eq {i : LobbyQFunc} {t : Table F} {x : F × ℤ × ℤ} (h : Matches t i x) :
    i.argSlots = slotsAfter 0 x.2.1 := by
  rw [QFunc.argSlots, slotsAfter, toInt_toNat_of_lt h.args_lt, h.args]
  simp

theorem retSlots_eq {i : LobbyQFunc} {t : Table F} {x : F × ℤ × ℤ} (h : Matches t i x) :
    i.retSlots = slotsAfter x.2.1 x.2.2 := by
  rw [QFunc.retSlots, slotsAfter, toInt_toNat_of_lt h.args_lt, toInt_toNat_of_lt h.rets_lt, h.args,
    h.rets]

theorem mem_checkedSlots {m : ℤ → BitVec 32} {slots : List ℤ} {j : ℤ}
    (h : j ∈ checkedSlots m slots) : j ∈ slots := by
  rw [← List.takeWhile_append_dropWhile (p := fun j => ¬255 < m j) (l := slots)]
  rcases List.mem_append.mp h with h | h
  · exact List.mem_append_left _ h
  · exact List.mem_append_right _ (List.mem_of_mem_take h)

/-- The counts of a complete call do not wrap around, so their slots have been pushed. -/
theorem complete_slots {c : QuestClient} (h : c.Complete) (hargs : (c.qStack 1).toNat < 2 ^ 31)
    (hrets : (c.qStack 2).toNat < 2 ^ 31) :
    3 + ((c.qStack 1).toNat : ℤ) + (c.qStack 2).toNat ≤ c.top := by
  obtain ⟨hlow, htop⟩ := h
  obtain ⟨n, hn⟩ := Int.eq_ofNat_of_zero_le (show 0 ≤ c.top by omega)
  have hthree : (3 : BitVec 32).toNat = 3 := rfl
  rw [hn, BitVec.ofInt_natCast, ← BitVec.toNat_inj, BitVec.toNat_add, BitVec.toNat_add, hthree,
    BitVec.toNat_ofNat] at htop
  omega

/-- A call looks only at slots that have been pushed. -/
theorem reads_below {c : QuestClient} (hcomplete : c.Complete) {i : LobbyQFunc} {t : Table F}
    {x : F × ℤ × ℤ} (h : Matches t i x) (hargs : c.qStack 1 = i.nargs)
    (hrets : c.qStack 2 = i.nretvals) {j : ℤ}
    (hj : j ∈ [0, 1, 2] ++ checkedSlots c.qStack i.retSlots ++ i.argSlots ++ i.retSlots) :
    Below c.top j := by
  have hlow := hcomplete.1
  have hslots := complete_slots hcomplete (by rw [hargs]; exact h.args_lt)
    (by rw [hrets]; exact h.rets_lt)
  rw [hargs, hrets] at hslots
  have hinArgs : ∀ k ∈ i.argSlots, Below c.top k := by
    intro k hk
    rw [QFunc.argSlots, toInt_toNat_of_lt h.args_lt] at hk
    obtain ⟨n, hn, rfl⟩ := List.mem_map.mp hk
    rw [List.mem_range] at hn
    exact ⟨by omega, by omega⟩
  have hinRets : ∀ k ∈ i.retSlots, Below c.top k := by
    intro k hk
    rw [QFunc.retSlots, toInt_toNat_of_lt h.args_lt, toInt_toNat_of_lt h.rets_lt] at hk
    obtain ⟨n, hn, rfl⟩ := List.mem_map.mp hk
    rw [List.mem_range] at hn
    exact ⟨by omega, by omega⟩
  rcases List.mem_append.mp hj with hj | hj
  · rcases List.mem_append.mp hj with hj | hj
    · rcases List.mem_append.mp hj with hj | hj
      · simp only [List.mem_cons, List.not_mem_nil, or_false] at hj
        exact ⟨by omega, by omega⟩
      · exact hinRets j (mem_checkedSlots hj)
    · exact hinArgs j hj
  · exact hinRets j hj

theorem below_header {c : QuestClient} (hcomplete : c.Complete) {j : ℤ}
    (hj : j = 0 ∨ j = 1 ∨ j = 2) : Below c.top j := by
  have hlow := hcomplete.1
  exact ⟨by omega, by omega⟩

/-- The list and the registered functions agree on which functions there are. -/
theorem Rep.find_none (h : Rep s r) {id : BitVec 32} :
    s.qfuncList.find? (fun i => i.funcId = id) = none ↔ r id.toNat = none := by
  rw [List.find?_eq_none]
  constructor
  · intro hnone
    by_contra hsome
    obtain ⟨x, hx⟩ := Option.ne_none_iff_exists'.mp hsome
    obtain ⟨-, i, hi, hid⟩ := h.registered _ x hx
    refine hnone i hi ?_
    rw [decide_eq_true_eq, ← BitVec.toNat_inj]
    omega
  · intro hnone i hi hid
    rw [decide_eq_true_eq] at hid
    obtain ⟨x, hx, -⟩ := h.listed i hi
    rw [hid, hnone] at hx
    cases hx

/-- The function in the table of the lobby is called with what was pushed for it. -/
theorem call_script {lua : State F} {n id : ℕ} {f : F} (args : List (Value F))
    (htable : entry (lua.tables 0) n = .table 1) (hscript : entry (lua.tables 1) id = .function f) :
    lua.rawgeti .registry n = some (lua.push (.table 1)) ∧
      (lua.push (.table 1)).rawgeti (.top 1) id =
        some ((lua.push (.table 1)).push (.function f)) ∧
      (args.foldl State.push ((lua.push (.table 1)).push (.function f))).pcall args.length .nil =
        some ((lua.push (.table 1)).push .nil, some (f, args)) := by
  refine ⟨?_, ?_, State.pcall_foldl_push _ f args .nil⟩
  · rw [State.rawgeti, State.tableAt, Option.map_some, htable]
  · simp [State.rawgeti, State.tableAt, State.push, hscript]

/-- A complete call runs what is due, and looks only at what was pushed. -/
theorem scriptExecuteQfunc_eq (h : Rep s r) {c : QuestClient} (hcomplete : c.Complete) :
    ∃ reads, scriptExecuteQfunc s c.qStack =
        some (s, { calls := r.answer c.qStack, reads := reads }) ∧
      ∀ j ∈ reads, Below c.top j := by
  have hhead : ∀ j ∈ [(0 : ℤ), 1, 2], Below c.top j := by
    intro j hj
    refine below_header hcomplete ?_
    simpa using hj
  rw [scriptExecuteQfunc]
  cases hfind : s.qfuncList.find? fun i => i.funcId = c.qStack 0 with
  | none =>
    have hnone := h.find_none.mp hfind
    rw [Registered.answer, hnone]
    exact ⟨_, rfl, fun j hj => hhead j (by simp at hj; simp [hj])⟩
  | some i =>
    have hmem := List.mem_of_find?_eq_some hfind
    have hid : i.funcId = c.qStack 0 := by simpa using List.find?_some hfind
    obtain ⟨x, hx, hmatch⟩ := h.listed i hmem
    obtain ⟨f, a, n⟩ := x
    have hcounts : r.answer c.qStack = if ((c.qStack 1).toNat : ℤ) = a ∧
        ((c.qStack 2).toNat : ℤ) = n ∧ ∀ j ∈ i.retSlots, ¬255 < c.qStack j then
          [(f, [.pointer 1, .pointer 0, slotTable c.qStack i.argSlots,
            slotTable c.qStack i.retSlots])] else [] := by
      rw [Registered.answer, ← hid, hx, argSlots_eq hmatch, retSlots_eq hmatch]
    have hargs : (i.nargs.toNat : ℤ) = a := hmatch.args
    have hrets : (i.nretvals.toNat : ℤ) = n := hmatch.rets
    have ha : (c.qStack 1).toNat = a ↔ c.qStack 1 = i.nargs := by
      rw [← hargs, Nat.cast_inj, BitVec.toNat_inj]
    have hn : (c.qStack 2).toNat = n ↔ c.qStack 2 = i.nretvals := by
      rw [← hrets, Nat.cast_inj, BitVec.toNat_inj]
    rw [hcounts]
    dsimp only
    by_cases h₁ : c.qStack 1 = i.nargs
    swap
    · rw [if_pos h₁, if_neg (fun hall => h₁ (ha.mp hall.1))]
      exact ⟨_, rfl, fun j hj => hhead j (by simp at hj; simp; omega)⟩
    rw [if_neg (not_not.mpr h₁)]
    by_cases h₂ : c.qStack 2 = i.nretvals
    swap
    · rw [if_pos h₂, if_neg (fun hall => h₂ (hn.mp hall.2.1))]
      exact ⟨_, rfl, hhead⟩
    rw [if_neg (not_not.mpr h₂)]
    have hbelow := fun j => @reads_below F c hcomplete i _ _ hmatch h₁ h₂ j
    by_cases h₃ : ∃ j ∈ i.retSlots, 255 < c.qStack j
    · rw [if_pos h₃, if_neg (fun hall => by
        obtain ⟨j, hj, hbad⟩ := h₃
        exact hall.2.2 j hj hbad)]
      exact ⟨_, rfl, fun j hj => hbelow j
        (List.mem_append_left _ (List.mem_append_left _ hj))⟩
    · rw [if_neg h₃, if_pos ⟨ha.mpr h₁, hn.mpr h₂, fun j hj hbad => h₃ ⟨j, hj, hbad⟩⟩]
      obtain ⟨hget, hfunc, hcall⟩ := call_script [.pointer 1, .pointer 0,
        slotTable c.qStack i.argSlots, slotTable c.qStack i.retSlots] h.table hmatch.script
      rw [hget]
      simp only [List.length_cons, List.length_nil] at hcall
      refine ⟨_, ?_, hbelow⟩
      simp only [Option.bind_eq_bind, Option.bind_some, hfunc]
      rw [hcall]
      simp

theorem toNat_ofInt_of_callable {fnum : ℤ} (h : Callable fnum) :
    ((BitVec.ofInt 32 fnum).toNat : ℤ) = fnum := by
  obtain ⟨hlow, hhigh⟩ := h
  rw [BitVec.toNat_ofInt]
  omega

theorem toNat_ofInt_of_count {n : ℤ} (hlow : 0 ≤ n) (hhigh : n < 2 ^ 31) :
    ((BitVec.ofInt 32 n).toNat : ℤ) = n := by
  rw [BitVec.toNat_ofInt]
  omega

theorem Matches.cons {t : Table F} {i : LobbyQFunc} {x : F × ℤ × ℤ} (h : Matches t i x) {n : ℕ}
    (hn : n ∉ keys t) (v : Value F) : Matches ((n, v) :: t) i x := by
  have hkey : i.scriptId ∈ keys t := by
    refine mem_keys_of_entry ?_
    rw [h.script]
    exact fun hnil => nomatch hnil
  have hne : i.scriptId ≠ n := by
    rintro rfl
    exact hn hkey
  refine ⟨?_, h.args, h.args_lt, h.rets, h.rets_lt⟩
  rw [entry_cons_ne v hne, h.script]

/-- The state after a function has been added with the reference `n`. -/
def added (s : QuestScripts F) (q : QFunc) (f : F) (n : ℕ) : QuestScripts F :=
  { s with
    lua := { s.lua with
      tables := Function.update s.lua.tables 1 ((n, .function f) :: s.lua.tables 1) }
    qfuncList := { q with scriptId := n } :: s.qfuncList }

theorem added_rep (h : Rep s r) {fnum argcnt rvcnt : ℤ} {f : F} {n : ℕ}
    (hn : n ∉ keys (s.lua.tables 1)) (hcall : Callable fnum) (hnew : r fnum = none)
    (hargs : 0 ≤ argcnt ∧ argcnt < 2 ^ 31) (hrets : 0 ≤ rvcnt ∧ rvcnt < 2 ^ 31) :
    Rep (added s { funcId := BitVec.ofInt 32 fnum, nargs := BitVec.ofInt 32 argcnt
                   nretvals := BitVec.ofInt 32 rvcnt } f n)
      (Function.update r fnum (some (f, argcnt, rvcnt))) := by
  have hid := toNat_ofInt_of_callable hcall
  have ha := toNat_ofInt_of_count hargs.1 hargs.2
  have hr := toNat_ofInt_of_count hrets.1 hrets.2
  have hother : ∀ i ∈ s.qfuncList, (i.funcId.toNat : ℤ) ≠ fnum := by
    intro i hi heq
    obtain ⟨x, hx, -⟩ := h.listed i hi
    rw [heq, hnew] at hx
    cases hx
  refine ⟨?_, ?_, ?_, ?_⟩
  · simpa [added] using h.table
  · change (BitVec.ofInt 32 fnum :: s.qfuncList.map fun i => i.funcId).Nodup
    rw [List.nodup_cons]
    refine ⟨fun hmem => ?_, h.once⟩
    obtain ⟨i, hi, heq⟩ := List.mem_map.mp hmem
    refine hother i hi ?_
    rw [heq, hid]
  · intro i hi
    rcases List.mem_cons.mp hi with rfl | hi
    · refine ⟨(f, argcnt, rvcnt), ?_, ?_⟩
      · dsimp only
        rw [hid, Function.update_self]
      · refine ⟨?_, ha, ?_, hr, ?_⟩
        · simp [added, entry_cons_self]
        · dsimp only
          omega
        · dsimp only
          omega
    · obtain ⟨x, hx, hmatch⟩ := h.listed i hi
      refine ⟨x, ?_, ?_⟩
      · rw [Function.update_of_ne (hother i hi), hx]
      · simpa [added] using hmatch.cons hn (.function f)
  · intro id x hx
    by_cases hsame : id = fnum
    · rw [hsame]
      exact ⟨hcall, _, List.mem_cons_self, hid⟩
    · rw [Function.update_of_ne hsame] at hx
      obtain ⟨hcallable, i, hi, heq⟩ := h.registered id x hx
      exact ⟨hcallable, i, List.mem_cons_of_mem _ hi, heq⟩

theorem setQuestFunction_eq (alloc : RefAllocator) (h : Rep s r) {fnum : ℤ} (argcnt rvcnt : ℤ)
    (f : F) (haccepted : questScriptStart ≤ fnum) (hcall : Callable fnum) (hnew : r fnum = none)
    (malloc : Bool) :
    setQuestFunction alloc s fnum f argcnt rvcnt malloc =
      some (if malloc then added s
        { funcId := BitVec.ofInt 32 fnum, nargs := BitVec.ofInt 32 argcnt
          nretvals := BitVec.ofInt 32 rvcnt } f (alloc.fresh (keys (s.lua.tables 1))) else s,
        malloc) := by
  have hfresh : ¬(s.qfuncList.any fun i => i.funcId = BitVec.ofInt 32 fnum) = true := by
    rw [List.any_eq_true]
    rintro ⟨i, hi, heq⟩
    rw [decide_eq_true_eq] at heq
    obtain ⟨x, hx, -⟩ := h.listed i hi
    rw [heq, toNat_ofInt_of_callable hcall, hnew] at hx
    cases hx
  rw [setQuestFunction, if_neg (by omega)]
  cases malloc with
  | false =>
    simp [scriptAddLobbyQfuncLocked, State.rawgeti, State.tableAt, h.table, State.push, hfresh,
      State.pop]
  | true =>
    simp [scriptAddLobbyQfuncLocked, State.rawgeti, State.tableAt, h.table, State.push, hfresh,
      State.pop, State.pushvalue, State.ref, added]

/-- An event that does not touch the functions. -/
theorem quiet_call (h : Rep s r) {e : Event F} (henter : enter alloc s e =
    some (s, { calls := [], reads := [] })) (hnext : r.next e = r) (hdue : r.due e = []) :
    ∃ s' reply, enter alloc s e = some (s', reply) ∧ Rep s' (r.next e) ∧
      reply.calls = r.due e ∧ ∀ j ∈ reply.reads, Below (pushed e) j := by
  refine ⟨s, _, henter, ?_, hdue.symm, fun j hj => absurd hj List.not_mem_nil⟩
  rwa [hnext]

variable {t : Trace F}

theorem enter_clear (alloc : RefAllocator) (h : Rep t.scripts t.registered) {e : Event F}
    (hclear : Clear t e) :
    ∃ s' reply, enter alloc t.scripts e = some (s', reply) ∧ Rep s' (t.registered.next e) ∧
      reply.calls = t.registered.due e ∧ ∀ j ∈ reply.reads, Below (pushed e) j := by
  cases e with
  | register fnum f argcnt rvcnt malloc =>
    by_cases haccepted : (questScriptStart : ℤ) ≤ fnum
    · obtain ⟨hcall, hnew, hargs, hrets⟩ := hclear haccepted
      have hset := setQuestFunction_eq alloc h argcnt rvcnt f haccepted hcall hnew malloc
      refine ⟨_, { calls := [], reads := [] }, by rw [enter, hset]; rfl, ?_, rfl,
        fun j hj => absurd hj List.not_mem_nil⟩
      cases malloc with
      | true =>
        have hnext : t.registered.next (.register fnum f argcnt rvcnt true) =
            Function.update t.registered fnum (some (f, argcnt, rvcnt)) := if_pos ⟨haccepted, rfl⟩
        rw [hnext]
        exact added_rep h (alloc.unused _) hcall hnew hargs hrets
      | false =>
        have hnext : t.registered.next (.register fnum f argcnt rvcnt false) = t.registered :=
          if_neg (by simp)
        rw [hnext]
        exact h
    · refine quiet_call h ?_ ?_ rfl
      · rw [enter, setQuestFunction, if_pos (by omega)]
        rfl
      · rw [Registered.next, if_neg fun hboth => haccepted hboth.1]
  | remove fnum extra =>
    have hnone : t.registered fnum = none := by
      by_contra hsome
      obtain ⟨x, hx⟩ := Option.ne_none_iff_exists'.mp hsome
      have hcall := (h.registered fnum x hx).1
      have hclear' := hclear (by
        have hlow := hcall.1
        omega)
      rw [toNat_ofInt_of_callable hcall, hx] at hclear'
      cases hclear'
    refine quiet_call h ?_ (Function.update_eq_self_iff.mpr hnone.symm) rfl
    rw [enter, clearQuestFunction]
    split_ifs with hlow
    · rfl
    · have hfind := h.find_none.mpr (hclear (by omega))
      simp [scriptRemoveLobbyQfuncLocked, hfind]
  | call c =>
    by_cases hcomplete : c.Complete
    swap
    · refine quiet_call h ?_ rfl ?_
      · rw [enter, if_neg hcomplete]
      · rw [Registered.due, if_neg hcomplete]
    by_cases hscript : 0x80000000 < c.qStack 0
    · obtain ⟨reads, hexec, hbelow⟩ := scriptExecuteQfunc_eq h hcomplete
      refine ⟨t.scripts, { calls := t.registered.answer c.qStack, reads := reads }, ?_, h, ?_,
        hbelow⟩
      · rw [enter, if_pos hcomplete, questFunctionDispatch, if_pos hscript, hexec]
      · rw [Registered.due, if_pos hcomplete]
    · refine quiet_call h ?_ rfl ?_
      · rw [enter, if_pos hcomplete, questFunctionDispatch, if_neg hscript]
      · have hnone : t.registered (c.qStack 0).toNat = none := by
          by_contra hsome
          obtain ⟨x, hx⟩ := Option.ne_none_iff_exists'.mp hsome
          have hlow := (h.registered _ x hx).1.1
          refine hscript ?_
          change (0x80000000 : BitVec 32).toNat < (c.qStack 0).toNat
          simp only [questScriptStart] at hlow
          have hstart : (0x80000000 : BitVec 32).toNat = 0x80000000 := rfl
          omega
        rw [Registered.due, if_pos hcomplete, Registered.answer, hnone]

/-- What is kept in a run that is clear of the defects. -/
structure Sound (t : Trace F) : Prop where
  rep : Rep t.scripts t.registered
  faithful : Faithful t

theorem next_sound {e : Event F} (h : Sound t) (hclear : Clear t e) : Sound (next alloc t e) := by
  obtain ⟨s', reply, henter, hrep, hcalls, hreads⟩ := enter_clear alloc h.rep hclear
  rw [next, if_neg (by simp [h.faithful.returned]), henter]
  refine ⟨hrep, h.faithful.returned, hrep.once, ?_⟩
  refine List.forall_mem_append.mpr ⟨h.faithful.exact, ?_⟩
  rw [List.forall_mem_singleton]
  exact ⟨hcalls, hreads⟩

theorem created_sound (n : ℕ) : Sound (created n : Trace F) where
  rep := by
    refine ⟨?_, List.nodup_nil, fun i hi => absurd hi List.not_mem_nil, fun id x hx => ?_⟩
    · exact entry_cons_self _ _ _
    · cases hx
  faithful := ⟨rfl, List.nodup_nil, fun x hx => absurd hx List.not_mem_nil⟩

/-- A call of the function `id` without arguments and return values. -/
def plainCall (id : BitVec 32) : QuestClient :=
  { qStack := fun i => if i = 0 then id else 0, top := 3, locked := false, clientId := 0 }

/-- A function without arguments is registered and called. -/
def registerAndCall (fnum : ℤ) : List (Event Unit) :=
  [.register fnum () 0 0 true, .call (plainCall (BitVec.ofInt 32 fnum))]

/-- How many functions the last event has run, and how many were due. -/
def lastCalls (t : Trace Unit) : Option (ℕ × ℕ) :=
  t.history.getLast?.map fun x => (x.reply.calls.length, x.due.length)

theorem lastCalls_of_faithful {t : Trace Unit} (h : Faithful t) {p : ℕ × ℕ}
    (hp : lastCalls t = some p) : p.1 = p.2 := by
  obtain ⟨x, hx, rfl⟩ := Option.map_eq_some_iff.mp hp
  have hcalls := (h.exact x (List.mem_of_getLast? hx)).1
  dsimp only
  rw [hcalls]

end ShipServer.ScriptFunctions
