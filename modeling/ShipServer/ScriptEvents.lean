import ShipServer.LabelledRuns
import ShipServer.LuaApi

set_option autoImplicit false

/-! The functions that scripts register for events, and the entry points that use them. -/

namespace ShipServer.ScriptEvents

open LabelledRuns LuaApi

/-- `script_action_t`, without the invalid one. -/
abbrev Action := Fin 24

variable {F : Type*}

/-- The script fields of a `lobby_t`. -/
structure LobbyScripts where
  scriptTable : ℕ
  scriptIds : Action → ℕ

/-- The Lua state, `scripts_ref`, `script_ids_gate`, `script_ids`, the lobbies, and whether
`script_mutex` is held. -/
structure Scripts (F : Type*) where
  lua : State F
  scriptsRef : ℕ
  scriptIdsGate : Action → ℕ
  scriptIds : Action → ℕ
  lobbies : ℕ → LobbyScripts
  held : Bool

/-- The functions that an entry point calls, with their arguments. -/
abbrev Calls (F : Type*) := List (F × List (Value F))

/-- `script_add`, where `file` is the function that `luaL_loadfile` makes of the file. Like the
other entry points it has no result where it waits for the mutex forever, and where it uses an
index without a table. -/
def scriptAdd (alloc : RefAllocator) (s : Scripts F) (action : Action) (file : Option F) :
    Option (Scripts F) :=
  if s.scriptsRef = 0 then some s
  else if s.held then none
  else do
    let lua ← s.lua.rawgeti .registry s.scriptsRef
    match file with
    | none =>
      -- the error message goes, the table stays
      let lua ← (lua.push .text).pop 1
      some { s with lua := lua }
    | some f =>
      let lua := lua.push (.function f)
      let lua ← if s.scriptIdsGate action ≠ 0 then lua.unref (.top 2) (s.scriptIdsGate action)
        else some lua
      let (lua, n) ← lua.ref alloc (.top 2)
      let lua ← lua.pop 1
      some { s with lua := lua, scriptIdsGate := Function.update s.scriptIdsGate action n }

/-- `script_add_lobby_locked`, with the function on top of the stack. -/
def scriptAddLobbyLocked (alloc : RefAllocator) (s : Scripts F) (l : ℕ) (action : Action) :
    Option (Scripts F) :=
  if s.scriptsRef = 0 then some s
  else do
    let y := s.lobbies l
    let lua ← s.lua.rawgeti .registry y.scriptTable
    let lua ← if y.scriptIds action ≠ 0 then lua.unref (.top 1) (y.scriptIds action) else some lua
    let lua ← lua.pushvalue 2
    let (lua, n) ← lua.ref alloc (.top 2)
    let lua ← lua.pop 2
    let y := { y with scriptIds := Function.update y.scriptIds action n }
    some { s with lua := lua, lobbies := Function.update s.lobbies l y }

def scriptRemove (s : Scripts F) (action : Action) : Option (Scripts F) :=
  if s.scriptsRef = 0 then some s
  else if s.held then none
  else if s.scriptIdsGate action = 0 then some s
  else do
    let lua ← s.lua.rawgeti .registry s.scriptsRef
    let lua ← lua.unref (.top 2) (s.scriptIdsGate action)
    let lua ← lua.pop 1
    some { s with lua := lua, scriptIdsGate := Function.update s.scriptIdsGate action 0 }

def scriptRemoveLobbyLocked (s : Scripts F) (l : ℕ) (action : Action) : Option (Scripts F) :=
  if s.scriptsRef = 0 then some s
  else
    let y := s.lobbies l
    if y.scriptIds action = 0 then some s
    else do
      let lua ← s.lua.rawgeti .registry y.scriptTable
      let lua ← lua.unref (.top 2) (y.scriptIds action)
      let lua ← lua.pop 1
      let y := { y with scriptIds := Function.update y.scriptIds action 0 }
      some { s with lua := lua, lobbies := Function.update s.lobbies l y }

/-- `push_args_and_exec` with the table of scripts on top of the stack. The value that a function
leaves, or the error message, is popped again. -/
def pushArgsAndExec (lua : State F) (scr : ℕ) (args : List (Value F)) :
    Option (State F × Calls F) := do
  let lua ← lua.rawgeti (.top 1) scr
  let lua := args.foldl State.push lua
  let (lua, called) ← lua.pcall args.length .nil
  let lua ← lua.pop 1
  some (lua, called.toList)

/-- A script that is executed if there is one. -/
def execIf (lua : State F) (scr : ℕ) (args : List (Value F)) : Option (State F × Calls F) :=
  if scr ≠ 0 then pushArgsAndExec lua scr args else some (lua, [])

/-- `script_execute` for a client in the lobby `l`, or in none. -/
def scriptExecute (s : Scripts F) (event : Action) (l : Option ℕ) (args : List (Value F)) :
    Option (Scripts F × Calls F) :=
  if s.scriptsRef = 0 then some (s, [])
  else if s.held then none
  else do
    let lua ← s.lua.rawgeti .registry s.scriptsRef
    let (lua, gate) ← execIf lua (s.scriptIdsGate event) args
    let (lua, locals) ← execIf lua (s.scriptIds event) args
    let (lua, team) ← match l with
      | none => some (lua, [])
      | some l => execIf lua ((s.lobbies l).scriptIds event) args
    let lua ← lua.pop 1
    some ({ s with lua := lua }, gate ++ locals ++ team)

/-- `script_execute_file`, with the lobby as argument. No path out of it unlocks the mutex. -/
def scriptExecuteFile (s : Scripts F) (file : Option F) (l : ℕ) : Option (Scripts F × Calls F) :=
  if s.scriptsRef = 0 then some (s, [])
  else if s.held then none
  else
    match file with
    | none => ((s.lua.push .text).pop 1).map fun lua => ({ s with lua := lua, held := true }, [])
    | some f => do
      let lua := (s.lua.push (.function f)).push (.pointer l)
      let (lua, called) ← lua.pcall 1 .nil
      let lua ← lua.pop 1
      some ({ s with lua := lua, held := true }, called.toList)

/-- An entry of the list of events in `script_eventlist_read`. -/
def readScript (alloc : RefAllocator) (s : Option (State F × (Action → ℕ)))
    (e : Action × Option F) : Option (State F × (Action → ℕ)) := do
  let (lua, ids) ← s
  match e.2 with
  | none =>
    let lua ← (lua.push .text).pop 1
    some (lua, ids)
  | some f =>
    let (lua, n) ← (lua.push (.function f)).ref alloc (.top 2)
    some (lua, Function.update ids e.1 n)

/-- What `init_scripts` leaves, with the entries of the list of events, if it could be read. -/
def initScripts (alloc : RefAllocator) (entries : List (Action × Option F)) :
    Option (Scripts F) := do
  let lua : State F := { stack := [], tables := fun _ => [], nextTable := 1 }
  let (lua, ids) ← entries.foldl (readScript alloc) (some (lua.newtable, fun _ => 0))
  let (lua, n) ← lua.ref alloc .registry
  some { lua := lua, scriptsRef := n, scriptIdsGate := fun _ => 0, scriptIds := ids
         lobbies := fun _ => { scriptTable := 0, scriptIds := fun _ => 0 }, held := false }

/-- The table of a new lobby. -/
def createLobby (alloc : RefAllocator) (s : Scripts F) (l : ℕ) : Option (Scripts F) := do
  let (lua, n) ← s.lua.newtable.ref alloc .registry
  let y := { scriptTable := n, scriptIds := fun _ => 0 }
  some { s with lua := lua, lobbies := Function.update s.lobbies l y }

/-- `script_cleanup_lobby_locked`, and the end of the lobby. -/
def scriptCleanupLobbyLocked (s : Scripts F) (l : ℕ) : Option (Scripts F) := do
  let lua ← s.lua.unref .registry (s.lobbies l).scriptTable
  let y := { scriptTable := 0, scriptIds := fun _ => 0 }
  some { s with lua := lua, lobbies := Function.update s.lobbies l y }

/-- An entry point called by a function of Lua, which has a stack of its own, and the heights of
that stack around it. -/
def inFrame (s : Scripts F) (frame : List (Value F)) (run : Scripts F → Option (Scripts F)) :
    Option (Scripts F × ℕ × ℕ) :=
  (run { s with lua := { s.lua with stack := frame } }).map fun s' =>
    ({ s' with lua := { s'.lua with stack := s.lua.stack } }, frame.length, s'.lua.stack.length)

/-- The calls of the entry points. The two for the callbacks of a lobby come from
`lobby_setEventCallback_lua` and `lobby_clearEventCallback_lua`. -/
inductive Event (F : Type*) where
  | add (action : Action) (file : Option F)
  | remove (action : Action)
  | createLobby (l : ℕ)
  | destroyLobby (l : ℕ)
  | addLobby (l : ℕ) (action : Action) (f : F)
  | removeLobby (l : ℕ) (action : Action)
  | execute (event : Action) (l : Option ℕ) (args : List (Value F))
  | executeFile (file : Option F) (l : ℕ)

/-- The heights of the stack around an entry point, and the calls it makes. -/
structure Effect (F : Type*) where
  before : ℕ
  after : ℕ
  calls : Calls F

/-- An entry point that does not run in a function of Lua. -/
def outside (s : Scripts F) (r : Option (Scripts F × Calls F)) : Option (Scripts F × Effect F) :=
  r.map fun (s', calls) =>
    (s', { before := s.lua.stack.length, after := s'.lua.stack.length, calls := calls })

def quiet (r : Option (Scripts F)) : Option (Scripts F × Calls F) :=
  r.map fun s' => (s', [])

def framed (r : Option (Scripts F × ℕ × ℕ)) : Option (Scripts F × Effect F) :=
  r.map fun (s', before, after) => (s', { before := before, after := after, calls := [] })

def enter (alloc : RefAllocator) (s : Scripts F) : Event F → Option (Scripts F × Effect F)
  | .add action file => outside s (quiet (scriptAdd alloc s action file))
  | .remove action => outside s (quiet (scriptRemove s action))
  | .createLobby l => outside s (quiet (createLobby alloc s l))
  | .destroyLobby l => outside s (quiet (scriptCleanupLobbyLocked s l))
  | .addLobby l action f =>
    framed (inFrame s [.function f, .function f, .number action, .pointer l] fun s =>
      scriptAddLobbyLocked alloc s l action)
  | .removeLobby l action =>
    framed (inFrame s [.number action, .pointer l] fun s => scriptRemoveLobbyLocked s l action)
  | .execute event l args => outside s (scriptExecute s event l args)
  | .executeFile file l => outside s (scriptExecuteFile s file l)

/-- The functions that are registered, as the scripts and the shipgate see it. -/
structure Registered (F : Type*) where
  gate : Action → Option F
  locals : Action → Option F
  lobby : ℕ → Action → Option F

namespace Registered

def setLobby (r : Registered F) (l : ℕ) (action : Action) (f : Option F) : Registered F :=
  { r with lobby := Function.update r.lobby l (Function.update (r.lobby l) action f) }

def next (r : Registered F) : Event F → Registered F
  | .add _ none => r
  | .add action (some f) => { r with gate := Function.update r.gate action (some f) }
  | .remove action => { r with gate := Function.update r.gate action none }
  | .createLobby l => { r with lobby := Function.update r.lobby l fun _ => none }
  | .destroyLobby l => { r with lobby := Function.update r.lobby l fun _ => none }
  | .addLobby l action f => r.setLobby l action (some f)
  | .removeLobby l action => r.setLobby l action none
  | .execute _ _ _ => r
  | .executeFile _ _ => r

def team (r : Registered F) (l : Option ℕ) (event : Action) : Option F :=
  l.bind fun l => r.lobby l event

/-- The calls that an entry point is for. -/
def due (r : Registered F) : Event F → Calls F
  | .execute event l args =>
    ((r.gate event).toList ++ (r.locals event).toList ++ (r.team l event).toList).map
      fun f => (f, args)
  | .executeFile file l => file.toList.map fun f => (f, [.pointer l])
  | _ => []

end Registered

/-- The functions of the list of events, the last one for each event. -/
def listed (entries : List (Action × Option F)) : Action → Option F :=
  entries.foldl (fun r e => e.2.elim r fun f => Function.update r e.1 (some f)) fun _ => none

/-- The effects so far, each beside the calls that were due. A run is `stuck` in an entry point
that does not return. -/
structure Trace (F : Type*) where
  scripts : Scripts F
  registered : Registered F
  history : List (Effect F × Calls F)
  stuck : Bool

def next (alloc : RefAllocator) (t : Trace F) (e : Event F) : Trace F :=
  if t.stuck then t
  else
    match enter alloc t.scripts e with
    | none => { t with stuck := true }
    | some (s, effect) =>
      { t with
        scripts := s
        registered := t.registered.next e
        history := t.history ++ [(effect, t.registered.due e)] }

def started (entries : List (Action × Option F)) (s : Scripts F) : Trace F where
  scripts := s
  registered := { gate := fun _ => none, locals := listed entries, lobby := fun _ _ => none }
  history := []
  stuck := false

/-- All entry points have returned, left the stack at its height and made the calls due. -/
structure Faithful (t : Trace F) : Prop where
  returned : t.stuck = false
  exact : ∀ r ∈ t.history, r.1.after = r.1.before ∧ r.1.calls = r.2

/-- What keeps an entry point clear of the defects: the mutex is free, a file to add can be
loaded, and there is nothing to remove and nothing of a lobby's. -/
def Clear (t : Trace F) : Event F → Prop
  | .add _ file => t.scripts.held = false ∧ file ≠ none
  | .remove action => t.scripts.held = false ∧ t.registered.gate action = none
  | .addLobby _ _ _ => False
  | .removeLobby l action => t.registered.lobby l action = none
  | .execute event l _ => t.scripts.held = false ∧ t.registered.team l event = none
  | .executeFile _ _ => t.scripts.held = false
  | _ => True

/-- A reference to the function that is registered, or 0. -/
def Holds (t : Table F) (n : ℕ) : Option F → Prop
  | none => n = 0
  | some f => n ≠ 0 ∧ entry t n = .function f

theorem Holds.mem_keys {t : Table F} {n : ℕ} {o : Option F} (h : Holds t n o) (hn : n ≠ 0) :
    n ∈ keys t := by
  cases o with
  | none => exact absurd h hn
  | some f =>
    refine mem_keys_of_entry ?_
    rw [h.2]
    exact fun hnil => nomatch hnil

theorem Holds.cons {t : Table F} {n m : ℕ} {o : Option F} (h : Holds t n o) (hm : m ∉ keys t)
    (v : Value F) : Holds ((m, v) :: t) n o := by
  cases o with
  | none => exact h
  | some f =>
    refine ⟨h.1, ?_⟩
    have hne : n ≠ m := by
      rintro rfl
      exact hm (h.mem_keys h.1)
    rw [entry_cons_ne v hne, h.2]

theorem Holds.filter {t : Table F} {n m : ℕ} {o : Option F} (h : Holds t n o)
    (hne : n ≠ 0 → n ≠ m) : Holds (t.filter fun e => e.1 ≠ m) n o := by
  cases o with
  | none => exact h
  | some f => exact ⟨h.1, by rw [entry_filter_ne (hne h.1), h.2]⟩

/-- The table of scripts is the first that was made. -/
structure Rep (s : Scripts F) (r : Registered F) : Prop where
  stack : s.lua.stack = []
  ref : s.scriptsRef ≠ 0
  table : entry (s.lua.tables 0) s.scriptsRef = .table 1
  unused : 1 < s.lua.nextTable
  gate : ∀ a, Holds (s.lua.tables 1) (s.scriptIdsGate a) (r.gate a)
  locals : ∀ a, Holds (s.lua.tables 1) (s.scriptIds a) (r.locals a)
  distinct : ∀ a b, s.scriptIdsGate a ≠ 0 → s.scriptIdsGate a = s.scriptIdsGate b → a = b
  apart : ∀ a b, s.scriptIdsGate a ≠ 0 → s.scriptIdsGate a ≠ s.scriptIds b
  lobbies : ∀ l a, (s.lobbies l).scriptIds a = 0 ∧ r.lobby l a = none
  tables : ∀ l, (s.lobbies l).scriptTable ≠ s.scriptsRef

variable {alloc : RefAllocator} {s : Scripts F} {r : Registered F}

theorem Rep.rawgeti (h : Rep s r) :
    s.lua.rawgeti .registry s.scriptsRef = some (s.lua.push (.table 1)) := by
  rw [State.rawgeti, State.tableAt, Option.map_some, h.table]

/-- `scriptAdd` frees the reference of the function before, and makes a new one. -/
theorem scriptAdd_some (alloc : RefAllocator) (h : Rep s r) (hheld : s.held = false) (a : Action)
    (f : F) :
    ∃ t : Table F, (∀ n o, Holds (s.lua.tables 1) n o → (n ≠ 0 → n ≠ s.scriptIdsGate a) →
        Holds t n o) ∧
      scriptAdd alloc s a (some f) = some { s with
        lua := { s.lua with
          tables := Function.update s.lua.tables 1 ((alloc.fresh (keys t), .function f) :: t) }
        scriptIdsGate := Function.update s.scriptIdsGate a (alloc.fresh (keys t)) } := by
  have hlocked : ¬s.held = true := by simp [hheld]
  rw [scriptAdd, if_neg h.ref, if_neg hlocked, h.rawgeti]
  by_cases hgate : s.scriptIdsGate a = 0
  · refine ⟨s.lua.tables 1, fun n o hn _ => hn, ?_⟩
    simp [hgate, State.push, State.ref, State.tableAt, State.pop]
  · refine ⟨(s.lua.tables 1).filter fun e => e.1 ≠ s.scriptIdsGate a,
      fun n o hn hne => hn.filter hne, ?_⟩
    simp [hgate, State.push, State.unref, State.ref, State.tableAt, State.pop]

theorem scriptAdd_none (h : Rep s r) (hheld : s.held = false) (a : Action) :
    scriptAdd alloc s a none = some { s with lua := s.lua.push (.table 1) } := by
  have hlocked : ¬s.held = true := by simp [hheld]
  rw [scriptAdd, if_neg h.ref, if_neg hlocked, h.rawgeti]
  simp [State.push, State.pop]

theorem execIf_holds {lua : State F} {scr : ℕ} {o : Option F} (h : Holds (lua.tables 1) scr o)
    (args : List (Value F)) :
    execIf (lua.push (.table 1)) scr args =
      some (lua.push (.table 1), o.toList.map fun f => (f, args)) := by
  cases o with
  | none =>
    have hzero : scr = 0 := h
    rw [execIf, if_neg (not_not.mpr hzero)]
    rfl
  | some f =>
    obtain ⟨hscr, hentry⟩ := h
    have hat : (lua.push (.table 1)).rawgeti (.top 1) scr =
        some ((lua.push (.table 1)).push (.function f)) := by
      simp [State.rawgeti, State.tableAt, State.push, hentry]
    rw [execIf, if_pos hscr, pushArgsAndExec, hat]
    simp [State.pcall_foldl_push]

theorem execIf_zero (lua : State F) (args : List (Value F)) :
    execIf lua 0 args = some (lua, []) := by
  rw [execIf, if_neg (not_not.mpr rfl)]

theorem scriptExecute_eq (h : Rep s r) (hheld : s.held = false) (event : Action) (l : Option ℕ)
    (args : List (Value F)) :
    scriptExecute s event l args = some (s, r.due (.execute event l args)) := by
  have hlocked : ¬s.held = true := by simp [hheld]
  have hteam : r.team l event = none := by
    cases l with
    | none => rfl
    | some l => exact (h.lobbies l event).2
  rw [scriptExecute, if_neg h.ref, if_neg hlocked, h.rawgeti]
  cases l with
  | none => simp [execIf_holds (h.gate event), execIf_holds (h.locals event), Registered.due, hteam]
  | some l =>
    simp [execIf_holds (h.gate event), execIf_holds (h.locals event), (h.lobbies l event).1,
      execIf_zero, Registered.due, hteam]

theorem scriptRemove_eq (h : Rep s r) (hheld : s.held = false) (a : Action) :
    scriptRemove s a = if r.gate a = none then some s else none := by
  have hlocked : ¬s.held = true := by simp [hheld]
  have hgate := h.gate a
  rw [scriptRemove, if_neg h.ref, if_neg hlocked]
  cases hr : r.gate a with
  | none =>
    rw [hr] at hgate
    have hzero : s.scriptIdsGate a = 0 := hgate
    rw [if_pos hzero, if_pos rfl]
  | some f =>
    rw [hr] at hgate
    rw [if_neg hgate.1, h.rawgeti, if_neg (by simp)]
    simp [State.push, State.unref, State.tableAt, h.stack]

theorem scriptExecuteFile_eq (h : Rep s r) (hheld : s.held = false) (file : Option F) (l : ℕ) :
    scriptExecuteFile s file l = some ({ s with held := true }, r.due (.executeFile file l)) := by
  have hlocked : ¬s.held = true := by simp [hheld]
  rw [scriptExecuteFile.eq_def, if_neg h.ref, if_neg hlocked]
  cases file with
  | none => simp [Registered.due]
  | some f =>
    have hcall := State.pcall_foldl_push s.lua f [.pointer l] .nil
    simp only [List.foldl_cons, List.foldl_nil, List.length_singleton] at hcall
    simp [hcall, Registered.due]

/-- A function that is added for a lobby is taken off the stack, if the lobby has a table. -/
theorem scriptAddLobbyLocked_stack {s s' : Scripts F} {l : ℕ} {a : Action} {f : F}
    {rest : List (Value F)} (h : scriptAddLobbyLocked alloc s l a = some s')
    (href : s.scriptsRef ≠ 0) (hids : (s.lobbies l).scriptIds a = 0)
    (hstack : s.lua.stack = .function f :: rest) : s'.lua.stack = rest := by
  rw [scriptAddLobbyLocked, if_neg href] at h
  obtain ⟨lua, hget, h⟩ := Option.bind_eq_some_iff.mp h
  obtain rfl := Option.some.inj hget
  dsimp only at h
  rw [if_neg (not_not.mpr hids)] at h
  obtain ⟨lua, hsame, h⟩ := Option.bind_eq_some_iff.mp h
  obtain rfl := Option.some.inj hsame
  obtain ⟨lua₁, hpush, h⟩ := Option.bind_eq_some_iff.mp h
  obtain ⟨⟨lua₂, n⟩, href', h⟩ := Option.bind_eq_some_iff.mp h
  obtain ⟨lua₃, hpop, h⟩ := Option.bind_eq_some_iff.mp h
  obtain rfl := Option.some.inj h
  obtain ⟨v, hv⟩ := State.stack_pushvalue hpush
  change lua₃.stack = rest
  rw [State.stack_pop hpop, State.stack_ref href', hv, List.tail_cons]
  change s.lua.stack.drop 1 = rest
  rw [hstack]
  rfl

/-- Lobbies without functions, whatever their tables. -/
theorem Rep.setLobby (h : Rep s r) {lua : State F} {l : ℕ} {n : ℕ} {r' : Registered F}
    (hstack : lua.stack = []) (htable : entry (lua.tables 0) s.scriptsRef = .table 1)
    (hunused : 1 < lua.nextTable) (hscripts : lua.tables 1 = s.lua.tables 1)
    (hn : n ≠ s.scriptsRef) (hgate : r'.gate = r.gate) (hlocals : r'.locals = r.locals)
    (hlobby : r'.lobby = Function.update r.lobby l fun _ => none) :
    Rep { s with
      lua := lua
      lobbies := Function.update s.lobbies l { scriptTable := n, scriptIds := fun _ => 0 } }
      r' where
  stack := hstack
  ref := h.ref
  table := htable
  unused := hunused
  gate := fun a => by
    rw [hgate]
    dsimp only
    rw [hscripts]
    exact h.gate a
  locals := fun a => by
    rw [hlocals]
    dsimp only
    rw [hscripts]
    exact h.locals a
  distinct := h.distinct
  apart := h.apart
  lobbies := fun k a => by
    rw [hlobby]
    by_cases hk : k = l
    · rw [hk]
      simp
    · simpa [hk] using h.lobbies k a
  tables := fun k => by
    by_cases hk : k = l
    · rw [hk]
      simpa using hn
    · simpa [hk] using h.tables k

theorem scriptAdd_rep (h : Rep s r) {a : Action} {f : F} {t : Table F}
    (ht : ∀ n o, Holds (s.lua.tables 1) n o → (n ≠ 0 → n ≠ s.scriptIdsGate a) → Holds t n o) :
    Rep { s with
      lua := { s.lua with
        tables := Function.update s.lua.tables 1 ((alloc.fresh (keys t), .function f) :: t) }
      scriptIdsGate := Function.update s.scriptIdsGate a (alloc.fresh (keys t)) }
      (r.next (.add a (some f))) := by
  have hunused := alloc.unused (keys t)
  have hpos := alloc.positive (keys t)
  generalize alloc.fresh (keys t) = n at hunused hpos ⊢
  have hgate : ∀ b, b ≠ a → Holds t (s.scriptIdsGate b) (r.gate b) := by
    intro b hb
    refine ht _ _ (h.gate b) fun hne heq => hb (h.distinct b a hne heq)
  have hlocals : ∀ b, Holds t (s.scriptIds b) (r.locals b) := by
    intro b
    refine ht _ _ (h.locals b) fun hne heq => ?_
    refine h.apart a b ?_ heq.symm
    rwa [← heq]
  have hold : ∀ b, b ≠ a → s.scriptIdsGate b ≠ 0 → s.scriptIdsGate b ≠ n := by
    rintro b hb hne rfl
    exact hunused ((hgate b hb).mem_keys hne)
  refine ⟨h.stack, h.ref, ?_, h.unused, ?_, ?_, ?_, ?_, h.lobbies, h.tables⟩
  · simpa using h.table
  · intro b
    by_cases hb : b = a
    · rw [hb]
      simp only [Registered.next, Function.update_self]
      exact ⟨hpos.ne', entry_cons_self _ _ _⟩
    · simpa [Registered.next, hb] using (hgate b hb).cons hunused (.function f)
  · intro b
    simpa [Registered.next] using (hlocals b).cons hunused (.function f)
  · intro b c hne heq
    by_cases hb : b = a
    · by_cases hc : c = a
      · rw [hb, hc]
      · simp only [hb, Function.update_self, Function.update_of_ne hc] at heq
        exact absurd heq.symm (hold c hc (by omega))
    · simp only [Function.update_of_ne hb] at hne heq
      by_cases hc : c = a
      · simp only [hc, Function.update_self] at heq
        exact absurd heq (hold b hb hne)
      · simp only [Function.update_of_ne hc] at heq
        exact h.distinct b c hne heq
  · intro b c hne heq
    by_cases hb : b = a
    · simp only [hb, Function.update_self] at heq
      refine hunused ?_
      rw [heq]
      refine (hlocals c).mem_keys ?_
      omega
    · simp only [Function.update_of_ne hb] at hne heq
      exact h.apart b c hne heq

/-- What is due of an entry point: to return with the stack as high as before, and to have made
the calls that it is for. -/
def Correct (alloc : RefAllocator) (s : Scripts F) (r : Registered F) (e : Event F)
    (s' : Scripts F) : Prop :=
  ∃ effect, enter alloc s e = some (s', effect) ∧ effect.after = effect.before ∧
    effect.calls = r.due e

theorem correct_outside {e : Event F} {s' : Scripts F}
    (henter : enter alloc s e = outside s (some (s', r.due e)))
    (hstack : s'.lua.stack = s.lua.stack) : Correct alloc s r e s' := by
  refine ⟨_, henter, ?_, rfl⟩
  change s'.lua.stack.length = s.lua.stack.length
  rw [hstack]

theorem createLobby_correct (h : Rep s r) (l : ℕ) :
    ∃ s', Correct alloc s r (.createLobby l) s' ∧ Rep s' (r.next (.createLobby l)) := by
  have hunused := alloc.unused (keys (s.lua.tables 0))
  have hkey : s.scriptsRef ∈ keys (s.lua.tables 0) := by
    refine mem_keys_of_entry ?_
    rw [h.table]
    exact fun hnil => nomatch hnil
  have hnext := h.unused
  have hzero : Function.update s.lua.tables s.lua.nextTable [] 0 = s.lua.tables 0 :=
    Function.update_of_ne (by omega) _ _
  have hcreate : createLobby alloc s l = some { s with
      lua := { stack := s.lua.stack
               tables := Function.update (Function.update s.lua.tables s.lua.nextTable []) 0
                 ((alloc.fresh (keys (s.lua.tables 0)), .table s.lua.nextTable) :: s.lua.tables 0)
               nextTable := s.lua.nextTable + 1 }
      lobbies := Function.update s.lobbies l
        { scriptTable := alloc.fresh (keys (s.lua.tables 0)), scriptIds := fun _ => 0 } } := by
    simp [createLobby, State.newtable, State.ref, State.tableAt, hzero]
  refine ⟨_, correct_outside (congrArg (fun x => outside s (quiet x)) hcreate) rfl, ?_⟩
  have hne : s.scriptsRef ≠ alloc.fresh (keys (s.lua.tables 0)) := by
    intro heq
    rw [heq] at hkey
    exact hunused hkey
  refine h.setLobby h.stack ?_ (by dsimp only; omega) ?_ hne.symm rfl rfl rfl
  · simpa [entry_cons_ne _ hne] using h.table
  · simp [Function.update_of_ne (show (1 : ℕ) ≠ s.lua.nextTable by omega)]

theorem destroyLobby_correct (h : Rep s r) (l : ℕ) :
    ∃ s', Correct alloc s r (.destroyLobby l) s' ∧ Rep s' (r.next (.destroyLobby l)) := by
  have hne := (h.tables l).symm
  have hdestroy : scriptCleanupLobbyLocked s l = some { s with
      lua := { s.lua with
        tables := Function.update s.lua.tables 0
          ((s.lua.tables 0).filter fun e => e.1 ≠ (s.lobbies l).scriptTable) }
      lobbies := Function.update s.lobbies l { scriptTable := 0, scriptIds := fun _ => 0 } } := by
    simp [scriptCleanupLobbyLocked, State.unref, State.tableAt]
  refine ⟨_, correct_outside (congrArg (fun x => outside s (quiet x)) hdestroy) rfl, ?_⟩
  refine h.setLobby h.stack ?_ h.unused ?_ h.ref.symm rfl rfl rfl
  · dsimp only
    rw [Function.update_self, entry_filter_ne hne, h.table]
  · simp

variable {t : Trace F}

/-- Clear of the defects, an entry point is correct. -/
theorem enter_clear (alloc : RefAllocator) (h : Rep t.scripts t.registered) {e : Event F}
    (hclear : Clear t e) :
    ∃ s', Correct alloc t.scripts t.registered e s' ∧ Rep s' (t.registered.next e) := by
  cases e with
  | add a file =>
    obtain ⟨hheld, hfile⟩ := hclear
    obtain ⟨f, rfl⟩ := Option.ne_none_iff_exists'.mp hfile
    obtain ⟨tb, ht, hadd⟩ := scriptAdd_some alloc h hheld a f
    exact ⟨_, correct_outside (congrArg (fun x => outside t.scripts (quiet x)) hadd) rfl,
      scriptAdd_rep h ht⟩
  | remove a =>
    obtain ⟨hheld, hgate⟩ := hclear
    refine ⟨t.scripts, correct_outside ?_ rfl, ?_⟩
    · rw [enter, scriptRemove_eq h hheld, if_pos hgate]
      rfl
    · have hsame : t.registered.next (.remove a) = t.registered := by
        rw [Registered.next, Function.update_eq_self_iff.mpr hgate.symm]
      rwa [hsame]
  | createLobby l => exact createLobby_correct h l
  | destroyLobby l => exact destroyLobby_correct h l
  | addLobby l a f => exact hclear.elim
  | removeLobby l a =>
    have hids := (h.lobbies l a).1
    refine ⟨t.scripts, ⟨{ before := 2, after := 2, calls := [] }, ?_, rfl, rfl⟩, ?_⟩
    · simp [enter, framed, inFrame, scriptRemoveLobbyLocked, h.ref, hids]
    · have hnone : Function.update (t.registered.lobby l) a none = t.registered.lobby l :=
        Function.update_eq_self_iff.mpr hclear.symm
      have hsame : t.registered.next (.removeLobby l a) = t.registered := by
        rw [Registered.next, Registered.setLobby, hnone, Function.update_eq_self]
      rwa [hsame]
  | execute event l args =>
    refine ⟨t.scripts, correct_outside ?_ rfl, h⟩
    rw [enter, scriptExecute_eq h hclear.1]
  | executeFile file l =>
    refine ⟨{ t.scripts with held := true }, correct_outside ?_ rfl, ?_⟩
    · rw [enter, scriptExecuteFile_eq h hclear]
    · exact ⟨h.stack, h.ref, h.table, h.unused, h.gate, h.locals, h.distinct, h.apart, h.lobbies,
        h.tables⟩

/-- With the mutex held, an entry point that needs it does not return. -/
theorem clear_of_correct (h : Rep t.scripts t.registered) {e : Event F} {s' : Scripts F}
    (hcorrect : Correct alloc t.scripts t.registered e s') : Clear t e := by
  obtain ⟨effect, henter, hheight, hcalls⟩ := hcorrect
  have hfree (r : Option (Scripts F × Effect F)) (hr : t.scripts.held = true → r = none)
      (hsome : r = some (s', effect)) : t.scripts.held = false := by
    rw [Bool.eq_false_iff]
    intro hheld
    rw [hr hheld] at hsome
    cases hsome
  cases e with
  | add a file =>
    have hheld := hfree _ (fun hheld => by simp [enter, scriptAdd, h.ref, hheld, quiet, outside])
      henter
    refine ⟨hheld, ?_⟩
    rintro rfl
    rw [enter, scriptAdd_none h hheld] at henter
    cases henter
    simp [State.push] at hheight
  | remove a =>
    have hheld := hfree _ (fun hheld => by
      simp [enter, scriptRemove, h.ref, hheld, quiet, outside]) henter
    refine ⟨hheld, ?_⟩
    by_contra hgate
    rw [enter, scriptRemove_eq h hheld, if_neg hgate] at henter
    cases henter
  | createLobby l => trivial
  | destroyLobby l => trivial
  | addLobby l a f =>
    simp only [enter, framed, inFrame, Option.map_map, Option.map_eq_some_iff] at henter
    obtain ⟨s₁, hadd, hs₁⟩ := henter
    have hstack := scriptAddLobbyLocked_stack hadd h.ref (h.lobbies l a).1 rfl
    cases hs₁
    simp [hstack] at hheight
  | removeLobby l a => exact (h.lobbies l a).2
  | execute event l args =>
    have hheld := hfree _ (fun hheld => by
      simp [enter, scriptExecute, h.ref, hheld, outside]) henter
    refine ⟨hheld, ?_⟩
    cases l with
    | none => rfl
    | some l => exact (h.lobbies l event).2
  | executeFile file l =>
    exact hfree _ (fun hheld => by
      simp [enter, scriptExecuteFile.eq_def, h.ref, hheld, outside]) henter

theorem next_faithful_iff (ht : Faithful t) (e : Event F) :
    Faithful (next alloc t e) ↔ ∃ s', Correct alloc t.scripts t.registered e s' := by
  rw [next, if_neg (by simp [ht.returned])]
  cases henter : enter alloc t.scripts e with
  | none =>
    constructor
    · intro hf
      exact absurd hf.returned (by simp)
    · rintro ⟨s', effect, hsome, -⟩
      rw [henter] at hsome
      cases hsome
  | some p =>
    obtain ⟨s₁, effect₁⟩ := p
    constructor
    · intro hf
      have hlast := hf.exact (effect₁, t.registered.due e)
        (List.mem_append_right _ (List.mem_singleton_self _))
      exact ⟨s₁, effect₁, henter, hlast.1, hlast.2⟩
    · rintro ⟨s', effect, hsome, hheight, hcalls⟩
      rw [henter] at hsome
      cases hsome
      refine ⟨ht.returned, ?_⟩
      refine List.forall_mem_append.mpr ⟨ht.exact, ?_⟩
      rw [List.forall_mem_singleton]
      exact ⟨hheight, hcalls⟩

theorem readScripts_holds (entries : List (Action × Option F)) :
    ∀ {lua : State F} {ids : Action → ℕ} {o : Action → Option F}, lua.stack = [.table 1] →
      lua.nextTable = 2 → lua.tables 0 = [] → (∀ a, Holds (lua.tables 1) (ids a) (o a)) →
      ∃ lua' : State F, ∃ ids' : Action → ℕ,
        entries.foldl (readScript alloc) (some (lua, ids)) = some (lua', ids') ∧
          lua'.stack = [.table 1] ∧ lua'.nextTable = 2 ∧ lua'.tables 0 = [] ∧
          ∀ a, Holds (lua'.tables 1) (ids' a) (entries.foldl (fun r e =>
            e.2.elim r fun f => Function.update r e.1 (some f)) o a) := by
  induction entries with
  | nil =>
    intro lua ids o hstack hnext hregistry hids
    exact ⟨lua, ids, rfl, hstack, hnext, hregistry, hids⟩
  | cons e entries ih =>
    intro lua ids o hstack hnext hregistry hids
    obtain ⟨a, file⟩ := e
    cases file with
    | none =>
      have hread : readScript alloc (some (lua, ids)) (a, none) = some (lua, ids) := by
        simp [readScript]
      rw [List.foldl_cons, hread]
      exact ih hstack hnext hregistry hids
    | some f =>
      have hunused := alloc.unused (keys (lua.tables 1))
      have hpos := alloc.positive (keys (lua.tables 1))
      have hread : readScript alloc (some (lua, ids)) (a, some f) = some ({ lua with
          tables := Function.update lua.tables 1
            ((alloc.fresh (keys (lua.tables 1)), .function f) :: lua.tables 1) },
          Function.update ids a (alloc.fresh (keys (lua.tables 1)))) := by
        simp [readScript, State.push, State.ref, State.tableAt, hstack]
      rw [List.foldl_cons, hread]
      generalize alloc.fresh (keys (lua.tables 1)) = n at hunused hpos ⊢
      refine ih hstack hnext (by simpa using hregistry) fun b => ?_
      by_cases hb : b = a
      · rw [hb]
        simp only [Function.update_self, Option.elim_some]
        exact ⟨hpos.ne', entry_cons_self _ _ _⟩
      · simpa [hb] using (hids b).cons hunused (.function f)

theorem initScripts_rep (alloc : RefAllocator) (entries : List (Action × Option F)) :
    ∃ s, initScripts alloc entries = some s ∧ Rep s (started entries s).registered := by
  let lua₀ : State F := { stack := [], tables := fun _ => [], nextTable := 1 }
  obtain ⟨lua, ids, hread, hstack, hnext, hregistry, hids⟩ :=
    @readScripts_holds F alloc entries lua₀.newtable (fun _ => 0) (fun _ => none) rfl rfl rfl
      fun _ => rfl
  have hpos := alloc.positive []
  have hinit : initScripts alloc entries = some
      { lua := { lua with
          stack := []
          tables := Function.update lua.tables 0 [(alloc.fresh [], .table 1)] }
        scriptsRef := alloc.fresh [], scriptIdsGate := fun _ => 0, scriptIds := ids
        lobbies := fun _ => { scriptTable := 0, scriptIds := fun _ => 0 }, held := false } := by
    rw [initScripts]
    dsimp only
    rw [hread]
    simp [State.ref, State.tableAt, hstack, hregistry, keys]
  refine ⟨_, hinit, ?_⟩
  refine ⟨rfl, hpos.ne', ?_, ?_, fun _ => rfl, ?_, ?_, ?_, fun _ _ => ⟨rfl, rfl⟩, fun _ => hpos.ne⟩
  · simp [entry_cons_self]
  · dsimp only
    omega
  · intro a
    simpa [started, listed] using hids a
  · intro a b hne
    exact absurd rfl hne
  · intro a b hne
    exact absurd rfl hne

/-- What is kept while the run is clear of the defects. -/
structure Sound (t : Trace F) : Prop where
  rep : Rep t.scripts t.registered
  faithful : Faithful t

theorem next_sound {e : Event F} (h : Sound t) (hclear : Clear t e) :
    Sound (next alloc t e) := by
  obtain ⟨s', hcorrect, hrep⟩ := enter_clear alloc h.rep hclear
  refine ⟨?_, (next_faithful_iff h.faithful e).mpr ⟨s', hcorrect⟩⟩
  obtain ⟨effect, henter, -⟩ := hcorrect
  rw [next, if_neg (by simp [h.faithful.returned]), henter]
  exact hrep

theorem next_faithful_iff_clear (h : Sound t) (e : Event F) :
    Faithful (next alloc t e) ↔ Clear t e := by
  rw [next_faithful_iff h.faithful]
  constructor
  · rintro ⟨s', hcorrect⟩
    exact clear_of_correct h.rep hcorrect
  · intro hclear
    obtain ⟨s', hcorrect, -⟩ := enter_clear alloc h.rep hclear
    exact ⟨s', hcorrect⟩

/-- The entry points call exactly the functions that are registered, and leave the stack at its
height, in all states of a run exactly when each step of the run is clear of their defects. -/
theorem scriptEvents_faithful (alloc : RefAllocator) (entries : List (Action × Option F)) :
    ∃ s, initScripts alloc entries = some s ∧ ∀ es : List (Event F),
      Run (StepOf (next alloc)) Clear (started entries s) es
          (es.foldl (next alloc) (started entries s)) ↔
        ∀ fs, fs <+: es → Faithful (fs.foldl (next alloc) (started entries s)) := by
  obtain ⟨s, hinit, hrep⟩ := initScripts_rep alloc entries
  refine ⟨s, hinit, fun es => ?_⟩
  have hsound : Sound (started entries s) :=
    ⟨hrep, rfl, fun _ hr => absurd hr List.not_mem_nil⟩
  exact run_iff_prefixes_of_invariant (I := Sound) (fun _ h => h.faithful)
    (fun _ e h => next_faithful_iff_clear h e) (fun _ _ h hclear => next_sound h hclear) hsound es

/-- A function of the shipgate for the first event, and one of a lobby for the second. -/
def twoFunctions : List (Event Bool) :=
  [.add 0 (some true), .createLobby 0, .addLobby 0 1 false, .execute 1 (some 0) []]

/-- The functions of the last calls, and those that were due. -/
def lastCalls (t : Trace Bool) : Option (List Bool × List Bool) :=
  t.history.getLast?.map fun r => (r.1.calls.map Prod.fst, r.2.map Prod.fst)

theorem lastCalls_of_faithful {t : Trace Bool} (h : Faithful t) {p : List Bool × List Bool}
    (hp : lastCalls t = some p) : p.1 = p.2 := by
  obtain ⟨r, hr, rfl⟩ := Option.map_eq_some_iff.mp hp
  have hcalls := (h.exact r (List.mem_of_getLast? hr)).2
  dsimp only
  rw [hcalls]

theorem scriptEvents_not_faithful :
    ¬∀ (alloc : RefAllocator) (entries : List (Action × Option Bool)) (s : Scripts Bool)
      (es : List (Event Bool)), initScripts alloc entries = some s →
        Faithful (es.foldl (next alloc) (started entries s)) := by
  intro h
  obtain ⟨s, hinit⟩ : ∃ s, initScripts nextKey ([] : List (Action × Option Bool)) = some s :=
    ⟨_, rfl⟩
  have hfaithful := h nextKey [] s twoFunctions hinit
  cases hinit
  have hwrong := lastCalls_of_faithful hfaithful (show _ = some ([true], [false]) from rfl)
  exact absurd hwrong (by decide)

end ShipServer.ScriptEvents
