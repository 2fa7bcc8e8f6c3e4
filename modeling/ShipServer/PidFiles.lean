import ShipServer.LabelledRuns
import ShipServer.LockedFiles

set_option autoImplicit false

/-! The pid file of a ship server: `flopen`, `pidfile_open`, `pidfile_write` and `pidfile_remove` as
the system calls of several servers that start and stop at the same time. -/

namespace ShipServer.PidFiles

open LabelledRuns LockedFiles

/-- What a reader of a pid file finds: the file may be empty, or hold something that is no pid. -/
inductive Content (P : Type*) where
  | empty
  | pid (p : P)
  | other

/-- Where a server stands between two system calls, with the file that it has open. -/
inductive Stage (P I : Type*) where
  | idle
  -- in the loop of `flopen`
  | opening
  | opened (i : I)
  | locked (i : I)
  | compared (i named : I)
  | matched (i : I)
  -- in `pidfile_open`, when the file is locked
  | refused (count : ℕ)
  | reading (count : ℕ) (i : I)
  -- running, with `pf` or without
  | owner (i : I)
  | written (i : I)
  | without
  | failed
  -- in `pidfile_remove`, or in `pidfile_write` if that goes wrong
  | unlinked (i : I) (exits : Bool)
  | alreadyRunning (op : Option P)
  | stopped

variable {P I : Type*}

namespace Stage

/-- The file that the server has locked. -/
def lock : Stage P I → Option I
  | locked i | compared i _ | matched i | owner i | written i | unlinked i _ => some i
  | _ => none

/-- The pid file of the server, once it has one. -/
def file : Stage P I → Option I
  | owner i | written i => some i
  | _ => none

/-- The server is in `pidfile_open`. -/
def opens : Stage P I → Bool
  | opening | opened _ | locked _ | compared _ _ | matched _ | refused _ | reading _ _ => true
  | _ => false

/-- The name has been seen to stand for the file that the server has locked. -/
def sure : Stage P I → I → Prop
  | compared i named, j => i = j ∧ named = j
  | matched i, j | owner i, j | written i, j => i = j
  | _, _ => False

end Stage

abbrev PidFile (P I : Type*) := Files P I (Content P)

/-- The locks that go with the descriptors of a server. -/
def closed [DecidableEq I] (f : PidFile P I) (st : Stage P I) : PidFile P I :=
  st.lock.elim f f.release

open Stage in
/-- One system call of the server `p`, with what the code does on its result. A server that is
refused goes on without a pid file if the file is gone by then or holds no pid. -/
inductive Move [DecidableEq I] (p : P) :
    PidFile P I → Stage P I → PidFile P I → Stage P I → Prop where
  | start {f} : Move p f idle f opening
  | openat {f i} (h : f.named = some i) : Move p f opening f (opened i)
  | creat {f} (i : I) (h : f.named = none) : Move p f opening (f.create i .empty) (opened i)
  | flock {f i} (h : f.lock i = none) : Move p f (opened i) (f.acquire i p) (locked i)
  | wouldBlock {f i q} (h : f.lock i = some q) : Move p f (opened i) f (refused 20)
  | disappeared {f i} (h : f.named = none) : Move p f (locked i) (f.release i) opening
  | fstatat {f i j} (h : f.named = some j) : Move p f (locked i) f (compared i j)
  | changed {f i j} (h : j ≠ i) : Move p f (compared i j) (f.release i) opening
  | same {f i} : Move p f (compared i i) f (matched i)
  | ftruncate {f i} : Move p f (matched i) (f.write i .empty) (owner i)
  -- `pidfile_read`
  | look {f n i} (h : f.named = some i) : Move p f (refused n) f (reading n i)
  | gone {f n} (h : f.named = none) : Move p f (refused n) f without
  | again {f n i} (h : f.content i = .empty) : Move p f (reading (n + 2) i) f (refused (n + 1))
  | tired {f i} (h : f.content i = .empty) : Move p f (reading 1 i) f (alreadyRunning none)
  | readPid {f n i q} (h : f.content i = .pid q) :
      Move p f (reading n i) f (alreadyRunning (some q))
  | readOther {f n i} (h : f.content i = .other) : Move p f (reading n i) f without
  -- `pidfile_write` and `pidfile_remove`
  | pwrite {f i} : Move p f (owner i) (f.write i (.pid p)) (written i)
  | unlink {f st i} (h : st.file = some i) (exits : Bool) : Move p f st f.unlink (unlinked i exits)
  | close {f i exits} :
      Move p f (unlinked i exits) (f.release i) (if exits then stopped else failed)
  -- any other call of `pidfile_open` that fails, and any way to end that leaves the file
  | fail {f st} (h : st.opens = true) : Move p f st (closed f st) failed
  | stop {f st} : Move p f st (closed f st) stopped

/-- The servers on a machine that use one and the same pid file. -/
structure Machine (P I : Type*) where
  files : PidFile P I
  stage : P → Stage P I

/-- A step of the server `p`. -/
inductive Step [DecidableEq P] [DecidableEq I] (s : Machine P I) (p : P) : Machine P I → Prop where
  | move {g st} (h : Move p s.files (s.stage p) g st) :
      Step s p { files := g, stage := Function.update s.stage p st }

/-- No server runs. A file may be left from before. -/
def start (named : Option I) (content : I → Content P) : Machine P I where
  files := { named := named, lock := fun _ => none, content := content }
  stage _ := .idle

/-- What is so about a server in each of its stages. -/
structure Fits (f : PidFile P I) (p : P) (st : Stage P I) : Prop where
  lock : ∀ j, f.lock j = some p ↔ st.lock = some j
  named : ∀ i, st.sure i → f.named = some i
  owner : ∀ i, st = .owner i → f.content i = .empty
  written : ∀ i, st = .written i → f.content i = .pid p

def Sound (s : Machine P I) : Prop :=
  ∀ p, Fits s.files p (s.stage p)

section Sound

variable {f g : PidFile P I} {p q : P} {i : I} {st st' : Stage P I}

/-- A stage that needs nothing but the locks. -/
theorem fits_of_lock (hlock : ∀ j, g.lock j = some p ↔ st.lock = some j)
    (hsure : ∀ i, ¬ st.sure i) : Fits g p st := by
  refine ⟨hlock, fun i h => absurd h (hsure i), fun i h => ?_, fun i h => ?_⟩
  · exact absurd (by rw [h]; rfl) (hsure i)
  · exact absurd (by rw [h]; rfl) (hsure i)

theorem start_sound (named : Option I) (content : I → Content P) : Sound (start named content) := by
  intro p
  exact fits_of_lock (fun j => by simp [start, Stage.lock]) fun _ hsure => hsure

theorem Stage.file_cases (h : st.file = some i) : st = .owner i ∨ st = .written i := by
  cases st <;> simp_all [Stage.file]

theorem Fits.holds (h : Fits f p st) (hfile : st.file = some i) : f.Holds p i := by
  rcases Stage.file_cases hfile with rfl | rfl
  · exact ⟨h.named i rfl, (h.lock i).2 rfl⟩
  · exact ⟨h.named i rfl, (h.lock i).2 rfl⟩

variable [DecidableEq I]

theorem closed_guarded (h : Fits f p st) : Guarded p f (closed f st) := by
  rw [closed]
  cases hlock : st.lock with
  | none => exact .none
  | some i => exact .release i ((h.lock i).2 hlock)

/-- A server does nothing to the files that the others have to fear. -/
theorem Move.guarded (h : Move p f st g st') (hfits : Fits f p st) : Guarded p f g := by
  cases h with
  | start | openat | wouldBlock | fstatat | same | look | gone | again | tired | readPid
  | readOther => exact .none
  | creat i hnone => exact .create i .empty hnone
  | flock hfree => exact .acquire _ hfree
  | disappeared => exact .release _ ((hfits.lock _).2 rfl)
  | changed => exact .release _ ((hfits.lock _).2 rfl)
  | ftruncate => exact .write _ _ ((hfits.lock _).2 rfl)
  | pwrite => exact .write _ _ ((hfits.lock _).2 rfl)
  | unlink hfile exits => exact .unlink _ (hfits.holds hfile)
  | close => exact .release _ ((hfits.lock _).2 rfl)
  | fail => exact closed_guarded hfits
  | stop => exact closed_guarded hfits

/-- The others find everything as it was. -/
theorem Fits.other (h : Fits f q st) (hne : q ≠ p) (hguard : Guarded p f g) : Fits g q st := by
  have hholds : ∀ i, st.sure i → g.Holds q i ∧ g.content i = f.content i := by
    intro i hsure
    refine hguard.holds hne ⟨h.named i hsure, (h.lock i).2 ?_⟩
    cases st <;> simp_all [Stage.sure, Stage.lock]
  refine ⟨fun j => (hguard.lock_iff hne j).trans (h.lock j), fun i hsure => (hholds i hsure).1.1,
    fun i hst => ?_, fun i hst => ?_⟩
  · rw [(hholds i (by rw [hst]; rfl)).2, h.owner i hst]
  · rw [(hholds i (by rw [hst]; rfl)).2, h.written i hst]

theorem lock_release (h : ∀ j, f.lock j = some p ↔ some i = some j) (j : I) :
    (f.release i).lock j = some p ↔ none = some j := by
  by_cases hj : j = i
  · subst hj
    simp [Files.release]
  · have hfree : f.lock j ≠ some p := fun hlock => hj (Option.some.inj ((h j).1 hlock)).symm
    simp [Files.release, hj, hfree]

theorem lock_closed (h : ∀ j, f.lock j = some p ↔ st.lock = some j) (j : I) :
    (closed f st).lock j = some p ↔ none = some j := by
  rw [closed]
  cases hlock : st.lock with
  | none => simpa [hlock] using h j
  | some i => exact lock_release (fun k => by rw [h k, hlock]) j

theorem lock_acquire (h : ∀ j, f.lock j = some p ↔ none = some j) (j : I) :
    (f.acquire i p).lock j = some p ↔ some i = some j := by
  by_cases hj : j = i
  · subst hj
    simp [Files.acquire]
  · have hfree : f.lock j ≠ some p := fun hlock => by cases (h j).1 hlock
    simp [Files.acquire, hj, hfree, Ne.symm hj]

theorem Fits.move (h : Fits f p st) (hmove : Move p f st g st') : Fits g p st' := by
  cases hmove with
  | start | openat | wouldBlock | look | gone | again | tired | readPid | readOther | creat =>
    exact fits_of_lock h.lock fun _ hsure => hsure
  | flock => exact fits_of_lock (lock_acquire h.lock) fun _ hsure => hsure
  | disappeared | changed => exact fits_of_lock (lock_release h.lock) fun _ hsure => hsure
  | fstatat hnamed =>
    refine ⟨h.lock, fun k hk => ?_, fun k hk => ?_, fun k hk => ?_⟩
    · rw [hnamed, hk.2]
    · cases hk
    · cases hk
  | same =>
    refine ⟨h.lock, fun k hk => h.named k ⟨hk, hk⟩, fun k hk => ?_, fun k hk => ?_⟩
    · cases hk
    · cases hk
  | ftruncate =>
    refine ⟨h.lock, h.named, fun k hk => ?_, fun k hk => ?_⟩
    · cases hk
      simp [Files.write]
    · cases hk
  | pwrite =>
    refine ⟨h.lock, h.named, fun k hk => ?_, fun k hk => ?_⟩
    · cases hk
    · cases hk
      simp [Files.write]
  | unlink hfile exits =>
    rcases Stage.file_cases hfile with rfl | rfl
    · exact fits_of_lock h.lock fun _ hsure => hsure
    · exact fits_of_lock h.lock fun _ hsure => hsure
  | @close i exits =>
    cases exits
    · exact fits_of_lock (lock_release h.lock) fun _ hsure => hsure
    · exact fits_of_lock (lock_release h.lock) fun _ hsure => hsure
  | fail => exact fits_of_lock (lock_closed h.lock) fun _ hsure => hsure
  | stop => exact fits_of_lock (lock_closed h.lock) fun _ hsure => hsure

/-- The server has been turned away, or it is on its way to that. -/
def TurnedAway (q : P) (i : I) : Stage P I → Prop
  | .idle | .opening | .refused _ | .failed | .stopped => True
  | .opened j | .reading _ j => j = i
  | .alreadyRunning op => op = some q
  | _ => False

theorem turnedAway_move (hholds : f.Holds q i)
    (hcontent : f.content i = .pid q) (h : TurnedAway q i st) (hmove : Move p f st g st') :
    TurnedAway q i st' := by
  cases hmove with
  | start | wouldBlock | fail | stop => exact trivial
  | openat hnamed => exact Option.some.inj (hnamed.symm.trans hholds.1)
  | look hnamed => exact Option.some.inj (hnamed.symm.trans hholds.1)
  | creat i hnone => exact absurd (hnone.symm.trans hholds.1) (Option.some_ne_none _).symm
  | gone hnone => exact absurd (hnone.symm.trans hholds.1) (Option.some_ne_none _).symm
  | flock hfree =>
    have hsame : _ = i := h
    rw [hsame, hholds.2] at hfree
    cases hfree
  | again hempty => exact trivial
  | tired hempty =>
    have hsame : _ = i := h
    rw [hsame, hcontent] at hempty
    cases hempty
  | readPid hpid =>
    have hsame : _ = i := h
    rw [hsame, hcontent] at hpid
    cases hpid
    rfl
  | readOther hother =>
    have hsame : _ = i := h
    rw [hsame, hcontent] at hother
    cases hother
  | unlink hfile exits =>
    rcases Stage.file_cases hfile with rfl | rfl
    · exact h.elim
    · exact h.elim
  | disappeared | fstatat | changed | same | ftruncate | pwrite | close => exact h.elim

/-- Several calls of one server, with no other server in between. -/
inductive Moves (p : P) : PidFile P I → Stage P I → ℕ → PidFile P I → Stage P I → Prop where
  | refl (f : PidFile P I) (st : Stage P I) : Moves p f st 0 f st
  | next {f g k : PidFile P I} {st st' st'' : Stage P I} {n : ℕ} (h : Move p f st g st')
      (tail : Moves p g st' n k st'') : Moves p f st (n + 1) k st''

/-- A server gets a file that nobody has locked. -/
theorem moves_opened (hfree : f.lock i = none) (hnamed : f.named = some i) :
    Moves p f (.opened i) 5 (((f.acquire i p).write i .empty).write i (.pid p)) (.written i) :=
  .next (.flock hfree) <| .next (.fstatat hnamed) <| .next .same <| .next .ftruncate <|
    .next .pwrite <| .refl _ _

/-- A server that starts by itself gets the pid file, unless somebody has locked it. -/
theorem moves_start (hfree : f.lock i = none) (hnamed : f.named = some i ∨ f.named = none) :
    ∃ g, Moves p f .idle 7 g (.written i) ∧ g.content i = .pid p := by
  rcases hnamed with hnamed | hnamed
  · refine ⟨_, .next .start <| .next (.openat hnamed) <| moves_opened hfree hnamed, ?_⟩
    simp [Files.write]
  · have hcreated : (f.create i .empty).lock i = none := hfree
    refine ⟨_, .next .start <| .next (.creat i hnamed) <| moves_opened hcreated rfl, ?_⟩
    simp [Files.write]

end Sound

section Runs

variable [DecidableEq P] [DecidableEq I] {s t : Machine P I} {p q : P} {ps : List P}

theorem Sound.step (h : Sound s) (hstep : Step s p t) : Sound t := by
  obtain ⟨hmove⟩ := hstep
  intro q
  by_cases hq : q = p
  · subst hq
    simpa using (h q).move hmove
  · simpa [Function.update_of_ne hq] using (h q).other hq (hmove.guarded (h p))

theorem Moves.run {f g : PidFile P I} {st st' : Stage P I} {n : ℕ} (h : Moves p f st n g st')
    (hfiles : s.files = f) (hstage : s.stage p = st) :
    Run Step (fun _ q => q = p) s (List.replicate n p)
      { files := g, stage := Function.update s.stage p st' } := by
  induction h generalizing s with
  | refl f st =>
    have hsame : s = { files := f, stage := Function.update s.stage p st } := by
      rw [← hfiles, ← hstage, Function.update_eq_self]
    rw [← hsame]
    exact .stop s
  | next hmove _ ih =>
    rw [← hfiles, ← hstage] at hmove
    have hrest := ih (s := { files := _, stage := Function.update s.stage p _ }) rfl
      (Function.update_self p _ s.stage)
    rw [Function.update_idem] at hrest
    exact .move rfl ⟨hmove⟩ hrest

theorem run_sound {good : Machine P I → P → Prop} (h : Run Step good s ps t) (hs : Sound s) :
    Sound t :=
  h.invariant Sound hs fun _ _ _ hsound _ hstep => hsound.step hstep

/-- While a server runs with its pid in the file, one that starts is turned away with this pid. -/
theorem second_turnedAway {named : Option I} {content : I → Content P} {qs : List P} {i : I}
    (h : Run Step Always (start named content) ps s) (hq : s.stage q = .written i)
    (hp : s.stage p = .idle) (hrun : Run Step (fun _ r => r ≠ q) s qs t) :
    TurnedAway q i (t.stage p) := by
  have hs := run_sound h (start_sound named content)
  have hinv := hrun.invariant
    (fun u => Sound u ∧ u.stage q = .written i ∧ TurnedAway q i (u.stage p))
    ⟨hs, hq, by rw [hp]; trivial⟩ ?_
  · exact hinv.2.2
  · intro u r v hu hne hstep
    obtain ⟨hsound, hwritten, haway⟩ := hu
    have hfits := hsound q
    refine ⟨hsound.step hstep, ?_⟩
    obtain ⟨hmove⟩ := hstep
    have hholds : u.files.Holds q i := hfits.holds (by rw [hwritten]; rfl)
    refine ⟨by simpa [Function.update_of_ne (Ne.symm hne)] using hwritten, ?_⟩
    by_cases hr : p = r
    · subst hr
      simpa using turnedAway_move hholds (hfits.written i hwritten) haway hmove
    · simpa [Function.update_of_ne hr] using haway

theorem second_turnedAway_started : ∃ ps s qs t,
    Run Step Always (start (P := ℕ) (I := ℕ) none fun _ => .empty) ps s ∧
      s.stage 0 = .written 3 ∧ Run Step (fun _ r => r ≠ 0) s qs t ∧
      t.stage 1 = .alreadyRunning (some 0) ∧ TurnedAway 0 3 (t.stage 1) := by
  have hruns : ∃ ps s qs t, Run Step Always (start (P := ℕ) (I := ℕ) none fun _ => .empty) ps s ∧
      s.stage 0 = .written 3 ∧ s.stage 1 = .idle ∧ Run Step (fun _ r => r ≠ 0) s qs t ∧
      t.stage 1 = .alreadyRunning (some 0) :=
    ⟨[0, 0, 0, 0, 0, 0, 0], _, [1, 1, 1, 1, 1], _,
      .move trivial ⟨.start⟩ <| .move trivial ⟨.creat 3 rfl⟩ <|
      .move trivial ⟨.flock rfl⟩ <| .move trivial ⟨.fstatat rfl⟩ <| .move trivial ⟨.same⟩ <|
      .move trivial ⟨.ftruncate⟩ <| .move trivial ⟨.pwrite⟩ <| .stop _, rfl, rfl,
      .move (by decide) ⟨.start⟩ <| .move (by decide) ⟨.openat rfl⟩ <|
      .move (by decide) ⟨.wouldBlock rfl⟩ <| .move (by decide) ⟨.look rfl⟩ <|
      .move (by decide) ⟨.readPid rfl⟩ <| .stop _, rfl⟩
  obtain ⟨ps, s, qs, t, hrun, hwritten, hidle, hrest, hstage⟩ := hruns
  exact ⟨ps, s, qs, t, hrun, hwritten, hrest, hstage,
    second_turnedAway hrun hwritten hidle hrest⟩

/-- Once no server holds the lock, one that starts by itself gets the pid file. -/
theorem alone_written {i : I} (hp : s.stage p = .idle) (hfree : s.files.lock i = none)
    (hnamed : s.files.named = some i ∨ s.files.named = none) :
    ∃ t, Run Step (fun _ q => q = p) s (List.replicate 7 p) t ∧ t.stage p = .written i ∧
      t.files.content i = .pid p := by
  obtain ⟨g, hmoves, hcontent⟩ := moves_start hfree hnamed
  exact ⟨_, hmoves.run rfl hp, Function.update_self p _ s.stage, hcontent⟩

-- a server that is refused while another one leaves goes on without a file, and a third gets one
example : ∃ ps t, Run Step Always (start (P := ℕ) (I := ℕ) none fun _ => .empty) ps t ∧
    t.stage 1 = .without ∧ t.stage 2 = .written 0 := by
  refine ⟨[0, 0, 0, 0, 0, 0, 0, 1, 1, 1, 0, 0, 1, 2, 2, 2, 2, 2, 2, 2], _,
    .move trivial ⟨.start⟩ <| .move trivial ⟨.creat 0 rfl⟩ <| .move trivial ⟨.flock rfl⟩ <|
    .move trivial ⟨.fstatat rfl⟩ <| .move trivial ⟨.same⟩ <| .move trivial ⟨.ftruncate⟩ <|
    .move trivial ⟨.pwrite⟩ <| .move trivial ⟨.start⟩ <| .move trivial ⟨.openat rfl⟩ <|
    .move trivial ⟨.wouldBlock rfl⟩ <| .move trivial ⟨.unlink rfl true⟩ <|
    .move trivial ⟨.close⟩ <| .move trivial ⟨.gone rfl⟩ <| .move trivial ⟨.start⟩ <|
    .move trivial ⟨.creat 0 rfl⟩ <| .move trivial ⟨.flock rfl⟩ <| .move trivial ⟨.fstatat rfl⟩ <|
    .move trivial ⟨.same⟩ <| .move trivial ⟨.ftruncate⟩ <| .move trivial ⟨.pwrite⟩ <| .stop _,
    rfl, rfl⟩

end Runs

end ShipServer.PidFiles
