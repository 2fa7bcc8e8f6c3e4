import Mathlib

set_option autoImplicit false

namespace ShipServer.LabelledRuns

variable {σ ε : Type*} {step : σ → ε → σ → Prop} {good good' : σ → ε → Prop}

/-- A finite run of a labelled transition relation, every step of which meets `good` in the
state where it is taken. -/
inductive Run (step : σ → ε → σ → Prop) (good : σ → ε → Prop) : σ → List ε → σ → Prop where
  | stop (s : σ) : Run step good s [] s
  | move {s t u : σ} {e : ε} {es : List ε} (allowed : good s e) (taken : step s e t)
      (rest : Run step good t es u) : Run step good s (e :: es) u

/-- The transition relation of a step function. -/
def StepOf (next : σ → ε → σ) (s : σ) (e : ε) (t : σ) : Prop :=
  t = next s e

/-- No condition on the steps of a run. -/
def Always (_ : σ) (_ : ε) : Prop :=
  True

/-- A property that every allowed step preserves holds at the end of every run. -/
theorem Run.invariant {s t : σ} {es : List ε} (I : σ → Prop) (h : Run step good s es t)
    (hs : I s) (hstep : ∀ s e t, I s → good s e → step s e t → I t) : I t := by
  induction h with
  | stop _ => exact hs
  | move allowed taken _ ih => exact ih (hstep _ _ _ hs allowed taken)

/-- Under an invariant, a run whose steps meet one condition is one whose steps meet another. -/
theorem Run.mono {s t : σ} {es : List ε} {I : σ → Prop} (h : Run step good s es t) (hs : I s)
    (hstep : ∀ s e t, I s → good s e → step s e t → I t)
    (hgood : ∀ s e, I s → good s e → good' s e) : Run step good' s es t := by
  induction h with
  | stop s => exact .stop s
  | move allowed taken _ ih =>
    exact .move (hgood _ _ hs allowed) taken (ih (hstep _ _ _ hs allowed taken))

/-- What a log holds after a run was there before, or has been put there by one of its steps. -/
theorem Run.mem_log {α : Type*} {s t : σ} {es : List ε} (log : σ → List α) (caused : ε → α → Prop)
    (h : Run step good s es t)
    (hstep : ∀ s e t, good s e → step s e t → ∀ a ∈ log t, a ∈ log s ∨ caused e a) :
    ∀ a ∈ log t, a ∈ log s ∨ ∃ e ∈ es, caused e a := by
  induction h with
  | stop _ => exact fun a ha => .inl ha
  | move allowed taken _ ih =>
    intro a ha
    rcases ih a ha with ha | ⟨e, he, hcaused⟩
    · rcases hstep _ _ _ allowed taken a ha with ha | hcaused
      · exact .inl ha
      · exact .inr ⟨_, List.mem_cons_self, hcaused⟩
    · exact .inr ⟨e, List.mem_cons_of_mem _ he, hcaused⟩

/-- A measure that no allowed step raises is not raised by a run. -/
theorem Run.measure_le {β : Type*} [Preorder β] {s t : σ} {es : List ε} (m : σ → β)
    (h : Run step good s es t)
    (hstep : ∀ s e t, good s e → step s e t → m t ≤ m s) : m t ≤ m s := by
  refine h.invariant (fun v => m v ≤ m s) le_rfl ?_
  intro u e v hu hgood htaken
  exact (hstep u e v hgood htaken).trans hu

/-- A step function has a run over every list of labels. -/
theorem run_foldl (next : σ → ε → σ) (s : σ) (es : List ε) :
    Run (StepOf next) Always s es (es.foldl next s) := by
  induction es generalizing s with
  | nil => exact .stop s
  | cons e es ih => exact .move trivial rfl (ih (next s e))

/-- The same for labels that are always allowed. -/
theorem run_foldl_of (next : σ → ε → σ) (s : σ) {es : List ε}
    (h : ∀ e ∈ es, ∀ s, good s e) : Run (StepOf next) good s es (es.foldl next s) := by
  induction es generalizing s with
  | nil => exact .stop s
  | cons e es ih =>
    have hrest := ih (next s e) (fun f hf => h f (List.mem_cons_of_mem e hf))
    exact .move (h e List.mem_cons_self s) rfl hrest

/-- Where a step has a property exactly when it meets a condition, and the steps that meet it keep
an invariant, all states of a run have the property exactly when all its steps meet the
condition. -/
theorem run_iff_prefixes_of_invariant {next : σ → ε → σ} {I P : σ → Prop} (hI : ∀ s, I s → P s)
    (hstep : ∀ s e, I s → (P (next s e) ↔ good s e))
    (hkeep : ∀ s e, I s → good s e → I (next s e)) {s : σ} (hs : I s) (es : List ε) :
    Run (StepOf next) good s es (es.foldl next s) ↔ ∀ fs, fs <+: es → P (fs.foldl next s) := by
  induction es generalizing s with
  | nil =>
    constructor
    · intro _ fs hfs
      rw [List.prefix_nil.mp hfs]
      exact hI s hs
    · intro _
      exact .stop s
  | cons e es ih =>
    constructor
    · intro hrun fs hfs
      cases hrun with
      | move allowed taken rest =>
        cases taken
        cases fs with
        | nil => exact hI s hs
        | cons f fs =>
          obtain ⟨rfl, htail⟩ := List.cons_prefix_cons.mp hfs
          exact (ih (hkeep s f hs allowed)).mp rest fs htail
    · intro hall
      have hgood : good s e := (hstep s e hs).mp
        (hall [e] (List.cons_prefix_cons.mpr ⟨rfl, List.nil_prefix⟩))
      refine .move hgood rfl ((ih (hkeep s e hs hgood)).mpr ?_)
      intro fs hfs
      exact hall (e :: fs) (List.cons_prefix_cons.mpr ⟨rfl, hfs⟩)

/-- A step keeps an invariant where a condition is met, and has a property only there. -/
def Keeps (I P : σ → Prop) (t : σ) (condition : Prop) : Prop :=
  (condition → I t) ∧ (P t → condition)

theorem keeps_of_invariant {I P : σ → Prop} {t : σ} {condition : Prop} (ht : I t)
    (hcondition : condition) : Keeps I P t condition :=
  ⟨fun _ => ht, fun _ => hcondition⟩

theorem run_iff_prefixes_of_keeps {next : σ → ε → σ} {I P : σ → Prop} (hI : ∀ s, I s → P s)
    (hstep : ∀ s e, I s → Keeps I P (next s e) (good s e)) {s : σ} (hs : I s) (es : List ε) :
    Run (StepOf next) good s es (es.foldl next s) ↔ ∀ fs, fs <+: es → P (fs.foldl next s) := by
  refine run_iff_prefixes_of_invariant hI (fun s e h => ?_) (fun s e h => (hstep s e h).1) hs es
  obtain ⟨hkeep, hcondition⟩ := hstep s e h
  exact ⟨hcondition, fun hgood => hI _ (hkeep hgood)⟩

/-- The property may be the invariant. -/
theorem run_iff_prefixes {next : σ → ε → σ} (I : σ → Prop)
    (hstep : ∀ s e, I s → (I (next s e) ↔ good s e)) {s : σ} (hs : I s) (es : List ε) :
    Run (StepOf next) good s es (es.foldl next s) ↔ ∀ fs, fs <+: es → I (fs.foldl next s) :=
  run_iff_prefixes_of_invariant (fun _ h => h) hstep (fun s e h hgood => (hstep s e h).mpr hgood)
    hs es

/-- Where a call meets its condition exactly when it does what it should and keeps an invariant,
the calls of a run meet their conditions exactly when all of them do so. -/
theorem run_iff_calls {next : σ → ε → σ} {I : σ → Prop} {meets : σ → ε → Prop}
    (hstep : ∀ s e, I s → (good s e ↔ meets s e ∧ I (next s e))) {s : σ} (hs : I s)
    (es : List ε) :
    Run (StepOf next) good s es (es.foldl next s) ↔
      ∀ fs, fs <+: es → I (fs.foldl next s) ∧
        ∀ e, fs ++ [e] <+: es → meets (fs.foldl next s) e := by
  induction es generalizing s with
  | nil =>
    constructor
    · intro _ fs hfs
      rw [List.prefix_nil.mp hfs]
      refine ⟨hs, ?_⟩
      intro e he
      cases List.prefix_nil.mp he
    · intro _
      exact .stop s
  | cons e es ih =>
    constructor
    · intro hrun fs hfs
      cases hrun with
      | move allowed taken rest =>
        cases taken
        obtain ⟨hmeets, hnext⟩ := (hstep s e hs).mp allowed
        cases fs with
        | nil =>
          refine ⟨hs, ?_⟩
          intro f hf
          obtain ⟨rfl, -⟩ := List.cons_prefix_cons.mp hf
          exact hmeets
        | cons f fs =>
          obtain ⟨rfl, htail⟩ := List.cons_prefix_cons.mp hfs
          obtain ⟨hI, hcalls⟩ := (ih hnext).mp rest fs htail
          exact ⟨hI, fun d hd => hcalls d (List.cons_prefix_cons.mp hd).2⟩
    · intro hall
      have hfirst : [e] <+: e :: es := List.cons_prefix_cons.mpr ⟨rfl, List.nil_prefix⟩
      have hmeets := (hall [] List.nil_prefix).2 e hfirst
      have hnext := (hall [e] hfirst).1
      refine .move ((hstep s e hs).mpr ⟨hmeets, hnext⟩) rfl ((ih hnext).mpr ?_)
      intro fs hfs
      obtain ⟨hI, hcalls⟩ := hall (e :: fs) (List.cons_prefix_cons.mpr ⟨rfl, hfs⟩)
      exact ⟨hI, fun d hd => hcalls d (List.cons_prefix_cons.mpr ⟨rfl, hd⟩)⟩

/-- Every step of a run over a step function meets the condition where it is taken. -/
theorem Run.good_at {next : σ → ε → σ} {s t : σ} {e : ε} (es : List ε) {fs : List ε}
    (h : Run (StepOf next) good s (es ++ e :: fs) t) : good (es.foldl next s) e := by
  induction es generalizing s with
  | nil =>
    cases h with
    | move allowed _ _ => exact allowed
  | cons d es ih =>
    cases h with
    | move _ taken rest =>
      cases taken
      exact ih rest

end ShipServer.LabelledRuns
