import Mathlib.Data.List.Induction

/-! Runs of a deterministic step function. A step condition is exact when it decides, state by
state, whether a property survives the step. -/

namespace Aequora.Base.Run

universe u v w
variable {State : Type u} {Action : Type v} (step : State → Action → State)

/-- The state a finite run ends in. -/
def final (start : State) (actions : List Action) : State := actions.foldl step start

@[simp] theorem final_nil (start : State) : final step start [] = start := rfl

@[simp] theorem final_cons (start : State) (action : Action) (rest : List Action) :
    final step start (action :: rest) = final step (step start action) rest := rfl

theorem final_append (start : State) (first second : List Action) :
    final step start (first ++ second) = final step (final step start first) second :=
  List.foldl_append

/-- The property holds in the start state and after every step of the run. -/
def Throughout (property : State → Prop) : State → List Action → Prop
  | state, [] => property state
  | state, action :: rest => property state ∧ Throughout property (step state action) rest

/-- Every action meets the condition in the state where it is taken. -/
def Permitted (permits : State → Action → Prop) : State → List Action → Prop
  | _, [] => True
  | state, action :: rest => permits state action ∧ Permitted permits (step state action) rest

/-- The weight of a run adds the weight of each step in its own state. -/
def total (weight : State → Action → Nat) : State → List Action → Nat
  | _, [] => 0
  | state, action :: rest => weight state action + total weight (step state action) rest

/-- What a run lets an observer see, step by step. -/
def trace {Event : Type w} (observe : State → Action → List Event) : State → List Action → List Event
  | _, [] => []
  | state, action :: rest => observe state action ++ trace observe (step state action) rest

instance Throughout.decidable (property : State → Prop) [DecidablePred property] :
    (start : State) → (actions : List Action) → Decidable (Throughout step property start actions)
  | start, [] => inferInstanceAs (Decidable (property start))
  | start, action :: rest =>
    have := Throughout.decidable property (step start action) rest
    inferInstanceAs (Decidable (property start ∧ Throughout step property (step start action) rest))

instance Permitted.decidable (permits : State → Action → Prop) [∀ state action, Decidable (permits state action)] :
    (start : State) → (actions : List Action) → Decidable (Permitted step permits start actions)
  | _, [] => inferInstanceAs (Decidable True)
  | start, action :: rest =>
    have := Permitted.decidable permits (step start action) rest
    inferInstanceAs (Decidable (permits start action ∧ Permitted step permits (step start action) rest))

variable {step}

variable {property : State → Prop}

theorem Throughout.head (holds : Throughout step property start actions) : property start := by
  cases actions with
  | nil => exact holds
  | cons _ _ => exact holds.1

theorem throughout_iff_cut : Throughout step property start actions ↔
      ∀ before after, actions = before ++ after → property (final step start before) := by
  induction actions generalizing start with
  | nil => simp [Throughout]
  | cons action _ ih =>
    rw [Throughout, ih]
    constructor
    · rintro ⟨first, later⟩ before after split
      cases before with
      | nil => exact first
      | cons _ tail =>
        cases split
        exact later tail after rfl
    · intro holds
      exact ⟨holds [] _ rfl, fun before after split => holds (action :: before) after (by simp [split])⟩

theorem Throughout.final (holds : Throughout step property start actions) : property (final step start actions) :=
  throughout_iff_cut.mp holds actions [] (by simp)

theorem Throughout.mono (holds : Throughout step property start actions)
    (implies : ∀ state, property state → weaker state) : Throughout step weaker start actions :=
  throughout_iff_cut.mpr fun before after split =>
    implies _ (throughout_iff_cut.mp holds before after split)

/-- A condition met by a whole run is met at each of its steps. -/
theorem permitted_iff_cut : Permitted step permits start actions ↔
      ∀ before action after, actions = before ++ action :: after →
        permits (final step start before) action := by
  induction actions generalizing start with
  | nil => simp [Permitted]
  | cons action rest ih =>
    rw [Permitted, ih]
    constructor
    · rintro ⟨first, later⟩ before chosen after split
      cases before with
      | nil =>
        cases split
        exact first
      | cons _ tail =>
        cases split
        exact later tail chosen after rfl
    · intro holds
      refine ⟨holds [] action rest rfl, fun before chosen after split => ?_⟩
      exact holds (action :: before) chosen after (by simp [split])

theorem permitted_append : Permitted step permits start (first ++ second) ↔
      Permitted step permits start first ∧ Permitted step permits (final step start first) second := by
  induction first generalizing start with
  | nil => simp [Permitted]
  | cons _ _ ih => simp [Permitted, ih, and_assoc]

theorem Permitted.mono (allowed : Permitted step permits start actions)
    (implies : ∀ state action, permits state action → weaker state action) :
    Permitted step weaker start actions :=
  permitted_iff_cut.mpr fun before action after split =>
    implies _ _ (permitted_iff_cut.mp allowed before action after split)

theorem Permitted.and (first : Permitted step permits start actions) (second : Permitted step other start actions) :
    Permitted step (fun state action => permits state action ∧ other state action) start actions :=
  permitted_iff_cut.mpr fun before action after split =>
    ⟨permitted_iff_cut.mp first before action after split,
      permitted_iff_cut.mp second before action after split⟩

theorem Throughout.permitted (holds : Throughout step property start actions) :
    Permitted step (fun state _ => property state) start actions :=
  permitted_iff_cut.mpr fun before action after split =>
    throughout_iff_cut.mp holds before (action :: after) split

/-- The invariant rule: what every permitted step preserves holds throughout a permitted run. -/
theorem Throughout.of_step (initial : invariant start)
    (preserved : ∀ state action, invariant state → permits state action → invariant (step state action))
    (allowed : Permitted step permits start actions) :
    Throughout step invariant start actions := by
  induction actions generalizing start with
  | nil => exact initial
  | cons action _ ih => exact ⟨initial, ih (preserved start action initial allowed.1) allowed.2⟩

theorem Throughout.of_invariant (initial : invariant start)
    (preserved : ∀ state action, invariant state → invariant (step state action)) :
    Throughout step invariant start actions := by
  induction actions generalizing start with
  | nil => exact initial
  | cons action _ ih => exact ⟨initial, ih (preserved start action initial)⟩

/-- The invariant rule for properties that each step preserves where it stands in the run. -/
theorem final_of_cut (initial : property start)
    (preserved : ∀ before action after, actions = before ++ action :: after →
      property (final step start before) → property (step (final step start before) action)) :
    property (final step start actions) := by
  induction actions using List.reverseRecOn with
  | nil => exact initial
  | append_singleton before action ih =>
    rw [final_append]
    refine preserved before action [] rfl (ih fun first middle last split => ?_)
    exact preserved first middle (last ++ [action]) (by simp [split])

/-- A property that a run brings about is brought about by one of its steps. -/
theorem exists_step_of_change (property : State → Prop)
    (before : ¬property start) (after : property (final step start actions)) :
    ∃ first action rest, actions = first ++ action :: rest ∧
      ¬property (final step start first) ∧ property (step (final step start first) action) := by
  induction actions generalizing start with
  | nil => exact absurd after before
  | cons action rest ih =>
    by_cases now : property (step start action)
    · exact ⟨[], action, rest, rfl, before, now⟩
    · obtain ⟨first, chosen, last, split, held⟩ := ih now after
      exact ⟨action :: first, chosen, last, by rw [split, List.cons_append], held⟩

theorem le_final {measure : State → Nat} (monotone : ∀ state action, measure state ≤ measure (step state action))
    (start : State) (actions : List Action) : measure start ≤ measure (final step start actions) := by
  induction actions generalizing start with
  | nil => exact Nat.le_refl _
  | cons action _ ih => exact Nat.le_trans (monotone start action) (ih (step start action))

/-- A step condition that decides whether the property survives each step decides, over
whole runs, whether the property holds throughout. -/
theorem throughout_iff_permitted (initial : property start)
    (decides : ∀ before action after, actions = before ++ action :: after →
      property (final step start before) →
        (property (step (final step start before) action) ↔ permits (final step start before) action)) :
    Throughout step property start actions ↔ Permitted step permits start actions := by
  induction actions generalizing start with
  | nil => simpa [Throughout, Permitted] using initial
  | cons action rest ih =>
    have first := decides [] action rest rfl initial
    have later : property (step start action) →
        (Throughout step property (step start action) rest ↔
          Permitted step permits (step start action) rest) := fun next =>
      ih next fun before chosen after split => decides (action :: before) chosen after (by simp [split])
    constructor
    · rintro ⟨_, holds⟩
      exact ⟨first.mp holds.head, (later holds.head).mp holds⟩
    · rintro ⟨allowed, rest⟩
      have next := first.mpr allowed
      exact ⟨initial, (later next).mpr rest⟩

section Trace
theorem trace_append (start : State) (first second : List Action) :
    trace step observe start (first ++ second) =
      trace step observe start first ++ trace step observe (final step start first) second := by
  induction first generalizing start with
  | nil => rfl
  | cons _ _ ih => simp [trace, ih]

theorem trace_snoc (start : State) (actions : List Action) (action : Action) :
    trace step observe start (actions ++ [action]) =
      trace step observe start actions ++ observe (final step start actions) action := by
  simp [trace_append, trace]

/-- The invariant rule for properties that also speak about what was observed so far. -/
theorem invariant_with_trace {invariant : State → List Event → Prop} (initial : invariant start [])
    (preserved : ∀ before action after, actions = before ++ action :: after →
      invariant (final step start before) (trace step observe start before) →
        invariant (step (final step start before) action)
          (trace step observe start before ++ observe (final step start before) action)) :
    ∀ before after, actions = before ++ after →
      invariant (final step start before) (trace step observe start before) := by
  intro before
  induction before using List.reverseRecOn with
  | nil => exact fun _ _ => initial
  | append_singleton before action ih =>
    intro after split
    have joined : actions = before ++ action :: after := by simp [split]
    rw [trace_snoc, final_append]
    exact preserved before action after joined (ih (action :: after) joined)

end Trace

section Projection
variable {project : State → Shadow} {shadowStep : Shadow → Action → Shadow}
variable (follows : ∀ state action, project (step state action) = shadowStep (project state) action)
include follows

theorem final_project (start : State) (actions : List Action) :
    project (final step start actions) = final shadowStep (project start) actions := by
  induction actions generalizing start with
  | nil => rfl
  | cons _ _ ih => rw [final_cons, final_cons, ih, follows]

theorem trace_project (sees : ∀ state action, observe state action = shadowObserve (project state) action)
    (start : State) (actions : List Action) :
    trace step observe start actions = trace shadowStep shadowObserve (project start) actions := by
  induction actions generalizing start with
  | nil => rfl
  | cons _ _ ih => rw [trace, trace, ih, sees, follows]

theorem permitted_project (decides : ∀ state action, permits state action ↔ shadowPermits (project state) action)
    (start : State) (actions : List Action) :
    Permitted step permits start actions ↔ Permitted shadowStep shadowPermits (project start) actions := by
  induction actions generalizing start with
  | nil => exact Iff.rfl
  | cons _ _ ih => rw [Permitted, Permitted, decides, ih, follows]

end Projection

end Aequora.Base.Run
