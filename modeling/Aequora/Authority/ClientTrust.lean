import Aequora.Authority.Controller

/-! What a client trusts: one authority and the highest epoch it has presented. A higher epoch
freezes the client until it has gone through six phases. -/

namespace Aequora.Authority

open Std Aequora.Base Aequora.Protocol Run

structure AuthorityDescriptor where
  authorityId : AuthorityId
  epoch : AuthorityEpoch
  role : AuthorityRole
  instanceId : AuthorityInstanceId

/-- Durable phase of a client's change to a new epoch. -/
inductive EpochTransitionPhase where
  | normal | freezeAuthoritativeReconciliation | classifyPendingOperations | acquireNewScopeManifest
  | bootstrapNewEpoch | rebaseSafeUnsentIntent | resolveAmbiguousOldEpochOperations

/-- How many phases are left before normal operation. -/
def EpochTransitionPhase.remaining : EpochTransitionPhase → Nat
  | .normal => 0
  | .freezeAuthoritativeReconciliation => 6
  | .classifyPendingOperations => 5
  | .acquireNewScopeManifest => 4
  | .bootstrapNewEpoch => 3
  | .rebaseSafeUnsentIntent => 2
  | .resolveAmbiguousOldEpochOperations => 1

theorem EpochTransitionPhase.remaining_eq_zero {phase : EpochTransitionPhase} :
    phase.remaining = 0 ↔ phase = .normal := by
  cases phase <;> simp [remaining]

structure ClientAuthorityState where
  trustedAuthority : Option AuthorityId
  highestEpochs : ExtTreeMap AuthorityId AuthorityEpoch
  phase : EpochTransitionPhase

inductive ClientAuthorityCall where
  | observe (descriptor : AuthorityDescriptor)
  | advanceTransition

namespace ClientAuthorityState

def new (trustedAuthority : Option AuthorityId) : ClientAuthorityState where
  trustedAuthority
  highestEpochs := ∅
  phase := .normal

section
variable (state : ClientAuthorityState)

def highestEpoch (authority : AuthorityId) : Option AuthorityEpoch :=
  state.highestEpochs[authority]?

/-- Take over the epoch of the trusted authority unless it has presented a higher one. -/
def recordEpoch (descriptor : AuthorityDescriptor) :
    ClientAuthorityState × Except AuthorityError CursorDisposition :=
  let recorded := { state with
    highestEpochs := state.highestEpochs.insert descriptor.authorityId descriptor.epoch }
  match state.highestEpoch descriptor.authorityId with
  | none => (recorded, .ok .continue)
  | some highest =>
    if descriptor.epoch < highest then
      (state, .error (.authorityRollbackDetected descriptor.epoch highest))
    else if highest < descriptor.epoch then
      ({ recorded with phase := .freezeAuthoritativeReconciliation },
        .ok (.authorityChanged highest descriptor.epoch))
    else (recorded, .ok .continue)

def observe (descriptor : AuthorityDescriptor) :
    ClientAuthorityState × Except AuthorityError CursorDisposition :=
  match state.trustedAuthority with
  | some trusted =>
    if trusted ≠ descriptor.authorityId then
      (state, .error (.authorityIdChanged trusted descriptor.authorityId))
    else state.recordEpoch descriptor
  | none => { state with trustedAuthority := some descriptor.authorityId }.recordEpoch descriptor

end

/-- The phase after this one; there is none in normal operation. -/
def nextPhase : EpochTransitionPhase → Except AuthorityError EpochTransitionPhase
  | .normal => .error .noEpochTransition
  | .freezeAuthoritativeReconciliation => .ok .classifyPendingOperations
  | .classifyPendingOperations => .ok .acquireNewScopeManifest
  | .acquireNewScopeManifest => .ok .bootstrapNewEpoch
  | .bootstrapNewEpoch => .ok .rebaseSafeUnsentIntent
  | .rebaseSafeUnsentIntent => .ok .resolveAmbiguousOldEpochOperations
  | .resolveAmbiguousOldEpochOperations => .ok .normal

section
variable (state : ClientAuthorityState)

def advanceTransition : ClientAuthorityState × Except AuthorityError EpochTransitionPhase :=
  match nextPhase state.phase with
  | .error error => (state, .error error)
  | .ok phase => ({ state with phase }, .ok phase)

def step : ClientAuthorityCall → ClientAuthorityState
  | .observe descriptor => (state.observe descriptor).1
  | .advanceTransition => state.advanceTransition.1

/-- The call replaces a recorded epoch by a higher one. -/
def Raises (call : ClientAuthorityCall) : Prop :=
  ∃ authority, ∃ old ∈ state.highestEpoch authority, ∃ new ∈ (state.step call).highestEpoch authority, old < new

def advances : ClientAuthorityCall → Nat
  | .observe _ => 0
  | .advanceTransition => if state.advanceTransition.2.isOk then 1 else 0

/-- What the client refuses to hear: another authority, or an epoch it is already past. -/
def Distrusts (descriptor : AuthorityDescriptor) : Prop :=
  (∃ trusted ∈ state.trustedAuthority, trusted ≠ descriptor.authorityId) ∨
    ∃ highest ∈ state.highestEpoch descriptor.authorityId, descriptor.epoch < highest

end

/-- An observation of a distrusted descriptor is an error. It leaves the recorded epochs, the phase
and an established trust as they were. -/
theorem observe_refused {state : ClientAuthorityState} (distrusted : state.Distrusts descriptor) :
    (∃ error, (state.observe descriptor).2 = .error error) ∧
      (state.observe descriptor).1.highestEpochs = state.highestEpochs ∧
      (state.observe descriptor).1.phase = state.phase ∧
      ∀ trusted ∈ state.trustedAuthority, (state.observe descriptor).1.trustedAuthority = some trusted := by
  have rollback : (∃ highest ∈ state.highestEpoch descriptor.authorityId, descriptor.epoch < highest) →
      ∀ current : ClientAuthorityState, current.highestEpochs = state.highestEpochs →
        ∃ error, current.recordEpoch descriptor = (current, .error error) := by
    intro ⟨highest, recorded, lower⟩ current same
    have found : current.highestEpoch descriptor.authorityId = some highest := by
      rw [highestEpoch, same]
      exact recorded
    exact ⟨.authorityRollbackDetected descriptor.epoch highest, by simp only [recordEpoch, found, if_pos lower]⟩
  unfold observe
  cases known : state.trustedAuthority with
  | none =>
    obtain ⟨trusted, impossible, _⟩ | lower := distrusted
    · rw [known] at impossible
      cases impossible
    · obtain ⟨error, refused⟩ := rollback lower
        { state with trustedAuthority := some descriptor.authorityId } rfl
      simp [refused]
  | some trusted =>
    dsimp only
    by_cases other : trusted ≠ descriptor.authorityId
    · simp [if_pos other, known]
    · rw [if_neg other]
      obtain ⟨_, held, different⟩ | lower := distrusted
      · rw [known] at held
        cases held
        exact absurd different other
      · obtain ⟨_, refused⟩ := rollback lower state rfl
        simp [refused, known]

theorem observe_accepted {state : ClientAuthorityState} (trusts : ¬state.Distrusts descriptor) :
    (state.observe descriptor).1 =
      { trustedAuthority := some descriptor.authorityId
        highestEpochs := state.highestEpochs.insert descriptor.authorityId descriptor.epoch
        phase := if (state.highestEpoch descriptor.authorityId).any (· < descriptor.epoch)
          then .freezeAuthoritativeReconciliation else state.phase } := by
  obtain ⟨same, upToDate⟩ := not_or.mp trusts
  have recorded : ∀ current : ClientAuthorityState, current.highestEpochs = state.highestEpochs →
      (current.recordEpoch descriptor).1 = { current with
        highestEpochs := state.highestEpochs.insert descriptor.authorityId descriptor.epoch
        phase := if (state.highestEpoch descriptor.authorityId).any (· < descriptor.epoch)
          then .freezeAuthoritativeReconciliation else current.phase } := by
    intro current epochs
    have kept : current.highestEpoch descriptor.authorityId = state.highestEpoch descriptor.authorityId := by
      rw [highestEpoch, highestEpoch, epochs]
    simp only [recordEpoch, kept, epochs]
    cases found : state.highestEpoch descriptor.authorityId with
    | none => simp
    | some highest =>
      have notBelow : ¬descriptor.epoch < highest := fun lower => upToDate ⟨highest, found, lower⟩
      by_cases raised : highest < descriptor.epoch
      · simp [notBelow, raised]
      · simp [notBelow, raised]
  unfold observe
  cases known : state.trustedAuthority with
  | none => exact recorded { state with trustedAuthority := some descriptor.authorityId } rfl
  | some trusted =>
    have agreed : trusted = descriptor.authorityId := by
      by_contra different
      exact same ⟨trusted, known, different⟩
    dsimp only
    rw [if_neg (not_not.mpr agreed), recorded state rfl, known, agreed]

variable {state : ClientAuthorityState}

theorem advanceTransition_fst (state : ClientAuthorityState) :
    state.advanceTransition.1 = { state with phase := state.advanceTransition.1.phase } := by
  unfold advanceTransition
  cases nextPhase state.phase <;> rfl

theorem step_trustedAuthority {trusted : AuthorityId} (held : state.trustedAuthority = some trusted)
    (call : ClientAuthorityCall) : (state.step call).trustedAuthority = some trusted := by
  cases call with
  | observe descriptor =>
    by_cases distrusted : state.Distrusts descriptor
    · exact (observe_refused distrusted).2.2.2 trusted held
    · have same : trusted = descriptor.authorityId := by
        by_contra different
        exact distrusted (.inl ⟨trusted, held, different⟩)
      rw [step, observe_accepted distrusted, same]
  | advanceTransition =>
    rw [step, advanceTransition_fst]
    exact held

theorem step_highestEpoch (recorded : state.highestEpoch authority = some epoch) (call : ClientAuthorityCall) :
    ∃ later, (state.step call).highestEpoch authority = some later ∧ epoch ≤ later := by
  cases call with
  | observe descriptor =>
    by_cases distrusted : state.Distrusts descriptor
    · refine ⟨epoch, ?_, Nat.le_refl _⟩
      rw [step, highestEpoch, (observe_refused distrusted).2.1]
      exact recorded
    · rw [step, observe_accepted distrusted, highestEpoch, lookup_insert]
      by_cases same : descriptor.authorityId = authority
      · refine ⟨descriptor.epoch, if_pos same, ?_⟩
        by_contra lower
        exact distrusted (.inr ⟨epoch, same ▸ recorded, Nat.lt_of_not_le lower⟩)
      · exact ⟨epoch, (if_neg same).trans recorded, Nat.le_refl _⟩
  | advanceTransition =>
    rw [step, advanceTransition_fst]
    exact ⟨epoch, recorded, Nat.le_refl _⟩

theorem final_trustedAuthority (held : state.trustedAuthority = some trusted) (calls : List ClientAuthorityCall) :
    (final step state calls).trustedAuthority = some trusted := by
  induction calls generalizing state with
  | nil => exact held
  | cons call _ ih => exact ih (step_trustedAuthority held call)

theorem final_highestEpoch (recorded : state.highestEpoch authority = some epoch) (calls : List ClientAuthorityCall) :
    ∃ later, (Run.final step state calls).highestEpoch authority = some later ∧ epoch ≤ later := by
  induction calls generalizing state epoch with
  | nil => exact ⟨epoch, recorded, Nat.le_refl _⟩
  | cons call _ ih =>
    obtain ⟨_, now, below⟩ := step_highestEpoch recorded call
    obtain ⟨later, final, above⟩ := ih now
    exact ⟨later, final, Nat.le_trans below above⟩

theorem phase_of_raises (raises : state.Raises (.observe descriptor)) :
    (state.step (.observe descriptor)).phase = .freezeAuthoritativeReconciliation := by
  obtain ⟨_, _, before, _, after, higher⟩ := raises
  rw [step] at after ⊢
  by_cases distrusted : state.Distrusts descriptor
  · rw [highestEpoch, (observe_refused distrusted).2.1] at after
    rw [highestEpoch] at before
    cases before.symm.trans after
    exact absurd higher (lt_irrefl _)
  · rw [observe_accepted distrusted] at after ⊢
    rw [highestEpoch, lookup_insert] at after
    split at after
    · rename_i same
      cases after
      subst same
      have raised : (state.highestEpoch descriptor.authorityId).any (· < descriptor.epoch) = true := by
        rw [before]
        exact decide_eq_true higher
      exact if_pos raised
    · rw [highestEpoch] at before
      cases before.symm.trans after
      exact absurd higher (lt_irrefl _)

theorem not_raises_advanceTransition (state : ClientAuthorityState) : ¬state.Raises .advanceTransition := by
  intro ⟨_, _, before, _, after, higher⟩
  rw [step, advanceTransition_fst] at after
  cases before.symm.trans after
  exact absurd higher (lt_irrefl _)

theorem advance_remaining (state : ClientAuthorityState) :
    state.advanceTransition.1.phase.remaining + state.advances .advanceTransition = state.phase.remaining := by
  obtain ⟨_, _, phase⟩ := state
  cases phase <;> rfl

theorem step_remaining {call : ClientAuthorityCall} (calm : ¬state.Raises call) :
    (state.step call).phase.remaining + state.advances call = state.phase.remaining := by
  cases call with
  | advanceTransition => exact advance_remaining state
  | observe descriptor =>
    have unmoved : (state.step (.observe descriptor)).phase = state.phase := by
      rw [step]
      by_cases distrusted : state.Distrusts descriptor
      · exact (observe_refused distrusted).2.2.1
      · rw [observe_accepted distrusted]
        refine if_neg fun raised => calm ?_
        refine ⟨descriptor.authorityId, ?_⟩
        rw [step, observe_accepted distrusted]
        cases before : state.highestEpoch descriptor.authorityId with
        | none =>
          rw [before] at raised
          cases raised
        | some old =>
          rw [before] at raised
          exact ⟨old, rfl, descriptor.epoch, by simp [highestEpoch], of_decide_eq_true raised⟩
    rw [unmoved]
    rfl

theorem total_remaining (calm : Permitted step (fun state call => ¬state.Raises call) state calls) :
    (final step state calls).phase.remaining + total step advances state calls =
      state.phase.remaining := by
  induction calls generalizing state with
  | nil => rfl
  | cons _ _ ih =>
    have first := step_remaining calm.1
    have later := ih calm.2
    rw [final_cons, total]
    omega

end ClientAuthorityState

open ClientAuthorityState

/-- A client keeps the authority it trusts and never lowers the epoch recorded for it, whatever it is
shown. It refuses other authorities and lower epochs, with the recorded epochs as they were. After an
observation that raised the epoch, with none that raises it again, it is back in normal operation
exactly when six advances have succeeded since. -/
theorem client_timeline_trust (trusted : Option AuthorityId) (before : List ClientAuthorityCall) :
    let reached := final step (.new trusted) before
    (∀ after, let later := final step reached after
      ∀ authority, reached.trustedAuthority = some authority →
        later.trustedAuthority = some authority ∧
          ∀ epoch, reached.highestEpoch authority = some epoch →
            ∃ highest, later.highestEpoch authority = some highest ∧ epoch ≤ highest) ∧
      (∀ descriptor, reached.Distrusts descriptor →
        (∃ error, (reached.observe descriptor).2 = .error error) ∧
          (reached.observe descriptor).1.highestEpochs = reached.highestEpochs) ∧
      ∀ descriptor after, reached.Raises (.observe descriptor) →
        let raised := reached.step (.observe descriptor)
        Permitted step (fun state call => ¬state.Raises call) raised after →
          ((final step raised after).phase = .normal ↔
            total step advances raised after = 6) := by
  intro _
  refine ⟨?_, ?_, ?_⟩
  · intro after _ _ held
    refine ⟨final_trustedAuthority held after, ?_⟩
    intro _ recorded
    exact final_highestEpoch recorded after
  · intro descriptor distrusted
    obtain ⟨refused, epochs, _⟩ := observe_refused distrusted
    exact ⟨refused, epochs⟩
  · intro _ _ raises _ calm
    have counted := total_remaining calm
    rw [phase_of_raises raises] at counted
    rw [← EpochTransitionPhase.remaining_eq_zero]
    change _ = 6 at counted
    omega

/-- A client that knows epoch one and is shown epoch two. -/
theorem client_timeline_trust_second_epoch : let shown (epoch : AuthorityEpoch) : AuthorityDescriptor :=
      { authorityId := ⟨7⟩, epoch, role := .primary, instanceId := ⟨1⟩ }
    let known := final step (.new none) [.observe (shown 1)]
    known.Raises (.observe (shown 2)) ∧
      (final step (known.step (.observe (shown 2)))
        (List.replicate 6 .advanceTransition)).phase = .normal := by
  intro shown known
  have raises : known.Raises (.observe (shown 2)) := ⟨⟨7⟩, 1, by decide +kernel, 2, by decide +kernel, by decide⟩
  refine ⟨raises, ?_⟩
  have trust := (client_timeline_trust none [.observe (shown 1)]).2.2 (shown 2)
    (List.replicate 6 .advanceTransition) raises
  refine (trust ?_).mpr (by decide +kernel)
  refine permitted_iff_cut.mpr fun before call after split => ?_
  have advancing : call = .advanceTransition := by
    apply List.eq_of_mem_replicate (n := 6)
    rw [split]
    simp
  rw [advancing]
  exact not_raises_advanceTransition _

end Aequora.Authority
