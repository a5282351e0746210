import Aequora.Live.Hints

/-! The wake tracker of a client. It keeps the last sequence hinted for each scope, so two hints in a
row that carry none cannot be told apart. -/

namespace Aequora.Live

open Std Aequora.Base Aequora.Protocol Run

inductive HintWakeOutcome where
  | wake (generation : Nat)
  | coalesced (generation : Nat)
  | unauthorized
  | protocolMismatch
deriving DecidableEq

def liveProtocolV1 : UInt16 := 1

structure HintWakeTracker where
  tenantId : TenantId
  scopes : List SyncScopeId
  generation : Nat
  lastHinted : ExtTreeMap SyncScopeId (Option Sequence)

inductive WakeCall where
  | observe (hint : SyncHint)
  | beginExchange

def SyncHintReason.Insists (reason : SyncHintReason) : Prop := reason = .revocation ∨ reason = .scopeChanged

instance (reason : SyncHintReason) : Decidable reason.Insists := inferInstanceAs (Decidable (_ ∨ _))

namespace HintWakeTracker

def new (tenantId : TenantId) (scopes : List SyncScopeId) : HintWakeTracker :=
  { tenantId, scopes, generation := 0, lastHinted := ∅ }

section
variable (prior : Option (Option Sequence)) (hint : SyncHint)

def redundant : Bool :=
  (match prior, hint.latestSequence with
    | some (some old), some new => decide (new ≤ old)
    | some none, none => true
    | _, _ => false) && !decide hint.reason.Insists

def merged : Option Sequence :=
  match prior.join, hint.latestSequence with
  | some old, some new => some (max old new)
  | _, latest => latest

end

section
variable (tracker : HintWakeTracker)

def observe (hint : SyncHint) : HintWakeOutcome × HintWakeTracker :=
  if hint.protocol ≠ liveProtocolV1 then (.protocolMismatch, tracker)
  else if hint.tenantId ≠ tracker.tenantId ∨ hint.scopeId ∉ tracker.scopes then (.unauthorized, tracker)
  else
    let prior := tracker.lastHinted[hint.scopeId]?
    if redundant prior hint then (.coalesced tracker.generation, tracker)
    else
      let generation := saturatingAdd tracker.generation 1
      (.wake generation,
        { tracker with lastHinted := tracker.lastHinted.insert hint.scopeId (merged prior hint), generation })

def beginExchange : Nat := tracker.generation

def needsFollowUp (startedAt : Nat) : Bool := tracker.generation ≠ startedAt

def step : WakeCall → HintWakeTracker
  | .observe hint => (tracker.observe hint).2
  | .beginExchange => tracker

def exchanges : WakeCall → List Nat
  | .observe _ => []
  | .beginExchange => [tracker.beginExchange]

def Authorises (hint : SyncHint) : Prop :=
  hint.protocol = liveProtocolV1 ∧ hint.tenantId = tracker.tenantId ∧ hint.scopeId ∈ tracker.scopes

end

instance (tracker : HintWakeTracker) (hint : SyncHint) : Decidable (tracker.Authorises hint) :=
  inferInstanceAs (Decidable (_ ∧ _))

/-- The sequences that authorised hints of a scope carried. -/
def Hinted (tracker : HintWakeTracker) (calls : List WakeCall) (scope : SyncScopeId) (sequence : Sequence) : Prop :=
  ∃ hint, .observe hint ∈ calls ∧ tracker.Authorises hint ∧ hint.scopeId = scope ∧ hint.latestSequence = some sequence

variable {fresh tracker : HintWakeTracker}

theorem observe_cases (tracker : HintWakeTracker) (hint : SyncHint) :
    (¬tracker.Authorises hint ∧ (tracker.observe hint).2 = tracker ∧
        ∀ generation, (tracker.observe hint).1 ≠ .wake generation) ∨
      (tracker.Authorises hint ∧ redundant tracker.lastHinted[hint.scopeId]? hint = true ∧
        tracker.observe hint = (.coalesced tracker.generation, tracker)) ∨
      tracker.Authorises hint ∧ redundant tracker.lastHinted[hint.scopeId]? hint = false ∧
        tracker.observe hint = (.wake (saturatingAdd tracker.generation 1),
          { tracker with
            lastHinted := tracker.lastHinted.insert hint.scopeId (merged tracker.lastHinted[hint.scopeId]? hint)
            generation := saturatingAdd tracker.generation 1 }) := by
  unfold observe Authorises
  dsimp only
  split_ifs with protocol foreign known
  · simp [protocol]
  · refine .inl ⟨?_, rfl, by simp⟩
    rintro ⟨_, tenant, member⟩
    exact foreign.elim (· tenant) (· member)
  · rw [not_or, not_not, not_not] at foreign
    exact .inr (.inl ⟨⟨not_not.mp protocol, foreign⟩, known, rfl⟩)
  · rw [not_or, not_not, not_not] at foreign
    exact .inr (.inr ⟨⟨not_not.mp protocol, foreign⟩, by simpa using known, rfl⟩)

theorem authorises_iff (tenant : tracker.tenantId = fresh.tenantId) (same : tracker.scopes = fresh.scopes)
    (hint : SyncHint) : tracker.Authorises hint ↔ fresh.Authorises hint := by
  rw [Authorises, Authorises, tenant, same]

/-- What holds of a tracker after some calls: its generation covers every exchange begun so far, and
a remembered sequence was hinted. -/
structure Follows (fresh : HintWakeTracker) (calls : List WakeCall) (begun : List Nat) (tracker : HintWakeTracker) :
    Prop where
  tenant : tracker.tenantId = fresh.tenantId
  scopes : tracker.scopes = fresh.scopes
  fits : tracker.generation ≤ u64Max
  covers : ∀ startedAt ∈ begun, startedAt ≤ tracker.generation
  hinted : ∀ scope old, tracker.lastHinted[scope]? = some (some old) → fresh.Hinted calls scope old

theorem merged_hinted (remembered : merged prior hint = some old) :
    prior = some (some old) ∨ hint.latestSequence = some old := by
  unfold merged at remembered
  split at remembered
  · next earlier latest known carried =>
    rcases max_choice earlier latest with keeps | keeps
    · exact .inl (Option.join_eq_some_iff.mp (known.trans (keeps ▸ remembered)))
    · exact .inr (carried.trans (keeps ▸ remembered))
  · exact .inr remembered

theorem Follows.step (follows : Follows fresh calls begun tracker) (call : WakeCall) :
    Follows fresh (calls ++ [call]) (begun ++ tracker.exchanges call) (tracker.step call) := by
  obtain ⟨tenant, same, fits, covers, hinted⟩ := follows
  have earlier : ∀ scope old, tracker.lastHinted[scope]? = some (some old) →
      fresh.Hinted (calls ++ [call]) scope old := by
    intro scope old held
    obtain ⟨hint, observed, rest⟩ := hinted scope old held
    exact ⟨hint, List.mem_append_left _ observed, rest⟩
  cases call with
  | beginExchange =>
    refine ⟨tenant, same, fits, ?_, earlier⟩
    simpa [exchanges, beginExchange, HintWakeTracker.step, or_imp, forall_and] using covers
  | observe hint =>
    rw [HintWakeTracker.step, exchanges, List.append_nil]
    rcases observe_cases tracker hint with ⟨_, kept, _⟩ | ⟨_, _, kept⟩ | ⟨authorised, _, woken⟩
    · rw [kept]
      exact ⟨tenant, same, fits, covers, earlier⟩
    · rw [kept]
      exact ⟨tenant, same, fits, covers, earlier⟩
    · rw [woken]
      have grows := saturatingAdd_one_cases tracker.generation
      refine ⟨tenant, same, saturatingAdd_le _ _, fun startedAt begun => ?_, fun scope old held => ?_⟩
      · have := covers startedAt begun
        dsimp only
        omega
      · rw [lookup_insert] at held
        split at held
        · next named =>
          rcases merged_hinted (Option.some.inj held) with known | carried
          · exact earlier scope old (named ▸ known)
          · exact ⟨hint, by simp, (authorises_iff tenant same hint).mp authorised, named, carried⟩
        · exact earlier scope old held

theorem follows_final (tenantId : TenantId) (scopes : List SyncScopeId) (calls : List WakeCall) :
    Follows (new tenantId scopes) calls (trace step exchanges (new tenantId scopes) calls)
      (final step (new tenantId scopes) calls) := by
  induction calls using List.reverseRecOn with
  | nil => exact ⟨rfl, rfl, Nat.zero_le _, by simp [trace], by simp [new]⟩
  | append_singleton calls call ih =>
    rw [final_append, trace_snoc]
    exact ih.step call

/-- An authorised hint that tells something new: no sequence, or one above all that its scope was hinted. -/
def News (tracker : HintWakeTracker) (before : List WakeCall) (hint : SyncHint) : Prop :=
  tracker.Authorises hint ∧ ∀ latest older, hint.latestSequence = some latest →
    tracker.Hinted before hint.scopeId older → older < latest

/-- The tracker can tell the hint from the last one it remembers, or wakes for it in any case. -/
def Distinct (tracker : HintWakeTracker) (hint : SyncHint) : Prop :=
  hint.latestSequence.isSome ∨ hint.reason.Insists ∨ tracker.lastHinted[hint.scopeId]? ≠ some none

theorem redundant_iff (above : ∀ latest older, hint.latestSequence = some latest →
      tracker.lastHinted[hint.scopeId]? = some (some older) → older < latest) :
    redundant tracker.lastHinted[hint.scopeId]? hint = false ↔ tracker.Distinct hint := by
  unfold redundant Distinct
  cases carried : hint.latestSequence with
  | none => rcases tracker.lastHinted[hint.scopeId]? with _ | _ | _ <;> simp
  | some latest =>
    rcases held : tracker.lastHinted[hint.scopeId]? with _ | _ | older
    · simp
    · simp
    · simp [above latest older carried held]

/-- A hint that does not wake changes nothing. News wakes, and calls for a pull after every exchange
begun before it, exactly when it is distinct. -/
theorem observe_news_iff (tenantId : TenantId) (scopes : List SyncScopeId) (before : List WakeCall) (hint : SyncHint)
    (tracker : HintWakeTracker) (reached : final step (new tenantId scopes) before = tracker) :
    ((∀ generation, (tracker.observe hint).1 ≠ .wake generation) →
      (tracker.observe hint).2.generation = tracker.generation) ∧
    ((new tenantId scopes).News before hint → tracker.generation < u64Max →
      (((∃ generation, (tracker.observe hint).1 = .wake generation) ∧
          ∀ startedAt ∈ trace step exchanges (new tenantId scopes) before,
            (tracker.observe hint).2.needsFollowUp startedAt) ↔
        tracker.Distinct hint)) := by
  obtain ⟨tenant, same, _, covers, hinted⟩ := reached ▸ follows_final tenantId scopes before
  rcases observe_cases tracker hint with ⟨foreign, kept, _⟩ | ⟨_, known, kept⟩ | ⟨_, fresh, woken⟩
  · refine ⟨fun _ => by rw [kept], fun news _ => ?_⟩
    exact absurd ((authorises_iff tenant same hint).mpr news.1) foreign
  · refine ⟨fun _ => by rw [kept], fun news _ => ?_⟩
    have distinct := redundant_iff fun latest older carried held => news.2 latest older carried (hinted _ _ held)
    simp [kept, ← distinct, known]
  · refine ⟨fun quiet => absurd (congrArg Prod.fst woken) (quiet _), fun news below => ?_⟩
    have distinct := redundant_iff fun latest older carried held => news.2 latest older carried (hinted _ _ held)
    refine iff_of_true ⟨⟨_, congrArg Prod.fst woken⟩, fun startedAt begun => ?_⟩ (distinct.mp fresh)
    have := covers startedAt begun
    simp [woken, needsFollowUp, saturatingAdd_one_of_lt below]
    omega

theorem observe_news_first : ∃ generation,
    ((new ⟨1⟩ [⟨1⟩]).observe ⟨1, ⟨1⟩, ⟨1⟩, none, .newAuthoritativeChange⟩).1 = .wake generation :=
  (((observe_news_iff ⟨1⟩ [⟨1⟩] [] _ _ rfl).2 ⟨by decide, by simp⟩ (by decide)).mpr (.inr (.inr (by simp [new])))).1

/-- A change noticed during the second exchange is lost: the hint before it carried no sequence either. -/
theorem observe_news_lost : let notice : SyncHint := ⟨1, ⟨1⟩, ⟨1⟩, none, .newAuthoritativeChange⟩
    let before : List WakeCall := [.observe notice, .beginExchange]
    let tracker := final step (new ⟨1⟩ [⟨1⟩]) before
    (new ⟨1⟩ [⟨1⟩]).News before notice ∧ tracker.beginExchange = 1 ∧ (tracker.observe notice).1 = .coalesced 1 ∧
      (tracker.observe notice).2.needsFollowUp 1 = false := by
  refine ⟨⟨by decide, by simp⟩, by decide +kernel, by decide +kernel, by decide +kernel⟩

end HintWakeTracker

end Aequora.Live
