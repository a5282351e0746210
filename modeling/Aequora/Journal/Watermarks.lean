import Aequora.Base.GuardedTable
import Aequora.Protocol.Types

/-! How far each device has come in a scope, as far as it has told, and what may be forgotten
because every active device has passed it. -/

namespace Aequora.Journal

open Std Aequora.Base Aequora.Protocol GuardedTable Run

structure DeviceWatermark where
  cursor : Cursor
  lastSeenMs : Int

inductive WatermarkError where
  | regression
deriving DecidableEq

structure CursorWatermarks where
  devices : ExtTreeMap (DeviceId × SyncScopeId) DeviceWatermark

structure CursorReport where
  device : DeviceId
  cursor : Cursor
  lastSeenMs : Int
deriving DecidableEq

def CursorReport.key (report : CursorReport) : DeviceId × SyncScopeId := (report.device, report.cursor.scope)

def CursorReport.watermark (report : CursorReport) : DeviceWatermark where
  cursor := report.cursor
  lastSeenMs := report.lastSeenMs

def durationMs (milliseconds : Nat) : Int := min (milliseconds : Int) 9223372036854775807

def activeSince (nowMs : Int) (inactiveAfter : Nat) : Int := i64SaturatingSub nowMs (durationMs inactiveAfter)

namespace CursorWatermarks
variable (watermarks : CursorWatermarks)

def default : CursorWatermarks := ⟨∅⟩

/-- The sequence alone decides whether a cursor moves backward. -/
def update (device : DeviceId) (cursor : Cursor) (lastSeenMs : Int) : CursorWatermarks × Except WatermarkError Unit :=
  if watermarks.devices[(device, cursor.scope)]?.any
      fun existing => decide (cursor.sequence < existing.cursor.sequence) then
    (watermarks, .error .regression)
  else
    ({ devices := watermarks.devices.insert (device, cursor.scope)
        { cursor, lastSeenMs } }, .ok ())

def minimumActiveCursor (scope : SyncScopeId) (nowMs : Int) (inactiveAfter : Nat) : Option Sequence :=
  ((watermarks.devices.values.filter fun watermark =>
    watermark.cursor.scope = scope ∧ activeSince nowMs inactiveAfter ≤ watermark.lastSeenMs).map
      fun watermark => watermark.cursor.sequence).min?

def perform (report : CursorReport) : CursorWatermarks × Except WatermarkError Unit :=
  watermarks.update report.device report.cursor report.lastSeenMs

def step (report : CursorReport) : CursorWatermarks := (watermarks.perform report).1

def accepted (report : CursorReport) : List CursorReport :=
  if (watermarks.perform report).2.isOk then [report] else []

end CursorWatermarks

section
variable (reports : List CursorReport) (device : DeviceId) (scope : SyncScopeId)

def latestReport : Option CursorReport :=
  latest CursorReport.key reports (device, scope)

def lastAccepted : Option CursorReport :=
  latestReport (trace CursorWatermarks.step CursorWatermarks.accepted .default reports) device scope

end

section
variable (report : CursorReport) (nowMs : Int) (inactiveAfter : Nat)

/-- The device was seen recently enough at the time of its report. -/
def CursorReport.Active : Prop :=
  activeSince nowMs inactiveAfter ≤ report.lastSeenMs

instance CursorReport.decidableActive :
    Decidable (report.Active nowMs inactiveAfter) :=
  inferInstanceAs (Decidable (activeSince nowMs inactiveAfter ≤ report.lastSeenMs))

end

def reportsOf (reports : List CursorReport) (device : DeviceId) (scope : SyncScopeId) : List CursorReport :=
  reports.filter fun report => report.key = (device, scope)

structure TombstoneRetention where
  minimumAge : Nat

def tombstoneCollectable (change : RemoteChange) (nowMs : Int) (retention : TombstoneRetention)
    (minimumActiveCursor : Option Sequence) : Bool :=
  if change.changeKind ≠ .tombstone ∨ change.timestamp.physicalMs > nowMs then false
  else
    let ageMs := i64SaturatingSub nowMs change.timestamp.physicalMs
    decide (durationMs retention.minimumAge ≤ ageMs) &&
      minimumActiveCursor.any fun cursor => decide (change.sequence ≤ cursor)

/-! ### The table of watermarks -/

def regresses (existing : DeviceWatermark) (report : CursorReport) : Bool :=
  decide (report.cursor.sequence < existing.cursor.sequence)

namespace CursorWatermarks
variable (watermarks : CursorWatermarks)

section
variable (report : CursorReport)

theorem perform_eq :
    watermarks.perform report =
      if refused CursorReport.key regresses watermarks.devices report
      then (watermarks, .error .regression)
      else (⟨watermarks.devices.insert report.key report.watermark⟩, .ok ()) := rfl

theorem step_devices :
    (watermarks.step report).devices =
      write CursorReport.key CursorReport.watermark regresses watermarks.devices report := by
  rw [step, perform_eq, write]
  split <;> rfl

theorem accepted_eq :
    watermarks.accepted report = GuardedTable.accepted CursorReport.key regresses watermarks.devices report := by
  rw [accepted, perform_eq, GuardedTable.accepted]
  split <;> rfl

theorem final_devices (reports : List CursorReport) :
    (final step watermarks reports).devices =
      final (write CursorReport.key CursorReport.watermark regresses) watermarks.devices reports :=
  final_project step_devices watermarks reports

theorem lookup_final (reports : List CursorReport) (device : DeviceId) (scope : SyncScopeId) :
    (final step default reports).devices[(device, scope)]? =
      (lastAccepted reports device scope).map CursorReport.watermark := by
  rw [final_devices, GuardedTable.lookup_final, lastAccepted, latestReport, trace_project step_devices accepted_eq]
  exact Option.or_none

theorem perform_ok_iff :
    (watermarks.perform report).2 = .ok () ↔
      refused CursorReport.key regresses watermarks.devices report = false := by
  rw [perform_eq]
  cases refused CursorReport.key regresses watermarks.devices report with
  | false => simp
  | true => simp

end

theorem permitted_devices (reports : List CursorReport) :
    Permitted step (fun watermarks report => (watermarks.perform report).2 = .ok ()) watermarks reports ↔
      Permitted (write CursorReport.key CursorReport.watermark regresses)
        (fun table report => refused CursorReport.key regresses table report = false)
        watermarks.devices reports :=
  permitted_project step_devices perform_ok_iff watermarks reports

theorem all_accepted_iff (reports : List CursorReport) :
    Permitted step (fun watermarks report => (watermarks.perform report).2 = .ok ()) default reports ↔
      ∀ device scope, (reportsOf reports device scope).IsChain
        fun earlier later => earlier.cursor.sequence ≤ later.cursor.sequence := by
  rw [permitted_devices, default, permitted_iff_chain, Prod.forall]
  refine forall_congr' fun device => forall_congr' fun scope => List.IsChain.iff fun earlier later => ?_
  rw [regresses, decide_eq_false_iff_not, Nat.not_lt]
  rfl

theorem lastAccepted_eq
    (passed : Permitted step (fun watermarks report => (watermarks.perform report).2 = .ok ()) default reports)
    (device : DeviceId) (scope : SyncScopeId) :
    lastAccepted reports device scope = latestReport reports device scope := by
  rw [permitted_devices] at passed
  rw [lastAccepted, trace_project step_devices accepted_eq, trace_of_permitted passed]

variable {watermarks}

/-- The minimum is no higher than the cursor of any active device in the table. -/
theorem minimumActiveCursor_le {device : DeviceId} {watermark : DeviceWatermark}
    (found : watermarks.devices[(device, watermark.cursor.scope)]? = some watermark)
    (active : activeSince nowMs inactiveAfter ≤ watermark.lastSeenMs)
    (lowest : watermarks.minimumActiveCursor watermark.cursor.scope nowMs inactiveAfter = some minimum) :
    minimum ≤ watermark.cursor.sequence := by
  have listed : watermark.cursor.sequence ∈ (watermarks.devices.values.filter fun other =>
      other.cursor.scope = watermark.cursor.scope ∧ activeSince nowMs inactiveAfter ≤ other.lastSeenMs).map
        fun other => other.cursor.sequence := by
    refine List.mem_map.mpr ⟨watermark, List.mem_filter.mpr ⟨mem_values.mpr ⟨_, found⟩, ?_⟩, rfl⟩
    exact decide_eq_true ⟨rfl, active⟩
  exact (List.min?_eq_some_iff.mp lowest).2 _ listed

end CursorWatermarks

theorem key_of_latestReport (last : latestReport reports device scope = some report) :
    report.key = (device, scope) := by
  have member := List.mem_of_getLast? last
  exact of_decide_eq_true (List.mem_filter.mp member).2

/-- The minimum over active devices is no higher than what any of them was last accepted with. -/
theorem minimum_le_lastAccepted {device : DeviceId} {scope : SyncScopeId}
    (last : lastAccepted reports device scope = some report) (active : report.Active nowMs inactiveAfter)
    (lowest : (final CursorWatermarks.step .default reports).minimumActiveCursor scope nowMs inactiveAfter =
      some minimum) :
    minimum ≤ report.cursor.sequence := by
  have found := CursorWatermarks.lookup_final reports device scope
  rw [last, Option.map_some] at found
  cases key_of_latestReport last
  have seen : activeSince nowMs inactiveAfter ≤ report.watermark.lastSeenMs := active
  exact CursorWatermarks.minimumActiveCursor_le found seen lowest

theorem le_of_tombstoneCollectable
    (collectable : tombstoneCollectable change nowMs retention minimumActiveCursor = true) :
    ∃ minimum, minimumActiveCursor = some minimum ∧ change.sequence ≤ minimum := by
  unfold tombstoneCollectable at collectable
  split at collectable
  · cases collectable
  · cases minimumActiveCursor with
    | none => simp at collectable
    | some minimum =>
      refine ⟨minimum, rfl, ?_⟩
      simp only [Option.any_some, Bool.and_eq_true, decide_eq_true_eq] at collectable
      exact collectable.2

/-! ### Reports along the authority's timeline -/

section
variable (reports : List CursorReport)

/-- No device goes back to an older epoch, or to a lower sequence in the same epoch. -/
def FollowsTimeline : Prop :=
  ∀ device scope, (reportsOf reports device scope).IsChain fun earlier later =>
    earlier.cursor.authorityEpoch ≤ later.cursor.authorityEpoch ∧
      (earlier.cursor.authorityEpoch = later.cursor.authorityEpoch →
        earlier.cursor.sequence ≤ later.cursor.sequence)

/-- No device enters a newer epoch at a lower sequence. -/
def KeepsSequences : Prop :=
  ∀ device scope, (reportsOf reports device scope).IsChain fun earlier later =>
    earlier.cursor.authorityEpoch < later.cursor.authorityEpoch →
      earlier.cursor.sequence ≤ later.cursor.sequence

/-- The watermarks are a lower bound of what the active devices of every scope last reported. -/
structure Conservative (watermarks : CursorWatermarks) : Prop where
  minimum : ∀ scope nowMs inactiveAfter device report minimum,
    latestReport reports device scope = some report → report.Active nowMs inactiveAfter →
      watermarks.minimumActiveCursor scope nowMs inactiveAfter = some minimum →
        minimum ≤ report.cursor.sequence
  tombstones : ∀ scope nowMs inactiveAfter device report change retention,
    latestReport reports device scope = some report → report.Active nowMs inactiveAfter →
      tombstoneCollectable change nowMs retention
          (watermarks.minimumActiveCursor scope nowMs inactiveAfter) = true →
        change.sequence ≤ report.cursor.sequence

end

theorem conservative_of_accepted (passed : Permitted CursorWatermarks.step
      (fun watermarks report => (watermarks.perform report).2 = .ok ()) .default reports) :
    Conservative reports (final CursorWatermarks.step .default reports) := by
  have bound : ∀ scope nowMs inactiveAfter device report minimum,
      latestReport reports device scope = some report → report.Active nowMs inactiveAfter →
        (final CursorWatermarks.step .default reports).minimumActiveCursor scope nowMs inactiveAfter =
          some minimum → minimum ≤ report.cursor.sequence := by
    intro scope nowMs inactiveAfter device report minimum last active lowest
    rw [← CursorWatermarks.lastAccepted_eq passed] at last
    exact minimum_le_lastAccepted last active lowest
  refine ⟨bound, ?_⟩
  intro scope nowMs inactiveAfter device report _ _ last active collectable
  obtain ⟨minimum, lowest, below⟩ := le_of_tombstoneCollectable collectable
  exact Nat.le_trans below (bound scope nowMs inactiveAfter device report minimum last active lowest)

/-- Of reports that follow the timeline, all are accepted and the watermarks are a lower bound of them
exactly when no device enters a newer epoch at a lower sequence. -/
theorem watermarks_follow_timeline_iff (follows : FollowsTimeline reports) :
    (Permitted CursorWatermarks.step
        (fun watermarks report => (watermarks.perform report).2 = .ok ()) .default reports ∧
      ∀ before after, reports = before ++ after →
        Conservative before (final CursorWatermarks.step .default before)) ↔
      KeepsSequences reports := by
  constructor
  · intro ⟨passed, _⟩ device scope
    have chain := (CursorWatermarks.all_accepted_iff reports).mp passed device scope
    exact chain.imp fun earlier later inOrder _ => inOrder
  · intro keeps
    have passed : Permitted CursorWatermarks.step
        (fun watermarks report => (watermarks.perform report).2 = .ok ()) .default reports := by
      rw [CursorWatermarks.all_accepted_iff]
      intro device scope
      rw [List.isChain_iff_forall_rel_of_append_cons_cons]
      intro _ _ before after split
      obtain ⟨epochs, sameEpoch⟩ :=
        List.isChain_iff_forall_rel_of_append_cons_cons.mp (follows device scope) split
      rcases Nat.eq_or_lt_of_le epochs with same | newer
      · exact sameEpoch same
      · exact List.isChain_iff_forall_rel_of_append_cons_cons.mp (keeps device scope) split newer
    refine ⟨passed, fun before after split => conservative_of_accepted ?_⟩
    rw [split] at passed
    exact (permitted_append.mp passed).1

def exampleReport (sequence : Sequence) (epoch : AuthorityEpoch) : CursorReport where
  device := ⟨1⟩
  cursor := { scope := ⟨5⟩, sequence, authorityId := ⟨7⟩, authorityEpoch := epoch }
  lastSeenMs := 1000

theorem watermarks_follow_timeline_iff_failover : FollowsTimeline [exampleReport 4 1, exampleReport 9 2] ∧
      Conservative [exampleReport 4 1, exampleReport 9 2]
        (final CursorWatermarks.step .default [exampleReport 4 1, exampleReport 9 2]) := by
  have chain : ∀ device scope, (reportsOf [exampleReport 4 1, exampleReport 9 2] device scope).IsChain
      fun earlier later => earlier.cursor.authorityEpoch ≤ later.cursor.authorityEpoch ∧
        earlier.cursor.sequence ≤ later.cursor.sequence := by
    intro device scope
    apply List.Pairwise.isChain
    apply List.Pairwise.filter
    simp [exampleReport]
  have follows : FollowsTimeline [exampleReport 4 1, exampleReport 9 2] :=
    fun device scope => (chain device scope).imp fun _ _ inOrder => ⟨inOrder.1, fun _ => inOrder.2⟩
  refine ⟨follows, ((watermarks_follow_timeline_iff follows).mpr ?_).2 _ [] rfl⟩
  exact fun device scope => (chain device scope).imp fun _ _ inOrder _ => inOrder.2

def exampleTombstone (sequence : Sequence) : RemoteChange where
  tenantId := ⟨1⟩
  scopeId := ⟨5⟩
  sequence
  operationId := ⟨2⟩
  eventId := ⟨3⟩
  lineage := { correlationId := ⟨4⟩, causedBy := none }
  entity := { entityType := 1, entityId := ⟨6⟩ }
  version := 2
  changeKind := .tombstone
  payload := []
  timestamp := { physicalMs := 0, logical := 0, node := ⟨1⟩ }

/-- The report from the new epoch is refused, and a tombstone it has not reached is released. -/
theorem watermarks_refuse_new_epoch :
    let watermarks := final CursorWatermarks.step .default [exampleReport 10 1, exampleReport 4 2]
    ((final CursorWatermarks.step .default [exampleReport 10 1]).perform (exampleReport 4 2)).2 =
        .error .regression ∧
      latestReport [exampleReport 10 1, exampleReport 4 2] ⟨1⟩ ⟨5⟩ = some (exampleReport 4 2) ∧
      watermarks.minimumActiveCursor ⟨5⟩ 1000 500 = some 10 ∧
      tombstoneCollectable (exampleTombstone 7) 1000 { minimumAge := 500 }
        (watermarks.minimumActiveCursor ⟨5⟩ 1000 500) = true := by
  decide +kernel

end Aequora.Journal
