import Aequora.Queue.Planner

/-! What a compaction pass does. Every entry the pass may supersede later is held in a slot: the one
of its compaction key, or of its key and cancellation token. -/

namespace Aequora.Queue

open Std Aequora.Base Aequora.Protocol OptimizationRegistry List Function

inductive Slot where
  | latest (key : CompactionKey)
  | pair (key : CompactionKey) (token : List UInt8)
deriving DecidableEq

namespace OptimizationRegistry
variable (registry : OptimizationRegistry)

section
variable (entry : QueueEntry)

def optimization : OperationOptimization :=
  registry.descriptor entry.operation.operationKind

def compactionKey : CompactionKey :=
  .new entry.operation.entity (registry.optimization entry)

def resets : Bool :=
  (registry.optimization entry).barrier || entry.mutability ≠ .mutableUnsent

/-- The slot an entry takes, if it takes one. -/
def slot : Option Slot :=
  if registry.resets entry || (registry.optimization entry).sensitive then none
  else
    match (registry.optimization entry).compaction with
    | .replaceLatest => some (.latest (registry.compactionKey entry))
    | .cancelPairs => entry.cancellation.map fun cancellation =>
        .pair (registry.compactionKey entry) cancellation.token
    | .never | .merge | .custom => none

end

end OptimizationRegistry

namespace Slot

def key : Slot → CompactionKey
  | latest key => key
  | pair key _ => key

/-- An entry held in the slot gives way to the next one that takes it. -/
def givesWay (registry : OptimizationRegistry) (entries : List QueueEntry) (prior next : QueueEntry) : Slot → Bool
  | latest _ => compatibleReplace prior next (registry.optimization next) (dependentIds entries)
  | pair _ _ => oppositePair prior next (registry.optimization next) (dependentIds entries)

def supersessions (prior next : QueueEntry) : Slot → List Supersession
  | latest _ =>
    [{ oldOperationId := prior.id, newOperationId := some next.id, reason := .replacedByLatest }]
  | pair _ _ =>
    [{ oldOperationId := prior.id, newOperationId := none, reason := .canceledPair },
      { oldOperationId := next.id, newOperationId := none, reason := .canceledPair }]

def afterwards (index : Nat) : Slot → Option Nat
  | latest _ => some index
  | pair _ _ => none

end Slot

def Pass.held (pass : Pass) : Slot → Option Nat
  | .latest key => pass.latest key
  | .pair key token => pass.pairLatest (key, token)

theorem Pass.held_update_latest (pass : Pass) (key : CompactionKey) (value : Option Nat) :
    ({ pass with latest := update pass.latest key value } : Pass).held =
      update pass.held (.latest key) value := by
  funext slot
  cases slot with
  | latest other => simp [held, update_apply]
  | pair _ _ => simp [held]

theorem Pass.held_update_pair (pass : Pass) (key : CompactionKey) (token : List UInt8) (value : Option Nat) :
    ({ pass with pairLatest := update pass.pairLatest (key, token) value } : Pass).held =
      update pass.held (.pair key token) value := by
  funext slot
  cases slot with
  | latest other => simp [held]
  | pair _ _ => simp [held, update_apply]

/-! One turn. -/

/-- The pass went on and recorded the given supersessions. -/
structure Pass.Retires (pass next : Pass) (gone : List Supersession) : Prop where
  supersessions : next.plan.supersessions = pass.plan.supersessions ++ gone
  removals : next.plan.removeOperations = pass.plan.removeOperations ++ gone.map Supersession.oldOperationId
  active : next.active =
    (gone.map Supersession.oldOperationId).foldl (fun active operation => active.insert operation false) pass.active
  before : next.plan.operationsBefore = pass.plan.operationsBefore

theorem Pass.Retires.nothing {pass next : Pass} (active : next.active = pass.active)
    (supersessions : next.plan.supersessions = pass.plan.supersessions)
    (removals : next.plan.removeOperations = pass.plan.removeOperations)
    (before : next.plan.operationsBefore = pass.plan.operationsBefore) : pass.Retires next [] where
  supersessions := by simp [supersessions]
  removals := by simp [removals]
  active
  before

theorem Pass.Retires.trans {first second third : Pass}
    (earlier : first.Retires second gone) (later : second.Retires third further) :
    first.Retires third (gone ++ further) where
  supersessions := by rw [later.supersessions, earlier.supersessions, append_assoc]
  removals := by rw [later.removals, earlier.removals, map_append, append_assoc]
  active := by rw [later.active, earlier.active, map_append, foldl_append]
  before := later.before.trans earlier.before

/-- What one turn of the loop can do. -/
inductive Turn (registry : OptimizationRegistry) (entries : List QueueEntry) (entry : QueueEntry) (index : Nat)
    (pass next : Pass) : Prop where
  | reset (resets : registry.resets entry = true) (cleared : ∀ slot, next.held slot = none)
      (retires : pass.Retires next [])
  | passed (continues : registry.resets entry = false) (free : registry.slot entry = none)
      (kept : next.held = pass.held) (retires : pass.Retires next [])
  | remembered (slot : Slot) (taken : registry.slot entry = some slot)
      (stays : ∀ position prior, pass.held slot = some position → entries[position]? = some prior →
        slot.givesWay registry entries prior entry = false)
      (held : next.held = update pass.held slot (some index)) (retires : pass.Retires next [])
  | superseded (slot : Slot) (taken : registry.slot entry = some slot) (position : Nat) (prior : QueueEntry)
      (holding : pass.held slot = some position) (found : entries[position]? = some prior)
      (givesWay : slot.givesWay registry entries prior entry = true)
      (held : next.held = update pass.held slot (slot.afterwards index))
      (retires : pass.Retires next (slot.supersessions prior entry))

section Turn
variable {pass next : Pass}

theorem supersede_retires (done : supersede codec entry replacement pass = .ok next) :
    next.held = pass.held ∧ pass.Retires next [{ oldOperationId := entry.id
                                                 newOperationId := replacement
                                                 reason := replacement.elim .canceledPair fun _ => .replacedByLatest }] := by
  obtain ⟨_, -, done⟩ := bind_eq_ok_iff.mp done
  cases done
  exact ⟨funext fun slot => by cases slot <;> rfl, rfl, rfl, rfl, rfl⟩

theorem replaceLatest_turn {key : CompactionKey} (taken : registry.slot entry = some (.latest key))
    (done : replaceLatest codec entries (registry.optimization entry) key pass entry index = .ok next) :
    Turn registry entries entry index pass next := by
  obtain ⟨superseded, replaced, done⟩ := bind_eq_ok_iff.mp done
  cases done
  have quiet : superseded = pass →
      (∀ position prior, pass.held (.latest key) = some position → entries[position]? = some prior →
        (Slot.latest key).givesWay registry entries prior entry = false) →
      Turn registry entries entry index pass
        { superseded with latest := update superseded.latest key (some index) } := by
    rintro rfl stays
    exact .remembered _ taken stays (superseded.held_update_latest key _) (.nothing rfl rfl rfl rfl)
  cases found : (pass.latest key).bind fun prior => entries[prior]? with
  | none =>
    rw [found] at replaced
    refine quiet (Except.ok.inj replaced).symm fun position prior holding present => ?_
    rw [Option.bind_eq_none_iff] at found
    exact absurd present (by rw [found position holding]; simp)
  | some prior =>
    rw [found, supersedePrior] at replaced
    obtain ⟨position, holding, present⟩ := Option.bind_eq_some_iff.mp found
    split at replaced
    · rename_i compatible
      obtain ⟨held, retires⟩ := supersede_retires replaced
      refine .superseded _ taken position prior holding present compatible ?_ ⟨?_, ?_, ?_, ?_⟩
      · rw [superseded.held_update_latest, held]
        rfl
      · exact retires.supersessions
      · exact retires.removals
      · exact retires.active
      · exact retires.before
    · rename_i incompatible
      refine quiet (Except.ok.inj replaced).symm fun other prior' holding' present' => ?_
      cases holding.symm.trans holding'
      cases present.symm.trans present'
      exact Bool.eq_false_iff.mpr incompatible

theorem cancelPair_turn {key : CompactionKey} (taken : registry.slot entry = some (.pair key token))
    (done : cancelPair codec entries (registry.optimization entry) key token pass entry index = .ok next) :
    Turn registry entries entry index pass next := by
  unfold cancelPair at done
  split at done
  · rename_i absent
    cases done
    refine .remembered _ taken ?_ (pass.held_update_pair key token _) (.nothing rfl rfl rfl rfl)
    intro position prior holding present
    rw [Option.bind_eq_none_iff] at absent
    exact absurd present (by rw [absent position holding]; simp)
  · rename_i prior found
    obtain ⟨position, holding, present⟩ := Option.bind_eq_some_iff.mp found
    split at done
    · rename_i opposite
      obtain ⟨_, priorGone, done⟩ := bind_eq_ok_iff.mp done
      obtain ⟨both, entryGone, done⟩ := bind_eq_ok_iff.mp done
      cases done
      obtain ⟨heldFirst, retiresFirst⟩ := supersede_retires priorGone
      obtain ⟨heldBoth, retiresBoth⟩ := supersede_retires entryGone
      have retires := retiresFirst.trans retiresBoth
      refine .superseded _ taken position prior holding present opposite ?_ ⟨?_, ?_, ?_, ?_⟩
      · rw [both.held_update_pair, heldBoth, heldFirst]
        rfl
      · exact retires.supersessions
      · exact retires.removals
      · exact retires.active
      · exact retires.before
    · rename_i unlike
      cases done
      refine .remembered _ taken ?_ (pass.held_update_pair key token _) (.nothing rfl rfl rfl rfl)
      intro _ _ holding' present'
      cases holding.symm.trans holding'
      cases present.symm.trans present'
      exact Bool.eq_false_iff.mpr unlike

theorem compactEntry_turn (done : compactEntry codec entries registry pass (entry, index) = .ok next) :
    Turn registry entries entry index pass next := by
  have idle (continues : registry.resets entry = false) (free : registry.slot entry = none)
      (same : next.active = pass.active ∧ next.held = pass.held ∧ next.plan.supersessions = pass.plan.supersessions ∧
        next.plan.removeOperations = pass.plan.removeOperations ∧
        next.plan.operationsBefore = pass.plan.operationsBefore) : Turn registry entries entry index pass next :=
    .passed continues free same.2.1 (.nothing same.1 same.2.2.1 same.2.2.2.1 same.2.2.2.2)
  unfold compactEntry at done
  dsimp only at done
  split at done
  · rename_i resets
    cases done
    exact .reset resets (fun slot => by cases slot <;> rfl) (.nothing rfl rfl rfl rfl)
  · rename_i continues
    have continues : registry.resets entry = false := Bool.eq_false_iff.mpr continues
    split at done
    · rename_i sensitive
      have free : registry.slot entry = none := by
        rw [OptimizationRegistry.slot, if_pos]
        rw [Bool.or_eq_true]
        exact .inr sensitive
      cases done
      exact idle continues free ⟨rfl, funext fun slot => by cases slot <;> rfl, rfl, rfl, rfl⟩
    · rename_i ordinary
      have slot_eq : registry.slot entry =
          match (registry.optimization entry).compaction with
          | .replaceLatest => some (.latest (registry.compactionKey entry))
          | .cancelPairs => entry.cancellation.map fun cancellation =>
              .pair (registry.compactionKey entry) cancellation.token
          | .never | .merge | .custom => none := by
        rw [OptimizationRegistry.slot, if_neg]
        rw [Bool.or_eq_true, continues]
        exact not_or_intro Bool.false_ne_true ordinary
      split at done <;> rename_i policy
      · exact replaceLatest_turn (slot_eq.trans (by rw [optimization, policy]; rfl)) done
      · have taken := slot_eq.trans (by rw [optimization, policy])
        split at done
        · rename_i absent
          cases done
          exact idle continues (taken.trans (by rw [absent]; rfl)) ⟨rfl, rfl, rfl, rfl, rfl⟩
        · rename_i cancellation present
          exact cancelPair_turn (taken.trans (by rw [present]; rfl)) done
      all_goals
        cases done
        exact idle continues (slot_eq.trans (by rw [optimization, policy]))
          ⟨rfl, rfl, rfl, rfl, rfl⟩

end Turn

/-! The loop. -/

section Loop
variable (codec : EnvelopeCodec) (entries : List QueueEntry) (registry : OptimizationRegistry)

def passAt (turn : Nat) : Except QueueError Pass :=
  (entries.zipIdx.take turn).foldlM (compactEntry codec entries registry) (Pass.start entries)

/-- Before the turn the entry at the position holds the slot: it took it last, nothing reset the
pass since, and it was not removed. -/
structure Open (removed : List OperationId) (turn : Nat) (slot : Slot) (position : Nat) (entry : QueueEntry) :
    Prop where
  earlier : position < turn
  found : entries[position]? = some entry
  taken : registry.slot entry = some slot
  kept : entry.id ∉ removed
  undisturbed : ∀ between, position < between → between < turn → ∀ other, entries[between]? = some other →
    registry.resets other = false ∧ registry.slot other ≠ some slot

/-- One entry comes before another in the queue. -/
def Before (prior next : QueueEntry) : Prop :=
  ∃ first second : Nat, first < second ∧ entries[first]? = some prior ∧ entries[second]? = some next

structure Retirement where
  slot : Slot
  (prior next : QueueEntry)

def Retirement.supersessions (retirement : Retirement) : List Supersession :=
  retirement.slot.supersessions retirement.prior retirement.next

structure Retirement.Valid (retirement : Retirement) : Prop where
  before : Before entries retirement.prior retirement.next
  priorSlot : registry.slot retirement.prior = some retirement.slot
  nextSlot : registry.slot retirement.next = some retirement.slot
  givesWay : retirement.slot.givesWay registry entries retirement.prior retirement.next = true

/-- What the pass recorded in the turns before the given one. -/
structure Pass.Records (pass : Pass) (turn : Nat) : Prop where
  seen : ∀ operation ∈ pass.plan.removeOperations, ∃ position < turn, ∃ entry,
    entries[position]? = some entry ∧ entry.id = operation
  distinct : pass.plan.removeOperations.Nodup
  explained : pass.plan.removeOperations = pass.plan.supersessions.map Supersession.oldOperationId
  retired : ∃ retirements : List Retirement, (∀ retirement ∈ retirements, retirement.Valid entries registry) ∧
    pass.plan.supersessions = retirements.flatMap Retirement.supersessions
  active : ∀ operation, pass.active[operation]? =
    if operation ∈ knownIds entries then some (decide (operation ∉ pass.plan.removeOperations)) else none
  before : pass.plan.operationsBefore = entries.length

/-- The invariant of the loop. -/
structure Pass.Tracks (pass : Pass) (turn : Nat) : Prop extends pass.Records entries registry turn where
  held : ∀ slot position, pass.held slot = some position ↔
    ∃ entry, Open entries registry pass.plan.removeOperations turn slot position entry

end Loop

section Invariant
variable {entries : List QueueEntry} {registry : OptimizationRegistry}

theorem validateFrom_distinct (valid : validateFrom codec ids sequences entries = .ok ()) :
    (entries.map QueueEntry.id).Nodup ∧ ∀ entry ∈ entries, entry.id ∉ ids := by
  induction entries generalizing ids sequences with
  | nil => simp
  | cons _ _ ih =>
    rw [validateFrom, check_bind_eq_ok, require_eq_ok, check_bind_eq_ok, check_bind_eq_ok] at valid
    obtain ⟨fresh, -, -, valid⟩ := valid
    obtain ⟨distinct, unused⟩ := ih valid
    rw [map_cons, nodup_cons, forall_mem_cons]
    refine ⟨⟨fun repeated => ?_, distinct⟩, fresh, fun other member known => ?_⟩
    · obtain ⟨other, member, same⟩ := mem_map.mp repeated
      exact unused other member (by simp [same])
    · exact unused other member (Finset.mem_insert_of_mem known)

theorem position_unique (distinct : (entries.map QueueEntry.id).Nodup) {first second : Nat}
    (atFirst : entries[first]? = some entry) (atSecond : entries[second]? = some other)
    (same : entry.id = other.id) : first = second := by
  have inside : first < (entries.map QueueEntry.id).length := by
    rw [length_map]
    exact (List.getElem?_eq_some_iff.mp atFirst).1
  refine (getElem?_inj inside distinct).mp ?_
  rw [getElem?_map, getElem?_map, atFirst, atSecond, Option.map_some, Option.map_some, same]

variable {pass next : Pass}

variable {slot : Slot}

theorem continues_of_slot (taken : registry.slot entry = some slot) : registry.resets entry = false := by
  rw [OptimizationRegistry.slot] at taken
  split at taken
  · cases taken
  · rename_i free
    rw [Bool.or_eq_true, not_or] at free
    exact Bool.eq_false_iff.mpr free.1

theorem Pass.Records.fresh (records : pass.Records entries registry turn)
    (distinct : (entries.map QueueEntry.id).Nodup) (present : entries[turn]? = some entry) :
    entry.id ∉ pass.plan.removeOperations := by
  intro removed
  obtain ⟨_, earlier, _, found, same⟩ := records.seen _ removed
  exact earlier.ne (position_unique distinct found present same)

theorem Pass.Records.nothing (records : pass.Records entries registry turn) (retires : pass.Retires next []) :
    next.Records entries registry (turn + 1) := by
  obtain ⟨supersessions, removals, active, before⟩ := retires
  rw [append_nil] at supersessions
  rw [map_nil, append_nil] at removals
  refine ⟨?_, ?_, ?_, ?_, ?_, before.trans records.before⟩
  · rw [removals]
    intro operation removed
    obtain ⟨position, earlier, found⟩ := records.seen operation removed
    exact ⟨position, earlier.trans (Nat.lt_succ_self turn), found⟩
  · rw [removals]
    exact records.distinct
  · rw [removals, supersessions]
    exact records.explained
  · rw [supersessions]
    exact records.retired
  · rw [active, removals]
    exact records.active

theorem Slot.removed_sublist (slot : Slot) (prior next : QueueEntry) :
    ((slot.supersessions prior next).map Supersession.oldOperationId).Sublist [prior.id, next.id] := by
  cases slot with
  | latest key => exact Sublist.cons_cons _ (nil_sublist _)
  | pair _ _ => exact Sublist.refl _

theorem Pass.Records.retire {prior : QueueEntry}
    (records : pass.Records entries registry turn) (distinct : (entries.map QueueEntry.id).Nodup)
    (present : entries[turn]? = some entry) (taken : registry.slot entry = some slot)
    (held : Open entries registry pass.plan.removeOperations turn slot position prior)
    (givesWay : slot.givesWay registry entries prior entry = true)
    (retires : pass.Retires next (slot.supersessions prior entry)) :
    next.Records entries registry (turn + 1) := by
  obtain ⟨supersessions, removals, active, before⟩ := retires
  have sublist := slot.removed_sublist prior entry
  have different : prior.id ≠ entry.id := by
    intro same
    exact held.earlier.ne (position_unique distinct held.found present same)
  have unremoved : ∀ operation ∈ [prior.id, entry.id], operation ∉ pass.plan.removeOperations := by
    simpa using ⟨held.kept, records.fresh distinct present⟩
  have positioned : ∀ operation ∈ [prior.id, entry.id], ∃ place < turn + 1, ∃ item,
      entries[place]? = some item ∧ item.id = operation := by
    rw [forall_mem_cons, forall_mem_singleton]
    exact ⟨⟨position, held.earlier.trans (Nat.lt_succ_self turn), prior, held.found, rfl⟩,
      turn, Nat.lt_succ_self turn, entry, present, rfl⟩
  have known : ∀ operation ∈ [prior.id, entry.id], operation ∈ knownIds entries := by
    intro operation member
    obtain ⟨place, -, item, found, same⟩ := positioned operation member
    rw [knownIds, mem_toFinset, mem_map]
    exact ⟨item, mem_of_getElem? found, same⟩
  refine ⟨?_, ?_, ?_, ?_, ?_, before.trans records.before⟩
  · rw [removals]
    intro operation removed
    rcases mem_append.mp removed with earlier | now
    · obtain ⟨place, below, found⟩ := records.seen operation earlier
      exact ⟨place, below.trans (Nat.lt_succ_self turn), found⟩
    · exact positioned operation (sublist.subset now)
  · rw [removals]
    refine records.distinct.append (sublist.nodup (by simpa using different)) ?_
    intro operation earlier now
    exact unremoved operation (sublist.subset now) earlier
  · rw [removals, supersessions, map_append, ← records.explained]
  · obtain ⟨retirements, valid, recorded⟩ := records.retired
    refine ⟨retirements ++ [⟨slot, prior, entry⟩], ?_, ?_⟩
    · rw [forall_mem_append, forall_mem_singleton]
      exact ⟨valid, ⟨position, turn, held.earlier, held.found, present⟩, held.taken, taken, givesWay⟩
    · rw [supersessions, recorded, flatMap_append, flatMap_singleton]
      rfl
  · intro operation
    rw [active, removals, lookup_foldl_insert_const, records.active]
    by_cases now : operation ∈ (slot.supersessions prior entry).map Supersession.oldOperationId
    · rw [if_pos now, if_pos (known operation (sublist.subset now)), decide_eq_false]
      simp only [mem_append, not_not]
      exact .inr now
    · rw [if_neg now]
      simp only [mem_append, now, or_false]

/-- A slot other than the one taken in a turn stays with its entry. -/
theorem open_succ_other (present : entries[turn]? = some entry) (continues : registry.resets entry = false)
    (other : registry.slot entry ≠ some slot)
    (spared : ∀ operation ∈ gone, registry.slot holder = some slot → holder ∈ entries → holder.id ≠ operation) :
    Open entries registry (removed ++ gone) (turn + 1) slot position holder ↔
      Open entries registry removed turn slot position holder := by
  constructor
  · intro open'
    have earlier : position ≠ turn := by
      rintro rfl
      cases present.symm.trans open'.found
      exact other open'.taken
    refine ⟨by have := open'.earlier; omega, open'.found, open'.taken, ?_, ?_⟩
    · exact fun removed => open'.kept (mem_append_left _ removed)
    · exact fun between after before => open'.undisturbed between after (before.trans (Nat.lt_succ_self _))
  · intro open'
    refine ⟨open'.earlier.trans (Nat.lt_succ_self _), open'.found, open'.taken, ?_, ?_⟩
    · rw [mem_append, not_or]
      exact ⟨open'.kept, fun member => spared _ member open'.taken (mem_of_getElem? open'.found) rfl⟩
    · intro between after before item found
      rcases Nat.lt_succ_iff_lt_or_eq.mp before with before | rfl
      · exact open'.undisturbed between after before item found
      · cases present.symm.trans found
        exact ⟨continues, other⟩

theorem open_succ_self (present : entries[turn]? = some entry) (taken : registry.slot entry = some slot) :
    Open entries registry removed (turn + 1) slot position holder ↔
      position = turn ∧ holder = entry ∧ entry.id ∉ removed := by
  constructor
  · intro open'
    have last : position = turn := by
      by_contra different
      have before : position < turn := by have := open'.earlier; omega
      exact (open'.undisturbed turn before (Nat.lt_succ_self _) entry present).2 taken
    subst last
    cases present.symm.trans open'.found
    exact ⟨rfl, rfl, open'.kept⟩
  · rintro ⟨rfl, rfl, kept⟩
    exact ⟨Nat.lt_succ_self _, present, taken, kept, fun between after before => absurd after (by omega)⟩

theorem afterwards_eq_some (different : prior.id ≠ entry.id) (fresh : entry.id ∉ removed) :
    slot.afterwards turn = some place ↔ place = turn ∧
      entry.id ∉ removed ++ (slot.supersessions prior entry).map Supersession.oldOperationId := by
  cases slot with
  | latest key => simp [Slot.afterwards, Slot.supersessions, fresh, Ne.symm different, eq_comm]
  | pair _ _ => simp [Slot.afterwards, Slot.supersessions]

theorem not_open_reset (present : entries[turn]? = some entry) (resets : registry.resets entry = true) :
    ¬Open entries registry removed (turn + 1) slot position holder := by
  intro open'
  have earlier : position ≠ turn := by
    rintro rfl
    cases present.symm.trans open'.found
    have taken := open'.taken
    rw [OptimizationRegistry.slot, resets] at taken
    cases taken
  have before : position < turn := by have := open'.earlier; omega
  rw [(open'.undisturbed turn before (Nat.lt_succ_self _) entry present).1] at resets
  cases resets

theorem id_ne_of_slot_ne
    (distinct : (entries.map QueueEntry.id).Nodup) (member : holder ∈ entries) (also : item ∈ entries)
    (first : registry.slot holder = some slot) (second : registry.slot item = some other)
    (apart : other ≠ slot) : holder.id ≠ item.id := by
  intro same
  rw [inj_on_of_nodup_map distinct member also same] at first
  exact apart (Option.some.inj (second.symm.trans first))

/-- A slot that the turn does not take is held as it was. -/
theorem Pass.Tracks.held_other (tracks : pass.Tracks entries registry turn) (present : entries[turn]? = some entry)
    (continues : registry.resets entry = false) (other : registry.slot entry ≠ some slot)
    (spared : ∀ operation ∈ gone, ∀ holder ∈ entries, registry.slot holder = some slot → holder.id ≠ operation) :
    pass.held slot = some position ↔
      ∃ holder, Open entries registry (pass.plan.removeOperations ++ gone) (turn + 1) slot position holder := by
  rw [tracks.held]
  refine exists_congr fun holder => (open_succ_other present continues other ?_).symm
  exact fun operation member holds inside => spared operation member holder inside holds

theorem Pass.Tracks.succ (tracks : pass.Tracks entries registry turn)
    (distinct : (entries.map QueueEntry.id).Nodup) (present : entries[turn]? = some entry)
    (turned : Turn registry entries entry turn pass next) : next.Tracks entries registry (turn + 1) := by
  cases turned with
  | reset resets cleared retires =>
    refine ⟨tracks.nothing retires, fun slot position => ?_⟩
    rw [cleared slot]
    refine iff_of_false (Option.some_ne_none _).symm ?_
    rintro ⟨holder, open'⟩
    exact not_open_reset present resets open'
  | passed continues free kept retires =>
    refine ⟨tracks.nothing retires, fun slot position => ?_⟩
    rw [kept, retires.removals]
    apply tracks.held_other present continues
    · rw [free]
      exact (Option.some_ne_none _).symm
    · simp
  | remembered slot taken _ held retires =>
    refine ⟨tracks.nothing retires, fun other position => ?_⟩
    rw [held, retires.removals, update_apply]
    split
    · rename_i same
      subst same
      simp only [open_succ_self present taken, map_nil, append_nil, Option.some.injEq]
      constructor
      · rintro rfl
        exact ⟨entry, rfl, rfl, tracks.fresh distinct present⟩
      · rintro ⟨-, rfl, -⟩
        rfl
    · rename_i apart
      apply tracks.held_other present (continues_of_slot taken)
      · rw [taken]
        exact fun same => apart (Option.some.inj same).symm
      · simp
  | superseded slot taken position prior holding found givesWay held retires =>
    obtain ⟨holder, open'⟩ := (tracks.held slot position).mp holding
    cases found.symm.trans open'.found
    refine ⟨tracks.retire distinct present taken open' givesWay retires, fun other place => ?_⟩
    rw [held, retires.removals, update_apply]
    split
    · rename_i same
      subst same
      have different : prior.id ≠ entry.id := fun same =>
        open'.earlier.ne (position_unique distinct found present same)
      rw [afterwards_eq_some different (tracks.fresh distinct present)]
      simp only [open_succ_self present taken]
      exact ⟨fun ⟨last, kept⟩ => ⟨entry, last, rfl, kept⟩, fun ⟨_, last, _, kept⟩ => ⟨last, kept⟩⟩
    · rename_i apart
      apply tracks.held_other present (continues_of_slot taken)
      · rw [taken]
        exact fun same => apart (Option.some.inj same).symm
      · -- Only the two entries of the taken slot are removed, and neither holds another one.
        intro _ gone _ inside holds
        rcases mem_pair.mp ((slot.removed_sublist prior entry).subset gone) with rfl | rfl
        · exact id_ne_of_slot_ne distinct inside (mem_of_getElem? found) holds open'.taken (Ne.symm apart)
        · exact id_ne_of_slot_ne distinct inside (mem_of_getElem? present) holds taken (Ne.symm apart)

theorem Pass.tracks_start : (start entries).Tracks entries registry 0 where
  seen := by simp [start]
  distinct := by simp [start]
  explained := rfl
  retired := ⟨[], by simp, rfl⟩
  before := rfl
  active operation := by
    have built : (start entries).active =
        (entries.map QueueEntry.id).foldl (fun built next => built.insert next true) ∅ := by
      rw [start, ExtTreeMap.ofList_eq_foldl, foldl_map, foldl_map]
    rw [built, lookup_foldl_insert_const]
    simp [knownIds, start]
  held slot position := by
    refine iff_of_false ?_ fun ⟨_, held⟩ => Nat.not_lt_zero _ held.earlier
    cases slot <;> exact (Option.some_ne_none _).symm

theorem passAt_succ (present : entries[turn]? = some entry) :
    passAt codec entries registry (turn + 1) =
      passAt codec entries registry turn >>= fun pass => compactEntry codec entries registry pass (entry, turn) := by
  have last : entries.zipIdx[turn]? = some (entry, turn) := by simp [getElem?_zipIdx, present]
  rw [passAt, take_add_one, last, foldlM_append]
  simp [passAt]

theorem passAt_tracks (distinct : (entries.map QueueEntry.id).Nodup) (inside : turn ≤ entries.length)
    (reached : passAt codec entries registry turn = .ok pass) : pass.Tracks entries registry turn := by
  induction turn generalizing pass with
  | zero =>
    cases reached
    exact Pass.tracks_start
  | succ turn ih =>
    have present : entries[turn]? = some entries[turn] := getElem?_eq_getElem inside
    rw [passAt_succ present, bind_eq_ok_iff] at reached
    obtain ⟨_, earlier, turned⟩ := reached
    exact (ih (Nat.le_of_succ_le inside) earlier).succ distinct present (compactEntry_turn turned)

end Invariant

end Aequora.Queue
