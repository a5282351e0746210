import Aequora.Base.Check
import Aequora.Base.Word
import Mathlib.Data.Finset.Card
import Mathlib.Logic.Relation

/-! Bounded breadth-first search over labelled successors, with states told apart by a key. A search
that ends below its number of states has visited every state within the depth, and the violation it
stops at is one of the nearest. -/

namespace Aequora.Base.BreadthFirst

universe u

/-- What applying a label to a state gives. -/
inductive Applied (State Violation : Type u) where
  | reached (next : State)
  | refused
  | violated (violation : Violation)

/-- What is searched, and how far. -/
structure Space (State Label Key Violation Fault : Type u) where
  enabled : State → List Label
  apply : State → Label → Applied State Violation
  key : State → Except Fault Key
  (maxDepth maxStates : Nat)

/-- The loop variables of a search; a state waits with the labels that led to it. -/
structure Search (State Label Key : Type u) where
  visited : Finset Key
  pending : List (State × List Label)
  (transitions depth : Nat)

open Search List

/-- Why a search ends early. -/
inductive Stop (Label Violation Fault : Type u) where
  | violated (path : List Label) (violation : Violation)
  | faulted (fault : Fault)

variable {State Label Key Violation Fault : Type u}

/-- The search before its first round. -/
def Search.start (initial : State) : Search State Label Key :=
  { visited := ∅, pending := [(initial, [])], transitions := 0, depth := 0 }

/-- The successors of a state in the order of the labels, up to the first violation. -/
def Space.expand (space : Space State Label Key Violation Fault) (state : State) (path : List Label) :
    List Label → Except (Stop Label Violation Fault) (List (State × List Label))
  | [] => .ok []
  | label :: rest =>
    match space.apply state label with
    | .reached next => (space.expand state path rest).map ((next, path ++ [label]) :: ·)
    | .refused => space.expand state path rest
    | .violated violation => .error (.violated (path ++ [label]) violation)

section Rounds
variable [DecidableEq Key] (space : Space State Label Key Violation Fault)

/-- One round: the first waiting state is skipped when its key is known, and expanded unless
a bound is reached. -/
def Space.visit (search : Search State Label Key) (entry : State × List Label)
    (rest : List (State × List Label)) : Except (Stop Label Violation Fault) (Search State Label Key) :=
  match space.key entry.1 with
  | .error fault => .error (.faulted fault)
  | .ok key =>
    if key ∈ search.visited then .ok { search with pending := rest }
    else
      let visited := insert key search.visited
      let depth := max search.depth entry.2.length
      if space.maxStates ≤ visited.card ∨ space.maxDepth ≤ entry.2.length then
        .ok { search with visited, pending := rest, depth }
      else
        (space.expand entry.1 entry.2 (space.enabled entry.1)).map fun found =>
          { visited, pending := rest ++ found, depth
            transitions := saturatingAdd search.transitions (space.enabled entry.1).length }

variable {space} {search next : Search State Label Key} {entry : State × List Label}
  {rest : List (State × List Label)}

/-- Everything a round can do. -/
inductive Round (space : Space State Label Key Violation Fault) (search : Search State Label Key)
    (entry : State × List Label) (rest : List (State × List Label)) (key : Key) : Search State Label Key → Prop
  | again (known : key ∈ search.visited) : Round space search entry rest key { search with pending := rest }
  | cut (fresh : key ∉ search.visited)
      (bounded : space.maxStates ≤ search.visited.card + 1 ∨ space.maxDepth ≤ entry.2.length) :
      Round space search entry rest key
        { search with
          visited := insert key search.visited, pending := rest, depth := max search.depth entry.2.length }
  | expanded (fresh : key ∉ search.visited) (room : search.visited.card + 1 < space.maxStates)
      (shallow : entry.2.length < space.maxDepth) (found : List (State × List Label))
      (expands : space.expand entry.1 entry.2 (space.enabled entry.1) = .ok found) :
      Round space search entry rest key
        { visited := insert key search.visited, pending := rest ++ found
          depth := max search.depth entry.2.length
          transitions := saturatingAdd search.transitions (space.enabled entry.1).length }

theorem visit_known (keyed : space.key entry.1 = .ok key) (known : key ∈ search.visited) :
    space.visit search entry rest = .ok { search with pending := rest } := by
  simp only [Space.visit, keyed, if_pos known]

theorem visit_fresh (keyed : space.key entry.1 = .ok key) (fresh : key ∉ search.visited) :
    space.visit search entry rest =
      if space.maxStates ≤ search.visited.card + 1 ∨ space.maxDepth ≤ entry.2.length then
        .ok { search with
          visited := insert key search.visited, pending := rest, depth := max search.depth entry.2.length }
      else
        (space.expand entry.1 entry.2 (space.enabled entry.1)).map fun found =>
          { visited := insert key search.visited, pending := rest ++ found
            depth := max search.depth entry.2.length
            transitions := saturatingAdd search.transitions (space.enabled entry.1).length } := by
  simp only [Space.visit, keyed, if_neg fresh, Finset.card_insert_of_notMem fresh]

theorem visit_faulted (keyed : space.key entry.1 = .error fault) :
    space.visit search entry rest = .error (.faulted fault) := by
  simp only [Space.visit, keyed]

theorem visit_round (visits : space.visit search entry rest = .ok next) :
    ∃ key, space.key entry.1 = .ok key ∧ Round space search entry rest key next := by
  cases keyed : space.key entry.1 with
  | error _ =>
    rw [visit_faulted keyed] at visits
    cases visits
  | ok key =>
    refine ⟨key, rfl, ?_⟩
    by_cases known : key ∈ search.visited
    · rw [visit_known keyed known] at visits
      cases visits
      exact .again known
    · rw [visit_fresh keyed known] at visits
      split_ifs at visits with bounded
      · cases visits
        exact .cut known bounded
      · obtain ⟨room, shallow⟩ := not_or.mp bounded
        obtain ⟨found, expands, rfl⟩ := map_eq_ok_iff.mp visits
        exact .expanded known (Nat.lt_of_not_le room) (Nat.lt_of_not_le shallow) found expands

/-- A round that stops at a violation met it while expanding a state. -/
theorem visit_violated (visits : space.visit search entry rest = .error (.violated path violation)) :
    search.visited.card + 1 < space.maxStates ∧ entry.2.length < space.maxDepth ∧
      space.expand entry.1 entry.2 (space.enabled entry.1) = .error (.violated path violation) := by
  cases keyed : space.key entry.1 with
  | error _ =>
    rw [visit_faulted keyed] at visits
    cases visits
  | ok key =>
    by_cases known : key ∈ search.visited
    · rw [visit_known keyed known] at visits
      cases visits
    · rw [visit_fresh keyed known] at visits
      split_ifs at visits with bounded
      obtain ⟨room, shallow⟩ := not_or.mp bounded
      refine ⟨Nat.lt_of_not_le room, Nat.lt_of_not_le shallow, ?_⟩
      cases expands : space.expand entry.1 entry.2 (space.enabled entry.1) with
      | ok _ =>
        rw [expands] at visits
        cases visits
      | error _ =>
        rw [expands] at visits
        cases visits
        rfl

/-- A round either visits one more of the states the bound allows or leaves fewer waiting. -/
theorem visit_decreases (waiting : search.pending = entry :: rest)
    (visits : space.visit search entry rest = .ok next) :
    Prod.Lex (· < ·) (· < ·) (space.maxStates - next.visited.card, next.pending.length)
      (space.maxStates - search.visited.card, search.pending.length) := by
  have longer : search.pending.length = rest.length + 1 := by rw [waiting, length_cons]
  obtain ⟨_, -, round⟩ := visit_round visits
  rw [Prod.lex_def]
  cases round with
  | again _ =>
    refine .inr ⟨rfl, ?_⟩
    simp only [longer, Nat.lt_add_one]
  | cut fresh _ =>
    simp only [Finset.card_insert_of_notMem fresh, longer]
    omega
  | expanded fresh _ _ _ _ =>
    simp only [Finset.card_insert_of_notMem fresh]
    omega

/-- The rounds until nothing waits. -/
def Search.run (space : Space State Label Key Violation Fault) (search : Search State Label Key) :
    Except (Stop Label Violation Fault) (Search State Label Key) :=
  match _waiting : search.pending with
  | [] => .ok search
  | entry :: rest =>
    match _visits : space.visit search entry rest with
    | .error stop => .error stop
    | .ok next => next.run space
termination_by (space.maxStates - search.visited.card, search.pending.length)
decreasing_by exact visit_decreases _waiting _visits

/-- One round that does not stop the search. -/
def Step (space : Space State Label Key Violation Fault) (search next : Search State Label Key) : Prop :=
  ∃ entry rest, search.pending = entry :: rest ∧ space.visit search entry rest = .ok next

/-- The searches a search comes to, round after round. -/
abbrev Passes (space : Space State Label Key Violation Fault) :
    Search State Label Key → Search State Label Key → Prop :=
  Relation.ReflTransGen (Step space)

theorem run_empty (empty : search.pending = []) : search.run space = .ok search := by
  rw [run]
  split
  · rfl
  · next waiting => simp [empty] at waiting

theorem run_waiting (waiting : search.pending = entry :: rest) :
    search.run space = space.visit search entry rest >>= run space := by
  rw [run]
  split
  · next empty => simp [waiting] at empty
  · next waiting' =>
    cases waiting.symm.trans waiting'
    split
    · next visits => rw [visits]; rfl
    · next visits => rw [visits]; rfl

theorem run_stopped (waiting : search.pending = entry :: rest)
    (visits : space.visit search entry rest = .error stop) : search.run space = .error stop := by
  rw [run_waiting waiting, visits]
  rfl

theorem Step.run_eq (step : Step space search next) : search.run space = next.run space := by
  obtain ⟨_, _, waiting, visits⟩ := step
  rw [run_waiting waiting, visits]
  rfl

theorem Passes.run_eq (passes : Passes space search next) : search.run space = next.run space := by
  induction passes with
  | refl => rfl
  | tail _ step ih => exact ih.trans step.run_eq

/-- How a run ends: with nothing waiting, or in a round that stops it. -/
theorem run_cases (space : Space State Label Key Violation Fault) (search : Search State Label Key) :
    ∃ last, Passes space search last ∧
      (last.pending = [] ∧ search.run space = .ok last ∨
        ∃ entry rest stop, last.pending = entry :: rest ∧
          space.visit last entry rest = .error stop ∧ search.run space = .error stop) := by
  fun_induction run space search with
  | case1 search empty => exact ⟨search, .refl, .inl ⟨empty, rfl⟩⟩
  | case2 search entry rest waiting stop visits =>
    exact ⟨search, .refl, .inr ⟨entry, rest, stop, waiting, visits, rfl⟩⟩
  | case3 _ entry rest waiting _ visits ih =>
    obtain ⟨last, passes, ends⟩ := ih
    exact ⟨last, .head ⟨entry, rest, waiting, visits⟩ passes, ends⟩

theorem run_ok (runs : search.run space = .ok final) : Passes space search final ∧ final.pending = [] := by
  obtain ⟨_, passes, ⟨empty, same⟩ | ⟨_, _, _, _, _, same⟩⟩ := run_cases space search
  · cases runs.symm.trans same
    exact ⟨passes, empty⟩
  · cases runs.symm.trans same

theorem run_error (runs : search.run space = .error stop) :
    ∃ last entry rest, Passes space search last ∧ last.pending = entry :: rest ∧
      space.visit last entry rest = .error stop := by
  obtain ⟨last, passes, ⟨_, same⟩ | ⟨entry, rest, _, waiting, visits, same⟩⟩ := run_cases space search
  · cases runs.symm.trans same
  · cases runs.symm.trans same
    exact ⟨last, entry, rest, passes, waiting, visits⟩

/-- At most so many rounds, which decides a search on concrete data. -/
def Search.runFor (space : Space State Label Key Violation Fault) :
    Nat → Search State Label Key → Option (Except (Stop Label Violation Fault) (Search State Label Key))
  | 0, _ => none
  | rounds + 1, search =>
    match search.pending with
    | [] => some (.ok search)
    | entry :: rest =>
      match space.visit search entry rest with
      | .error stop => some (.error stop)
      | .ok next => next.runFor space rounds

theorem run_of_runFor (runs : search.runFor space rounds = some result) : search.run space = result := by
  induction rounds generalizing search with
  | zero => cases runs
  | succ _ ih =>
    rw [runFor] at runs
    split at runs
    · next empty => exact (run_empty empty).trans (Option.some.inj runs)
    · next entry rest waiting =>
      split at runs
      · next stop visits => exact (run_stopped waiting visits).trans (Option.some.inj runs)
      · next other visits => exact (Step.run_eq ⟨entry, rest, waiting, visits⟩).trans (ih runs)

/-! ## How many states are visited -/

theorem Step.visited_subset (step : Step space search next) : search.visited ⊆ next.visited := by
  obtain ⟨_, _, -, visits⟩ := step
  obtain ⟨_, -, round⟩ := visit_round visits
  cases round with
  | again => exact Finset.Subset.refl _
  | cut => exact Finset.subset_insert _ _
  | expanded => exact Finset.subset_insert _ _

theorem Passes.visited_subset (passes : Passes space search next) : search.visited ⊆ next.visited := by
  induction passes with
  | refl => exact Finset.Subset.refl _
  | tail _ step ih => exact ih.trans step.visited_subset

/-- The state's key was visited. -/
def Known (space : Space State Label Key Violation Fault) (search : Search State Label Key) (state : State) : Prop :=
  ∃ key ∈ search.visited, space.key state = .ok key

theorem Step.waits_or_known (step : Step space search next)
    (waits : waiter ∈ search.pending) : waiter ∈ next.pending ∨ Known space next waiter.1 := by
  obtain ⟨_, _, waiting, visits⟩ := step
  obtain ⟨key, keyed, round⟩ := visit_round visits
  rw [waiting] at waits
  rcases mem_cons.mp waits with rfl | later
  · right
    cases round with
    | again known => exact ⟨key, known, keyed⟩
    | cut => exact ⟨key, Finset.mem_insert_self _ _, keyed⟩
    | expanded => exact ⟨key, Finset.mem_insert_self _ _, keyed⟩
  · left
    cases round with
    | again => exact later
    | cut => exact later
    | expanded => exact mem_append_left _ later

theorem Passes.waits_or_known (passes : Passes space search next)
    (waits : waiter ∈ search.pending) : waiter ∈ next.pending ∨ Known space next waiter.1 := by
  induction passes with
  | refl => exact .inl waits
  | tail _ step ih =>
    rcases ih with still | ⟨key, known, keyed⟩
    · exact step.waits_or_known still
    · exact .inr ⟨key, step.visited_subset known, keyed⟩

theorem Step.card_le (step : Step space search next) (within : search.visited.card ≤ space.maxStates)
    (spent : search.visited.card = space.maxStates → ∀ waiter ∈ search.pending, Known space search waiter.1) :
    next.visited.card ≤ space.maxStates := by
  obtain ⟨entry, _, waiting, visits⟩ := step
  obtain ⟨key, keyed, round⟩ := visit_round visits
  have unspent (fresh : key ∉ search.visited) : search.visited.card < space.maxStates := by
    refine Nat.lt_of_le_of_ne within fun full => ?_
    obtain ⟨_, known, same⟩ := spent full entry (by rw [waiting]; exact mem_cons_self)
    cases keyed.symm.trans same
    exact fresh known
  cases round with
  | again => exact within
  | cut fresh => exact (Finset.card_insert_of_notMem fresh).trans_le (unspent fresh)
  | expanded fresh => exact (Finset.card_insert_of_notMem fresh).trans_le (unspent fresh)

/-- The bound on visited states holds exactly when every state that waits at the moment the
bound is met was visited before. -/
theorem run_card_le_iff (runs : (start initial).run space = .ok final) :
    final.visited.card ≤ space.maxStates ↔
      ∀ middle, Passes space (start initial) middle → middle.visited.card = space.maxStates →
        ∀ waiter ∈ middle.pending, Known space middle waiter.1 := by
  obtain ⟨passes, -⟩ := run_ok runs
  constructor
  · intro within middle before full _ waits
    obtain ⟨after, drained⟩ := run_ok (before.run_eq.symm.trans runs)
    have same : middle.visited = final.visited :=
      Finset.eq_of_subset_of_card_le after.visited_subset (within.trans full.ge)
    rcases after.waits_or_known waits with still | known
    · rw [drained] at still
      cases still
    · rwa [Known, ← same] at known
  · intro spent
    clear runs
    induction passes with
    | refl => exact Nat.zero_le _
    | tail before step ih => exact step.card_le ih (spent _ before)

/-! ## What is visited -/

/-- Applying the labels from the start, each enabled, reaches the state. -/
inductive Reach (space : Space State Label Key Violation Fault) (initial : State) :
    List Label → State → Prop
  | here : Reach space initial [] initial
  | step {path : List Label} {state next : State} {label : Label} (before : Reach space initial path state)
      (enabled : label ∈ space.enabled state) (applies : space.apply state label = .reached next) :
      Reach space initial (path ++ [label]) next

/-- The state is reached within the depth of the search. -/
def Within (space : Space State Label Key Violation Fault) (initial state : State) : Prop :=
  ∃ path, path.length ≤ space.maxDepth ∧ Reach space initial path state

/-- Different states within the depth have different keys. -/
def Separates (space : Space State Label Key Violation Fault) (initial : State) : Prop :=
  ∀ first second key, Within space initial first → Within space initial second →
    space.key first = .ok key → space.key second = .ok key → first = second

omit [DecidableEq Key] in
theorem expand_ok (expands : space.expand state path labels = .ok found) :
    (∀ entry, entry ∈ found ↔
      ∃ label ∈ labels, space.apply state label = .reached entry.1 ∧ entry.2 = path ++ [label]) ∧
    ∀ label ∈ labels, ∀ violation, space.apply state label ≠ .violated violation := by
  induction labels generalizing found with
  | nil =>
    cases expands
    simp
  | cons label _ ih =>
    rw [Space.expand] at expands
    cases applies : space.apply state label with
    | reached _ =>
      simp only [applies] at expands
      obtain ⟨_, expands', rfl⟩ := map_eq_ok_iff.mp expands
      obtain ⟨successors, safe⟩ := ih expands'
      refine ⟨fun entry => ?_, ?_⟩
      · simp only [mem_cons, successors, exists_eq_or_imp, applies, Applied.reached.injEq, Prod.ext_iff]
        exact or_congr_left (and_congr_left' eq_comm)
      · simpa [applies] using safe
    | refused =>
      simp only [applies] at expands
      obtain ⟨successors, safe⟩ := ih expands
      simpa [applies, successors] using safe
    | violated _ =>
      simp only [applies] at expands
      cases expands

omit [DecidableEq Key] in
theorem expand_violated (expands : space.expand state path labels = .error (.violated trace violation)) :
    ∃ label ∈ labels, trace = path ++ [label] ∧ space.apply state label = .violated violation := by
  induction labels with
  | nil => cases expands
  | cons label rest ih =>
    rw [Space.expand] at expands
    cases applies : space.apply state label with
    | reached _ =>
      simp only [applies] at expands
      cases expands' : space.expand state path rest with
      | ok found => simp [expands', Except.map] at expands
      | error _ =>
        simp only [expands', Except.map, Except.error.injEq] at expands
        obtain ⟨other, listed, found⟩ := ih (expands'.trans (by rw [expands]))
        exact ⟨other, mem_cons_of_mem _ listed, found⟩
    | refused =>
      simp only [applies] at expands
      obtain ⟨other, listed, found⟩ := ih expands
      exact ⟨other, mem_cons_of_mem _ listed, found⟩
    | violated _ =>
      simp only [applies] at expands
      cases expands
      exact ⟨label, mem_cons_self, rfl, applies⟩

/-- The state was visited, or waits, at no more than the depth. -/
def Found (seen : List (State × Nat)) (pending : List (State × List Label)) (state : State) (depth : Nat) : Prop :=
  (∃ node ∈ seen, node.1 = state ∧ node.2 ≤ depth) ∨
    ∃ entry ∈ pending, entry.1 = state ∧ entry.2.length ≤ depth

/-- The queue holds one level and part of the next, behind everything seen. While there is
room for more states, whatever a seen state within the depth leads to was found in time, and
none of its labels is a violation. -/
structure Explored (space : Space State Label Key Violation Fault) (initial : State)
    (search : Search State Label Key) (seen : List (State × Nat)) (level : Nat) : Prop where
  visited : ∀ key, key ∈ search.visited ↔ ∃ node ∈ seen, space.key node.1 = .ok key
  keyed : ∀ node ∈ seen, ∃ key, space.key node.1 = .ok key
  within : ∀ node ∈ seen, Within space initial node.1
  shallow : ∀ node ∈ seen, node.2 ≤ level
  ordered : search.pending.Pairwise fun first second => first.2.length ≤ second.2.length
  near : ∀ entry ∈ search.pending, level ≤ entry.2.length ∧ entry.2.length ≤ level + 1
  reached : ∀ entry ∈ search.pending, entry.2.length ≤ space.maxDepth ∧ Reach space initial entry.2 entry.1
  begun : Found seen search.pending initial 0
  closed : search.visited.card < space.maxStates → ∀ node ∈ seen, node.2 < space.maxDepth →
    ∀ label ∈ space.enabled node.1,
      (∀ next, space.apply node.1 label = .reached next → Found seen search.pending next (node.2 + 1)) ∧
      ∀ violation, space.apply node.1 label ≠ .violated violation

theorem Found.mono {pending pending' : List (State × List Label)} {depth : Nat} (found : Found seen pending state depth)
    (kept : ∀ node ∈ seen, node ∈ seen')
    (moved : ∀ entry ∈ pending, Found seen' pending' entry.1 entry.2.length) :
    Found seen' pending' state depth := by
  rcases found with ⟨node, known, same, soon⟩ | ⟨entry, waits, rfl, soon⟩
  · exact .inl ⟨node, kept node known, same, soon⟩
  · rcases moved entry waits with ⟨node, known, same, sooner⟩ | ⟨other, waits', same, sooner⟩
    · exact .inl ⟨node, known, same, sooner.trans soon⟩
    · exact .inr ⟨other, waits', same, sooner.trans soon⟩

section Explored
variable {initial : State} {seen : List (State × Nat)}

omit [DecidableEq Key] in
theorem explored_start : Explored space initial (start initial) [] 0 where
  visited := by simp [start]
  keyed := by simp
  within := by simp
  shallow := by simp
  ordered := by simp [start]
  near := by simp [start]
  reached := by
    intro _ waits
    cases mem_singleton.mp waits
    exact ⟨Nat.zero_le _, .here⟩
  begun := .inr ⟨(initial, []), by simp [start], rfl, le_refl _⟩
  closed := by simp

section
variable (explored : Explored space initial search seen level) (waiting : search.pending = entry :: rest)
include explored waiting

omit [DecidableEq Key] in
/-- Behind the head of the queue nothing is shallower, and nothing deeper than one level. -/
theorem Explored.behind :
    level ≤ entry.2.length ∧ rest.Pairwise (fun first second => first.2.length ≤ second.2.length) ∧
      ∀ other ∈ rest, entry.2.length ≤ other.2.length ∧ other.2.length ≤ entry.2.length + 1 := by
  have ordered := explored.ordered
  have near := explored.near
  rw [waiting] at ordered near
  obtain ⟨first, ordered⟩ := pairwise_cons.mp ordered
  have head := near entry mem_cons_self
  refine ⟨head.1, ordered, fun other waits => ⟨first other waits, ?_⟩⟩
  have bound := (near other (mem_cons_of_mem _ waits)).2
  omega

omit [DecidableEq Key] in
theorem Explored.drop (known : node ∈ seen)
    (same : node.1 = entry.1) : Explored space initial { search with pending := rest } seen entry.2.length := by
  obtain ⟨above, ordered, near⟩ := explored.behind waiting
  have moved : ∀ other ∈ search.pending, Found seen rest other.1 other.2.length := by
    rw [waiting]
    intro other waits
    rcases mem_cons.mp waits with rfl | later
    · exact .inl ⟨node, known, same, (explored.shallow node known).trans above⟩
    · exact .inr ⟨other, later, rfl, le_refl _⟩
  exact {
    visited := explored.visited
    keyed := explored.keyed
    within := explored.within
    shallow := fun node known => (explored.shallow node known).trans above
    ordered
    near
    reached := fun other waits => explored.reached other (by rw [waiting]; exact mem_cons_of_mem _ waits)
    begun := explored.begun.mono (fun _ known => known) moved
    closed := fun room node known within label enabled =>
      ⟨fun next applies =>
        ((explored.closed room node known within label enabled).1 next applies).mono (fun _ known => known) moved,
        (explored.closed room node known within label enabled).2⟩ }

/-- Visiting the head, with what it leads to at the end of the queue. -/
theorem Explored.take (keyed : space.key entry.1 = .ok key)
    (fresh : key ∉ search.visited)
    (deeper : ∀ other ∈ found, other.2.length = entry.2.length + 1 ∧
      other.2.length ≤ space.maxDepth ∧ Reach space initial other.2 other.1)
    (covered : search.visited.card + 1 < space.maxStates → entry.2.length < space.maxDepth →
      ∀ label ∈ space.enabled entry.1,
        (∀ next, space.apply entry.1 label = .reached next → (next, entry.2 ++ [label]) ∈ found) ∧
        ∀ violation, space.apply entry.1 label ≠ .violated violation)
    (transitions depth : Nat) :
    Explored space initial
      { visited := insert key search.visited, pending := rest ++ found, transitions, depth }
      ((entry.1, entry.2.length) :: seen) entry.2.length := by
  obtain ⟨above, ordered, near⟩ := explored.behind waiting
  have kept : ∀ node ∈ seen, node ∈ (entry.1, entry.2.length) :: seen := fun _ => mem_cons_of_mem _
  have moved : ∀ other ∈ search.pending,
      Found ((entry.1, entry.2.length) :: seen) (rest ++ found) other.1 other.2.length := by
    rw [waiting]
    intro other waits
    rcases mem_cons.mp waits with rfl | later
    · exact .inl ⟨_, mem_cons_self, rfl, le_refl _⟩
    · exact .inr ⟨other, mem_append_left _ later, rfl, le_refl _⟩
  refine { visited := ?_, keyed := ?_, within := ?_, shallow := ?_, ordered := ?_, near := ?_, reached := ?_,
           begun := explored.begun.mono kept moved, closed := ?_ }
  · intro other
    simp only [Finset.mem_insert, explored.visited, exists_mem_cons_iff, keyed, Except.ok.injEq]
    exact or_congr_left eq_comm
  · rw [forall_mem_cons]
    exact ⟨⟨key, keyed⟩, explored.keyed⟩
  · rw [forall_mem_cons]
    exact ⟨⟨entry.2, explored.reached entry (by rw [waiting]; exact mem_cons_self)⟩, explored.within⟩
  · rw [forall_mem_cons]
    exact ⟨le_refl _, fun node known => (explored.shallow node known).trans above⟩
  · refine pairwise_append.mpr ⟨ordered, ?_, ?_⟩
    · refine pairwise_of_forall_mem_list fun first isFirst second isSecond => ?_
      rw [(deeper first isFirst).1, (deeper second isSecond).1]
    · intro first isFirst second isSecond
      rw [(deeper second isSecond).1]
      exact (near first isFirst).2
  · rw [forall_mem_append]
    refine ⟨near, fun other new => ?_⟩
    have length := (deeper other new).1
    omega
  · rw [forall_mem_append]
    refine ⟨fun other waits => ?_, fun other new => (deeper other new).2⟩
    exact explored.reached other (by rw [waiting]; exact mem_cons_of_mem _ waits)
  · intro room
    rw [Finset.card_insert_of_notMem fresh] at room
    rw [forall_mem_cons]
    refine ⟨fun within label enabled => ?_, fun node known within label enabled => ?_⟩
    · obtain ⟨leads, safe⟩ := covered room within label enabled
      refine ⟨fun next applies => .inr ⟨_, mem_append_right _ (leads next applies), rfl, ?_⟩, safe⟩
      simp
    · obtain ⟨leads, safe⟩ := explored.closed (by omega) node known within label enabled
      exact ⟨fun next applies => (leads next applies).mono kept moved, safe⟩

end

theorem Explored.step (separates : Separates space initial) (explored : Explored space initial search seen level)
    (step : Step space search next) : ∃ seen' level', Explored space initial next seen' level' := by
  obtain ⟨entry, _, waiting, visits⟩ := step
  obtain ⟨key, keyed, round⟩ := visit_round visits
  have head := explored.reached entry (by rw [waiting]; exact mem_cons_self)
  cases round with
  | again known =>
    obtain ⟨node, isSeen, same⟩ := (explored.visited key).mp known
    have inside : Within space initial entry.1 := ⟨entry.2, head⟩
    exact ⟨_, _, explored.drop waiting isSeen (separates _ _ key (explored.within node isSeen) inside same keyed)⟩
  | cut fresh _ =>
    have none : ∀ other ∈ ([] : List (State × List Label)),
        other.2.length = entry.2.length + 1 ∧
          other.2.length ≤ space.maxDepth ∧ Reach space initial other.2 other.1 := by simp
    have taken := explored.take waiting keyed fresh none (fun room shallow => by omega)
      search.transitions (max search.depth entry.2.length)
    rw [append_nil] at taken
    exact ⟨_, _, taken⟩
  | expanded fresh _ shallow _ expands =>
    obtain ⟨successors, safe⟩ := expand_ok expands
    refine ⟨_, _, explored.take waiting keyed fresh (fun other new => ?_) (fun _ _ label enabled => ?_) _ _⟩
    · obtain ⟨label, enabled, applies, path⟩ := (successors other).mp new
      have longer : other.2.length = entry.2.length + 1 := by rw [path, length_append, length_singleton]
      exact ⟨longer, longer.trans_le shallow, path ▸ .step head.2 enabled applies⟩
    · exact ⟨fun next applies => (successors _).mpr ⟨label, enabled, applies, rfl⟩, safe label enabled⟩

theorem Passes.explored (separates : Separates space initial)
    (passes : Passes space (start initial) search) : ∃ seen level, Explored space initial search seen level := by
  induction passes with
  | refl => exact ⟨[], 0, explored_start⟩
  | tail _ step ih =>
    obtain ⟨_, _, explored⟩ := ih
    exact explored.step separates step

omit [DecidableEq Key] in
/-- Every state nearer than all that wait, and within the depth, was seen no later than any
path reaches it. -/
theorem Explored.seen_of_reach (explored : Explored space initial search seen level)
    (room : search.visited.card < space.maxStates) (within : bound ≤ space.maxDepth)
    (behind : ∀ entry ∈ search.pending, bound < entry.2.length)
    (reach : Reach space initial path state) (short : path.length ≤ bound) :
    ∃ node ∈ seen, node.1 = state ∧ node.2 ≤ path.length := by
  induction reach with
  | here =>
    rcases explored.begun with known | ⟨entry, waits, -, start⟩
    · exact known
    · have later := behind entry waits
      omega
  | step before enabled applies ih =>
    rename_i path state next label
    rw [length_append, length_singleton] at short ⊢
    obtain ⟨node, known, rfl, soon⟩ := ih (by omega)
    have leads := (explored.closed room node known (by omega) label enabled).1 next applies
    rcases leads with ⟨other, known', same, soon'⟩ | ⟨entry, waits, -, soon'⟩
    · exact ⟨other, known', same, by omega⟩
    · have later := behind entry waits
      omega

/-- A search that ends below the bound on states has visited whatever the depth allows, and
no label enabled before the last level is a violation. -/
theorem run_complete (separates : Separates space initial) (runs : (start initial).run space = .ok final)
    (room : final.visited.card < space.maxStates)
    (reach : Reach space initial path state) (short : path.length ≤ space.maxDepth) :
    Known space final state ∧
      (path.length < space.maxDepth → ∀ label ∈ space.enabled state, ∀ violation,
        space.apply state label ≠ .violated violation) := by
  obtain ⟨passes, drained⟩ := run_ok runs
  obtain ⟨_, _, explored⟩ := passes.explored separates
  obtain ⟨node, known, rfl, _⟩ :=
    explored.seen_of_reach room (le_refl _) (by simp [drained]) reach short
  constructor
  · obtain ⟨key, keyed⟩ := explored.keyed node known
    exact ⟨key, (explored.visited key).mpr ⟨node, known, keyed⟩, keyed⟩
  · intro _ label enabled
    exact (explored.closed room node known (by omega) label enabled).2

/-- Applying the labels from the start, each enabled, ends in the violation. -/
def Violates (space : Space State Label Key Violation Fault) (initial : State) (path : List Label)
    (violation : Violation) : Prop :=
  ∃ before state label, path = before ++ [label] ∧ Reach space initial before state ∧
    label ∈ space.enabled state ∧ space.apply state label = .violated violation

/-- The violation a search stops at is one of the nearest. -/
theorem run_nearest (separates : Separates space initial)
    (runs : (Search.start initial).run space = .error (.violated path violation)) :
    Violates space initial path violation ∧
      ∀ other violation', Violates space initial other violation' → path.length ≤ other.length := by
  obtain ⟨last, entry, _, passes, waiting, visits⟩ := run_error runs
  obtain ⟨seen, _, explored⟩ := passes.explored separates
  obtain ⟨_, _, expands⟩ := visit_violated visits
  obtain ⟨label, enabled, rfl, applies⟩ := expand_violated expands
  have start : Reach space initial entry.2 entry.1 :=
    (explored.reached entry (by rw [waiting]; exact mem_cons_self)).2
  refine ⟨⟨entry.2, entry.1, label, rfl, start, enabled, applies⟩, ?_⟩
  rintro _ violation' ⟨before, state, label', rfl, reach, enabled', applies'⟩
  simp only [length_append, length_singleton, Nat.add_le_add_iff_right]
  -- A nearer violation starts from a state that was seen and expanded before.
  by_contra nearer
  have behind : ∀ other ∈ last.pending, before.length < other.2.length := by
    rw [waiting, forall_mem_cons]
    have rear := (explored.behind waiting).2.2
    exact ⟨by omega, fun other waits => by have := rear other waits; omega⟩
  obtain ⟨node, known, rfl, _⟩ :=
    explored.seen_of_reach (by omega) (by omega) behind reach (le_refl _)
  exact (explored.closed (by omega) node known (by omega) label' enabled').2 violation' applies'

end Explored

end Rounds

end Aequora.Base.BreadthFirst
