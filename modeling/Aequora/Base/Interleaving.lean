import Aequora.Base.Run

/-! Threads over shared state. A program is a tree of atomic accesses; a program verified under what
the others may do between two of its accesses keeps its guarantee in every interleaving. -/

namespace Aequora.Base

/-- A computation that touches shared state only through atomic accesses. -/
inductive Program (Shared : Type) (Result : Type) : Type 1 where
  | done (result : Result)
  | access (act : Shared → Shared × Answer) (next : Answer → Program Shared Result)

namespace Program
def bind : Program Shared First → (First → Program Shared Second) → Program Shared Second
  | done result, rest => rest result
  | access act next, rest => access act fun answer => (next answer).bind rest

instance : Monad (Program Shared) where
  pure := done
  bind

/-- One atomic access. -/
def atomically (act : Shared → Shared × Answer) : Program Shared Answer := access act done

/-- An atomic access that only looks. -/
def observe (look : Shared → Answer) : Program Shared Answer :=
  atomically fun shared => (shared, look shared)

/-- The program alone on the shared state. -/
def run : Program Shared Result → Shared → Shared × Result
  | done result, shared => (shared, result)
  | access act next, shared => (next (act shared).2).run (act shared).1

@[simp] theorem run_pure (result : Result) (shared : Shared) :
    (pure result : Program Shared Result).run shared = (shared, result) := rfl

@[simp] theorem run_observe_bind (look : Shared → Answer) (rest : Answer → Program Shared Result)
    (shared : Shared) : (observe look >>= rest).run shared = (rest (look shared)).run shared := rfl

section Rules
/-- From the given shared state, with others moving it along `rely` between accesses, every access
keeps the guarantee and the program can only end in the postcondition. -/
def Ensures (rely guarantee : Shared → Shared → Prop) (post : Result → Shared → Prop) :
    Program Shared Result → Shared → Prop
  | done result, shared => ∀ later, rely shared later → post result later
  | access act next, shared => ∀ later, rely shared later →
      guarantee later (act later).1 ∧ (next (act later).2).Ensures rely guarantee post (act later).1

variable {program : Program Shared Result}
  {rest : Answer → Program Shared Result}

theorem Ensures.later (transitive : ∀ {first second third}, rely first second →
      rely second third → rely first third)
    (ensures : program.Ensures rely guarantee post shared) (move : rely shared moved) :
    program.Ensures rely guarantee post moved := by
  cases program with
  | done _ => exact fun later further => ensures later (transitive move further)
  | access _ _ => exact fun later further => ensures later (transitive move further)

theorem Ensures.mono (ensures : program.Ensures rely guarantee post shared)
    (looser : ∀ before after, guarantee before after → loose before after)
    (implies : ∀ result later, post result later → weaker result later) :
    program.Ensures rely loose weaker shared := by
  induction program generalizing shared with
  | done result => exact fun later move => implies result later (ensures later move)
  | access act _ ih =>
    intro later move
    obtain ⟨kept, rest⟩ := ensures later move
    exact ⟨looser _ _ kept, ih (act later).2 rest⟩

/-- A program whose accesses follow `rely` ends in a state reached along `rely`. -/
theorem Ensures.moved (ensures : program.Ensures rely guarantee post shared)
    (reached : rely origin shared) (follows : ∀ before after, guarantee before after → rely before after)
    (transitive : ∀ {first second third}, rely first second → rely second third → rely first third) :
    program.Ensures rely guarantee (fun result later => rely origin later ∧ post result later) shared := by
  induction program generalizing shared with
  | done _ => exact fun later move => ⟨transitive reached move, ensures later move⟩
  | access act _ ih =>
    intro later move
    obtain ⟨kept, rest⟩ := ensures later move
    exact ⟨kept, ih (act later).2 rest (transitive (transitive reached move) (follows _ _ kept))⟩

/-- The rule of sequence. -/
theorem Ensures.bind {post : Second → Shared → Prop} {program : Program Shared First}
    {rest : First → Program Shared Second} (reflexive : ∀ state, rely state state)
    (ensures : program.Ensures rely guarantee
      (fun result later => (rest result).Ensures rely guarantee post later) shared) :
    (program >>= rest).Ensures rely guarantee post shared := by
  induction program generalizing shared with
  | done _ => exact ensures shared (reflexive shared)
  | access act _ ih =>
    intro later move
    obtain ⟨kept, continued⟩ := ensures later move
    exact ⟨kept, ih (act later).2 continued⟩

theorem ensures_pure (holds : ∀ later, rely shared later → post result later) :
    (pure result : Program Shared Result).Ensures rely guarantee post shared := holds

theorem ensures_atomically_bind (holds : ∀ later, rely shared later → guarantee later (act later).1 ∧
      (rest (act later).2).Ensures rely guarantee post (act later).1) :
    (atomically act >>= rest).Ensures rely guarantee post shared := holds

theorem ensures_observe_bind (still : ∀ state, guarantee state state)
    (holds : ∀ later, rely shared later → (rest (look later)).Ensures rely guarantee post later) :
    (observe look >>= rest).Ensures rely guarantee post shared :=
  fun later move => ⟨still later, holds later move⟩

end Rules

end Program

/-- Programs in progress over one shared state, each with the call that started it. -/
structure Pool (Shared Call Result : Type) : Type 1 where
  shared : Shared
  threads : List (Call × Program Shared Result)

/-- One scheduling decision. -/
inductive Schedule (Call Disturbance : Type) where
  | start (call : Call)
  | advance (index : Nat)
  | disturb (disturbance : Disturbance)

namespace Pool
variable {Call Result Disturbance : Type}
variable (code : Call → Program Shared Result) (disturbed : Disturbance → Shared → Shared)

section
variable (pool : Pool Shared Call Result)

/-- Start a call, let one thread make its next access, or disturb the shared state. -/
def step : Schedule Call Disturbance → Pool Shared Call Result
  | .start call => { pool with threads := pool.threads ++ [(call, code call)] }
  | .advance index =>
    match pool.threads[index]? with
    | some (call, .access act next) =>
      { shared := (act pool.shared).1
        threads := pool.threads.set index (call, next (act pool.shared).2) }
    | _ => pool
  | .disturb disturbance => { pool with shared := disturbed disturbance pool.shared }

/-- The call and result of a thread that has ended. -/
def finished (index : Nat) : Option (Call × Result) :=
  match pool.threads[index]? with
  | some (call, .done result) => some (call, result)
  | _ => none

/-- Advancing a thread either makes its next access or changes nothing. -/
theorem step_advance (index : Nat) :
    pool.step code disturbed (.advance index) = pool ∨
      ∃ (call : Call) (Answer : Type) (act : Shared → Shared × Answer)
        (next : Answer → Program Shared Result),
        pool.threads[index]? = some (call, .access act next) ∧
        pool.step code disturbed (.advance index) =
          { shared := (act pool.shared).1
            threads := pool.threads.set index (call, next (act pool.shared).2) } := by
  simp only [step]
  split
  · exact .inr ⟨_, _, _, _, ‹_›, rfl⟩
  · exact .inl rfl

end

end Pool

/-- What each call keeps and delivers when it starts in a state of the invariant. -/
structure Contract (Shared Call Result : Type) where
  invariant : Shared → Prop
  guarantee : Call → Shared → Shared → Prop
  post : Call → Result → Shared → Prop

section Soundness
variable {Disturbance : Type} {rely : Shared → Shared → Prop}
variable {code : Call → Program Shared Result} {disturbed : Disturbance → Shared → Shared}
variable {contract : Contract Shared Call Result}

/-- How the shared state may move: along a preorder that every disturbance follows. -/
structure Interference (rely : Shared → Shared → Prop) (disturbed : Disturbance → Shared → Shared) :
    Prop where
  reflexive : ∀ state, rely state state
  transitive : ∀ {first second third}, rely first second → rely second third → rely first third
  disturbance : ∀ disturbance shared, rely shared (disturbed disturbance shared)

section
variable (contract : Contract Shared Call Result) (rely : Shared → Shared → Prop)

/-- The code fulfils the contract while others move the shared state along `rely`. -/
structure Contract.Fulfilled (code : Call → Program Shared Result) : Prop where
  kept : ∀ {before after}, contract.invariant before → rely before after → contract.invariant after
  guaranteed : ∀ {call before after}, contract.guarantee call before after → rely before after
  program : ∀ call start, contract.invariant start →
    (code call).Ensures rely (contract.guarantee call) (contract.post call) start

/-- From the given thread on, every thread is under the contract. -/
structure Pool.Verified (first : Nat) (pool : Pool Shared Call Result) : Prop where
  invariant : contract.invariant pool.shared
  threads : ∀ index, first ≤ index → ∀ call program, pool.threads[index]? = some (call, program) →
    program.Ensures rely (contract.guarantee call) (contract.post call) pool.shared

end

namespace Pool
variable {pool : Pool Shared Call Result}

theorem Verified.of_length (invariant : contract.invariant pool.shared)
    (started : pool.threads.length ≤ first) : pool.Verified contract rely first where
  invariant
  threads index past call program found := by
    rw [List.getElem?_eq_none (Nat.le_trans started past)] at found
    cases found

/-- A thread that has ended fulfils its postcondition. -/
theorem Verified.finished (interference : Interference rely disturbed)
    (verified : pool.Verified contract rely first) (past : first ≤ index) (ended : pool.finished index = some (call, result)) :
    contract.post call result pool.shared := by
  unfold Pool.finished at ended
  split at ended
  · rename_i tracked
    cases Option.some.inj ended
    exact verified.threads index past _ _ tracked pool.shared (interference.reflexive _)
  · cases ended

variable (code) in
/-- The accesses of a thread keep its guarantee. -/
theorem Verified.advance (interference : Interference rely disturbed)
    (verified : pool.Verified contract rely first) (past : first ≤ index)
    (tracked : pool.threads[index]? = some (call, program)) :
    (pool.step code disturbed (.advance index)).shared = pool.shared ∨
      contract.guarantee call pool.shared (pool.step code disturbed (.advance index)).shared := by
  rcases pool.step_advance code disturbed index with same | ⟨_, _, _, _, found, moved⟩
  · rw [same]
    exact .inl rfl
  · cases Option.some.inj (found.symm.trans tracked)
    rw [moved]
    exact .inr (verified.threads index past _ _ tracked pool.shared (interference.reflexive _)).1

section
variable (interference : Interference rely disturbed) (fulfilled : contract.Fulfilled rely code)
  (verified : pool.Verified contract rely 0)
include interference fulfilled verified

theorem Verified.step_rely
    (event : Schedule Call Disturbance) : rely pool.shared (pool.step code disturbed event).shared := by
  cases event with
  | start _ => exact interference.reflexive _
  | disturb disturbance => exact interference.disturbance disturbance pool.shared
  | advance index =>
    cases found : pool.threads[index]? with
    | none =>
      rw [show pool.step code disturbed (.advance index) = pool by simp [step, found]]
      exact interference.reflexive _
    | some _ =>
      rcases verified.advance code interference index.zero_le found with same | kept
      · rw [same]
        exact interference.reflexive _
      · exact fulfilled.guaranteed kept

omit verified in
/-- A step along `rely` keeps every thread under its contract, the one it starts included. -/
theorem Verified.step (verified : pool.Verified contract rely first)
    (event : Schedule Call Disturbance)
    (moved : rely pool.shared (pool.step code disturbed event).shared) :
    (pool.step code disturbed event).Verified contract rely first where
  invariant := fulfilled.kept verified.invariant moved
  threads index past call program tracked := by
    cases event with
    | start started =>
      by_cases within : index < pool.threads.length
      · exact verified.threads index past call program
          ((List.getElem?_append_left within).symm.trans tracked)
      · have bound : index < pool.threads.length + 1 := by
          simpa [Pool.step] using (List.getElem?_eq_some_iff.mp tracked).1
        obtain rfl : index = pool.threads.length := by omega
        obtain ⟨rfl, rfl⟩ : started = call ∧ code started = program := by
          simpa [Pool.step] using tracked
        exact fulfilled.program _ _ verified.invariant
    | disturb _ =>
      exact (verified.threads index past call program tracked).later interference.transitive moved
    | advance other =>
      rcases pool.step_advance code disturbed other with same | ⟨_, _, _, _, found, advanced⟩
      · rw [same] at tracked ⊢
        exact verified.threads index past call program tracked
      · rw [advanced] at tracked moved ⊢
        by_cases mine : other = index
        · subst other
          rw [List.getElem?_set_self (List.getElem?_eq_some_iff.mp found).1] at tracked
          cases Option.some.inj tracked
          exact (verified.threads index past _ _ found pool.shared (interference.reflexive _)).2
        · rw [List.getElem?_set_ne mine] at tracked
          exact (verified.threads index past call program tracked).later interference.transitive moved

/-- A run keeps every thread under its contract. -/
theorem Verified.run (events : List (Schedule Call Disturbance)) :
    (Run.final (Pool.step code disturbed) pool events).Verified contract rely 0 :=
  (Run.Throughout.of_invariant verified fun _ event kept =>
    kept.step interference fulfilled event (kept.step_rely interference fulfilled event)).final

/-- A run moves the shared state along `rely`. -/
theorem Verified.run_rely (events : List (Schedule Call Disturbance)) :
    rely pool.shared (Run.final (Pool.step code disturbed) pool events).shared := by
  induction events generalizing pool with
  | nil => exact interference.reflexive _
  | cons event _ ih =>
    have moved := verified.step_rely interference fulfilled event
    exact interference.transitive moved (ih (verified.step interference fulfilled event moved))

/-- Calls that start from here on keep a further contract, whatever the threads before them do. -/
theorem Verified.run_from (extended : further.Fulfilled rely code)
    (fresh : pool.Verified further rely first) (events : List (Schedule Call Disturbance)) :
    (Run.final (Pool.step code disturbed) pool events).Verified further rely first := by
  induction events generalizing pool with
  | nil => exact fresh
  | cons event _ ih =>
    have moved := verified.step_rely interference fulfilled event
    exact ih (verified.step interference fulfilled event moved)
      (fresh.step interference extended event moved)

end

end Pool

end Soundness

end Aequora.Base
