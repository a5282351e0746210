import Aequora.Base.Interleaving

/-! Programs judged access by access: the frame of a run, and the agreement of two runs that start
in related states. -/

namespace Aequora.Base.Program

variable {Shared Result : Type}

/-- Every access the program can make is allowed. -/
def Each (allowed : ∀ Answer, (Shared → Shared × Answer) → Prop) : Program Shared Result → Prop
  | done _ => True
  | access act next => allowed _ act ∧ ∀ answer, (next answer).Each allowed

variable {allowed : ∀ Answer, (Shared → Shared × Answer) → Prop}

theorem each_pure (result : Result) : (pure result : Program Shared Result).Each allowed := trivial

theorem Each.bind {rest : First → Program Shared Second}
    (first : program.Each allowed) (continued : ∀ result, (rest result).Each allowed) :
    (program >>= rest).Each allowed := by
  induction program with
  | done result => exact continued result
  | access _ _ ih =>
    obtain ⟨now, later⟩ := first
    exact ⟨now, fun answer => ih answer (later answer)⟩

theorem each_atomically (allows : allowed Answer act) : (atomically act).Each allowed :=
  ⟨allows, fun _ => trivial⟩

variable {program : Program Shared Result}

theorem Each.mono {weaker : ∀ Answer, (Shared → Shared × Answer) → Prop} (each : program.Each allowed)
    (implies : ∀ Answer act, allowed Answer act → weaker Answer act) : program.Each weaker := by
  induction program with
  | done _ => trivial
  | access act _ ih => exact ⟨implies _ act each.1, fun answer => ih answer (each.2 answer)⟩

/-- The access stays within the frame. -/
def Framed (frame : Shared → Shared → Prop) (Answer : Type) (act : Shared → Shared × Answer) : Prop :=
  ∀ shared, frame shared (act shared).1

/-- In related states the access answers alike and leaves related states. -/
def Alike (related : Shared → Shared → Prop) (Answer : Type) (act : Shared → Shared × Answer) : Prop :=
  ∀ left right, related left right →
    (act left).2 = (act right).2 ∧ related (act left).1 (act right).1

/-- A program of framed accesses stays within the frame. -/
theorem Each.run_framed (each : program.Each (Framed frame)) (reflexive : ∀ shared, frame shared shared)
    (transitive : ∀ {first second third}, frame first second → frame second third → frame first third)
    (shared : Shared) : frame shared (program.run shared).1 := by
  induction program generalizing shared with
  | done _ => exact reflexive shared
  | access act _ ih =>
    obtain ⟨now, later⟩ := each
    exact transitive (now shared) (ih (act shared).2 (later _) (act shared).1)

/-- Two runs of one program from related states give one result and end in related states. -/
theorem Each.run_alike (each : program.Each (Alike related)) (start : related left right) :
    (program.run left).2 = (program.run right).2 ∧
      related (program.run left).1 (program.run right).1 := by
  induction program generalizing left right with
  | done _ => exact ⟨rfl, start⟩
  | access act _ ih =>
    obtain ⟨now, later⟩ := each
    obtain ⟨answers, moved⟩ := now left right start
    unfold run
    rw [← answers]
    exact ih (act left).2 (later _) moved

/-- The program on one part of a larger shared state. -/
def within {Whole : Type} (part : Whole → Shared) (put : Whole → Shared → Whole) :
    Program Shared Result → Program Whole Result
  | done result => done result
  | access act next =>
    access (fun whole => (put whole (act (part whole)).1, (act (part whole)).2)) fun answer =>
      (next answer).within part put

theorem each_within {Whole : Type} {part : Whole → Shared} {put : Whole → Shared → Whole}
    {frame : Whole → Whole → Prop} (kept : ∀ whole shared, frame whole (put whole shared))
    (program : Program Shared Result) : (program.within part put).Each (Framed frame) := by
  induction program with
  | done _ => trivial
  | access _ _ ih => exact ⟨fun whole => kept whole _, fun answer => ih answer⟩

end Aequora.Base.Program

namespace Aequora.Base

/-- A run of a program among the actions of others: the states its accesses met, the state it left
and its result. -/
structure Passage (Shared Result : Type) where
  met : List Shared
  left : Shared
  result : Result

namespace Program
variable {Result Action : Type} (step : Shared → Action → Shared)

/-- Run the program with a block of foreign actions before each of its accesses. -/
def runAmong : Program Shared Result → Shared → List (List Action) → Passage Shared Result
  | done result, shared, _ => { met := [], left := shared, result }
  | access act next, shared, blocks =>
    let meeting := Run.final step shared (blocks.headD [])
    let rest := (next (act meeting).2).runAmong (act meeting).1 blocks.tail
    { rest with met := meeting :: rest.met }

theorem flatten_take_succ (blocks : List (List Action)) (count : Nat) :
    (blocks.take (count + 1)).flatten = blocks.headD [] ++ (blocks.tail.take count).flatten := by
  cases blocks with
  | nil => simp
  | cons _ _ => rfl

theorem forall_blocks {condition : Action → Prop} {blocks : List (List Action)}
    (all : ∀ action ∈ blocks.flatten, condition action) :
    (∀ action ∈ blocks.headD [], condition action) ∧ ∀ action ∈ blocks.tail.flatten, condition action := by
  cases blocks with
  | nil => exact ⟨all, all⟩
  | cons _ _ => exact List.forall_mem_append.mp all

section Aspect
variable {step} {Move : Type} {aspect : Shared → Aspect} {moved : Aspect → Move → Aspect}
variable {move : Action → Option Move}

section
variable
  (follows : ∀ shared action, aspect (step shared action) = (move action).elim (aspect shared) (moved (aspect shared)))
include follows

/-- Actions that move an aspect of the shared state move it along the moves they contain. -/
theorem aspect_final (shared : Shared) (actions : List Action) :
    aspect (Run.final step shared actions) =
      Run.final moved (aspect shared) (actions.filterMap move) := by
  induction actions generalizing shared with
  | nil => rfl
  | cons action _ ih =>
    rw [Run.final_cons, ih, follows, List.filterMap_cons]
    cases move action with
    | none => rfl
    | some _ => rfl

/-- When the program's own accesses leave the aspect alone, the last of them meets it as the
foreign actions before it have moved it. -/
theorem Each.last_met {program : Program Shared Result}
    (each : program.Each (Framed fun before after => aspect after = aspect before))
    (final : (program.runAmong step shared blocks).met.getLast? = some last) :
    aspect last = Run.final moved (aspect shared)
      ((blocks.take (program.runAmong step shared blocks).met.length).flatten.filterMap move) := by
  induction program generalizing shared blocks with
  | done _ => cases final
  | access act next ih =>
    obtain ⟨now, later⟩ := each
    have meeting := aspect_final follows shared (blocks.headD [])
    have kept := now (Run.final step shared (blocks.headD []))
    simp only [runAmong, List.length_cons, flatten_take_succ, List.filterMap_append,
      Run.final_append] at final ⊢
    rw [← meeting]
    cases rest : ((next (act (Run.final step shared (blocks.headD []))).2).runAmong step
        (act (Run.final step shared (blocks.headD []))).1 blocks.tail).met.getLast? with
    | none =>
      -- The access is the last one.
      rw [List.getLast?_eq_none_iff.mp rest] at final ⊢
      cases final
      simp
    | some found =>
      have same : found = last := by
        rw [List.getLast?_cons, rest] at final
        exact Option.some.inj final
      subst same
      rw [ih _ (later _) rest, kept]

end

end Aspect

/-- Whatever states its accesses meet, the program ends with the postcondition of the state its
last access met and its result. -/
def EndsIn (post : Option Shared → Result → Prop) : Option Shared → Program Shared Result → Prop
  | last, done result => post last result
  | _, access act next => ∀ shared, (next (act shared).2).EndsIn post (some shared)

variable {post : Option Shared → Result → Prop} {program : Program Shared Result}
  {rest : First → Program Shared Second} {last : Option Shared}

/-- The rule of sequence: what follows may count on what the first part ended with. -/
theorem EndsIn.bind {post : Option Shared → Second → Prop} {program : Program Shared First}
    (ends : program.EndsIn between last)
    (continued : ∀ result last, between last result → (rest result).EndsIn post last) :
    (program >>= rest).EndsIn post last := by
  induction program generalizing last with
  | done result => exact continued result last ends
  | access act _ ih => exact fun shared => ih (act shared).2 (ends shared)

theorem endsIn_trivial (program : Program Shared Result) (last : Option Shared) :
    program.EndsIn (fun _ _ => True) last := by
  induction program generalizing last with
  | done _ => trivial
  | access act _ ih => exact fun shared => ih (act shared).2 (some shared)

theorem endsIn_bind {post : Option Shared → Second → Prop} (program : Program Shared First)
    (ends : ∀ result last, (rest result).EndsIn post last) (last : Option Shared) :
    (program >>= rest).EndsIn post last :=
  (endsIn_trivial program last).bind fun result last _ => ends result last

theorem EndsIn.mono (ends : program.EndsIn post last)
    (weaken : ∀ last result, post last result → weaker last result) : program.EndsIn weaker last := by
  induction program generalizing last with
  | done result => exact weaken last result ends
  | access act _ ih => exact fun shared => ih (act shared).2 (ends shared)

/-- The postcondition of the last access holds among the actions of others. -/
theorem EndsIn.passage {Whole : Type} {part : Whole → Shared} {put : Whole → Shared → Whole}
    (ends : program.EndsIn post last) (step : Whole → Action → Whole) (whole : Whole) (blocks : List (List Action)) :
    post ((((program.within part put).runAmong step whole blocks).met.getLast?.map part).or last)
      ((program.within part put).runAmong step whole blocks).result := by
  induction program generalizing last whole blocks with
  | done _ => exact ends
  | access act next ih =>
    have continued := ih _ (ends (part (Run.final step whole (blocks.headD []))))
      (put (Run.final step whole (blocks.headD []))
        (act (part (Run.final step whole (blocks.headD [])))).1) blocks.tail
    simp only [within, runAmong, List.getLast?_cons]
    generalize Program.runAmong step (within part put (next _)) _ _ = passage at continued ⊢
    cases final : passage.met.getLast? with
    | none =>
      rw [final] at continued
      exact continued
    | some _ =>
      rw [final] at continued
      exact continued

theorem within_whole (program : Program Shared Result) :
    program.within (fun whole => whole) (fun _ whole => whole) = program := by
  induction program with
  | done _ => rfl
  | access _ _ ih =>
    rw [within]
    congr
    funext answer
    exact ih answer

theorem EndsIn.among (ends : program.EndsIn post none) (step : Shared → Action → Shared) (shared : Shared)
    (blocks : List (List Action)) :
    post (program.runAmong step shared blocks).met.getLast? (program.runAmong step shared blocks).result := by
  have passed : post ((((program.within (fun whole => whole) fun _ whole => whole).runAmong step shared
      blocks).met.getLast?.map fun whole => whole).or none) _ := ends.passage step shared blocks
  rwa [within_whole, Option.map_id', Option.or_none] at passed

/-- What a program ensures under `rely`, it ensures among foreign actions that follow it. -/
theorem Ensures.among {post : Result → Shared → Prop} (ensures : program.Ensures rely guarantee post shared)
    (reflexive : ∀ shared, rely shared shared) {step : Shared → Action → Shared}
    (follows : ∀ shared actions, rely shared (Run.final step shared actions)) (blocks : List (List Action)) :
    post (program.runAmong step shared blocks).result (program.runAmong step shared blocks).left := by
  induction program generalizing shared blocks with
  | done _ => exact ensures shared (reflexive shared)
  | access _ _ ih => exact ih _ (ensures _ (follows shared (blocks.headD []))).2 blocks.tail

/-- When every access and every foreign action moves the state along a preorder, so does the whole
passage, and every state it met lies between its ends. -/
theorem Each.passage_framed {frame : Shared → Shared → Prop} (refl : ∀ shared, frame shared shared)
    (trans : ∀ {first second third}, frame first second → frame second third → frame first third)
    {step : Shared → Action → Shared} (follows : ∀ shared action, frame shared (step shared action))
    (each : program.Each (Framed frame)) (shared : Shared)
    (blocks : List (List Action)) :
    frame shared (program.runAmong step shared blocks).left ∧
      ∀ met ∈ (program.runAmong step shared blocks).met,
        frame shared met ∧ frame met (program.runAmong step shared blocks).left := by
  induction program generalizing shared blocks with
  | done _ => exact ⟨refl shared, fun _ member => nomatch member⟩
  | access _ _ ih =>
    obtain ⟨now, later⟩ := each
    have before : frame shared (Run.final step shared (blocks.headD [])) := by
      generalize blocks.headD [] = actions
      induction actions generalizing shared with
      | nil => exact refl shared
      | cons action rest ahead => exact trans (follows shared action) (ahead _)
    have own := now (Run.final step shared (blocks.headD []))
    obtain ⟨whole, between⟩ := ih _ (later _) _ blocks.tail
    refine ⟨trans before (trans own whole), ?_⟩
    intro met member
    rcases List.mem_cons.mp member with rfl | rest
    · exact ⟨before, trans own whole⟩
    · obtain ⟨reached, left⟩ := between met rest
      exact ⟨trans before (trans own reached), left⟩

end Program

end Aequora.Base
