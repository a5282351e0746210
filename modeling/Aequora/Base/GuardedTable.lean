import Aequora.Base.KeyOrder
import Aequora.Base.Run
import Mathlib.Data.List.Chain

/-! A table of one value for each key. A report replaces the value of its key unless the value
refuses it. -/

namespace Aequora.Base.GuardedTable

open Std Option

universe u v w
variable {Key : Type u} {Report : Type v} {Value : Type w} [Ord Key] [TransOrd Key]
variable (key : Report → Key) (value : Report → Value) (refuses : Value → Report → Bool)

section
variable (table : ExtTreeMap Key Value) (report : Report)

/-- The value under the key of the report refuses it. -/
def refused : Bool :=
  table[key report]?.any fun held => refuses held report

def write : ExtTreeMap Key Value :=
  if refused key refuses table report then table else table.insert (key report) (value report)

/-- The report, if it is accepted. -/
def accepted : List Report :=
  if refused key refuses table report then [] else [report]

end

variable [DecidableEq Key]

/-- The last of some reports on a key. -/
def latest (reports : List Report) (target : Key) : Option Report :=
  (reports.filter fun report => key report = target).getLast?

variable [LawfulEqOrd Key] {key value refuses}

omit [Ord Key] [TransOrd Key] [LawfulEqOrd Key] in
theorem latest_cons (report : Report) (rest : List Report) (target : Key) :
    latest key (report :: rest) target =
      (latest key rest target).or (if key report = target then some report else none) := by
  unfold latest
  by_cases same : key report = target
  · rw [List.filter_cons_of_pos (by simpa using same), List.getLast?_cons, if_pos same]
    cases (rest.filter fun report => key report = target).getLast? <;> rfl
  · rw [List.filter_cons_of_neg (by simpa using same), if_neg same, or_none]

/-- A key has the value of the last report that was accepted for it, or the one it started with. -/
theorem lookup_final (table : ExtTreeMap Key Value) (reports : List Report) (target : Key) :
    (Run.final (write key value refuses) table reports)[target]? =
      ((latest key (Run.trace (write key value refuses) (accepted key refuses) table reports) target).map value).or
        table[target]? := by
  induction reports generalizing table with
  | nil => rfl
  | cons report _ ih =>
    rw [Run.final_cons, ih, Run.trace]
    cases outcome : refused key refuses table report with
    | true => simp only [write, accepted, outcome, if_true, List.nil_append]
    | false =>
      simp only [write, accepted, outcome, Bool.false_eq_true, if_false, List.singleton_append, latest_cons,
        lookup_insert]
      by_cases same : key report = target
      · rw [if_pos same, if_pos same]
        cases latest key _ target <;> rfl
      · rw [if_neg same, if_neg same, or_none]

omit [DecidableEq Key] [LawfulEqOrd Key] in
theorem trace_of_permitted (passed : Run.Permitted (write key value refuses)
      (fun table report => refused key refuses table report = false) table reports) :
    Run.trace (write key value refuses) (accepted key refuses) table reports = reports := by
  induction reports generalizing table with
  | nil => rfl
  | cons report _ ih =>
    have first : accepted key refuses table report = [report] := by
      unfold accepted
      rw [passed.1]
      rfl
    rw [Run.trace, first, ih passed.2, List.singleton_append]

theorem lookup_of_permitted (passed : Run.Permitted (write key value refuses)
      (fun table report => refused key refuses table report = false) ∅ reports) (target : Key) :
    (Run.final (write key value refuses) ∅ reports)[target]? = (latest key reports target).map value := by
  rw [lookup_final, trace_of_permitted passed, ExtTreeMap.getElem?_empty, or_none]

/-- Nothing is refused exactly when, key by key, no report leads to a refusal of the next one. -/
theorem permitted_iff_chain :
    Run.Permitted (write key value refuses) (fun table report => refused key refuses table report = false)
        ∅ reports ↔
      ∀ target, (reports.filter fun report => key report = target).IsChain
        fun earlier later => refuses (value earlier) later = false := by
  induction reports using List.reverseRecOn with
  | nil => simp [Run.Permitted]
  | append_singleton before report ih =>
    rw [Run.permitted_append, ih]
    constructor
    · intro permitted target
      obtain ⟨chains, last, _⟩ := permitted
      rw [List.filter_append, List.isChain_append]
      by_cases same : key report = target
      · subst same
        refine ⟨chains _, by simp, ?_⟩
        intro earlier final later single
        have held := lookup_of_permitted (ih.mpr chains) (key report)
        rw [latest, mem_def.mp final, map_some] at held
        simp only [decide_true, List.filter_cons_of_pos, List.filter_nil, List.head?_cons, mem_def,
          Option.some.injEq] at single
        subst single
        simpa only [refused, held, any_some] using last
      · simp [same, chains target]
    · intro chains
      have earlier : ∀ target, (before.filter fun report => key report = target).IsChain
          fun earlier later => refuses (value earlier) later = false := by
        intro target
        have whole := chains target
        rw [List.filter_append, List.isChain_append] at whole
        exact whole.1
      refine ⟨earlier, ?_, trivial⟩
      have whole := chains (key report)
      rw [List.filter_append, List.isChain_append] at whole
      change refused key refuses (Run.final (write key value refuses) ∅ before) report = false
      rw [refused, lookup_of_permitted (ih.mpr earlier), latest]
      cases final : (before.filter fun other => key other = key report).getLast? with
      | none => rfl
      | some last => exact whole.2.2 last final report (by simp)

end Aequora.Base.GuardedTable
