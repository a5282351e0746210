import Aequora.Base.IncreasingLog
import Aequora.Server.Process

/-! Fitting a response to its size. Changes are dropped from the end until the encoding fits, and
the cursor is set back to the last change that is kept. -/

namespace Aequora.Server

open Aequora.Base Aequora.Protocol Aequora.Store

/-- The response carries the result of some operation. -/
def CarriesResult (response : SyncResponse) : Prop :=
  response.acknowledged ≠ [] ∨ response.rejected ≠ [] ∨ response.conflicts ≠ []

instance (response : SyncResponse) : Decidable (CarriesResult response) :=
  inferInstanceAs (Decidable (_ ∨ _ ∨ _))

namespace SyncServer

/-- What fitting makes of a response whose changes are cut into those kept and those dropped. -/
structure Fitted (server : SyncServer) (response : SyncResponse) (start : Sequence) (maximum : Nat)
    (hasMore : Bool) (kept dropped : List RemoteChange) (fitted : SyncResponse) : Prop where
  shape : fitted = { response with
    changes := kept
    hasMore := hasMore || !dropped.isEmpty
    nextCursor := { response.nextCursor with sequence := reached RemoteChange.sequence start kept } }
  size : ∃ length, server.encodedLength fitted = .ok length ∧ length ≤ maximum
  progress : kept ++ dropped ≠ [] → kept ≠ [] ∨ CarriesResult response

variable {server : SyncServer}

theorem fitChanges_fitted {sequence : Sequence} (positioned : sequence = reached RemoteChange.sequence start changes.reverse)
    (fits : server.fitChanges response start maximum hasMore sequence changes = .ok fitted) :
    ∃ kept dropped, changes.reverse = kept ++ dropped ∧
      server.Fitted response start maximum hasMore kept dropped fitted := by
  induction changes generalizing hasMore sequence with
  | nil =>
    subst positioned
    unfold fitChanges at fits
    dsimp only at fits
    split at fits
    · cases fits
    · rename_i length encoded
      split at fits
      · cases fits
        exact ⟨[], [], rfl, by simp; rfl, ⟨length, encoded, ‹_›⟩, fun some => absurd rfl some⟩
      · cases fits
  | cons last earlier ih =>
    unfold fitChanges at fits
    dsimp only at fits
    split at fits
    · cases fits
    · rename_i length encoded
      split at fits
      · subst positioned
        cases fits
        refine ⟨(last :: earlier).reverse, [], (List.append_nil _).symm, by simp, ⟨length, encoded, ‹_›⟩, ?_⟩
        simp
      · split at fits
        · cases fits
        · rename_i goesOn
          have back : earlier.head?.elim start RemoteChange.sequence =
              reached RemoteChange.sequence start earlier.reverse := by
            rw [reached_eq_getLast, List.getLast?_reverse]
          obtain ⟨kept, dropped, parts, result⟩ := ih back fits
          refine ⟨kept, dropped ++ [last], ?_, ?_, result.size, fun _ => ?_⟩
          · rw [List.reverse_cons, parts, List.append_assoc]
          · rw [result.shape]
            simp
          · -- Nothing is left only where some operation is reported on.
            by_cases reports : CarriesResult response
            · exact .inr reports
            · apply result.progress
              rw [← parts]
              intro nothing
              simp only [CarriesResult, not_or, not_not] at reports
              exact goesOn ⟨List.reverse_eq_nil_iff.mp nothing, reports⟩

theorem fitResponse_fitted
    (positioned : response.nextCursor.sequence = reached RemoteChange.sequence start response.changes)
    (fits : server.fitResponse response start maximumBytes = .ok fitted) :
    ∃ kept dropped, response.changes = kept ++ dropped ∧
      server.Fitted response start (min maximumBytes server.config.responseBytes) response.hasMore kept
        dropped fitted := by
  have reversed : response.nextCursor.sequence =
      reached RemoteChange.sequence start response.changes.reverse.reverse := by
    rwa [List.reverse_reverse]
  have result := fitChanges_fitted reversed fits
  rwa [List.reverse_reverse] at result

/-- The response to a processed batch stands at the end of the page it was given. -/
theorem respond_fitted {store : InMemoryAuthoritativeStore}
    (fits : server.fitResponse (respond environment request outcomes
      (store.readChangesAfter tenant scope start limit maxPayloadBytes)) start maximumBytes = .ok fitted) :
    ∃ kept dropped, (store.readChangesAfter tenant scope start limit maxPayloadBytes).changes =
        kept ++ dropped ∧
      server.Fitted (respond environment request outcomes
          (store.readChangesAfter tenant scope start limit maxPayloadBytes)) start
        (min maximumBytes server.config.responseBytes)
        (store.readChangesAfter tenant scope start limit maxPayloadBytes).hasMore kept dropped fitted :=
  fitResponse_fitted (reached_eq_getLast RemoteChange.sequence start _).symm fits

end SyncServer

end Aequora.Server
