import Aequora.Base.Bytes
import Aequora.Base.Concatenation
import Aequora.Protocol.Types

/-! The operation a legacy request stands for, named by a hash over the strings of the request when
it carries a key of its own. -/

namespace Aequora.Legacy

open Aequora.Base Aequora.Protocol

structure LegacyPrincipal where
  (issuer subject : String)

structure LegacyRequestContext where
  principal : LegacyPrincipal
  (requestId idempotencyKey : Option String)

inductive RetryGuarantee where
  | stableOperationId | bestEffortOnly

structure DerivedOperationId where
  operationId : OperationId
  retryGuarantee : RetryGuarantee

def uuidFromBytes (bytes : List UInt8) : BitVec 128 := BitVec.ofNat 128 (ofBeBytes bytes)

def LegacyRequestContext.stableKey (context : LegacyRequestContext) : Option String :=
  context.requestId.or context.idempotencyKey

/-- A request without a key gets the given new operation. -/
def deriveOperationId (blake3 : List UInt8 → Vector UInt8 32) (new : OperationId) (systemNamespace : List UInt8)
    (context : LegacyRequestContext) : DerivedOperationId :=
  match context.stableKey with
  | some key =>
    let digest := blake3 (systemNamespace ++ (textBytes context.principal.issuer ++
      (textBytes context.principal.subject ++ textBytes key)))
    { operationId := ⟨uuidFromBytes (digest.toList.take 16)⟩, retryGuarantee := .stableOperationId }
  | none => { operationId := new, retryGuarantee := .bestEffortOnly }

structure StableRequest where
  systemNamespace : List UInt8
  context : LegacyRequestContext
  key : String
  stable : context.stableKey = some key

namespace StableRequest

def operationId (blake3 : List UInt8 → Vector UInt8 32) (new : OperationId) (request : StableRequest) : OperationId :=
  (deriveOperationId blake3 new request.systemNamespace request.context).operationId

def parts (request : StableRequest) : List (List UInt8) :=
  [request.systemNamespace, textBytes request.context.principal.issuer,
    textBytes request.context.principal.subject, textBytes request.key]

/-- Both requests come from one principal of one system and carry one key. -/
def Same (first second : StableRequest) : Prop :=
  first.systemNamespace = second.systemNamespace ∧
    first.context.principal.issuer = second.context.principal.issuer ∧
    first.context.principal.subject = second.context.principal.subject ∧ first.key = second.key

end StableRequest

open StableRequest

theorem uuidFromBytes_injective (left : first.length = 16) (right : second.length = 16)
    (same : uuidFromBytes first = uuidFromBytes second) : first = second := by
  have small := ofBeBytes_lt first
  have bound := ofBeBytes_lt second
  have one := beBytes_ofBeBytes first
  have two := beBytes_ofBeBytes second
  rw [left] at small one
  rw [right] at bound two
  have low : (uuidFromBytes first).toNat = ofBeBytes first := Nat.mod_eq_of_lt small
  have high : (uuidFromBytes second).toNat = ofBeBytes second := Nat.mod_eq_of_lt bound
  rw [← one, ← two, ← low, ← high, same]

namespace StableRequest
variable {first : StableRequest}

theorem parts_eq_iff : first.parts = second.parts ↔ first.Same second := by
  simp [parts, Same, textBytes_inj]

theorem operationId_eq (blake3 : List UInt8 → Vector UInt8 32) (new : OperationId) (request : StableRequest) :
    request.operationId blake3 new = ⟨uuidFromBytes ((blake3 request.parts.flatten).toList.take 16)⟩ := by
  obtain ⟨_, _, _, stable⟩ := request
  simp only [operationId, deriveOperationId, stable]
  simp [parts]

end StableRequest

/-- Equal operations stand for one principal and key exactly when no two of the requests are different cuts of one
sequence of bytes. -/
theorem operation_ids_separate_iff (blake3 : List UInt8 → Vector UInt8 32) (new other : OperationId)
    (requests : Set StableRequest)
    (free : Set.InjOn (fun message => (blake3 message).toList.take 16)
      (Set.image (fun request => request.parts.flatten) requests)) :
    (∀ first ∈ requests, ∀ second ∈ requests,
        first.operationId blake3 new = second.operationId blake3 other → first.Same second) ↔
      CutAlike parts requests := by
  rw [← separates_iff_cutAlike free]
  refine forall₂_congr fun first _ => forall₂_congr fun second _ => imp_congr ?_ parts_eq_iff.symm
  rw [operationId_eq, operationId_eq, UuidId.mk.injEq]
  have width : ∀ message, ((blake3 message).toList.take 16).length = 16 := by simp
  exact ⟨uuidFromBytes_injective (width _) (width _), congrArg uuidFromBytes⟩

/-- A request of one system, with a request key. -/
def exampleRequest (issuer subject key : String) : StableRequest where
  systemNamespace := [1]
  context := { principal := { issuer, subject }, requestId := some key, idempotencyKey := none }
  key
  stable := rfl

def exampleHash (message : List UInt8) : Vector UInt8 32 := Vector.ofFn fun index => message.getD index 0

def exampleRequests : Set StableRequest := {exampleRequest "a" "s" "k", exampleRequest "b" "s" "k"}

theorem operation_ids_separate_iff_issuers : CutAlike parts exampleRequests ∧
      (exampleRequest "a" "s" "k").operationId exampleHash ⟨0⟩ ≠
        (exampleRequest "b" "s" "k").operationId exampleHash ⟨0⟩ := by
  have free : Set.InjOn (fun message => (exampleHash message).toList.take 16)
      (Set.image (fun request => request.parts.flatten) exampleRequests) := by
    rw [exampleRequests, Set.image_pair, Set.injOn_pair]
    exact fun same => absurd same (by decide)
  have alike : CutAlike parts exampleRequests := by
    rintro _ (rfl | rfl) _ (rfl | rfl) _ <;> rfl
  refine ⟨alike, fun collide => ?_⟩
  have same := (operation_ids_separate_iff exampleHash ⟨0⟩ ⟨0⟩ exampleRequests free).mpr alike _ (.inl rfl) _
    (.inr rfl) collide
  exact absurd same.2.1 (by decide)

/-- The strings of an issuer and of a subject may be cut elsewhere, whatever the hash is. -/
theorem operation_ids_collide : ¬(exampleRequest "ab" "c" "k").Same (exampleRequest "a" "bc" "k") ∧
      ∀ blake3 new other,
        (exampleRequest "ab" "c" "k").operationId blake3 new =
          (exampleRequest "a" "bc" "k").operationId blake3 other := by
  refine ⟨fun equal => absurd equal.2.1 (by decide), fun blake3 new other => ?_⟩
  rw [operationId_eq, operationId_eq]
  have same : (exampleRequest "ab" "c" "k").parts.flatten = (exampleRequest "a" "bc" "k").parts.flatten := by decide
  rw [same]

end Aequora.Legacy
