import Solvan.Base.Claims
import Solvan.Base.Table
import Solvan.Domain.Values

namespace Solvan.Workflow
open Claims (Hold)

abbrev Lease := Hold String Token

inductive IncidentState where
  | detected | triaging | investigating | diagnosing | mitigationProposed | awaitingApproval
  | mitigating | verifyingMitigation | mitigated | resolved | escalated | unresolvable
  | falsePositive | cancelled
deriving DecidableEq, Repr

/-- A row of `incidents`. -/
structure IncidentRow where
  id : String
  workflowVersion : Nat
  evidenceVersion : Nat
  state : IncidentState
  incidentClass : String
  primaryServiceId : String
  reliabilityCaseId : Option String
  productionGraphSnapshotId : String
  actionAttemptCount : Nat
  actionBudget : Nat
  cooldownUntil : Option Int
  suspectedRootCauseId : Option String
  confirmedRootCauseId : Option String
  lease : Option Lease
deriving DecidableEq, Repr

inductive AggregateType where
  | incident | reliabilityCase
deriving DecidableEq, Repr

structure LeaseHandle where
  aggregateType : AggregateType
  entityId : String
  owner : String
  token : Token
  workflowVersion : Nat
deriving DecidableEq, Repr

/-- `lease_owner IS NULL OR lease_expires_at < now()` -/
def leaseFree (now : Int) : Option Lease → Bool
  | none => true
  | some lease => decide (lease.expires < now)

/-- `lease_owner = … AND lease_token = … AND lease_expires_at >= now()` -/
def leaseLive (now : Int) (owner : String) (token : Token) : Option Lease → Bool
  | none => false
  | some lease => lease.owner == owner && lease.token == token && decide (now ≤ lease.expires)

/-- The lease columns name this holder, expired or not. -/
def leaseNames (owner : String) (token : Token) : Option Lease → Bool
  | none => false
  | some lease => lease.owner == owner && lease.token == token

theorem of_leaseLive {now : Int} {owner : String} {token : Token} {lease : Option Lease}
    (h : leaseLive now owner token lease = true) :
    ∃ held, lease = some held ∧ held.LiveFor now owner token := by
  cases lease with
  | none => cases h
  | some held =>
    simp only [leaseLive, Bool.and_eq_true, beq_iff_eq, decide_eq_true_eq] at h
    exact ⟨held, rfl, h.1.1, h.1.2, h.2⟩

end Solvan.Workflow
