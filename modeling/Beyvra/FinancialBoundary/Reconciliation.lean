import Mathlib.Data.String.Basic
import Beyvra.Foundation.Records
import Beyvra.Relational.Index
import Beyvra.Relational.Transaction

namespace Beyvra

open Relational

inductive Violation where
  | missingFinancialOperation | duplicateFinancialEffect | orphanReservation | reservationLeak
  | settlementMismatch | walletProjectionMismatch | depositCreditMismatch | withdrawalStateMismatch
  | transferStateMismatch | auditGap
  deriving DecidableEq

def Violation.value : Violation → String
  | .missingFinancialOperation => "MISSING_FINANCIAL_OPERATION"
  | .duplicateFinancialEffect => "DUPLICATE_FINANCIAL_EFFECT"
  | .orphanReservation => "ORPHAN_RESERVATION"
  | .reservationLeak => "RESERVATION_LEAK"
  | .settlementMismatch => "SETTLEMENT_MISMATCH"
  | .walletProjectionMismatch => "WALLET_PROJECTION_MISMATCH"
  | .depositCreditMismatch => "DEPOSIT_CREDIT_MISMATCH"
  | .withdrawalStateMismatch => "WITHDRAWAL_STATE_MISMATCH"
  | .transferStateMismatch => "TRANSFER_STATE_MISMATCH"
  | .auditGap => "AUDIT_GAP"

def Violation.all : List Violation :=
  [.missingFinancialOperation, .duplicateFinancialEffect, .orphanReservation, .reservationLeak,
    .settlementMismatch, .walletProjectionMismatch, .depositCreditMismatch, .withdrawalStateMismatch,
    .transferStateMismatch, .auditGap]

namespace FinancialReconciliation

-- A time as Python reads it: with an offset, without one, or not at all.
inductive Moment where
  | aware (t : Timestamp)
  | naive
  | malformed
  deriving DecidableEq

structure ApplicationOperation where
  reference : String
  requiresFinancialOperation : Bool := true
  state : Option String := none
  tenantRef : Option String := none
  auditAction : Option String := none
  outboxRequired : Bool := false
  deriving DecidableEq

structure FinancialOperation where
  reference : String
  effectId : Option String := none
  deriving DecidableEq

structure ReservationEvidence where
  reference : Option String
  orderRef : String := ""
  tenantRef : Option String := none
  state : Option String := none
  expiresAt : Option Moment := none
  deriving DecidableEq

structure AuditEvidence where
  reference : Option String
  action : Option String
  deriving DecidableEq

structure DomainRow (V : Type) where
  reference : String
  fields : List (String × V)
  deriving DecidableEq

def DomainRow.get {V : Type} (row : DomainRow V) (key : String) : Option V := row.fields.lookup key

inductive Domain where
  | settlements | wallets | deposits | withdrawals | transfers
  deriving DecidableEq

namespace Domain

def all : List Domain := [.settlements, .wallets, .deposits, .withdrawals, .transfers]

def violation : Domain → Violation
  | .settlements => .settlementMismatch
  | .wallets => .walletProjectionMismatch
  | .deposits => .depositCreditMismatch
  | .withdrawals => .withdrawalStateMismatch
  | .transfers => .transferStateMismatch

def keys : Domain → List String
  | .settlements => ["trade_ref", "reservation_ref", "state", "asset_legs", "fee_components"]
  | .wallets => ["asset", "total", "available", "reserved", "pending", "version"]
  | .deposits => ["state", "credited_amount", "asset"]
  | .withdrawals => ["state"]
  | .transfers => ["state"]

end Domain

structure ReconciliationEvidence (V : Type) where
  applicationOperations : List ApplicationOperation := []
  financialOperations : List FinancialOperation := []
  reservations : List ReservationEvidence := []
  application : Domain → List (DomainRow V) := fun _ => []
  financial : Domain → List (DomainRow V) := fun _ => []
  outbox : List (Option String) := []
  receivedEvents : List (Option String) := []
  inbox : List (Option String) := []
  audits : List AuditEvidence := []

inductive ReconciliationError where
  | valueError (message : String)
  | keyError (key : String)
  deriving DecidableEq

inductive FindingSource (V : Type) where
  | operation (op : ApplicationOperation)
  | operations (rows : List FinancialOperation)
  | reservation (row : ReservationEvidence)
  | compared (application financial : Option (DomainRow V))
  | event (eventId : Option String)

structure ReconciliationFinding (V : Type) where
  violation : Violation
  reference : String
  source : FindingSource V
  severity : String := "CRITICAL"

structure ReconciliationReport (V : Type) where
  findings : List (ReconciliationFinding V)
  checksExecuted : List Violation
  generatedAt : Timestamp

def ReconciliationReport.activationReady {V : Type} (report : ReconciliationReport V) : Bool :=
  report.findings.isEmpty

def truthy (value : Option String) : Bool := value.any (· ≠ "")

def str (value : Option String) : String := value.getD "None"

section Reconcile

variable {V : Type} [DecidableEq V]

def groups {R : Type} (items : List R) (reference : R → String) :
    Except ReconciliationError (Table String (List R)) := do
  require (∀ item ∈ items, reference item ≠ "")
    (.valueError "reconciliation evidence is missing reference")
  pure (groupBy reference items)

-- The entry of a reference is the last row of its group.
def singleIndex {R : Type} (items : List R) (reference : R → String) :
    Except ReconciliationError (Table String R) := do
  let _ ← groups items reference
  pure (indexBy reference items)

def same (left right : DomainRow V) (keys : List String) : Bool :=
  keys.all fun key => left.get key = right.get key

def differs (d : Domain) (left right : Option (DomainRow V)) : Bool :=
  match left, right with
  | some left, some right => !same left right d.keys
  | none, none => false
  | _, _ => true

def finding (violation : Violation) (reference : String) (source : FindingSource V) :
    ReconciliationFinding V := { violation, reference, source }

def compareDomain (e : ReconciliationEvidence V) (d : Domain) :
    Except ReconciliationError (List (ReconciliationFinding V)) := do
  let left ← singleIndex (e.application d) (·.reference)
  let right ← singleIndex (e.financial d) (·.reference)
  let references := ((left.rows.map Prod.fst ++ right.rows.map Prod.fst).dedup).insertionSort (· ≤ ·)
  pure ((references.filter fun reference => differs d (left.find reference) (right.find reference)).map
    fun reference => finding d.violation reference (.compared (left.find reference) (right.find reference)))

def missingOperations (appOps : Table String ApplicationOperation)
    (financialGroups : Table String (List FinancialOperation)) : List (ReconciliationFinding V) :=
  (appOps.rows.filter fun p => p.2.requiresFinancialOperation && (financialGroups.find p.1).isNone).map
    fun p => finding .missingFinancialOperation p.1 (.operation p.2)

def effectCount (rows : List FinancialOperation) (effectId : Option String) : Nat :=
  (rows.filter (·.effectId = effectId)).length

def duplicated (all rows : List FinancialOperation) : Bool :=
  1 < rows.length || rows.any fun row => truthy row.effectId && 1 < effectCount all row.effectId

def duplicateEffects (e : ReconciliationEvidence V)
    (financialGroups : Table String (List FinancialOperation)) : List (ReconciliationFinding V) :=
  (financialGroups.rows.filter fun p => duplicated e.financialOperations p.2).map fun p =>
    finding .duplicateFinancialEffect p.1 (.operations p.2)

def openStates : List (Option String) := [some "PENDING", some "ACTIVE", some "PARTIALLY_CONSUMED"]

def terminalStates : List (Option String) :=
  [some "FAILED", some "CANCELLED", some "REJECTED", some "COMPLETED"]

def expiry (asOf : Timestamp) : Option Moment → Except ReconciliationError Bool
  | none => pure false
  | some (.aware t) => pure (t ≤ asOf)
  | some .naive => .error (.valueError "reservation expires_at must be timezone-aware")
  | some .malformed => .error (.valueError "Invalid isoformat string")

def reservationFindings (asOf : Timestamp) (row : ReservationEvidence)
    (owner : Option ApplicationOperation) : Except ReconciliationError (List (ReconciliationFinding V)) := do
  let reference ← demand row.reference (.keyError "reference")
  match owner.filter fun owner => !(truthy row.tenantRef && owner.tenantRef ≠ row.tenantRef) with
  | none => pure [finding .orphanReservation reference (.reservation row)]
  | some owner => do
    let expired ← expiry asOf row.expiresAt
    if row.state ∈ openStates ∧ (expired = true ∨ owner.state ∈ terminalStates) then
      pure [finding .reservationLeak reference (.reservation row)]
    else pure []

def operationGap (e : ReconciliationEvidence V) (op : ApplicationOperation) : Bool :=
  (truthy op.auditAction && (op.reference, op.auditAction) ∉ e.audits.map fun row => (str row.reference, row.action)) ||
    (op.outboxRequired && op.reference ∉ e.outbox.map str)

def operationGaps (e : ReconciliationEvidence V) (appOps : Table String ApplicationOperation) :
    List (ReconciliationFinding V) :=
  (appOps.rows.filter fun p => operationGap e p.2).map fun p => finding .auditGap p.1 (.operation p.2)

def eventRef (eventId : Option String) : String := if truthy eventId then eventId.getD "" else "missing-event-id"

def unreceived (e : ReconciliationEvidence V) (eventId : Option String) : Bool :=
  !truthy eventId || eventId.getD "" ∉ e.inbox.map str

def eventGaps (e : ReconciliationEvidence V) : List (ReconciliationFinding V) :=
  (e.receivedEvents.filter (unreceived e)).map fun eventId =>
    finding .auditGap (eventRef eventId) (.event eventId)

def add (findings : Table (Violation × String) (ReconciliationFinding V))
    (found : ReconciliationFinding V) : Table (Violation × String) (ReconciliationFinding V) :=
  if (findings.find (found.violation, found.reference)).isNone then
    findings.put (found.violation, found.reference) found
  else findings

def report (asOf : Timestamp) (found : List (ReconciliationFinding V)) : ReconciliationReport V where
  findings := ((found.foldl add Table.empty).rows.map Prod.snd).insertionSort fun f g =>
    f.violation.value < g.violation.value ∨ (f.violation.value = g.violation.value ∧ f.reference ≤ g.reference)
  checksExecuted := Violation.all
  generatedAt := asOf

def resolve (asOf : Option Moment) (now : Timestamp) : Except ReconciliationError Timestamp :=
  match asOf with
  | none => pure now
  | some (.aware t) => pure t
  | some _ => .error (.valueError "as_of must be timezone-aware")

def reconcileFinancialBoundary (now : Timestamp) (asOf : Option Moment) (e : ReconciliationEvidence V) :
    Except ReconciliationError (ReconciliationReport V) := do
  let asOf ← resolve asOf now
  let appOps ← singleIndex e.applicationOperations (·.reference)
  let financialGroups ← groups e.financialOperations (·.reference)
  let reserved ← e.reservations.mapM fun row => reservationFindings asOf row (appOps.find row.orderRef)
  let compared ← Domain.all.mapM (compareDomain e)
  pure (report asOf (missingOperations appOps financialGroups ++ duplicateEffects e financialGroups ++
    reserved.flatten ++ compared.flatten ++ operationGaps e appOps ++ eventGaps e))

end Reconcile

end FinancialReconciliation

end Beyvra
