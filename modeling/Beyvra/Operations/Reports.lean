import Mathlib.Data.Prod.Lex
import Mathlib.Data.String.Basic
import Beyvra.Foundation.Records
import Beyvra.Relational.SortedBy
import Beyvra.Text.Csv

namespace Beyvra

open Relational Text

namespace Reports

structure TransactionHistoryEntry where
  tenantId : String
  account : Nat
  entryId : Uuid
  type : String
  asset : String
  amount : ℚ
  fee : ℚ := 0
  status : String
  occurredAt : Timestamp
  settledAt : Option Timestamp := none
  sourceRef : String
  simulation : Bool := true
  version : Nat := 1

-- How `str` shows a decimal and a time
structure PythonTexts where
  decimal : ℚ → List Char
  time : Timestamp → List Char

def reportFields : List String :=
  ["entry_id", "type", "asset", "amount", "fee", "status", "occurred_at", "settled_at", "source_ref", "simulation",
    "version"]

def column (texts : PythonTexts) (e : TransactionHistoryEntry) : String → List Char
  | "entry_id" => e.entryId.toList
  | "type" => e.type.toList
  | "asset" => e.asset.toList
  | "amount" => texts.decimal e.amount
  | "fee" => texts.decimal e.fee
  | "status" => e.status.toList
  | "occurred_at" => texts.time e.occurredAt
  | "settled_at" => (e.settledAt.map texts.time).getD "None".toList
  | "source_ref" => e.sourceRef.toList
  | "simulation" => if e.simulation then "True".toList else "False".toList
  | _ => (toString e.version).toList

def formulaStarts : List Char := ['=', '+', '-', '@']

def apostrophe : Char := Char.ofNat 39

def csvSafe (text : List Char) : List Char := if text.head?.any (· ∈ formulaStarts) then apostrophe :: text else text

def renderCsv (rows : List (String → Option (List Char))) (fields : List String) : List Char :=
  Csv.write (fields.map String.toList :: rows.map fun row => fields.map fun key => csvSafe ((row key).getD []))

structure ReportJob where
  tenantId : String
  account : Nat
  reportType : String

def ReportJob.owns (job : ReportJob) (e : TransactionHistoryEntry) : Bool :=
  e.tenantId = job.tenantId && e.account = job.account

def ReportJob.covers (job : ReportJob) (e : TransactionHistoryEntry) : Bool :=
  job.owns e && (job.reportType ∉ ["TRADE", "FEE"] || e.type = job.reportType)

def moment (e : TransactionHistoryEntry) : Timestamp ×ₗ Uuid := toLex (e.occurredAt, e.entryId)

def reportEntries (job : ReportJob) (entries : List TransactionHistoryEntry) : List TransactionHistoryEntry :=
  let ordered := sortedBy moment (entries.filter job.owns)
  if job.reportType ∈ ["TRADE", "FEE"] then ordered.filter (·.type = job.reportType) else ordered

def reportArtifact (texts : PythonTexts) (job : ReportJob) (entries : List TransactionHistoryEntry) : List Char :=
  Csv.write (reportFields.map String.toList ::
    (reportEntries job entries).map fun e => reportFields.map fun field => csvSafe (column texts e field))

variable {texts : PythonTexts} {job : ReportJob} {entries : List TransactionHistoryEntry}

theorem csvSafe_head (text : List Char) : ∀ c ∈ formulaStarts, (csvSafe text).head? ≠ some c := by
  intro c hc hhead
  unfold csvSafe at hhead
  split_ifs at hhead with hformula
  · obtain rfl : apostrophe = c := Option.some.inj hhead
    revert hc
    decide
  · rw [hhead] at hformula
    exact hformula (decide_eq_true hc)

theorem csvSafe_cases (text : List Char) :
    csvSafe text = text ∨ ∃ c rest, c ∈ formulaStarts ∧ text = c :: rest ∧ csvSafe text = apostrophe :: text := by
  unfold csvSafe
  split_ifs with hformula
  · cases text with
    | nil => cases hformula
    | cons c rest => exact .inr ⟨c, rest, of_decide_eq_true hformula, rfl, rfl⟩
  · exact .inl rfl

theorem header_safe : ∀ field ∈ reportFields, ∀ c ∈ formulaStarts, field.toList.head? ≠ some c := by
  have hall : (reportFields.all fun field => formulaStarts.all fun c => field.toList.head? != some c) = true := by
    decide +kernel
  intro field hfield c hc
  simpa using List.all_eq_true.mp (List.all_eq_true.mp hall field hfield) c hc

theorem reportEntries_perm : (reportEntries job entries).Perm (entries.filter job.covers) := by
  have hperm : (sortedBy moment (entries.filter job.owns)).Perm (entries.filter job.owns) := perm_sortedBy
  unfold reportEntries
  dsimp only
  split_ifs with htype
  · refine (hperm.filter _).trans (List.Perm.of_eq ?_)
    rw [List.filter_filter]
    refine List.filter_congr fun e _ => ?_
    simp [ReportJob.covers, htype, Bool.and_comm]
  · refine hperm.trans (List.Perm.of_eq (List.filter_congr fun e _ => ?_))
    simp [ReportJob.covers, htype]

theorem reportEntries_ordered : ((reportEntries job entries).map moment).Pairwise (· ≤ ·) := by
  unfold reportEntries
  dsimp only
  split_ifs
  · exact pairwise_sortedBy.sublist (List.filter_sublist.map _)
  · exact pairwise_sortedBy

structure ReportLaw (texts : PythonTexts) (job : ReportJob) (entries : List TransactionHistoryEntry) : Prop where
  readBack : Csv.read (reportArtifact texts job entries) = reportFields.map String.toList ::
    (reportEntries job entries).map fun e => reportFields.map fun field => csvSafe (column texts e field)
  covered : (reportEntries job entries).Perm (entries.filter job.covers)
  ordered : ((reportEntries job entries).map moment).Pairwise (· ≤ ·)
  noFormula : ∀ row ∈ Csv.read (reportArtifact texts job entries), ∀ cell ∈ row, ∀ c ∈ formulaStarts, cell.head? ≠ some c
  kept : ∀ e field, csvSafe (column texts e field) = column texts e field ∨
    ∃ c rest, c ∈ formulaStarts ∧ column texts e field = c :: rest ∧
      csvSafe (column texts e field) = apostrophe :: column texts e field
  rendered : ∀ rows fields, Csv.read (renderCsv rows fields) =
    fields.map String.toList :: rows.map fun row => fields.map fun key => csvSafe ((row key).getD [])
  -- the header of a rendered text is the caller's and is not made safe
  renderedSafe : ∀ rows fields, ∀ row ∈ (Csv.read (renderCsv rows fields)).tail, ∀ cell ∈ row, ∀ c ∈ formulaStarts,
    cell.head? ≠ some c

theorem report_law (texts : PythonTexts) (job : ReportJob) (entries : List TransactionHistoryEntry) :
    ReportLaw texts job entries where
  readBack := Csv.read_write _
  covered := reportEntries_perm
  ordered := reportEntries_ordered
  noFormula row hrow cell hcell := by
    rw [reportArtifact, Csv.read_write] at hrow
    rcases List.mem_cons.mp hrow with rfl | hrow
    · obtain ⟨field, hfield, rfl⟩ := List.mem_map.mp hcell
      exact header_safe field hfield
    · obtain ⟨e, -, rfl⟩ := List.mem_map.mp hrow
      obtain ⟨field, -, rfl⟩ := List.mem_map.mp hcell
      exact csvSafe_head _
  kept e field := csvSafe_cases _
  rendered rows fields := Csv.read_write _
  renderedSafe rows fields row hrow cell hcell := by
    rw [renderCsv, Csv.read_write, List.tail_cons] at hrow
    obtain ⟨values, -, rfl⟩ := List.mem_map.mp hrow
    obtain ⟨key, -, rfl⟩ := List.mem_map.mp hcell
    exact csvSafe_head _

end Reports

end Beyvra
