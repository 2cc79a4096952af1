import Beyvra.Foundation.Records
import Beyvra.Numeric.Decimal
import Beyvra.Relational.Index

namespace Beyvra

open Numeric Relational

structure SnapshotOrder where
  id : String
  quantity : ℚ
  filledQuantity : ℚ
  state : String
  accountId : Option String
  deriving DecidableEq

-- The account of a trade is read only when the snapshot holds no order of it.
structure SnapshotTrade where
  executionId : String
  orderId : String
  instrumentId : String
  side : String
  quantity : ℚ
  accountId : Option String := none
  deriving DecidableEq

structure SnapshotReservation where
  orderId : String
  state : String
  remainingAmount : ℚ
  deriving DecidableEq

structure SnapshotPosition where
  accountId : Option String
  instrumentId : String
  quantity : ℚ
  deriving DecidableEq

structure SnapshotAccount where
  id : String
  totalBalance : ℚ
  pendingBalance : ℚ
  deriving DecidableEq

structure DuplicateCount where
  key : String
  count : Nat
  deriving DecidableEq

structure TradingSnapshot where
  orders : List SnapshotOrder := []
  trades : List SnapshotTrade := []
  reservations : List SnapshotReservation := []
  positions : List SnapshotPosition := []
  accounts : List SnapshotAccount := []
  outboxOrderIds : List String := []
  executionOutboxIds : List String := []
  auditOrderIds : List String := []
  duplicateTrades : List DuplicateCount := []
  duplicateSettlements : List DuplicateCount := []
  duplicateProcessed : List DuplicateCount := []

inductive EntityRef where
  | text (value : String)
  | position (accountId : Option String) (instrumentId : String)
  deriving DecidableEq

structure ReconciliationViolation where
  checkCode : String
  severity : String := "CRITICAL"
  entityType : String
  opaqueEntityRef : EntityRef
  evidence : Payload
  deriving DecidableEq

structure CheckResult where
  code : String
  status : String
  violationCount : Nat
  deriving DecidableEq

structure Check where
  code : String
  found : List ReconciliationViolation

def Check.result (c : Check) : CheckResult :=
  ⟨c.code, if c.found = [] then "PASS" else "FAIL", c.found.length⟩

def reconciliationScopes : List String := ["full", "orders", "settlements", "positions", "outbox"]

abbrev PositionKey := Option String × String

namespace TradingSnapshot

def ordersById (s : TradingSnapshot) : Table String SnapshotOrder := indexBy (·.id) s.orders

def duplicates (code entityType keyName : String) (rows : List DuplicateCount) : Check where
  code := code
  found := rows.map fun x =>
    { checkCode := code, entityType, opaqueEntityRef := .text x.key
      evidence := [(keyName, .str x.key), ("count", .dec x.count)] }

def evidenceOf (t : SnapshotTrade) : Payload :=
  [("execution_id", .str t.executionId), ("order_id", .str t.orderId),
    ("instrument_id", .str t.instrumentId), ("side", .str t.side), ("quantity", .dec t.quantity)]

def tradeWithoutOrder (s : TradingSnapshot) : Check where
  code := "TRADE_WITHOUT_ORDER"
  found := (s.trades.filter fun t => (s.ordersById.find t.orderId).isNone).map fun t =>
    { checkCode := "TRADE_WITHOUT_ORDER", entityType := "trade"
      opaqueEntityRef := .text t.executionId, evidence := evidenceOf t }

-- The sums are those of the decimal context.
def executed (s : TradingSnapshot) : Option (Table String ℚ) :=
  tallyM defaultContext.add (·.orderId) (fun t => some t.quantity) s.trades

def orderViolation (code orderId : String) (evidence : Payload) : ReconciliationViolation where
  checkCode := code
  entityType := "order"
  opaqueEntityRef := .text orderId
  evidence := evidence

def filledQuantityMatches (s : TradingSnapshot) (executed : Table String ℚ) : Check where
  code := "FILLED_QUANTITY_MATCHES_EXECUTIONS"
  found := (s.ordersById.rows.filter fun p => p.2.filledQuantity ≠ (executed.find p.1).getD 0).map fun p =>
    orderViolation "FILLED_QUANTITY_MISMATCH" p.1
      [("filled", .dec p.2.filledQuantity), ("executed", .dec ((executed.find p.1).getD 0))]

def overfill (s : TradingSnapshot) (executed : Table String ℚ) : Check where
  code := "OVERFILL"
  found := (s.ordersById.rows.filter fun p =>
      p.2.quantity < p.2.filledQuantity || p.2.quantity < (executed.find p.1).getD 0).map fun p =>
    orderViolation "OVERFILL" p.1 [("quantity", .dec p.2.quantity),
      ("filled", .dec p.2.filledQuantity), ("executed", .dec ((executed.find p.1).getD 0))]

def tradeMatchesExecution (s : TradingSnapshot) : Check where
  code := "TRADE_MATCHES_EXECUTION"
  found := (s.trades.filter fun t => t.executionId ∉ s.executionOutboxIds).map fun t =>
    { checkCode := "MISSING_EXECUTION_EVENT", entityType := "trade"
      opaqueEntityRef := .text t.executionId, evidence := [] }

def terminalStates : List String := ["FILLED", "CANCELLED", "REJECTED", "EXPIRED"]

def reservationLeak (s : TradingSnapshot) (orderId : String) (order : SnapshotOrder) :
    Option ReconciliationViolation :=
  match (indexBy (·.orderId) s.reservations).find orderId with
  | none => some (orderViolation "MISSING_RESERVATION" orderId [])
  | some r =>
    if order.state ∈ terminalStates ∧ (r.state = "ACTIVE" ∨ r.remainingAmount ≠ 0) then
      some (orderViolation "RESERVATION_LEAK" orderId
        [("order_id", .str r.orderId), ("state", .str r.state),
          ("remaining_amount", .dec r.remainingAmount)])
    else none

def reservationConsistency (s : TradingSnapshot) : Check where
  code := "RESERVATION_CONSISTENCY"
  found := s.ordersById.rows.filterMap fun p => s.reservationLeak p.1 p.2

def accountOf (s : TradingSnapshot) (t : SnapshotTrade) : Option String :=
  match s.ordersById.find t.orderId with
  | some order => order.accountId
  | none => t.accountId

def tradeKey (s : TradingSnapshot) (t : SnapshotTrade) : PositionKey := (s.accountOf t, t.instrumentId)

def signedQuantity (t : SnapshotTrade) : Option ℚ := defaultContext.mul t.quantity (if t.side = "BUY" then 1 else -1)

def positionKey (x : SnapshotPosition) : PositionKey := (x.accountId, x.instrumentId)

def expected (s : TradingSnapshot) : Option (Table PositionKey ℚ) :=
  tallyM defaultContext.add s.tradeKey signedQuantity s.trades

def actual (s : TradingSnapshot) : Table PositionKey SnapshotPosition := indexBy positionKey s.positions

def actualQuantity (s : TradingSnapshot) (key : PositionKey) : ℚ :=
  ((s.actual.find key).map (·.quantity)).getD 0

def positionMatchesTradeHistory (s : TradingSnapshot) (expected : Table PositionKey ℚ) : Check where
  code := "POSITION_MATCHES_TRADE_HISTORY"
  found := (expected.rows.filter fun p => s.actualQuantity p.1 ≠ p.2).map fun p =>
    { checkCode := "POSITION_MISMATCH", entityType := "position"
      opaqueEntityRef := .position p.1.1 p.1.2
      evidence := [("expected", .dec p.2), ("actual", .dec (s.actualQuantity p.1))] }

def walletNonnegative (s : TradingSnapshot) : Check where
  code := "WALLET_PROJECTION_NONNEGATIVE"
  found := (s.accounts.filter fun x => x.totalBalance < 0 || x.pendingBalance < 0).map fun x =>
    { checkCode := "NEGATIVE_BALANCE", entityType := "account", opaqueEntityRef := .text x.id
      evidence := [] }

def ordersOutside (s : TradingSnapshot) (code : String) (ids : List String) : Check where
  code := code
  found := (s.ordersById.rows.filter fun p => p.1 ∉ ids).map fun p => orderViolation code p.1 []

def orderChecks (s : TradingSnapshot) (executed : Table String ℚ) : List Check :=
  [duplicates "DUPLICATE_TRADE" "execution" "execution_id" s.duplicateTrades, s.tradeWithoutOrder,
    s.filledQuantityMatches executed, s.overfill executed,
    duplicates "DUPLICATE_SETTLEMENT" "execution" "execution_id" s.duplicateSettlements,
    s.tradeMatchesExecution, s.reservationConsistency]

def positionChecks (s : TradingSnapshot) (expected : Table PositionKey ℚ) : List Check :=
  [s.positionMatchesTradeHistory expected, s.walletNonnegative]

def outboxChecks (s : TradingSnapshot) : List Check :=
  [s.ordersOutside "MISSING_REQUIRED_OUTBOX" s.outboxOrderIds,
    s.ordersOutside "AUDIT_GAP" s.auditOrderIds,
    { duplicates "PROCESSED_EVENT_DUPLICATE" "event" "event_id" s.duplicateProcessed with
      code := "PROCESSED_EVENT_UNIQUENESS" }]

def orderScopes : List String := ["full", "orders", "settlements"]

def positionScopes : List String := ["full", "positions"]

def outboxScopes : List String := ["full", "outbox"]

def checks (s : TradingSnapshot) (scope : String) (executed : Table String ℚ) (expected : Table PositionKey ℚ) : List Check :=
  (if scope ∈ orderScopes then s.orderChecks executed else []) ++
    (if scope ∈ positionScopes then s.positionChecks expected else []) ++
    (if scope ∈ outboxScopes then s.outboxChecks else [])

end TradingSnapshot

def tableFor {K : Type} (scope : String) (scopes : List String) (table : Option (Table K ℚ)) : Outcome (Table K ℚ) :=
  if scope ∈ scopes then demand table .overflow else pure Table.empty

def evaluateSnapshot (s : TradingSnapshot) (scope : String) :
    Outcome (List CheckResult × List ReconciliationViolation) := do
  require (scope ∈ reconciliationScopes) (.valueError "INVALID_RECONCILIATION_SCOPE")
  let executed ← tableFor scope TradingSnapshot.orderScopes s.executed
  let expected ← tableFor scope TradingSnapshot.positionScopes s.expected
  let checks := s.checks scope executed expected
  pure (checks.map (·.result), checks.flatMap (·.found))

namespace TradingSnapshot

def positionQuantity (s : TradingSnapshot) (key : PositionKey) : ℚ :=
  ((s.positions.find? (positionKey · = key)).map (·.quantity)).getD 0

def exactQuantity (t : SnapshotTrade) : ℚ := t.quantity * if t.side = "BUY" then 1 else -1

def tradedQuantity (s : TradingSnapshot) (key : PositionKey) : ℚ := ((rowsAt s.tradeKey s.trades key).map exactQuantity).sum

-- What the context makes of the trades of a key
def summed (s : TradingSnapshot) (key : PositionKey) : Option ℚ :=
  (totalM defaultContext.add signedQuantity (rowsAt s.tradeKey s.trades key) none).map (·.getD 0)

-- No sum of a key is rounded, and none of an order overflows.
structure SumsExact (s : TradingSnapshot) (scope : String) : Prop where
  orders : scope ∈ orderScopes → s.executed.isSome
  positions : ∀ key, s.summed key = some (s.tradedQuantity key)

def Explained (s : TradingSnapshot) (key : PositionKey) : Prop := ∃ t ∈ s.trades, s.tradeKey t = key

def Clean (s : TradingSnapshot) (scope : String) : Prop :=
  ∃ checks violations, evaluateSnapshot s scope = .ok (checks, violations) ∧
    ∀ v ∈ violations, v.checkCode ≠ "POSITION_MISMATCH"

def PositionsComplete (s : TradingSnapshot) (scope : String) : Prop :=
  s.Clean scope ↔ ∀ key, s.positionQuantity key = s.tradedQuantity key

section Scan

variable {s : TradingSnapshot} {scope : String} {key : PositionKey}

theorem duplicates_code {code entityType keyName : String} {rows : List DuplicateCount}
    {v : ReconciliationViolation} (h : v ∈ (duplicates code entityType keyName rows).found) :
    v.checkCode = code := by
  obtain ⟨x, -, rfl⟩ := List.mem_map.mp h
  rfl

theorem orderChecks_code {executed : Table String ℚ} {c : Check} {v : ReconciliationViolation}
    (hc : c ∈ s.orderChecks executed) (hv : v ∈ c.found) : v.checkCode ≠ "POSITION_MISMATCH" := by
  simp only [orderChecks, List.mem_cons, List.not_mem_nil, or_false] at hc
  rcases hc with rfl | rfl | rfl | rfl | rfl | rfl | rfl
  · exact duplicates_code hv ▸ by decide
  · obtain ⟨t, -, rfl⟩ := List.mem_map.mp hv
    simp
  · obtain ⟨p, -, rfl⟩ := List.mem_map.mp hv
    simp [orderViolation]
  · obtain ⟨p, -, rfl⟩ := List.mem_map.mp hv
    simp [orderViolation]
  · exact duplicates_code hv ▸ by decide
  · obtain ⟨t, -, rfl⟩ := List.mem_map.mp hv
    simp
  · obtain ⟨p, -, hp⟩ := List.mem_filterMap.mp hv
    unfold reservationLeak at hp
    split at hp
    · obtain rfl := Option.some.inj hp
      simp [orderViolation]
    · split at hp
      · obtain rfl := Option.some.inj hp
        simp [orderViolation]
      · cases hp

theorem outboxChecks_code {c : Check} {v : ReconciliationViolation} (hc : c ∈ s.outboxChecks)
    (hv : v ∈ c.found) : v.checkCode ≠ "POSITION_MISMATCH" := by
  simp only [outboxChecks, List.mem_cons, List.not_mem_nil, or_false] at hc
  rcases hc with rfl | rfl | rfl
  · obtain ⟨p, -, rfl⟩ := List.mem_map.mp hv
    simp [orderViolation]
  · obtain ⟨p, -, rfl⟩ := List.mem_map.mp hv
    simp [orderViolation]
  · exact duplicates_code (v := v) hv ▸ by decide

variable {expected : Table PositionKey ℚ}

theorem positionChecks_code {c : Check} {v : ReconciliationViolation} (hc : c ∈ s.positionChecks expected)
    (hv : v ∈ c.found) : v.checkCode = "POSITION_MISMATCH" ↔ v ∈ (s.positionMatchesTradeHistory expected).found := by
  simp only [positionChecks, List.mem_cons, List.not_mem_nil, or_false] at hc
  rcases hc with rfl | rfl
  · obtain ⟨p, -, hp⟩ := List.mem_map.mp hv
    exact iff_of_true (hp ▸ rfl) hv
  · obtain ⟨x, -, rfl⟩ := List.mem_map.mp hv
    refine iff_of_false (by simp) fun hmem => ?_
    obtain ⟨p, -, hp⟩ := List.mem_map.mp hmem
    simpa using congrArg ReconciliationViolation.checkCode hp

theorem SumsExact.evaluates (h : s.SumsExact scope) (hscope : scope ∈ positionScopes) :
    ∃ executed expected, s.expected = some expected ∧ evaluateSnapshot s scope =
      .ok ((s.checks scope executed expected).map (·.result), (s.checks scope executed expected).flatMap (·.found)) := by
  have hvalid : scope ∈ reconciliationScopes := by
    simp only [positionScopes, List.mem_cons, List.not_mem_nil, or_false] at hscope
    rcases hscope with rfl | rfl <;> decide
  have hsums : s.expected.isSome := tallyM_isSome fun key => by
    have hsum := h.positions key
    obtain ⟨total, htotal, -⟩ := Option.map_eq_some_iff.mp hsum
    exact Option.isSome_iff_exists.mpr ⟨total, htotal⟩
  obtain ⟨expected, hexpected⟩ := Option.isSome_iff_exists.mp hsums
  have htable : ∃ executed, tableFor scope orderScopes s.executed = .ok executed := by
    unfold tableFor
    split_ifs with horders
    · obtain ⟨executed, hexecuted⟩ := Option.isSome_iff_exists.mp (h.orders horders)
      exact ⟨executed, demand_eq_ok.mpr hexecuted⟩
    · exact ⟨_, rfl⟩
  obtain ⟨executed, hexecuted⟩ := htable
  have hpositions : tableFor scope positionScopes s.expected = .ok expected := by
    rw [tableFor, if_pos hscope]
    exact demand_eq_ok.mpr hexpected
  refine ⟨executed, expected, hexpected, ?_⟩
  unfold evaluateSnapshot
  rw [bind_of_ok (require_of hvalid), bind_of_ok hexecuted, bind_of_ok hpositions]
  rfl

-- Of all the checks of a scope only the one over the positions reports this code.
theorem clean_iff (h : s.SumsExact scope) (hscope : scope ∈ positionScopes) :
    ∃ expected, s.expected = some expected ∧ (s.Clean scope ↔ (s.positionMatchesTradeHistory expected).found = []) := by
  obtain ⟨executed, expected, hexpected, hruns⟩ := h.evaluates hscope
  refine ⟨expected, hexpected, ?_⟩
  have hchecks : ∀ c, c ∈ s.checks scope executed expected →
      c ∈ s.orderChecks executed ∨ c ∈ s.positionChecks expected ∨ c ∈ s.outboxChecks := by
    intro c hc
    unfold checks at hc
    rw [if_pos hscope] at hc
    rcases List.mem_append.mp hc with hc | hc
    · rcases List.mem_append.mp hc with hc | hc
      · split at hc
        · exact .inl hc
        · cases hc
      · exact .inr (.inl hc)
    · split at hc
      · exact .inr (.inr hc)
      · cases hc
  have hscan : s.positionMatchesTradeHistory expected ∈ s.checks scope executed expected := by
    unfold checks
    rw [if_pos hscope]
    exact List.mem_append_left _ (List.mem_append_right _ List.mem_cons_self)
  constructor
  · rintro ⟨results, violations, hok, hnone⟩
    obtain ⟨rfl, rfl⟩ := Prod.mk.inj (Except.ok.inj (hruns.symm.trans hok))
    rw [List.eq_nil_iff_forall_not_mem]
    intro v hv
    refine hnone v (List.mem_flatMap.mpr ⟨_, hscan, hv⟩) ?_
    exact (positionChecks_code List.mem_cons_self hv).mpr hv
  · intro hempty
    refine ⟨_, _, hruns, ?_⟩
    intro v hv
    obtain ⟨c, hc, hvc⟩ := List.mem_flatMap.mp hv
    rcases hchecks c hc with horder | hposition | houtbox
    · exact orderChecks_code horder hvc
    · rw [ne_eq, positionChecks_code hposition hvc, hempty]
      exact List.not_mem_nil
    · exact outboxChecks_code houtbox hvc

theorem SumsExact.find_expected (h : s.SumsExact scope) (hexpected : s.expected = some expected) (key : PositionKey) :
    expected.find key = if rowsAt s.tradeKey s.trades key = [] then none else some (s.tradedQuantity key) := by
  have hfind := find_tallyM (k := key) hexpected
  have hsum := h.positions key
  rw [summed, hfind, Option.map_some] at hsum
  split_ifs with hrows
  · rw [hrows] at hfind
    exact (Option.some.inj hfind).symm
  · obtain ⟨total, htotal⟩ := Option.isSome_iff_exists.mp (isSome_of_totalM hfind hrows)
    rw [htotal] at hsum ⊢
    exact hsum

theorem actualQuantity_eq (hunique : (s.positions.map positionKey).Nodup) :
    s.actualQuantity key = s.positionQuantity key := by
  unfold actualQuantity positionQuantity actual
  cases hfind : s.positions.find? (positionKey · = key) with
  | none =>
    have hnone : (indexBy positionKey s.positions).find key = none := by
      by_contra hsome
      obtain ⟨x, hx, hkey⟩ := find_indexBy_isSome.mp (Option.isSome_iff_ne_none.mpr hsome)
      simpa [hkey] using List.find?_eq_none.mp hfind x hx
    rw [hnone]
  | some x =>
    have hkey : positionKey x = key := by simpa using List.find?_some hfind
    rw [← hkey, find_indexBy_of_nodup hunique (List.mem_of_find?_eq_some hfind)]

-- The scan runs over the keys that trades have, so it sees no other key.
theorem scan_empty_iff (h : s.SumsExact scope) (hexpected : s.expected = some expected)
    (hunique : (s.positions.map positionKey).Nodup) : (s.positionMatchesTradeHistory expected).found = [] ↔
      ∀ key, s.Explained key → s.positionQuantity key = s.tradedQuantity key := by
  unfold positionMatchesTradeHistory
  simp only [List.map_eq_nil_iff, List.filter_eq_nil_iff, decide_eq_true_eq, not_not]
  constructor
  · rintro hnone key ⟨t, ht, hkey⟩
    have hfind : expected.find key = some (s.tradedQuantity key) := by
      rw [h.find_expected hexpected, if_neg (rowsAt_ne_nil.mpr ⟨t, ht, hkey⟩)]
    rw [← actualQuantity_eq hunique]
    exact hnone (key, s.tradedQuantity key) (Table.mem_rows_iff.mpr hfind)
  · rintro hsame ⟨key, quantity⟩ hmem
    have hfind := Table.mem_rows_iff.mp hmem
    rw [h.find_expected hexpected] at hfind
    split at hfind
    · cases hfind
    · rename_i hrows
      obtain rfl := Option.some.inj hfind
      rw [actualQuantity_eq hunique]
      exact hsame key (rowsAt_ne_nil.mp hrows)

theorem tradedQuantity_unexplained (h : ¬s.Explained key) : s.tradedQuantity key = 0 := by
  have hnone : rowsAt s.tradeKey s.trades key = [] := not_not.mp fun hne => h (rowsAt_ne_nil.mp hne)
  rw [tradedQuantity, hnone]
  rfl

theorem unexplained_iff (hunique : (s.positions.map positionKey).Nodup) :
    (∀ key, ¬s.Explained key → s.positionQuantity key = 0) ↔
      ∀ x ∈ s.positions, ¬s.Explained (positionKey x) → x.quantity = 0 := by
  have hrow : ∀ x ∈ s.positions, s.positionQuantity (positionKey x) = x.quantity := by
    intro x hx
    rw [← actualQuantity_eq hunique, actualQuantity, actual, find_indexBy_of_nodup hunique hx]
    rfl
  constructor
  · intro h x hx hno
    rw [← hrow x hx]
    exact h _ hno
  · intro h key hno
    unfold positionQuantity
    cases hfind : s.positions.find? (positionKey · = key) with
    | none => rfl
    | some x =>
      obtain rfl : positionKey x = key := by simpa using List.find?_some hfind
      exact h x (List.mem_of_find?_eq_some hfind) hno

end Scan

section Room

variable {s : TradingSnapshot} {rows : List SnapshotTrade} {amount : SnapshotTrade → Option ℚ} {exact : SnapshotTrade → ℚ}

theorem totalM_of_room (total : Option ℚ)
    (hamount : ∀ t ∈ rows, amount t = some (exact t) ∧ IsMultiple (10 ^ (-18 : Int)) (exact t))
    (htotal : IsMultiple (10 ^ (-18 : Int)) (total.getD 0))
    (hroom : |total.getD 0| + (rows.map fun t => |exact t|).sum < 10 ^ (10 : Int)) :
    (totalM defaultContext.add amount rows total).map (·.getD 0) = some (total.getD 0 + (rows.map exact).sum) := by
  induction rows generalizing total with
  | nil => simp [totalM]
  | cons t rows ih =>
    obtain ⟨⟨hsome, hmultiple⟩, hrest⟩ := List.forall_mem_cons.mp hamount
    rw [List.map_cons, List.sum_cons, ← add_assoc] at hroom
    have hsum : IsMultiple (10 ^ (-18 : Int)) (total.getD 0 + exact t) := htotal.add hmultiple
    have hle : |total.getD 0 + exact t| ≤ |total.getD 0| + |exact t| := abs_add_le _ _
    have hnonneg : 0 ≤ (rows.map fun t => |exact t|).sum := List.sum_nonneg fun x hx => by
      obtain ⟨t, -, rfl⟩ := List.mem_map.mp hx
      exact abs_nonneg _
    have hadd : defaultContext.add (total.getD 0) (exact t) = some (total.getD 0 + exact t) :=
      Context.finalize_of_isMultiple (e := -18) (by decide) (by decide) hsum (by
        change _ < (10 : ℚ) ^ (10 : Int)
        linarith)
    rw [totalM_cons, hsome, Option.bind_some, hadd, Option.map_some, Option.bind_some,
      ih (some (total.getD 0 + exact t)) hrest hsum (by
        change |total.getD 0 + exact t| + _ < _
        linarith)]
    simp only [Option.getD_some, List.map_cons, List.sum_cons, add_assoc]

-- Quantities as the column holds them, of less than 10 ^ 10 in all
theorem sumsExact_of_room (scope : String) (hquantity : ∀ t ∈ s.trades, IsMultiple (10 ^ (-18 : Int)) t.quantity)
    (hroom : (s.trades.map fun t => |t.quantity|).sum < 10 ^ (10 : Int)) : s.SumsExact scope := by
  have hsigned : ∀ t, |exactQuantity t| = |t.quantity| := by
    intro t
    unfold exactQuantity
    split_ifs <;> simp
  have hpart : ∀ {rows : List SnapshotTrade}, rows.Sublist s.trades →
      |(0 : ℚ)| + (rows.map fun t => |t.quantity|).sum < 10 ^ (10 : Int) := by
    intro rows hrows
    have hle := (hrows.map fun t : SnapshotTrade => |t.quantity|).sum_le_sum fun x hx => by
      obtain ⟨t, -, rfl⟩ := List.mem_map.mp hx
      exact abs_nonneg _
    rw [abs_zero, zero_add]
    exact hle.trans_lt hroom
  constructor
  · intro _
    refine tallyM_isSome fun orderId => ?_
    have hrows : (rowsAt (·.orderId) s.trades orderId).Sublist s.trades := List.filter_sublist
    have hterm : ∀ t ∈ rowsAt (·.orderId) s.trades orderId,
        some t.quantity = some t.quantity ∧ IsMultiple (10 ^ (-18 : Int)) t.quantity :=
      fun t ht => ⟨rfl, hquantity t (hrows.subset ht)⟩
    have htotal := totalM_of_room none hterm ⟨0, by simp⟩ (hpart hrows)
    obtain ⟨total, hsome, -⟩ := Option.map_eq_some_iff.mp htotal
    exact Option.isSome_iff_exists.mpr ⟨total, hsome⟩
  · intro key
    have hrows : (rowsAt s.tradeKey s.trades key).Sublist s.trades := List.filter_sublist
    have hterm : ∀ t ∈ rowsAt s.tradeKey s.trades key,
        signedQuantity t = some (exactQuantity t) ∧ IsMultiple (10 ^ (-18 : Int)) (exactQuantity t) := by
      intro t ht
      have hmem := hrows.subset ht
      have hmultiple : IsMultiple (10 ^ (-18 : Int)) (exactQuantity t) := by
        obtain ⟨n, hn⟩ := hquantity t hmem
        refine ⟨n * if t.side = "BUY" then 1 else -1, ?_⟩
        rw [exactQuantity, hn]
        push_cast
        ring
      have hbound : |t.quantity| ≤ (s.trades.map fun t => |t.quantity|).sum :=
        List.single_le_sum (fun x hx => by
          obtain ⟨t, -, rfl⟩ := List.mem_map.mp hx
          exact abs_nonneg _) _ (List.mem_map_of_mem hmem)
      refine ⟨Context.finalize_of_isMultiple (e := -18) (by decide) (by decide) hmultiple ?_, hmultiple⟩
      exact (hsigned t).trans_lt (hbound.trans_lt hroom)
    have htotal := totalM_of_room none hterm ⟨0, by simp⟩ (by
      simp only [hsigned]
      exact hpart hrows)
    rw [summed, htotal, tradedQuantity, Option.getD_none, zero_add]

end Room

end TradingSnapshot

open TradingSnapshot in
theorem positions_complete_iff {s : TradingSnapshot} {scope : String} (hscope : scope ∈ positionScopes)
    (hunique : (s.positions.map positionKey).Nodup) (hsums : s.SumsExact scope) :
    s.PositionsComplete scope ↔
      (∃ key, s.Explained key ∧ s.positionQuantity key ≠ s.tradedQuantity key) ∨
        ∀ x ∈ s.positions, ¬s.Explained (positionKey x) → x.quantity = 0 := by
  obtain ⟨expected, hexpected, hclean⟩ := clean_iff hsums hscope
  unfold PositionsComplete
  rw [hclean, scan_empty_iff hsums hexpected hunique, ← unexplained_iff hunique]
  constructor
  · intro hcomplete
    by_cases hexplained : ∀ key, s.Explained key → s.positionQuantity key = s.tradedQuantity key
    · refine .inr fun key hno => ?_
      rw [hcomplete.mp hexplained key, tradedQuantity_unexplained hno]
    · simp only [not_forall, exists_prop] at hexplained
      exact .inl hexplained
  · rintro (⟨key, hexplained, hne⟩ | hzero)
    · exact iff_of_false (fun h => hne (h key hexplained)) fun h => hne (h key)
    · refine ⟨fun h key => ?_, fun h key _ => h key⟩
      by_cases hexplained : s.Explained key
      · exact h key hexplained
      · rw [hzero key hexplained, tradedQuantity_unexplained hexplained]

def soldOut : TradingSnapshot where
  orders := [⟨"o1", 10, 10, "FILLED", some "a1"⟩]
  trades := [{ executionId := "e1", orderId := "o1", instrumentId := "BTC-USD", side := "BUY", quantity := 10 }]
  positions := [⟨some "a1", "BTC-USD", 10⟩, ⟨some "a1", "ETH-USD", 0⟩]

theorem positions_complete_of_sold_out : soldOut.PositionsComplete "full" := by
  have hzero : ∀ x ∈ soldOut.positions, ¬soldOut.Explained (TradingSnapshot.positionKey x) →
      x.quantity = 0 := by
    intro x hx hno
    rcases List.mem_pair.mp hx with rfl | rfl
    · exact absurd ⟨_, List.mem_singleton_self _, by decide⟩ hno
    · rfl
  have hsums : soldOut.SumsExact "full" := TradingSnapshot.sumsExact_of_room "full"
    (fun t ht => by
      obtain rfl := List.mem_singleton.mp ht
      exact ⟨10 ^ 19, by norm_num⟩)
    (by norm_num [soldOut])
  exact (positions_complete_iff (by decide) (by decide) hsums).mpr (.inr hzero)

def strayPosition : TradingSnapshot where
  positions := [⟨some "a1", "BTC-USD", 10⟩]

theorem stray_position_unreported :
    ((evaluateSnapshot strayPosition "positions").toOption.map Prod.snd) = some [] ∧
      ¬strayPosition.PositionsComplete "positions" := by
  have hruns : (evaluateSnapshot strayPosition "positions").toOption.map Prod.snd = some [] := by
    decide +kernel
  refine ⟨hruns, fun hcomplete => ?_⟩
  have hclean : strayPosition.Clean "positions" := ⟨_, _, rfl, by decide +kernel⟩
  have hquantity := hcomplete.mp hclean (some "a1", "BTC-USD")
  exact absurd hquantity (by decide +kernel)

end Beyvra
