import Beyvra.Relational.Transaction
import Beyvra.Valuation.Lots

namespace Beyvra

open Relational

-- The captured trades of one holding; the capture refuses a quantity that is not positive.
structure TradeBook (h : Holding) where
  trade : String → Trade
  executionId : ∀ id, (trade id).executionId = id
  holding : ∀ id, (trade id).holding = h
  captured : ∀ id, 0 < (trade id).quantity

def accountStep {h : Holding} (book : TradeBook h) (v : ValuationTables) (op : Env × String) : ValuationTables :=
  commitState (processTradeAccounting op.1 (book.trade op.2)) v

def TaxLot.total (lot : TaxLot) (g : TaxLotDisposition → ℚ) : ℚ := (lot.dispositions.map g).sum

-- What the dispositions of a sale amount to, over all lots.
def disposedBy (sale : String) (g : TaxLotDisposition → ℚ) (lots : Table String TaxLot) : ℚ :=
  lots.sum fun _ lot => ((lot.dispositions.filter (·.disposalTrade = sale)).map g).sum

structure LotsAccounted {h : Holding} (book : TradeBook h) (v : ValuationTables) : Prop where
  quantities : ∀ key lot, v.lots.find key = some lot →
    lot.originalQuantity = lot.remainingQuantity + lot.total (·.quantity) ∧ 0 ≤ lot.remainingQuantity
  costs : (v.lots.sum fun _ lot => lot.total (·.allocatedBasis)) +
    (v.lots.sum fun _ lot => lot.remainingQuantity * lot.unitCost) = v.lots.sum fun _ lot => lot.totalCost
  sales : ∀ sale event, v.realizedPnl.find sale = some event →
    disposedBy sale (·.quantity) v.lots = (book.trade sale).quantity ∧
      disposedBy sale (·.proceeds) v.lots = (book.trade sale).grossNotional

-- A sale larger than what remains raises and leaves the tables alone.
def RefusesOversold {h : Holding} (book : TradeBook h) (v : ValuationTables) (op : Env × String) : Prop :=
  (book.trade op.2).side = .sell → v.realizedPnl.find op.2 = none → v.held h < (book.trade op.2).quantity →
    processTradeAccounting op.1 (book.trade op.2) v = .error (.valueError "TAX_LOT_INSUFFICIENT_QUANTITY") ∧
      accountStep book v op = v

-- A sale that is processed again only has the cost-basis position calculated again.
def IgnoresRepeated {h : Holding} (book : TradeBook h) (v : ValuationTables) (op : Env × String) : Prop :=
  (book.trade op.2).side = .sell → v.realizedPnl.find op.2 ≠ none →
    disposeFifo (book.trade op.2) v = .ok v ∧
      accountStep book v op = { v with costBasis := (calculateCostBasis op.1 h v).costBasis }

section Sound

variable {h : Holding} {book : TradeBook h} {v : ValuationTables} {env : Env} {sale : String}

structure LotSound (lot : TaxLot) : Prop where
  quantity : lot.originalQuantity = lot.remainingQuantity + lot.total (·.quantity)
  cost : lot.total (·.allocatedBasis) + lot.remainingQuantity * lot.unitCost = lot.totalCost
  positive : 0 < lot.originalQuantity
  disposed : ∀ d ∈ lot.dispositions, 0 < d.quantity

structure LotsSound (h : Holding) (lots : Table String TaxLot) : Prop where
  kept : LotsKept lots
  holding : ∀ key lot, lots.find key = some lot → lot.holding = h
  sound : ∀ key lot, lots.find key = some lot → LotSound lot

structure AccountsSound (book : TradeBook h) (v : ValuationTables) : Prop where
  lots : LotsSound h v.lots
  sold : ∀ sale, v.realizedPnl.find sale ≠ none → disposedBy sale (·.quantity) v.lots = (book.trade sale).quantity ∧
    disposedBy sale (·.proceeds) v.lots = (book.trade sale).grossNotional
  known : ∀ key lot, v.lots.find key = some lot → ∀ d ∈ lot.dispositions, v.realizedPnl.find d.disposalTrade ≠ none

def Commissioned (book : TradeBook h) (v : ValuationTables) : Prop :=
  ∀ sale, v.realizedPnl.find sale ≠ none → ∃ snapshot, (book.trade sale).feeSnapshot = some snapshot ∧
    (snapshot.totalFee ≠ 0 → v.incomeExpense.find sale ≠ none)

theorem TaxLot.total_dispose (lot : TaxLot) (trade : Trade) (quantity : ℚ) (g : TaxLotDisposition → ℚ) :
    (lot.dispose trade quantity).total g = lot.total g + g
      { disposalTrade := trade.executionId, quantity, allocatedBasis := quantity * lot.unitCost
        proceeds := trade.grossNotional * quantity / trade.quantity
        realizedGainLoss := trade.grossNotional * quantity / trade.quantity - quantity * lot.unitCost
        disposedAt := trade.tradeTime } := by
  simp [TaxLot.total, TaxLot.dispose]

theorem LotSound.dispose {lot : TaxLot} (hlot : LotSound lot) (trade : Trade) {quantity : ℚ} (hquantity : 0 < quantity) :
    LotSound (lot.dispose trade quantity) where
  quantity := by
    rw [TaxLot.total_dispose]
    have hold := hlot.quantity
    simp only [TaxLot.dispose] at hold ⊢
    linarith
  cost := by
    rw [TaxLot.total_dispose, ← show lot.totalCost = (lot.dispose trade quantity).totalCost from rfl, ← hlot.cost]
    simp only [TaxLot.dispose]
    ring
  positive := hlot.positive
  disposed d hd := by
    rcases List.mem_append.mp hd with hold | hnew
    · exact hlot.disposed d hold
    · rw [List.mem_singleton.mp hnew]
      exact hquantity

theorem disposedBy_put {lots : Table String TaxLot} {key : String} {lot : TaxLot} (hlot : lots.find key = some lot)
    (trade : Trade) (quantity : ℚ) (sale : String) (g : TaxLotDisposition → ℚ) :
    disposedBy sale g (lots.put key (lot.dispose trade quantity)) = disposedBy sale g lots +
      if trade.executionId = sale then g
        { disposalTrade := trade.executionId, quantity, allocatedBasis := quantity * lot.unitCost
          proceeds := trade.grossNotional * quantity / trade.quantity
          realizedGainLoss := trade.grossNotional * quantity / trade.quantity - quantity * lot.unitCost
          disposedAt := trade.tradeTime } else 0 := by
  unfold disposedBy
  rw [Table.sum_put_of_some hlot]
  by_cases hsale : trade.executionId = sale
  · simp only [TaxLot.dispose, hsale, if_true, List.filter_append, List.filter_cons, decide_true, List.filter_nil,
      List.map_append, List.map_cons, List.map_nil, List.sum_append, List.sum_cons, List.sum_nil]
    ring
  · simp [TaxLot.dispose, hsale]

theorem disposeLot_cases (trade : Trade) (d : Disposal) (lot : TaxLot) :
    d.needed ≤ 0 ∧ disposeLot trade d lot = d ∨ 0 < d.needed ∧ disposeLot trade d lot =
      { needed := d.needed - min d.needed lot.remainingQuantity
        allocatedBasis := d.allocatedBasis + min d.needed lot.remainingQuantity * lot.unitCost
        lots := d.lots.put lot.acquisitionTrade (lot.dispose trade (min d.needed lot.remainingQuantity)) } := by
  rcases le_or_gt d.needed 0 with hdone | hneeded
  · exact .inl ⟨hdone, if_pos hdone⟩
  · exact .inr ⟨hneeded, if_neg (not_le.mpr hneeded)⟩

-- The lots that the loop has still to visit are as they were selected.
structure Visits (lots : Table String TaxLot) (ls : List TaxLot) : Prop where
  found : ∀ lot ∈ ls, lots.find lot.acquisitionTrade = some lot
  remaining : ∀ lot ∈ ls, 0 < lot.remainingQuantity
  nodup : (ls.map (·.acquisitionTrade)).Nodup

theorem Visits.next {lots : Table String TaxLot} {lot : TaxLot} {ls : List TaxLot} (hvisits : Visits lots (lot :: ls))
    (row : TaxLot) : Visits (lots.put lot.acquisitionTrade row) ls := by
  obtain ⟨hfresh, hnodup⟩ := List.nodup_cons.mp hvisits.nodup
  refine ⟨fun lot' hlot' => ?_, fun lot' hlot' => hvisits.remaining lot' (List.mem_cons_of_mem _ hlot'), hnodup⟩
  have hne : lot'.acquisitionTrade ≠ lot.acquisitionTrade := fun heq => hfresh (List.mem_map.mpr ⟨lot', hlot', heq⟩)
  rw [Table.find_put_of_ne _ _ hne]
  exact hvisits.found lot' (List.mem_cons_of_mem _ hlot')

theorem Visits.tail {lots : Table String TaxLot} {lot : TaxLot} {ls : List TaxLot} (hvisits : Visits lots (lot :: ls)) :
    Visits lots ls :=
  ⟨fun lot' hlot' => hvisits.found lot' (List.mem_cons_of_mem _ hlot'),
    fun lot' hlot' => hvisits.remaining lot' (List.mem_cons_of_mem _ hlot'), (List.nodup_cons.mp hvisits.nodup).2⟩

-- What the loop keeps: what is disposed of so far and what is still needed make up the sale.
structure Disposing (book : TradeBook h) (v : ValuationTables) (sale : String) (d : Disposal) : Prop where
  lots : LotsSound h d.lots
  taken : disposedBy sale (·.quantity) d.lots + d.needed = (book.trade sale).quantity
  proceeds : disposedBy sale (·.proceeds) d.lots =
    (book.trade sale).grossNotional * disposedBy sale (·.quantity) d.lots / (book.trade sale).quantity
  others : ∀ sale', sale' ≠ sale → ∀ g, disposedBy sale' g d.lots = disposedBy sale' g v.lots
  known : ∀ key lot, d.lots.find key = some lot → ∀ x ∈ lot.dispositions,
    x.disposalTrade = sale ∨ v.realizedPnl.find x.disposalTrade ≠ none

theorem Disposing.step {d : Disposal} {lot : TaxLot} {ls : List TaxLot} (hd : Disposing book v sale d)
    (hvisits : Visits d.lots (lot :: ls)) :
    Disposing book v sale (disposeLot (book.trade sale) d lot) ∧
      Visits (disposeLot (book.trade sale) d lot).lots ls := by
  rcases disposeLot_cases (book.trade sale) d lot with ⟨-, heq⟩ | ⟨hneeded, heq⟩
  · rw [heq]
    exact ⟨hd, hvisits.tail⟩
  · have hkept : LotsKept (disposeLot (book.trade sale) d lot).lots := disposeLot_kept hd.lots.kept lot
    rw [heq] at hkept ⊢
    have hlot := hvisits.found lot List.mem_cons_self
    have hquantity : 0 < min d.needed lot.remainingQuantity :=
      lt_min hneeded (hvisits.remaining lot List.mem_cons_self)
    have hput := disposedBy_put hlot (book.trade sale) (min d.needed lot.remainingQuantity)
    simp only [book.executionId] at hput
    refine ⟨⟨⟨hkept, fun key row hrow => ?_, fun key row hrow => ?_⟩, ?_, ?_, fun sale' hsale g => ?_,
      fun key row hrow x hx => ?_⟩, hvisits.next _⟩
    · rcases Table.find_put_cases hrow with ⟨-, rfl⟩ | ⟨-, hold⟩
      · exact hd.lots.holding _ lot hlot
      · exact hd.lots.holding key row hold
    · rcases Table.find_put_cases hrow with ⟨-, rfl⟩ | ⟨-, hold⟩
      · exact (hd.lots.sound _ lot hlot).dispose _ hquantity
      · exact hd.lots.sound key row hold
    · rw [hput sale, if_pos rfl, ← hd.taken]
      ring
    · rw [hput sale, if_pos rfl, hput sale, if_pos rfl, hd.proceeds]
      ring
    · rw [hput sale', if_neg (Ne.symm hsale), add_zero]
      exact hd.others sale' hsale g
    · rcases Table.find_put_cases hrow with ⟨-, rfl⟩ | ⟨-, hold⟩
      · rcases List.mem_append.mp hx with hprior | hnew
        · exact hd.known _ lot hlot x hprior
        · rw [List.mem_singleton.mp hnew]
          exact .inl (book.executionId sale)
      · exact hd.known key row hold x hx

theorem Disposing.run {ls : List TaxLot} {d : Disposal} (hd : Disposing book v sale d) (hvisits : Visits d.lots ls) :
    Disposing book v sale (ls.foldl (disposeLot (book.trade sale)) d) := by
  induction ls generalizing d with
  | nil => exact hd
  | cons lot ls ih =>
    obtain ⟨hd', hvisits'⟩ := hd.step hvisits
    exact ih hd' hvisits'

theorem AccountsSound.undisposed (hs : AccountsSound book v) (hnone : v.realizedPnl.find sale = none)
    {g : TaxLotDisposition → ℚ} : disposedBy sale g v.lots = 0 := by
  refine Table.sum_eq_zero fun key lot hlot => ?_
  have hempty : lot.dispositions.filter (·.disposalTrade = sale) = [] := by
    refine List.filter_eq_nil_iff.mpr fun d hd heq => ?_
    rw [← of_decide_eq_true heq] at hnone
    exact hs.known key lot hlot d hd hnone
  rw [hempty]
  rfl

theorem AccountsSound.disposing (hs : AccountsSound book v) (hnone : v.realizedPnl.find sale = none) :
    Disposing book v sale { needed := (book.trade sale).quantity, allocatedBasis := 0, lots := v.lots } where
  lots := hs.lots
  taken := by
    rw [hs.undisposed hnone, zero_add]
  proceeds := by
    rw [hs.undisposed hnone, hs.undisposed hnone, mul_zero, zero_div]
  others _ _ _ := rfl
  known key lot hlot d hd := .inr (hs.known key lot hlot d hd)

theorem AccountsSound.visits (hs : AccountsSound book v) : Visits v.lots (v.lotsInOrder h) where
  found lot hlot := by
    obtain ⟨⟨key, hkey⟩, -, -⟩ :=
      ValuationTables.mem_remainingLots.mp (ValuationTables.mem_lotsInOrder.mp hlot)
    rw [hs.lots.kept.keyed key lot hkey]
    exact hkey
  remaining lot hlot := (ValuationTables.mem_remainingLots.mp (ValuationTables.mem_lotsInOrder.mp hlot)).2.2
  nodup := ValuationTables.nodup_lotsInOrder hs.lots.kept

-- The loop over the selected lots covers a sale that they can cover.
def disposed (trade : Trade) (v : ValuationTables) : Disposal :=
  (v.lotsInOrder trade.holding).foldl (disposeLot trade)
    { needed := trade.quantity, allocatedBasis := 0, lots := v.lots }

theorem AccountsSound.covers (hs : AccountsSound book v)
    (henough : (book.trade sale).quantity ≤ ((v.lotsInOrder h).map (·.remainingQuantity)).sum) :
    (disposed (book.trade sale) v).needed = 0 := by
  have hmem : ∀ lot ∈ v.lotsInOrder h, v.lots.find lot.acquisitionTrade = some lot ∧ lot.holding = h := fun lot hlot =>
    ⟨hs.visits.found lot hlot, (ValuationTables.mem_remainingLots.mp (ValuationTables.mem_lotsInOrder.mp hlot)).2.1⟩
  obtain ⟨-, hnonneg, hle, -⟩ := disposeLots_spec (book.trade sale) h (v.lotsInOrder h)
    { needed := (book.trade sale).quantity, allocatedBasis := 0, lots := v.lots } hs.lots.kept hs.visits.nodup hmem
    (book.captured sale).le
  have hzero : max 0 ((book.trade sale).quantity - ((v.lotsInOrder h).map (·.remainingQuantity)).sum) = 0 :=
    max_eq_left (by linarith)
  rw [disposed, book.holding sale]
  exact le_antisymm (hle.trans hzero.le) hnonneg

end Sound

section Bookings

variable {h : Holding} {book : TradeBook h} {v v' : ValuationTables} {env : Env} {sale : String} {trade : Trade}

theorem feeOf_eq_ok {fee : ℚ} (hfee : feeOf trade = .ok fee) :
    ∃ snapshot, trade.feeSnapshot = some snapshot ∧ snapshot.totalFee = fee := by
  obtain ⟨snapshot, hsnapshot, hpure⟩ := bind_eq_ok.mp hfee
  exact ⟨snapshot, demand_eq_ok.mp hsnapshot, pure_eq_ok.mp hpure⟩

def openedLot (env : Env) (trade : Trade) (fee : ℚ) : TaxLot where
  id := env.uuid4 "TaxLot"
  tenantRef := trade.tenantRef
  accountRef := trade.accountRef
  instrumentId := trade.instrumentId
  acquisitionTrade := trade.executionId
  acquisitionDate := Timestamp.date trade.tradeTime
  createdAt := env.now
  originalQuantity := trade.quantity
  remainingQuantity := trade.quantity
  unitCost := (trade.grossNotional + fee) / trade.quantity
  totalCost := trade.grossNotional + fee
  currency := trade.tradeCurrency
  status := .opened

-- What the booking of a trade writes.
inductive BooksLots (env : Env) (trade : Trade) (v : ValuationTables) : ValuationTables → Prop where
  | nothing (hbooked : trade.side = .sell → v.realizedPnl.find trade.executionId ≠ none) : BooksLots env trade v v
  | opened (fee : ℚ) (hside : trade.side = .buy) (hfree : v.lots.find trade.executionId = none) :
      BooksLots env trade v { v with lots := v.lots.put trade.executionId (openedLot env trade fee) }
  | disposed (event : RealizedPnLEvent) (hside : trade.side = .sell) (hnone : v.realizedPnl.find trade.executionId = none)
      (henough : trade.quantity ≤ ((v.lotsInOrder trade.holding).map (·.remainingQuantity)).sum) :
      BooksLots env trade v { v with
        lots := (disposed trade v).lots, realizedPnl := v.realizedPnl.put trade.executionId event }

theorem bookLots_booksLots (hbook : bookLots env trade v = .ok v') : BooksLots env trade v v' := by
  unfold bookLots at hbook
  cases hside : trade.side with
  | buy =>
    rw [hside] at hbook
    obtain ⟨_, -, h₁⟩ := bind_eq_ok.mp hbook
    obtain ⟨fee, -, h₂⟩ := bind_eq_ok.mp h₁
    dsimp only at h₂
    cases hlot : v.lots.find trade.executionId with
    | some lot =>
      rw [hlot] at h₂
      obtain rfl := pure_eq_ok.mp h₂
      exact .nothing fun hsell => absurd (hside.symm.trans hsell) (by decide)
    | none =>
      rw [hlot] at h₂
      obtain rfl := pure_eq_ok.mp h₂
      exact .opened fee hside hlot
  | sell =>
    rw [hside] at hbook
    dsimp only [disposeFifo] at hbook
    cases hevent : v.realizedPnl.find trade.executionId with
    | some event =>
      rw [hevent] at hbook
      obtain rfl := pure_eq_ok.mp hbook
      exact .nothing fun _ => by rw [hevent]; exact Option.some_ne_none _
    | none =>
      rw [hevent] at hbook
      obtain ⟨_, henough, h₁⟩ := bind_eq_ok.mp hbook
      obtain ⟨fee, -, h₂⟩ := bind_eq_ok.mp h₁
      obtain rfl := pure_eq_ok.mp h₂
      exact .disposed _ hside hevent (require_eq_ok.mp henough)

theorem BooksLots.incomeExpense (hbooks : BooksLots env trade v v') : v'.incomeExpense = v.incomeExpense := by
  cases hbooks <;> rfl

theorem BooksLots.sold (hbooks : BooksLots env trade v v') (hsold : v'.realizedPnl.find sale ≠ none)
    (hsale : sale ≠ trade.executionId) : v.realizedPnl.find sale ≠ none := by
  cases hbooks with
  | nothing => exact hsold
  | opened fee hside hfree => exact hsold
  | disposed event hside hnone henough =>
    rw [Table.find_put_of_ne _ _ hsale] at hsold
    exact hsold

theorem AccountsSound.opened (hs : AccountsSound book v) (id : String) (fee : ℚ) (hfree : v.lots.find id = none) :
    AccountsSound book { v with lots := v.lots.put id (openedLot env (book.trade id) fee) } where
  lots := by
    have hquantity := book.captured id
    refine ⟨⟨fun key lot hlot => ?_, fun key lot hlot => ?_⟩, fun key lot hlot => ?_, fun key lot hlot => ?_⟩
    all_goals rcases Table.find_put_cases hlot with ⟨rfl, rfl⟩ | ⟨-, hold⟩
    · exact book.executionId _
    · exact hs.lots.kept.keyed key lot hold
    · exact hquantity.le
    · exact hs.lots.kept.nonneg key lot hold
    · exact book.holding _
    · exact hs.lots.holding key lot hold
    · refine ⟨?_, ?_, hquantity, fun d hd => absurd hd List.not_mem_nil⟩
      · simp [TaxLot.total, openedLot]
      · simp only [TaxLot.total, openedLot, List.map_nil, List.sum_nil, zero_add]
        exact mul_div_cancel₀ _ hquantity.ne'
    · exact hs.lots.sound key lot hold
  sold sale hsale := by
    have hput (g : TaxLotDisposition → ℚ) :
        disposedBy sale g (v.lots.put id (openedLot env (book.trade id) fee)) = disposedBy sale g v.lots := by
      rw [disposedBy, Table.sum_put_of_none hfree]
      simp [openedLot, disposedBy]
    rw [hput, hput]
    exact hs.sold sale hsale
  known key lot hlot d hd := by
    rcases Table.find_put_cases hlot with ⟨-, rfl⟩ | ⟨-, hold⟩
    · exact absurd hd List.not_mem_nil
    · exact hs.known key lot hold d hd

theorem AccountsSound.disposed (hs : AccountsSound book v) (hnone : v.realizedPnl.find sale = none)
    (henough : (book.trade sale).quantity ≤ ((v.lotsInOrder h).map (·.remainingQuantity)).sum) (event : RealizedPnLEvent) :
    AccountsSound book { v with
      lots := (disposed (book.trade sale) v).lots, realizedPnl := v.realizedPnl.put sale event } := by
  have hcovers := hs.covers henough
  have hdisposing : Disposing book v sale (Beyvra.disposed (book.trade sale) v) := by
    rw [Beyvra.disposed, book.holding sale]
    exact (hs.disposing hnone).run hs.visits
  have htaken : disposedBy sale (·.quantity) (Beyvra.disposed (book.trade sale) v).lots = (book.trade sale).quantity := by
    rw [← hdisposing.taken, hcovers, add_zero]
  refine ⟨hdisposing.lots, fun sale' hsale => ?_, fun key lot hlot d hd hfree => ?_⟩
  · by_cases heq : sale' = sale
    · subst heq
      refine ⟨htaken, ?_⟩
      rw [hdisposing.proceeds, htaken]
      exact mul_div_cancel_right₀ _ (book.captured sale').ne'
    · rw [Table.find_put_of_ne _ _ heq] at hsale
      rw [hdisposing.others sale' heq, hdisposing.others sale' heq]
      exact hs.sold sale' hsale
  · by_cases heq : d.disposalTrade = sale
    · rw [heq, Table.find_put_self] at hfree
      cases hfree
    · rw [Table.find_put_of_ne _ _ heq] at hfree
      exact ((hdisposing.known key lot hlot d hd).resolve_left heq) hfree

theorem AccountsSound.books (hs : AccountsSound book v) (hbooks : BooksLots env (book.trade sale) v v') :
    AccountsSound book v' := by
  generalize htrade : book.trade sale = trade at hbooks
  cases hbooks with
  | nothing => exact hs
  | opened fee hside hfree =>
    subst htrade
    rw [book.executionId] at hfree ⊢
    exact hs.opened sale fee hfree
  | disposed event hside hnone henough =>
    subst htrade
    rw [book.executionId] at hnone ⊢
    rw [book.holding] at henough
    exact hs.disposed hnone henough event

theorem processTradeAccounting_eq_ok (hprocess : processTradeAccounting env trade v = .ok v') :
    ∃ v₁ snapshot, BooksLots env trade v v₁ ∧ trade.feeSnapshot = some snapshot ∧
      v' = calculateCostBasis env trade.holding (recordCommission trade snapshot.totalFee v₁) := by
  obtain ⟨v₁, hbook, h₁⟩ := bind_eq_ok.mp hprocess
  obtain ⟨fee, hfee, h₂⟩ := bind_eq_ok.mp h₁
  obtain ⟨snapshot, hsnapshot, rfl⟩ := feeOf_eq_ok hfee
  exact ⟨v₁, snapshot, bookLots_booksLots hbook, hsnapshot, (pure_eq_ok.mp h₂).symm⟩

theorem recordCommission_kept (trade : Trade) (fee : ℚ) (v : ValuationTables) {key : String}
    (hkey : v.incomeExpense.find key ≠ none) : (recordCommission trade fee v).incomeExpense.find key ≠ none := by
  unfold recordCommission
  split
  · exact hkey
  · cases hevent : v.incomeExpense.find trade.executionId with
    | some event => exact hkey
    | none =>
      by_cases heq : key = trade.executionId
      · rw [heq, Table.find_put_self]
        exact Option.some_ne_none _
      · rw [Table.find_put_of_ne _ _ heq]
        exact hkey

theorem recordCommission_charged (trade : Trade) {fee : ℚ} (v : ValuationTables) (hfee : fee ≠ 0) :
    (recordCommission trade fee v).incomeExpense.find trade.executionId ≠ none := by
  rw [recordCommission, if_neg hfee]
  cases hevent : v.incomeExpense.find trade.executionId with
  | some event =>
    have hkept : v.incomeExpense.find trade.executionId ≠ none := by
      rw [hevent]
      exact Option.some_ne_none _
    exact hkept
  | none =>
    rw [Table.find_put_self]
    exact Option.some_ne_none _

structure BooksSound (book : TradeBook h) (v : ValuationTables) : Prop where
  accounts : AccountsSound book v
  commissioned : Commissioned book v

theorem BooksSound.step (hs : BooksSound book v) (op : Env × String) : BooksSound book (accountStep book v op) := by
  obtain ⟨env, sale⟩ := op
  rcases commitState_cases (processTradeAccounting env (book.trade sale)) v with ⟨v', hok, heq⟩ | ⟨-, heq⟩
  · rw [accountStep, heq]
    obtain ⟨v₁, snapshot, hbooks, hsnapshot, rfl⟩ := processTradeAccounting_eq_ok hok
    have haccounts := hs.accounts.books hbooks
    refine ⟨⟨?_, ?_, ?_⟩, fun sale' hsold => ?_⟩
    · simpa using haccounts.lots
    · simpa using haccounts.sold
    · simpa using haccounts.known
    · rw [calculateCostBasis_realizedPnl, recordCommission_realizedPnl] at hsold
      by_cases hsale : sale' = sale
      · subst hsale
        refine ⟨snapshot, hsnapshot, fun hfee => ?_⟩
        have hcharged := recordCommission_charged (book.trade sale') v₁ hfee
        rwa [book.executionId] at hcharged
      · have hother : sale' ≠ (book.trade sale).executionId := by
          rw [book.executionId]
          exact hsale
        obtain ⟨snapshot', hsnapshot', hevent⟩ := hs.commissioned sale' (hbooks.sold hsold hother)
        refine ⟨snapshot', hsnapshot', fun hfee => recordCommission_kept _ _ _ ?_⟩
        rw [hbooks.incomeExpense]
        exact hevent hfee
  · rwa [accountStep, heq]

theorem AccountsSound.accounted (hs : AccountsSound book v) : LotsAccounted book v where
  quantities key lot hlot := ⟨(hs.lots.sound key lot hlot).quantity, hs.lots.kept.nonneg key lot hlot⟩
  costs := by
    have hadd : (v.lots.sum fun _ lot => lot.total (·.allocatedBasis)) +
        (v.lots.sum fun _ lot => lot.remainingQuantity * lot.unitCost) =
          v.lots.sum fun _ lot => lot.total (·.allocatedBasis) + lot.remainingQuantity * lot.unitCost :=
      List.sum_map_add.symm
    rw [hadd]
    exact Table.sum_congr fun key lot hlot => (hs.lots.sound key lot hlot).cost
  sales sale event hevent := hs.sold sale (by rw [hevent]; exact Option.some_ne_none _)

theorem AccountsSound.refusesOversold (hs : AccountsSound book v) (op : Env × String) : RefusesOversold book v op := by
  intro hside hnone hheld
  have herror : processTradeAccounting op.1 (book.trade op.2) v =
      .error (.valueError "TAX_LOT_INSUFFICIENT_QUANTITY") := by
    have hshort : ¬(book.trade op.2).quantity ≤ ((v.lotsInOrder h).map (·.remainingQuantity)).sum := by
      rw [ValuationTables.sum_lotsInOrder hs.lots.kept]
      exact not_le.mpr hheld
    refine bind_of_error ?_
    rw [bookLots, hside]
    dsimp only
    rw [disposeFifo, book.executionId, hnone, book.holding]
    exact bind_of_error (require_of_not hshort)
  exact ⟨herror, commitState_of_error herror⟩

theorem BooksSound.ignoresRepeated (hs : BooksSound book v) (op : Env × String) : IgnoresRepeated book v op := by
  intro hside hsold
  have hdispose : disposeFifo (book.trade op.2) v = .ok v := by
    rw [disposeFifo, book.executionId]
    cases hevent : v.realizedPnl.find op.2 with
    | some event => rfl
    | none => exact absurd hevent hsold
  refine ⟨hdispose, ?_⟩
  have hbook : bookLots op.1 (book.trade op.2) v = .ok v := by
    rw [bookLots, hside]
    exact hdispose
  obtain ⟨snapshot, hsnapshot, hevent⟩ := hs.commissioned op.2 hsold
  have hrecord : recordCommission (book.trade op.2) snapshot.totalFee v = v := by
    rw [recordCommission]
    by_cases hfee : snapshot.totalFee = 0
    · rw [if_pos hfee]
    · rw [if_neg hfee, book.executionId]
      cases hexpense : v.incomeExpense.find op.2 with
      | some event => rfl
      | none => exact absurd hexpense (hevent hfee)
  refine commitState_of_ok ?_
  rw [processTradeAccounting, bind_of_ok hbook, bind_of_ok (feeOf_of hsnapshot), hrecord, book.holding]
  rfl

end Bookings

end Beyvra
