import Mathlib.Data.String.Basic
import Beyvra.Valuation.LotConservation

namespace Beyvra

open Relational

namespace ValuationTables

-- All lots of a holding, in the order in which sales dispose of them.
def lotsByAcquisition (v : ValuationTables) (h : Holding) : List TaxLot :=
  (v.lots.values.filter fun lot => lot.holding = h).insertionSort TaxLot.acquiredBefore

end ValuationTables

def TaxLot.Exhausted (lot : TaxLot) : Prop := lot.remainingQuantity = 0

def TaxLot.Started (lot : TaxLot) : Prop :=
  0 < lot.remainingQuantity ∧ lot.remainingQuantity < lot.originalQuantity

def TaxLot.Untouched (lot : TaxLot) : Prop := lot.remainingQuantity = lot.originalQuantity

-- Fully disposed lots, then at most one that is partially disposed, then untouched ones.
def InFifoOrder (lots : List TaxLot) : Prop :=
  ∃ exhausted started untouched, lots = exhausted ++ started ++ untouched ∧ (∀ lot ∈ exhausted, lot.Exhausted) ∧
    started.length ≤ 1 ∧ (∀ lot ∈ started, lot.Started) ∧ ∀ lot ∈ untouched, lot.Untouched

-- A new lot comes after the lots there are, by its date, its creation time or, where both are equal to those of a
-- lot that is disposed of in part, by its id.
def OpensInTurn {h : Holding} (book : TradeBook h) (v : ValuationTables) (op : Env × String) : Prop :=
  (book.trade op.2).side = .buy → v.lots.find op.2 = none → ∀ key lot, v.lots.find key = some lot →
    lot.id ≠ op.1.uuid4 "TaxLot" ∧ lot.acquisitionDate ≤ Timestamp.date (book.trade op.2).tradeTime ∧
      lot.createdAt ≤ op.1.now ∧ (lot.acquisitionDate = Timestamp.date (book.trade op.2).tradeTime →
        lot.createdAt = op.1.now → ¬lot.Untouched → lot.id ≤ op.1.uuid4 "TaxLot")

structure FifoLots {h : Holding} (book : TradeBook h) (start : ValuationTables) (ops : List (Env × String)) : Prop where
  accounted : ∀ before after, ops = before ++ after → LotsAccounted book (before.foldl (accountStep book) start)
  oversold : Throughout (accountStep book) (RefusesOversold book) ops start
  repeated : Throughout (accountStep book) (IgnoresRepeated book) ops start
  ordered : Throughout (accountStep book) (OpensInTurn book) ops start → ∀ before after, ops = before ++ after →
    InFifoOrder ((before.foldl (accountStep book) start).lotsByAcquisition h)

section Order

variable {h : Holding} {book : TradeBook h} {v v' : ValuationTables} {env : Env} {sale : String} {trade : Trade}
  {lots : Table String TaxLot} {a b c : TaxLot}

theorem acquiredBefore_total (a b : TaxLot) : a.acquiredBefore b ∨ b.acquiredBefore a := by
  unfold TaxLot.acquiredBefore
  rcases lt_trichotomy a.acquisitionDate b.acquisitionDate with hlt | heq | hgt
  · exact .inl (.inl hlt)
  · rcases lt_trichotomy a.createdAt b.createdAt with hlt | hcreated | hgt
    · exact .inl (.inr ⟨heq, .inl hlt⟩)
    · rcases le_total a.id b.id with hle | hle
      · exact .inl (.inr ⟨heq, .inr ⟨hcreated, hle⟩⟩)
      · exact .inr (.inr ⟨heq.symm, .inr ⟨hcreated.symm, hle⟩⟩)
    · exact .inr (.inr ⟨heq.symm, .inl hgt⟩)
  · exact .inr (.inl hgt)

theorem acquiredBefore_trans (hab : a.acquiredBefore b) (hbc : b.acquiredBefore c) : a.acquiredBefore c := by
  unfold TaxLot.acquiredBefore at *
  rcases hab with hab | ⟨hab, hab'⟩ <;> rcases hbc with hbc | ⟨hbc, hbc'⟩
  · exact .inl (hab.trans hbc)
  · exact .inl (hbc ▸ hab)
  · exact .inl (hab ▸ hbc)
  · refine .inr ⟨hab.trans hbc, ?_⟩
    rcases hab' with hab' | ⟨hab', hid⟩ <;> rcases hbc' with hbc' | ⟨hbc', hid'⟩
    · exact .inl (hab'.trans hbc')
    · exact .inl (hbc' ▸ hab')
    · exact .inl (hab' ▸ hbc')
    · exact .inr ⟨hab'.trans hbc', hid.trans hid'⟩

theorem id_eq_of_acquiredBefore (hab : a.acquiredBefore b) (hba : b.acquiredBefore a) : a.id = b.id := by
  unfold TaxLot.acquiredBefore at *
  rcases hab with hab | ⟨hdate', hab | ⟨hcreated, hid⟩⟩ <;> rcases hba with hba | ⟨hdate, hba | ⟨hcreated', hid'⟩⟩
  all_goals first | exact le_antisymm hid hid' | (exfalso; linarith)

instance : Std.Total TaxLot.acquiredBefore := ⟨acquiredBefore_total⟩

instance : IsTrans TaxLot TaxLot.acquiredBefore := ⟨fun _ _ _ => acquiredBefore_trans⟩

-- No lot is touched before those acquired earlier are exhausted.
structure Fifo (lots : Table String TaxLot) : Prop where
  distinct : ∀ key key' a b, lots.find key = some a → lots.find key' = some b → a.id = b.id → key = key'
  inTurn : ∀ key key' a b, lots.find key = some a → lots.find key' = some b → key ≠ key' → a.acquiredBefore b →
    ¬b.Untouched → a.Exhausted

theorem Fifo.put {key : String} {lot : TaxLot} (hfifo : Fifo lots)
    (hid : ∀ key' b, lots.find key' = some b → b.id = lot.id → key' = key)
    (hlater : ∀ key' b, lots.find key' = some b → key' ≠ key → lot.acquiredBefore b → ¬b.Untouched → lot.Exhausted)
    (hearlier : ∀ key' a, lots.find key' = some a → key' ≠ key → a.acquiredBefore lot → ¬lot.Untouched → a.Exhausted) :
    Fifo (lots.put key lot) where
  distinct k k' a b ha hb hsame := by
    rcases Table.find_put_cases ha with ⟨rfl, rfl⟩ | ⟨-, haold⟩ <;>
      rcases Table.find_put_cases hb with ⟨rfl, rfl⟩ | ⟨-, hbold⟩
    · rfl
    · exact (hid k' b hbold hsame.symm).symm
    · exact hid k a haold hsame
    · exact hfifo.distinct k k' a b haold hbold hsame
  inTurn k k' a b ha hb hne hab htouched := by
    rcases Table.find_put_cases ha with ⟨rfl, rfl⟩ | ⟨hk, haold⟩ <;>
      rcases Table.find_put_cases hb with ⟨rfl, rfl⟩ | ⟨hk', hbold⟩
    · exact absurd rfl hne
    · exact hlater k' b hbold hk' hab htouched
    · exact hearlier k a haold hk hab htouched
    · exact hfifo.inTurn k k' a b haold hbold hne hab htouched

theorem Fifo.opened (hfifo : Fifo v.lots) (fee : ℚ) (hturn : OpensInTurn book v (env, sale))
    (hside : (book.trade sale).side = .buy) (hfree : v.lots.find sale = none) :
    Fifo (v.lots.put sale (openedLot env (book.trade sale) fee)) := by
  have hlots := hturn hside hfree
  refine hfifo.put (fun key b hb hid => absurd hid (hlots key b hb).1) (fun key b hb hne hbefore htouched => ?_)
    fun key a ha hne hafter htouched => absurd rfl htouched
  -- a touched lot is acquired before the new one, so not after it
  obtain ⟨hid, hdate, hcreated, htie⟩ := hlots key b hb
  refine absurd (id_eq_of_acquiredBefore ?_ hbefore) hid
  rcases hdate.lt_or_eq with hlt | heq
  · exact .inl hlt
  · refine .inr ⟨heq, ?_⟩
    rcases hcreated.lt_or_eq with hlt | heq'
    · exact .inl hlt
    · exact .inr ⟨heq', htie heq heq' htouched⟩

-- While the sale needs more, whatever has something left is still to be visited.
structure InTurn (d : Disposal) (ls : List TaxLot) : Prop where
  fifo : Fifo d.lots
  visits : Visits d.lots ls
  sorted : ls.Pairwise TaxLot.acquiredBefore
  pending : 0 < d.needed → ∀ key lot, d.lots.find key = some lot → 0 < lot.remainingQuantity → lot ∈ ls

theorem InTurn.step {d : Disposal} {lot : TaxLot} {ls : List TaxLot} (hturn : InTurn d (lot :: ls))
    (hkept : LotsKept d.lots) : InTurn (disposeLot trade d lot) ls := by
  obtain ⟨hfirst, hsorted⟩ := List.pairwise_cons.mp hturn.sorted
  rcases disposeLot_cases trade d lot with ⟨hdone, heq⟩ | ⟨hneeded, heq⟩
  · rw [heq]
    exact ⟨hturn.fifo, hturn.visits.tail, hsorted, fun hneeded => absurd hdone (not_le.mpr hneeded)⟩
  · have hlot := hturn.visits.found lot List.mem_cons_self
    have hremaining := hturn.visits.remaining lot List.mem_cons_self
    rw [heq]
    refine ⟨hturn.fifo.put (fun key b hb hid => ?_) (fun key b hb hne hbefore htouched => ?_)
      (fun key a ha hne hbefore _ => ?_), hturn.visits.next _, hsorted, fun hmore key row hrow hpositive => ?_⟩
    · exact hturn.fifo.distinct key lot.acquisitionTrade b lot hb hlot hid
    · -- a later lot is untouched while this one had something left
      have hexhausted := hturn.fifo.inTurn lot.acquisitionTrade key lot b hlot hb (Ne.symm hne) hbefore htouched
      exact absurd hexhausted hremaining.ne'
    · by_contra hleft
      have hpositive : 0 < a.remainingQuantity := lt_of_le_of_ne (hkept.nonneg key a ha) (Ne.symm hleft)
      have hne' : a ≠ lot := by
        rintro rfl
        exact hne (hkept.keyed key a ha).symm
      have hmem := (List.mem_cons.mp (hturn.pending hneeded key a ha hpositive)).resolve_left hne'
      have hid := id_eq_of_acquiredBefore hbefore (hfirst a hmem)
      exact hne (hturn.fifo.distinct key lot.acquisitionTrade a lot ha hlot hid)
    · have hwhole : min d.needed lot.remainingQuantity = lot.remainingQuantity := by
        rcases min_choice d.needed lot.remainingQuantity with hmin | hmin
        · rw [hmin, sub_self] at hmore
          exact absurd hmore (lt_irrefl 0)
        · exact hmin
      rcases Table.find_put_cases hrow with ⟨-, rfl⟩ | ⟨hne, hold⟩
      · rw [hwhole] at hpositive
        simp [TaxLot.dispose] at hpositive
      · have hne' : row ≠ lot := by
          rintro rfl
          exact hne (hkept.keyed key row hold).symm
        exact (List.mem_cons.mp (hturn.pending hneeded key row hold hpositive)).resolve_left hne'

theorem InTurn.run {d : Disposal} {ls : List TaxLot} (hturn : InTurn d ls) (hkept : LotsKept d.lots) :
    Fifo (ls.foldl (disposeLot trade) d).lots := by
  induction ls generalizing d with
  | nil => exact hturn.fifo
  | cons lot ls ih => exact ih (hturn.step hkept) (disposeLot_kept hkept lot)

theorem Fifo.disposed (hfifo : Fifo v.lots) (hs : AccountsSound book v) (sale : String) :
    Fifo (Beyvra.disposed (book.trade sale) v).lots := by
  rw [Beyvra.disposed, book.holding]
  refine InTurn.run ⟨hfifo, hs.visits, List.pairwise_insertionSort _ _, fun _ key lot hlot hpositive => ?_⟩ hs.lots.kept
  exact ValuationTables.mem_lotsInOrder.mpr
    (ValuationTables.mem_remainingLots.mpr ⟨⟨key, hlot⟩, hs.lots.holding key lot hlot, hpositive⟩)

theorem Fifo.step (hfifo : Fifo v.lots) (hs : AccountsSound book v) {op : Env × String}
    (hturn : OpensInTurn book v op) : Fifo (accountStep book v op).lots := by
  obtain ⟨env, sale⟩ := op
  rcases commitState_cases (processTradeAccounting env (book.trade sale)) v with ⟨v', hok, heq⟩ | ⟨-, heq⟩
  · rw [accountStep, heq]
    obtain ⟨v₁, snapshot, hbooks, -, rfl⟩ := processTradeAccounting_eq_ok hok
    rw [calculateCostBasis_lots, recordCommission_lots]
    generalize htrade : book.trade sale = trade at hbooks
    cases hbooks with
    | nothing => exact hfifo
    | opened fee hside hfree =>
      subst htrade
      rw [book.executionId] at hfree ⊢
      exact hfifo.opened fee hturn hside hfree
    | disposed event hside hnone henough =>
      subst htrade
      exact hfifo.disposed hs sale
  · rwa [accountStep, heq]

theorem inFifoOrder_of_pairwise {l : List TaxLot} (hl : l.Pairwise fun a b => ¬b.Untouched → a.Exhausted)
    (hstates : ∀ lot ∈ l, lot.Exhausted ∨ lot.Started ∨ lot.Untouched) : InFifoOrder l := by
  have hnone {P : TaxLot → Prop} : ∀ lot ∈ ([] : List TaxLot), P lot := fun _ hlot => absurd hlot List.not_mem_nil
  induction l with
  | nil => exact ⟨[], [], [], rfl, hnone, Nat.zero_le 1, hnone, hnone⟩
  | cons lot l ih =>
    obtain ⟨hfirst, hrest⟩ := List.pairwise_cons.mp hl
    have huntouched (hleft : ¬lot.Exhausted) : ∀ b ∈ l, b.Untouched := fun b hb =>
      not_not.mp fun htouched => hleft (hfirst b hb htouched)
    by_cases hexhausted : lot.Exhausted
    · obtain ⟨exhausted, started, untouched, heq, hex, hlength, hst, hun⟩ :=
        ih hrest fun b hb => hstates b (List.mem_cons_of_mem _ hb)
      exact ⟨lot :: exhausted, started, untouched, by rw [heq]; rfl, List.forall_mem_cons.mpr ⟨hexhausted, hex⟩, hlength,
        hst, hun⟩
    · rcases (hstates lot List.mem_cons_self).resolve_left hexhausted with hstarted | hwhole
      · exact ⟨[], [lot], l, rfl, hnone, le_rfl, List.forall_mem_cons.mpr ⟨hstarted, hnone⟩, huntouched hexhausted⟩
      · exact ⟨[], [], lot :: l, rfl, hnone, Nat.zero_le 1, hnone,
          List.forall_mem_cons.mpr ⟨hwhole, huntouched hexhausted⟩⟩

theorem InFifoOrder.pairwise {l : List TaxLot} (hl : InFifoOrder l) :
    l.Pairwise fun a b => ¬b.Untouched → a.Exhausted := by
  obtain ⟨exhausted, started, untouched, rfl, hexhausted, hlength, -, huntouched⟩ := hl
  have hstarted : started.Pairwise fun a b => ¬b.Untouched → a.Exhausted := by
    cases started with
    | nil => exact .nil
    | cons lot rest =>
      rw [List.eq_nil_of_length_eq_zero (Nat.le_zero.mp (Nat.le_of_succ_le_succ hlength))]
      exact List.pairwise_singleton _ _
  rw [List.append_assoc]
  refine List.pairwise_append.mpr ⟨?_, List.pairwise_append.mpr ⟨hstarted, ?_, ?_⟩, ?_⟩
  · exact List.pairwise_of_forall_mem_list fun a ha b _ _ => hexhausted a ha
  · exact List.pairwise_of_forall_mem_list fun a _ b hb htouched => absurd (huntouched b hb) htouched
  · exact fun a _ b hb htouched => absurd (huntouched b hb) htouched
  · exact fun a ha b _ _ => hexhausted a ha

theorem LotSound.state {lot : TaxLot} (hlot : LotSound lot) (hnonneg : 0 ≤ lot.remainingQuantity) :
    lot.Exhausted ∨ lot.Started ∨ lot.Untouched := by
  have htotal : 0 ≤ lot.total (·.quantity) := by
    refine List.sum_nonneg fun x hx => ?_
    obtain ⟨d, hd, rfl⟩ := List.mem_map.mp hx
    exact (hlot.disposed d hd).le
  have hquantity := hlot.quantity
  rcases hnonneg.eq_or_lt with hzero | hpositive
  · exact .inl hzero.symm
  · rcases (show lot.remainingQuantity ≤ lot.originalQuantity by linarith).lt_or_eq with hlt | heq
    · exact .inr (.inl ⟨hpositive, hlt⟩)
    · exact .inr (.inr heq)

theorem Fifo.inFifoOrder (hfifo : Fifo v.lots) (hs : AccountsSound book v) : InFifoOrder (v.lotsByAcquisition h) := by
  have hmem {lot : TaxLot} (hlot : lot ∈ v.lotsByAcquisition h) : v.lots.find lot.acquisitionTrade = some lot := by
    obtain ⟨key, hkey⟩ := Table.mem_values_iff.mp (List.mem_filter.mp ((List.mem_insertionSort _).mp hlot)).1
    rwa [hs.lots.kept.keyed key lot hkey]
  have hkeys : v.lots.values.map (·.acquisitionTrade) = v.lots.rows.map Prod.fst := by
    unfold Table.values
    rw [List.map_map]
    exact List.map_congr_left fun p hp => hs.lots.kept.keyed p.1 p.2 (Table.mem_rows_iff.mp hp)
  have hvalues : (v.lots.values.map (·.acquisitionTrade)).Nodup := hkeys ▸ v.lots.nodup
  have hnodup : ((v.lotsByAcquisition h).map (·.acquisitionTrade)).Nodup :=
    (((List.perm_insertionSort _ _).map _).nodup_iff).mpr (hvalues.sublist (List.filter_sublist.map _))
  have hsorted : (v.lotsByAcquisition h).Pairwise TaxLot.acquiredBefore := List.pairwise_insertionSort _ _
  refine inFifoOrder_of_pairwise ?_ fun lot hlot => (hs.lots.sound _ lot (hmem hlot)).state (hs.lots.kept.nonneg _ lot
    (hmem hlot))
  refine (hsorted.and (List.pairwise_map.mp hnodup)).imp_of_mem fun ha hb hab htouched => ?_
  exact hfifo.inTurn _ _ _ _ (hmem ha) (hmem hb) hab.2 hab.1 htouched

theorem empty_booksSound (book : TradeBook h) (v : ValuationTables) :
    BooksSound book { v with lots := .empty, realizedPnl := .empty } where
  accounts := by
    refine ⟨⟨⟨?_, ?_⟩, ?_, ?_⟩, fun sale hsale => absurd rfl hsale, ?_⟩
    all_goals exact fun key lot hlot => by cases hlot
  commissioned sale hsale := absurd rfl hsale

theorem fifo_lots {h : Holding} (book : TradeBook h) (v : ValuationTables) (ops : List (Env × String)) :
    FifoLots book { v with lots := .empty, realizedPnl := .empty } ops := by
  have hstart := empty_booksSound book v
  have hsound : Throughout (accountStep book) (fun v _ => BooksSound book v) ops
      { v with lots := .empty, realizedPnl := .empty } :=
    throughout_of_invariant (fun _ op hs => hs.step op) hstart
  refine ⟨fun before after heq => ?_, ?_, ?_, fun hturns before after heq => ?_⟩
  · subst heq
    exact ((throughout_append.mp hsound).1.reaches.invariant hstart fun _ op hs _ => hs.step op).accounts.accounted
  · exact throughout_iff.mpr fun before op after heq =>
      (throughout_iff.mp hsound before op after heq).accounts.refusesOversold op
  · exact throughout_iff.mpr fun before op after heq => (throughout_iff.mp hsound before op after heq).ignoresRepeated op
  · subst heq
    have hfifo : Fifo (Table.empty : Table String TaxLot) :=
      ⟨fun _ _ _ _ hlot => (by cases hlot), fun _ _ _ _ hlot => (by cases hlot)⟩
    have hkeeps (v : ValuationTables) (op : Env × String) (hv : BooksSound book v ∧ Fifo v.lots)
        (hturn : OpensInTurn book v op) : BooksSound book (accountStep book v op) ∧ Fifo (accountStep book v op).lots :=
      ⟨hv.1.step op, hv.2.step hv.1.accounts hturn⟩
    obtain ⟨hbooks, hordered⟩ :=
      (throughout_append.mp hturns).1.reaches.invariant (P := fun v => BooksSound book v ∧ Fifo v.lots)
        ⟨hstart, hfifo⟩ hkeeps
    exact hordered.inFifoOrder hbooks.accounts

end Order

section EqualTimes

def btc : Holding := ⟨"default", "account", "BTC"⟩

def seedMorning : Timestamp := calendarSeedDate * microsecondsPerDay

def morningTrade (id : String) : Trade where
  executionId := id
  tenantRef := "default"
  accountRef := "account"
  orderId := "order"
  instrumentId := "BTC"
  side := if id = "sale" then .sell else .buy
  quantity := if id = "sale" then 4 else 10
  price := 1
  grossNotional := if id = "sale" then 4 else 10
  tradeCurrency := "USD"
  tradeTime := seedMorning
  settlementDate := calendarSeedDate
  sourceEventId := id
  feeSnapshot := some { totalFee := 0, commission := 0, currency := "USD", pricingPolicyVersion := "simulation-fee-v1" }

def morningTrades : TradeBook btc where
  trade := morningTrade
  executionId _ := rfl
  holding _ := rfl
  captured id := by
    unfold morningTrade
    dsimp only
    split <;> norm_num

def atSeedMorning (id : Uuid) : Env where
  now := seedMorning
  settings := { simulatedExecutionPrices := [] }
  uuid4 _ := id
  seeded := by decide

-- Two lots of one moment, the second with the smaller id, and a sale between them.
def morning : List (Env × String) :=
  [(atSeedMorning "b", "first"), (atSeedMorning "c", "sale"), (atSeedMorning "a", "second")]

def Nondecreasing {h : Holding} (book : TradeBook h) (ops : List (Env × String)) : Prop :=
  ops.Pairwise fun a b => (book.trade a.2).tradeTime ≤ (book.trade b.2).tradeTime ∧ a.1.now ≤ b.1.now

theorem later_lot_overtakes : ¬∀ (h : Holding) (book : TradeBook h) (ops : List (Env × String)),
    Nondecreasing book ops → (ops.map fun op => op.1.uuid4 "TaxLot").Nodup → ∀ before after, ops = before ++ after →
      InFifoOrder ((before.foldl (accountStep book) {}).lotsByAcquisition h) := by
  intro hclaim
  have htimes : Nondecreasing morningTrades morning := by
    simp [Nondecreasing, morning, morningTrades, morningTrade, atSeedMorning]
  have hordered := (hclaim btc morningTrades morning htimes (by decide) morning [] rfl).pairwise
  have hlots : ((morning.foldl (accountStep morningTrades) {}).lotsByAcquisition btc).map
      (fun lot => (lot.remainingQuantity, lot.originalQuantity)) = [(10, 10), (6, 10)] := by decide +kernel
  have hpairs : (((morning.foldl (accountStep morningTrades) {}).lotsByAcquisition btc).map
      (fun lot => (lot.remainingQuantity, lot.originalQuantity))).Pairwise fun x y => x.1 ≠ 0 → y.1 = y.2 :=
    List.pairwise_map.mpr (hordered.imp fun hab hleft => not_not.mp fun htouched => hleft (hab htouched))
  rw [hlots] at hpairs
  simp at hpairs

end EqualTimes

end Beyvra
