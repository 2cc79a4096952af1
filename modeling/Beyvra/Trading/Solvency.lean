import Beyvra.Trading.FinishedOrders

namespace Beyvra

open Relational

section Listing

variable {instruments : Set String} {l l' : Ledger} {db db' : Database}

def Settings.Lists (settings : Settings) (instruments : Set String) : Prop :=
  ∀ instrument price, settings.priceOf instrument = some price → instrument ∈ instruments

def OrdersListed (t : TradingTables) (instruments : Set String) : Prop :=
  ∀ id o, t.orders.find id = some o → o.instrumentId ∈ instruments

def Regime.listing (instruments : Set String) : Regime :=
  { Regime.any with instrument := fun instrument => instrument ∈ instruments }

theorem OrdersListed.update {t : TradingTables} (h : OrdersListed t instruments) {id : Uuid}
    {o : TradingOrder} (ho : o.instrumentId ∈ instruments) {k : Uuid} {x : TradingOrder}
    (hx : (t.orders.put id o).find k = some x) : x.instrumentId ∈ instruments := by
  rcases Table.find_put_cases hx with ⟨rfl, rfl⟩ | ⟨_, hx'⟩
  · exact ho
  · exact h k x hx'

theorem OrdersListed.effect (h : OrdersListed l.trading instruments)
    (he : Effect (.listing instruments) l l') : OrdersListed l'.trading instruments := by
  cases he with
  | enrolled ref a hn => exact h
  | identified ref i a ha hm => exact h
  | placed o r a d hp hF => exact fun k x hx => h.update hF hx
  | moved id o o' r r' ho hr hm =>
    have hlisted : o'.instrumentId ∈ instruments := hm.terms.1.instrument ▸ h id o ho
    exact fun k x hx => h.update hlisted hx
  | closed id o o' r r' e event ho hr hm hnone =>
    have hlisted : o'.instrumentId ∈ instruments := hm.terms.1.instrument ▸ h id o ho
    exact fun k x hx => h.update hlisted hx
  | filled id o r a e now event l' ho hr ha hnone hf hF hbooks htrading hprocessed =>
    intro k x hx
    rw [htrading] at hx
    exact h.update (o := filledOrder o e now) (h id o ho) hx
  | invalidated env change hF =>
    intro k x hx
    obtain ⟨y, hy, rfl⟩ := (relabelled_invalidate env change l.trading).back hx
    rw [(invalidateIf_terms env change y).1.instrument]
    exact h k y hy
  | consumed key event hne => exact h

theorem OrdersListed.effects (h : OrdersListed l.trading instruments)
    (he : Effects (.listing instruments) l l') : OrdersListed l'.trading instruments := by
  induction he with
  | refl => exact h
  | tail _ hlast ih => exact ih.effect hlast

theorem Settings.Lists.meets {call : Call} (h : call.env.settings.Lists instruments) (db : Database) :
    call.meets (.listing instruments) db := by
  have hpayload {data : OrderRequest} {payload : OrderPayload}
      (hp : normalizedPayload call.env.settings data = .ok payload) :
      payload.instrumentId ∈ instruments := h _ _ (normalizedPayload_eq_ok hp).2
  obtain ⟨env, op⟩ := call
  cases op with
  | createAllowed user data key correlationId recordGiven => exact fun _ hp => hpayload hp
  | createTransaction user data key correlationId => exact fun _ hp => hpayload hp
  | process orderId scenario => exact fun _ _ _ _ _ _ _ => fillsIn_of_all (fun _ _ => trivial) _ _ _
  | consume eventId orderId =>
    exact fun _ _ _ _ _ _ _ _ => fillsIn_of_all (fun _ _ => trivial) _ _ _
  | execute orderId execution => exact fun _ => trivial
  | comply mutation => exact fun _ _ => trivial
  | _ => trivial

end Listing

section Reserved

variable {instruments : Set String} {l : Ledger} {ref : String} {a : SimulatedAccount}

theorem Inv.reserved_le_held (h : Inv l) {asset : String} {p : TradingOrder → Bool}
    (hp : ∀ id o r, l.trading.orders.find id = some o → l.trading.reservations.find id = some r →
      o.accountRef = ref → r.asset = asset → p o = true) :
    l.trading.activeReserved ref asset ≤ l.trading.held p := by
  apply Table.sum_le_sum
  intro id r hr
  obtain ⟨o, ho⟩ := h.owned id r hr
  have hb := h.backing ho hr
  split
  · rename_i hmatch
    have hown := hp id o r ho hr (hb.account ▸ hmatch.1) hmatch.2.1
    rw [heldFor_some ho, if_pos hown]
  · exact heldFor_nonneg hb.remaining

theorem Inv.reserved_le_buys (h : Inv l) (hlisted : OrdersListed l.trading instruments)
    (ha : l.trading.accounts.find ref = some a)
    (hquote : ∀ instrument ∈ instruments, baseAsset instrument ≠ a.quoteCurrency) :
    l.trading.activeReserved ref a.quoteCurrency ≤ l.trading.held (buysOf ref) := by
  apply h.reserved_le_held
  intro id o r ho hr haccount hasset
  obtain ⟨b, hb, hfunded⟩ := h.funded id o r ho hr
  rw [haccount, ha] at hb
  obtain rfl := Option.some.inj hb
  cases hs : o.side with
  | buy => simp [buysOf, hs, haccount]
  | sell =>
    have hbase : baseAsset o.instrumentId = a.quoteCurrency := by
      rw [← hasset, hfunded, assetOf, hs]
    exact absurd hbase (hquote _ (hlisted id o ho))

theorem Inv.reserved_le_sells (h : Inv l) (hlisted : OrdersListed l.trading instruments)
    (hone : Set.InjOn baseAsset instruments) (ha : l.trading.accounts.find ref = some a)
    {instrument : String} (hin : instrument ∈ instruments)
    (hquote : baseAsset instrument ≠ a.quoteCurrency) :
    l.trading.activeReserved ref (baseAsset instrument) ≤ l.trading.held (sellsOf ref instrument) := by
  apply h.reserved_le_held
  intro id o r ho hr haccount hasset
  obtain ⟨b, hb, hfunded⟩ := h.funded id o r ho hr
  rw [haccount, ha] at hb
  obtain rfl := Option.some.inj hb
  cases hs : o.side with
  | buy =>
    have hbase : baseAsset instrument = a.quoteCurrency := by
      rw [← hasset, hfunded, assetOf, hs]
    exact absurd hbase hquote
  | sell =>
    have hbase : baseAsset o.instrumentId = baseAsset instrument := by
      rw [← hasset, hfunded, assetOf, hs]
    have hsame := hone (hlisted id o ho) hin hbase
    simp [sellsOf, hs, haccount, hsame]

theorem Inv.available_nonneg (h : Inv l) (hlisted : OrdersListed l.trading instruments)
    (ha : l.trading.accounts.find ref = some a)
    (hquote : ∀ instrument ∈ instruments, baseAsset instrument ≠ a.quoteCurrency) :
    0 ≤ l.trading.availableQuote a := by
  have hsolvent := h.solvent ref a ha
  have hle := (h.reserved_le_buys hlisted ha hquote).trans hsolvent.covered
  unfold TradingTables.availableQuote
  rw [hsolvent.pending, hsolvent.keyed]
  linarith

end Reserved

structure NoOverspend (t : TradingTables) (instruments : Set String) (ref : String)
    (a : SimulatedAccount) : Prop where
  pending : a.pendingBalance = 0
  available : 0 ≤ t.availableQuote a
  sellable : ∀ instrument ∈ instruments,
    t.activeReserved ref (baseAsset instrument) ≤ (t.positionAt ref instrument).quantity

theorem no_overspend {instruments : Set String} {db db' : Database}
    (hone : Set.InjOn baseAsset instruments) (hinit : Initial db)
    (hrun : Reaches step (fun _ call => call.env.settings.Lists instruments) db db') :
    (∀ ref a, db'.trading.accounts.find ref = some a →
      (∀ instrument ∈ instruments, baseAsset instrument ≠ a.quoteCurrency) →
      NoOverspend db'.trading instruments ref a) ∧
    ∀ id r, db'.trading.reservations.find id = some r → 0 ≤ r.remainingAmount := by
  have heffects := hinit.inv.run_effects (fun d _ hlists => hlists.meets d) hrun
  have hinv := hinit.inv.effects heffects
  have hnone : OrdersListed db.ledger.trading instruments := by
    intro id o ho
    rw [show db.ledger.trading.orders = Table.empty from hinit.orders] at ho
    simp at ho
  have hlisted := hnone.effects heffects
  refine ⟨?_, hinv.remaining⟩
  intro ref a ha hquote
  refine ⟨(hinv.solvent ref a ha).pending, hinv.available_nonneg hlisted ha hquote, ?_⟩
  intro instrument hin
  exact (hinv.reserved_le_sells hlisted hone ha hin (hquote instrument hin)).trans
    (hinv.covered ref instrument)

theorem no_overspend_after_fill :
    ∃ a, (step (step freshDatabase createTen) (fillTen 90)).trading.accounts.find "sim:alice" = some a ∧
      NoOverspend (step (step freshDatabase createTen) (fillTen 90)).trading {"BTC-USD"} "sim:alice" a := by
  have hlists : (fixtureEnv [("BTC-USD", 100)]).settings.Lists {"BTC-USD"} := by
    intro instrument price hprice
    by_contra hne
    simp [fixtureEnv, Settings.priceOf, List.lookup_cons, beq_eq_false_iff_ne.mpr hne] at hprice
  have hcurrency : ((step (step freshDatabase createTen) (fillTen 90)).trading.accounts.find
      "sim:alice").map (·.quoteCurrency) = some "USD" := by
    decide +kernel
  obtain ⟨a, ha, hquote⟩ := Option.map_eq_some_iff.mp hcurrency
  have hbase : ∀ instrument ∈ ({"BTC-USD"} : Set String), baseAsset instrument ≠ a.quoteCurrency := by
    rintro _ rfl
    rw [hquote]
    decide +kernel
  have hspend := no_overspend (Set.injOn_singleton baseAsset "BTC-USD") freshDatabase_initial
    (.tail (.single ⟨createTen, hlists, rfl⟩) ⟨fillTen 90, hlists, rfl⟩)
  exact ⟨a, ha, hspend.1 "sim:alice" a ha hbase⟩

end Beyvra
