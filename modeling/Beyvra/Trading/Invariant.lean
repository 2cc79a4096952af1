import Beyvra.Trading.Ledger

namespace Beyvra

open Relational

section Held

open TradingTables

variable {t : TradingTables} {id : Uuid} {o o' : TradingOrder} {r r' : SimulatedReservation}
  {p : TradingOrder → Bool}

theorem heldFor_put (hp : p o' = (t.orders.find id).any p) :
    heldFor (t.orders.put id o') p = heldFor t.orders p := by
  funext k row
  unfold heldFor
  rw [Table.find_put]
  split
  · rename_i hk
    simp [hk, hp]
  · rfl

theorem heldFor_some (ho : t.orders.find id = some o) :
    heldFor t.orders p id r = if p o then r.remainingAmount else 0 := by
  simp [heldFor, ho]

theorem heldFor_nonneg (hr : 0 ≤ r.remainingAmount) : 0 ≤ heldFor t.orders p id r := by
  unfold heldFor
  split
  · exact hr
  · exact le_rfl

theorem held_update (r' : SimulatedReservation) (ho : t.orders.find id = some o) (hr : t.reservations.find id = some r)
    (hp : p o' = p o) :
    (t.update id o' r').held p =
      t.held p + if p o then r'.remainingAmount - r.remainingAmount else 0 := by
  have hput : heldFor (t.orders.put id o') p = heldFor t.orders p :=
    heldFor_put (by rw [ho, hp, Option.any_some])
  unfold held
  change (t.reservations.put id r').sum (heldFor (t.orders.put id o') p) = _
  rw [hput, Table.sum_put_of_some hr, heldFor_some ho, heldFor_some ho]
  by_cases hpo : p o
  · simp only [hpo, if_true]
    ring
  · simp [hpo]

theorem held_place (hr : t.reservations.find id = none) :
    (t.update id o r).held p = t.held p + if p o then r.remainingAmount else 0 := by
  have hrest : t.reservations.sum (heldFor (t.orders.put id o) p) =
      t.reservations.sum (heldFor t.orders p) := by
    apply Table.sum_congr
    intro k row hrow
    have hne : k ≠ id := fun hk => by simp [hk, hr] at hrow
    unfold heldFor
    rw [Table.find_put_of_ne _ _ hne]
  unfold held
  change (t.reservations.put id r).sum (heldFor (t.orders.put id o) p) = _
  rw [Table.sum_put_of_none hr, hrest]
  simp [heldFor]

theorem held_nonneg (h : ∀ id r, t.reservations.find id = some r → 0 ≤ r.remainingAmount) :
    0 ≤ t.held p :=
  Table.sum_nonneg fun k row hrow => heldFor_nonneg (h k row hrow)

theorem remaining_le_held (h : ∀ id r, t.reservations.find id = some r → 0 ≤ r.remainingAmount)
    (ho : t.orders.find id = some o) (hr : t.reservations.find id = some r) (hp : p o) :
    r.remainingAmount ≤ t.held p := by
  have hle := Table.le_sum (g := heldFor t.orders p)
    (fun k row hrow => heldFor_nonneg (h k row hrow)) hr
  rwa [heldFor_some ho, if_pos hp] at hle

end Held

section Local

variable {id : Uuid} {o o' : TradingOrder} {r r' : SimulatedReservation} {e : SimulatedExecution}

theorem Backed.released (h : Backed id o r) : r.release.remainingAmount = 0 := by
  unfold SimulatedReservation.release
  split
  · rfl
  · rename_i hs
    have hpos : ¬0 < r.remainingAmount := fun hp => hs (h.active.mpr hp)
    exact le_antisymm (not_lt.mp hpos) h.remaining

theorem Backed.spendable (h : Backed id o r) (hr : 0 < r.remainingAmount) : r.state = .active :=
  h.active.mpr hr

theorem Backed.close (h : Backed id o r) (now : Timestamp) {state : OrderState}
    (hs : state ∈ [.cancelled, .rejected, .expired]) (hopen : o.state ≠ .filled) :
    Backed id { o with state, updatedAt := now } r.release := by
  have hne : o.filledQuantity ≠ o.quantity := fun heq => hopen (h.complete.mpr heq)
  refine { h with
    account := r.release_account.trans h.account
    original := r.release_original ▸ h.original
    remaining := h.released.ge
    active := ?_, complete := ?_, untouched := ?_, partly := ?_, settling := ?_, selling := ?_ }
  · have hstate : state ≠ .filled := by
      rintro rfl
      simp at hs
    exact ⟨fun heq => absurd heq hstate, fun heq => absurd heq hne⟩
  · exact ⟨fun hs => absurd hs r.release_state, fun hp => absurd h.released.le (not_le.mpr hp)⟩
  · intro hu
    exfalso
    simp only [List.mem_cons, List.not_mem_nil, or_false] at hs hu
    rcases hs with rfl | rfl | rfl <;> simp at hu
  · rintro rfl
    simp at hs
  · rintro rfl
    simp at hs
  · intro _ hnot
    exact absurd hs hnot

theorem workingState_eq_opened {state : OrderState} :
    workingState state = .opened ↔ state ∈ [.pending, .accepted, .opened] := by
  cases state <;> simp [workingState]

theorem not_filled_of_working {state : OrderState} (h : workingState state = .opened) :
    state ≠ .filled := by
  rintro rfl
  simp [workingState] at h

theorem Backed.move (h : Backed id o r) (hm : OrderMove o r o' r') : Backed id o' r' := by
  cases hm with
  | accept now hs =>
    exact { h with
      complete := by simpa [hs] using h.complete
      untouched := fun _ => h.untouched (by simp [hs])
      partly := by simp
      settling := by simp
      selling := fun hsell _ => h.selling hsell (by simp [hs]) }
  | opened now hs =>
    exact { h with
      complete := by simpa [hs] using h.complete
      untouched := fun _ => h.untouched (by simp [hs])
      partly := by simp
      settling := by simp
      selling := fun hsell _ => h.selling hsell (by simp [hs]) }
  | reject now hs => exact h.close now (by simp) (by simp [hs])
  | expire now hs => exact h.close now (by simp) (not_filled_of_working hs)
  | cancel now hs => exact h.close now (by simp) (by rintro hf; simp [hf, cancellable] at hs)

theorem fillTarget_eq_filled : fillTarget o e = .filled ↔ o.filledQuantity + e.quantity = o.quantity := by
  unfold fillTarget
  split <;> simp_all

theorem fillTarget_cases (o : TradingOrder) (e : SimulatedExecution) :
    fillTarget o e = .filled ∨ fillTarget o e = .partiallyFilled := by
  unfold fillTarget
  split <;> simp

theorem AcceptsFill.state (h : AcceptsFill o r e) :
    o.state ∈ [.pending, .accepted, .opened, .partiallyFilled] := by
  have ht := h.transition
  rcases fillTarget_cases o e with hf | hf <;> rw [hf] at ht <;> revert ht <;>
    cases o.state <;> simp [workingState, transitions]

theorem Settlement.draw_state (s : Settlement) (r : SimulatedReservation) (hspent : s.spent ≤ r.remainingAmount)
    (hpos : 0 < s.spent) (hactive : r.state = .active ↔ 0 < r.remainingAmount) :
    (s.draw r).state = .active ↔ 0 < (s.draw r).remainingAmount := by
  simp only [Settlement.draw]
  split
  · rename_i hz
    simp [hz]
  · rename_i hz
    have hr : 0 < r.remainingAmount := hpos.trans_le hspent
    have hleft : 0 < r.remainingAmount - s.spent := lt_of_le_of_ne (by linarith) (Ne.symm hz)
    exact ⟨fun _ => hleft, fun _ => hactive.mpr hr⟩

theorem AcceptsFill.fee (h : AcceptsFill o r e) :
    0 ≤ (settlementOf o e).fee ∧ (settlementOf o e).fee ≤ e.quantity * e.price := by
  have hnotional : 0 < e.quantity * e.price := mul_pos h.quantity h.price
  simp only [settlementOf, feeRate]
  constructor <;> linarith

theorem AcceptsFill.spent_pos (h : AcceptsFill o r e) : 0 < (settlementOf o e).spent := by
  have hnotional : 0 < e.quantity * e.price := mul_pos h.quantity h.price
  have hfee := h.fee.1
  unfold Settlement.spent
  split
  · simp only [Settlement.debit]
    change 0 < e.quantity * e.price + (settlementOf o e).fee
    linarith
  · exact h.quantity

theorem Inv.remaining {l : Ledger} (h : Inv l) (id : Uuid) (r : SimulatedReservation)
    (hr : l.trading.reservations.find id = some r) : 0 ≤ r.remainingAmount := by
  obtain ⟨o, ho⟩ := h.owned id r hr
  obtain ⟨r', hr', hb⟩ := h.backed id o ho
  rw [hr] at hr'
  exact (Option.some.inj hr') ▸ hb.remaining

theorem Inv.backing {l : Ledger} (h : Inv l) (ho : l.trading.orders.find id = some o)
    (hr : l.trading.reservations.find id = some r) : Backed id o r := by
  obtain ⟨r', hr', hb⟩ := h.backed id o ho
  rw [hr] at hr'
  exact (Option.some.inj hr') ▸ hb

theorem Backed.fill (h : Backed id o r) (ha : AcceptsFill o r e) (now : Timestamp) :
    Backed id (filledOrder o e now) ((settlementOf o e).draw r) := by
  have hq := ha.quantity
  have hstate := ha.state
  refine { h with
    account := h.account
    filled := ⟨by have h0 := h.filled.1; change 0 ≤ o.filledQuantity + e.quantity; linarith, ha.fits⟩
    complete := fillTarget_eq_filled
    remaining := sub_nonneg.mpr ha.funded
    active := (settlementOf o e).draw_state r ha.funded ha.spent_pos h.active
    untouched := ?_, partly := ?_, settling := ?_, selling := ?_ }
  · intro hu
    change fillTarget o e ∈ _ at hu
    rcases fillTarget_cases o e with hf | hf <;> simp [hf] at hu
  · intro _
    have h0 := h.filled.1
    change 0 < o.filledQuantity + e.quantity
    linarith
  · change fillTarget o e ≠ _
    rcases fillTarget_cases o e with hf | hf <;> simp [hf]
  · intro hsell _
    have hside : o.side = .sell := hsell
    have hrem : r.remainingAmount = o.quantity - o.filledQuantity := by
      apply h.selling hside
      simp only [List.mem_cons, List.not_mem_nil, or_false] at hstate ⊢
      rcases hstate with hs | hs | hs | hs <;> simp [hs]
    have hspent : (settlementOf o e).spent = e.quantity := by
      simp [Settlement.spent, settlementOf, hside]
    change r.remainingAmount - (settlementOf o e).spent = o.quantity - (o.filledQuantity + e.quantity)
    rw [hrem, hspent]
    ring

theorem Backed.invalidate (h : Backed id o r) (hs : o.state = .pending) (d : EligibilityDecisionValue) :
    Backed id (o.invalidate d) r := by
  exact { h with
    complete := by simpa [TradingOrder.invalidate, hs] using h.complete
    untouched := by simp [TradingOrder.invalidate]
    partly := by simp [TradingOrder.invalidate]
    settling := by simp [TradingOrder.invalidate]
    selling := by simp [TradingOrder.invalidate] }

end Local

structure SameTerms (o o' : TradingOrder) : Prop where
  side : o'.side = o.side
  account : o'.accountRef = o.accountRef
  instrument : o'.instrumentId = o.instrumentId
  quantity : o'.quantity = o.quantity

namespace SameTerms

variable {o o' : TradingOrder}

theorem buysOf (h : SameTerms o o') (ref : String) : buysOf ref o' = buysOf ref o := by
  simp [Beyvra.buysOf, h.side, h.account]

theorem sellsOf (h : SameTerms o o') (ref instrument : String) :
    sellsOf ref instrument o' = sellsOf ref instrument o := by
  simp [Beyvra.sellsOf, h.side, h.account, h.instrument]

theorem assetOf (h : SameTerms o o') (a : SimulatedAccount) : assetOf o' a = assetOf o a := by
  simp [Beyvra.assetOf, h.side, h.instrument]

end SameTerms

structure Tightened (r r' : SimulatedReservation) : Prop where
  asset : r'.asset = r.asset
  original : r'.originalAmount = r.originalAmount
  remaining : r'.remainingAmount ≤ r.remainingAmount

section Preservation

variable {l : Ledger} {id : Uuid} {o o' : TradingOrder} {r r' : SimulatedReservation}

theorem OrderMove.terms (h : OrderMove o r o' r') : SameTerms o o' ∧
    o'.filledQuantity = o.filledQuantity ∧ o'.averageFillPrice = o.averageFillPrice := by
  cases h <;> exact ⟨⟨rfl, rfl, rfl, rfl⟩, rfl, rfl⟩

theorem OrderMove.tightened (h : OrderMove o r o' r') (hb : Backed id o r) : Tightened r r' := by
  have hrelease : Tightened r r.release :=
    ⟨r.release_asset, r.release_original, by rw [hb.released]; exact hb.remaining⟩
  cases h with
  | accept => exact ⟨rfl, rfl, le_rfl⟩
  | opened => exact ⟨rfl, rfl, le_rfl⟩
  | reject => exact hrelease
  | expire => exact hrelease
  | cancel => exact hrelease

theorem held_tightened {t : TradingTables} {p : TradingOrder → Bool} (ho : t.orders.find id = some o)
    (hr : t.reservations.find id = some r) (hp : p o' = p o) (ht : Tightened r r') :
    (t.update id o' r').held p ≤ t.held p := by
  rw [held_update r' ho hr hp]
  have hle := ht.remaining
  split <;> linarith

theorem Inv.withProcessed (h : Inv l) (key : Uuid × String) (event : ProcessedEvent) :
    Inv (l.withProcessed key event) :=
  { h with fresh := fun executionId hnone => h.fresh executionId (Table.find_put_none hnone).2 }

theorem Inv.update (h : Inv l) (ho : l.trading.orders.find id = some o)
    (hr : l.trading.reservations.find id = some r) (hb : Backed id o' r') (hs : SameTerms o o')
    (ht : Tightened r r') (hf : o'.filledQuantity = o.filledQuantity)
    (ha : o'.averageFillPrice = o.averageFillPrice) :
    Inv (l.withTrading (l.trading.update id o' r')) := by
  refine { h with
    backed := ?_, owned := ?_, funded := ?_, solvent := ?_, covered := ?_, traded := ?_
    attributed := ?_, quoted := ?_ }
  · intro k x hx
    rcases Table.find_put_cases hx with ⟨rfl, rfl⟩ | ⟨hk, hx'⟩
    · exact ⟨r', Table.find_put_self _ _ _, hb⟩
    · obtain ⟨y, hy, hxy⟩ := h.backed k x hx'
      exact ⟨y, (Table.find_put_of_ne _ _ hk).trans hy, hxy⟩
  · intro k y hy
    rcases Table.find_put_cases hy with ⟨rfl, rfl⟩ | ⟨hk, hy'⟩
    · exact ⟨o', Table.find_put_self _ _ _⟩
    · obtain ⟨x, hx⟩ := h.owned k y hy'
      exact ⟨x, (Table.find_put_of_ne _ _ hk).trans hx⟩
  · intro k x y hx hy
    rcases Table.find_put_cases hx with ⟨rfl, rfl⟩ | ⟨hk, hx'⟩
    · obtain ⟨a, hacc, hasset⟩ := h.funded k o r ho hr
      rcases Table.find_put_cases hy with ⟨-, rfl⟩ | ⟨hk, -⟩
      · exact ⟨a, hs.account ▸ hacc, by rw [ht.asset, hasset, hs.assetOf]⟩
      · exact absurd rfl hk
    · rcases Table.find_put_cases hy with ⟨rfl, -⟩ | ⟨-, hy'⟩
      · exact absurd rfl hk
      · exact h.funded k x y hx' hy'
  · intro ref a hacc
    have hsolvent := h.solvent ref a hacc
    exact { hsolvent with
      covered := (held_tightened ho hr (hs.buysOf ref) ht).trans hsolvent.covered }
  · intro ref instrument
    exact (held_tightened ho hr (hs.sellsOf ref instrument) ht).trans (h.covered ref instrument)
  · intro k x hx
    rcases Table.find_put_cases hx with ⟨rfl, rfl⟩ | ⟨_, hx'⟩
    · obtain ⟨hq, hn, hv⟩ := h.traded k o ho
      exact ⟨hq.trans hf.symm, hn.trans (by rw [hf, ha]), by rw [hf, ha]; exact hv⟩
    · obtain ⟨hq, hn, hv⟩ := h.traded k x hx'
      exact ⟨hq, hn, hv⟩
  · intro key trade htrade
    obtain ⟨x, hx⟩ := h.attributed key trade htrade
    by_cases hk : trade.orderId = id
    · exact ⟨o', by rw [hk]; exact Table.find_put_self _ _ _⟩
    · exact ⟨x, (Table.find_put_of_ne _ _ hk).trans hx⟩
  · intro k x y hx hy
    rcases Table.find_put_cases hx with ⟨rfl, rfl⟩ | ⟨hk, hx'⟩
    · obtain ⟨d, hd, hpos, hquote⟩ := h.quoted k o r ho hr
      rcases Table.find_put_cases hy with ⟨-, rfl⟩ | ⟨hk, -⟩
      · exact ⟨d, hd, hpos, fun hside => by
          rw [ht.original, hs.quantity]
          exact hquote (hs.side ▸ hside)⟩
      · exact absurd rfl hk
    · rcases Table.find_put_cases hy with ⟨rfl, -⟩ | ⟨-, hy'⟩
      · exact absurd rfl hk
      · exact h.quoted k x y hx' hy'

theorem Inv.move (h : Inv l) (ho : l.trading.orders.find id = some o)
    (hr : l.trading.reservations.find id = some r) (hm : OrderMove o r o' r') :
    Inv (l.withTrading (l.trading.update id o' r')) := by
  have hb := h.backing ho hr
  obtain ⟨hs, hf, ha⟩ := hm.terms
  exact h.update ho hr (hb.move hm) hs (hm.tightened hb) hf ha

theorem Inv.enrol (h : Inv l) {ref : String} {a : SimulatedAccount} (hn : NewAccount l.trading ref a) :
    Inv (l.withTrading { l.trading with accounts := l.trading.accounts.put ref a }) := by
  have hkeep {ref' : String} {b : SimulatedAccount} (hb : l.trading.accounts.find ref' = some b) :
      (l.trading.accounts.put ref a).find ref' = some b := by
    have hne : ref' ≠ ref := fun heq => by simp [heq, hn.free] at hb
    exact (Table.find_put_of_ne _ _ hne).trans hb
  refine { h with
    funded := ?_, solvent := ?_, identified := ?_, traded := ?_ }
  · intro k x y hx hy
    obtain ⟨b, hb, hasset⟩ := h.funded k x y hx hy
    exact ⟨b, hkeep hb, hasset⟩
  · intro ref' b hb
    rcases Table.find_put_cases hb with ⟨rfl, rfl⟩ | ⟨_, hb'⟩
    · have hempty : l.trading.held (buysOf ref') = 0 := by
        apply Table.sum_eq_zero
        intro k row hrow
        obtain ⟨x, hx⟩ := h.owned k row hrow
        obtain ⟨c, hc, -⟩ := h.funded k x row hx hrow
        have hne : x.accountRef ≠ ref' := fun heq => by simp [heq, hn.free] at hc
        simp [TradingTables.heldFor, hx, buysOf, hne]
      exact ⟨hn.keyed, hn.tenant, hn.subject, hn.pending, hempty.le.trans hn.total⟩
    · obtain ⟨hk, ht, hsub, hp, hc⟩ := h.solvent ref' b hb'
      exact ⟨hk, ht, hsub, hp, hc⟩
  · intro ref' i hi
    obtain ⟨b, hb, hm⟩ := h.identified ref' i hi
    exact ⟨b, hkeep hb, hm⟩
  · intro k x hx
    obtain ⟨hq, hno, hv⟩ := h.traded k x hx
    exact ⟨hq, hno, hv⟩

theorem Inv.identify (h : Inv l) {ref : String} {i : TradingAccount} {a : SimulatedAccount}
    (ha : l.trading.accounts.find ref = some a) (hm : Matches i a) :
    Inv (l.withTrading { l.trading with identities := l.trading.identities.put ref i }) := by
  refine { h with solvent := ?_, identified := ?_, traded := ?_ }
  · intro ref' b hb
    obtain ⟨hk, ht, hsub, hp, hc⟩ := h.solvent ref' b hb
    exact ⟨hk, ht, hsub, hp, hc⟩
  · intro ref' j hj
    rcases Table.find_put_cases hj with ⟨rfl, rfl⟩ | ⟨_, hj'⟩
    · exact ⟨a, ha, hm⟩
    · exact h.identified ref' j hj'
  · intro k x hx
    obtain ⟨hq, hno, hv⟩ := h.traded k x hx
    exact ⟨hq, hno, hv⟩

structure Relabelled (t t' : TradingTables) (f : TradingOrder → TradingOrder) : Prop where
  rest : t' = { t with orders := t'.orders }
  find : ∀ k, t'.orders.find k = (t.orders.find k).map f

namespace Relabelled

variable {t t' : TradingTables} {f : TradingOrder → TradingOrder}

theorem back (h : Relabelled t t' f) {k : Uuid} {x : TradingOrder} (hx : t'.orders.find k = some x) :
    ∃ y, t.orders.find k = some y ∧ f y = x := by
  rw [h.find, Option.map_eq_some_iff] at hx
  exact hx

theorem forth (h : Relabelled t t' f) {k : Uuid} {y : TradingOrder} (hy : t.orders.find k = some y) :
    t'.orders.find k = some (f y) := by
  rw [h.find, hy]
  rfl

theorem held (h : Relabelled t t' f) {p : TradingOrder → Bool} (hp : ∀ y, p (f y) = p y) :
    t'.held p = t.held p := by
  have hres : t'.reservations = t.reservations := by rw [h.rest]
  unfold TradingTables.held
  rw [hres]
  apply Table.sum_congr
  intro k row _
  unfold TradingTables.heldFor
  rw [h.find]
  cases t.orders.find k with
  | none => rfl
  | some y => rw [Option.map_some, Option.any_some, Option.any_some, hp]

theorem reservations (h : Relabelled t t' f) : t'.reservations = t.reservations := by rw [h.rest]

theorem accounts (h : Relabelled t t' f) : t'.accounts = t.accounts := by rw [h.rest]

theorem identities (h : Relabelled t t' f) : t'.identities = t.identities := by rw [h.rest]

theorem positionAt (h : Relabelled t t' f) (ref instrument : String) :
    t'.positionAt ref instrument = t.positionAt ref instrument := by
  rw [h.rest]
  rfl

theorem trades (h : Relabelled t t' f) : t'.trades = t.trades := by rw [h.rest]

theorem routing (h : Relabelled t t' f) : t'.routingDecisions = t.routingDecisions := by rw [h.rest]

end Relabelled

def invalidateIf (env : Env) (change : ProfileChange) (o : TradingOrder) : TradingOrder :=
  if (change.decision env).result ≠ .allowed ∧ change.affects o then
    o.invalidate (change.decision env)
  else o

theorem invalidateIf_cases (env : Env) (change : ProfileChange) (o : TradingOrder) :
    invalidateIf env change o = o ∨
      o.state = .pending ∧ invalidateIf env change o = o.invalidate (change.decision env) := by
  unfold invalidateIf
  split
  · rename_i h
    exact .inr ⟨invalidated_pending h.2, rfl⟩
  · exact .inl rfl

theorem invalidateIf_terms (env : Env) (change : ProfileChange) (o : TradingOrder) :
    SameTerms o (invalidateIf env change o) ∧
      (invalidateIf env change o).filledQuantity = o.filledQuantity ∧
      (invalidateIf env change o).averageFillPrice = o.averageFillPrice := by
  rcases invalidateIf_cases env change o with h | ⟨_, h⟩ <;> rw [h] <;>
    exact ⟨⟨rfl, rfl, rfl, rfl⟩, rfl, rfl⟩

theorem relabelled_invalidate (env : Env) (change : ProfileChange) (t : TradingTables) :
    Relabelled t (invalidatePendingSimulationOrdersIfDenied env change t) (invalidateIf env change) :=
  ⟨invalidatePending_orders env change t, find_invalidated env change t⟩

theorem Inv.invalidate (h : Inv l) (env : Env) (change : ProfileChange) :
    Inv (l.withTrading (invalidatePendingSimulationOrdersIfDenied env change l.trading)) := by
  have hr := relabelled_invalidate env change l.trading
  have hterms := invalidateIf_terms env change
  refine ⟨?_, ?_, ?_, ?_, ?_, ?_, ?_, h.kept, ?_, ?_, ?_, ?_, h.calendars⟩
  · intro k x hx
    obtain ⟨y, hy, rfl⟩ := hr.back hx
    obtain ⟨row, hrow, hb⟩ := h.backed k y hy
    refine ⟨row, by rw [← hrow]; exact congrArg (·.find k) hr.reservations, ?_⟩
    rcases invalidateIf_cases env change y with hf | ⟨hpending, hf⟩ <;> rw [hf]
    · exact hb
    · exact hb.invalidate hpending _
  · intro k row hrow
    obtain ⟨y, hy⟩ := h.owned k row (hr.reservations ▸ hrow)
    exact ⟨_, hr.forth hy⟩
  · intro k x row hx hrow
    obtain ⟨y, hy, rfl⟩ := hr.back hx
    obtain ⟨a, ha, hasset⟩ := h.funded k y row hy (hr.reservations ▸ hrow)
    refine ⟨a, ?_, hasset.trans ((hterms y).1.assetOf a).symm⟩
    rw [(hterms y).1.account]
    exact (congrArg (·.find y.accountRef) hr.accounts).trans ha
  · intro ref a ha
    obtain ⟨hk, ht, hsub, hp, hc⟩ := h.solvent ref a (hr.accounts ▸ ha)
    exact ⟨hk, ht, hsub, hp, (hr.held fun y => (hterms y).1.buysOf ref).trans_le hc⟩
  · intro ref i hi
    obtain ⟨a, ha, hm⟩ := h.identified ref i (hr.identities ▸ hi)
    exact ⟨a, (congrArg (·.find ref) hr.accounts).trans ha, hm⟩
  · intro ref instrument
    have hheld := hr.held fun y => (hterms y).1.sellsOf ref instrument
    exact hheld.trans_le ((h.covered ref instrument).trans_eq
      (congrArg SimulatedPosition.quantity (hr.positionAt ref instrument)).symm)
  · intro ref instrument
    exact (congrArg SimulatedPosition.quantity (hr.positionAt ref instrument)).trans
      (h.lots ref instrument)
  · intro k x hx
    obtain ⟨y, hy, rfl⟩ := hr.back hx
    obtain ⟨hq, hno, hv⟩ := h.traded k y hy
    have htrades := hr.trades
    refine ⟨?_, ?_, ?_⟩
    · rw [(hterms y).2.1, ← hq]
      exact congrArg (fun trades => Table.sum trades _) htrades
    · rw [(hterms y).2.1, (hterms y).2.2, ← hno]
      exact congrArg (fun trades => Table.sum trades _) htrades
    · rw [(hterms y).2.1, (hterms y).2.2]
      exact hv
  · intro key trade htrade
    obtain ⟨y, hy⟩ := h.attributed key trade (hr.trades ▸ htrade)
    exact ⟨_, hr.forth hy⟩
  · intro k x row hx hrow
    obtain ⟨y, hy, rfl⟩ := hr.back hx
    obtain ⟨d, hd, hpos, hquote⟩ := h.quoted k y row hy (hr.reservations ▸ hrow)
    refine ⟨d, (congrArg (·.find k) hr.routing).trans hd, hpos, fun hside => ?_⟩
    rw [(hterms y).1.quantity]
    exact hquote ((hterms y).1.side ▸ hside)
  · intro executionId hnone
    obtain ⟨htrades, hrest⟩ := h.fresh executionId hnone
    exact ⟨(congrArg (·.find executionId) hr.trades).trans htrades, hrest⟩

theorem Inv.held_le_reserved (h : Inv l) {p : TradingOrder → Bool} {ref asset : String}
    (hp : ∀ k x row, l.trading.orders.find k = some x → l.trading.reservations.find k = some row →
      p x = true → row.account = ref ∧ row.asset = asset) :
    l.trading.held p ≤ l.trading.activeReserved ref asset := by
  apply Table.sum_le_sum
  intro k row hrow
  obtain ⟨x, hx⟩ := h.owned k row hrow
  have hb := h.backing hx hrow
  rw [heldFor_some hx]
  by_cases hpx : p x = true
  · obtain ⟨hacc, hasset⟩ := hp k x row hx hrow hpx
    rw [if_pos hpx]
    by_cases hactive : row.state = .active
    · rw [if_pos ⟨hacc, hasset, hactive⟩]
    · have hzero : ¬0 < row.remainingAmount := fun hpos => hactive (hb.active.mpr hpos)
      rw [if_neg fun hall => hactive hall.2.2]
      exact not_lt.mp hzero
  · rw [if_neg hpx]
    split
    · exact hb.remaining
    · exact le_rfl

theorem Inv.buys_le_reserved (h : Inv l) {ref : String} {a : SimulatedAccount}
    (ha : l.trading.accounts.find ref = some a) :
    l.trading.held (buysOf ref) ≤ l.trading.activeReserved ref a.quoteCurrency := by
  apply h.held_le_reserved
  intro k x row hx hrow hp
  have hside : x.side = .buy ∧ x.accountRef = ref := by simpa [buysOf] using hp
  obtain ⟨b, hb, hasset⟩ := h.funded k x row hx hrow
  rw [hside.2, ha] at hb
  cases hb
  exact ⟨(h.backing hx hrow).account.trans hside.2, by simpa [assetOf, hside.1] using hasset⟩

theorem Inv.sells_le_reserved (h : Inv l) (ref instrument : String) :
    l.trading.held (sellsOf ref instrument) ≤ l.trading.activeReserved ref (baseAsset instrument) := by
  apply h.held_le_reserved
  intro k x row hx hrow hp
  have hside : (x.side = .sell ∧ x.accountRef = ref) ∧ x.instrumentId = instrument := by
    simpa [sellsOf] using hp
  obtain ⟨b, hb, hasset⟩ := h.funded k x row hx hrow
  exact ⟨(h.backing hx hrow).account.trans hside.1.2,
    by simpa [assetOf, hside.1.1, hside.2] using hasset⟩

section Place

variable {a : SimulatedAccount} {d : RoutingDecision}

theorem Placement.backed (h : Placement l.trading o r a d) : Backed o.id o r := by
  have horiginal : 0 < r.originalAmount := by
    cases hs : o.side with
    | buy =>
      rw [(h.buying hs).1]
      have hrate : (0 : ℚ) < 1 + feeRate := by norm_num [feeRate]
      exact mul_pos (mul_pos h.quantity h.price) hrate
    | sell =>
      rw [(h.selling hs).1]
      exact h.quantity
  have hpos : 0 < r.remainingAmount := h.full ▸ horiginal
  exact
    { keyed := rfl
      tenant := h.tenant
      simulation := h.simulation
      reservation := h.reservation
      account := h.holder
      quantity := h.quantity
      filled := by rw [h.unfilled]; exact ⟨le_rfl, h.quantity.le⟩
      complete := by simp [h.state, h.unfilled, h.quantity.ne]
      original := horiginal
      remaining := hpos.le
      active := ⟨fun _ => hpos, fun _ => h.active⟩
      untouched := fun _ => ⟨h.unfilled, h.full⟩
      partly := by simp [h.state]
      settling := by simp [h.state]
      selling := fun hs _ => by rw [h.full, (h.selling hs).1, h.unfilled, sub_zero] }

theorem Inv.buys_place (h : Inv l) (hp : Placement l.trading o r a d) {ref : String}
    {b : SimulatedAccount} (hb : l.trading.accounts.find ref = some b) :
    (l.trading.update o.id o r).held (buysOf ref) ≤ b.totalBalance := by
  have hs := h.solvent ref b hb
  rw [held_place hp.unreserved]
  by_cases hown : buysOf ref o = true
  · rw [if_pos hown]
    have hside : o.side = .buy ∧ o.accountRef = ref := by simpa [buysOf] using hown
    have hab : a = b := by
      have hacc := hp.account
      rw [hside.2, hb] at hacc
      exact (Option.some.inj hacc).symm
    subst hab
    have hle := h.buys_le_reserved hb
    have havail := (hp.buying hside.1).2
    simp only [TradingTables.availableQuote, hs.pending, hs.keyed, ← hp.full] at havail
    linarith
  · rw [if_neg hown, add_zero]
    exact hs.covered

theorem Inv.sells_place (h : Inv l) (hp : Placement l.trading o r a d) (ref instrument : String) :
    (l.trading.update o.id o r).held (sellsOf ref instrument) ≤
      (l.trading.positionAt ref instrument).quantity := by
  rw [held_place hp.unreserved]
  by_cases hown : sellsOf ref instrument o = true
  · rw [if_pos hown]
    have hside : (o.side = .sell ∧ o.accountRef = ref) ∧ o.instrumentId = instrument := by
      simpa [sellsOf] using hown
    obtain ⟨horiginal, havail⟩ := hp.selling hside.1.1
    rw [hside.1.2, hside.2] at havail
    have hle := h.sells_le_reserved ref instrument
    rw [hp.full, horiginal]
    linarith
  · rw [if_neg hown, add_zero]
    exact h.covered ref instrument

theorem Inv.untraded (h : Inv l) {id : Uuid} (hfree : l.trading.orders.find id = none)
    (g : SimulatedTrade → ℚ) :
    (l.trading.trades.sum fun _ trade => if trade.orderId = id then g trade else 0) = 0 := by
  apply Table.sum_eq_zero
  intro key trade htrade
  obtain ⟨x, hx⟩ := h.attributed key trade htrade
  have hne : trade.orderId ≠ id := fun heq => by simp [heq, hfree] at hx
  simp [hne]

theorem Inv.place (h : Inv l) (hp : Placement l.trading o r a d) :
    Inv (l.withTrading { l.trading.update o.id o r with
      routingDecisions := l.trading.routingDecisions.put o.id d }) := by
  have hforth {k : Uuid} {x : TradingOrder} (hx : l.trading.orders.find k = some x) :
      k ≠ o.id ∧ (l.trading.orders.put o.id o).find k = some x := by
    have hne : k ≠ o.id := fun heq => by simp [heq, hp.free] at hx
    exact ⟨hne, (Table.find_put_of_ne _ _ hne).trans hx⟩
  refine { h with
    backed := ?_, owned := ?_, funded := ?_, solvent := ?_, covered := ?_, traded := ?_
    attributed := ?_, quoted := ?_ }
  · intro k x hx
    rcases Table.find_put_cases hx with ⟨rfl, rfl⟩ | ⟨hk, hx'⟩
    · exact ⟨r, Table.find_put_self _ _ _, hp.backed⟩
    · obtain ⟨y, hy, hxy⟩ := h.backed k x hx'
      exact ⟨y, (Table.find_put_of_ne _ _ hk).trans hy, hxy⟩
  · intro k y hy
    rcases Table.find_put_cases hy with ⟨rfl, rfl⟩ | ⟨_, hy'⟩
    · exact ⟨o, Table.find_put_self _ _ _⟩
    · obtain ⟨x, hx⟩ := h.owned k y hy'
      exact ⟨x, (hforth hx).2⟩
  · intro k x y hx hy
    rcases Table.find_put_cases hx with ⟨rfl, rfl⟩ | ⟨hk, hx'⟩
    · rcases Table.find_put_cases hy with ⟨-, rfl⟩ | ⟨hk, -⟩
      · exact ⟨a, hp.account, hp.asset⟩
      · exact absurd rfl hk
    · rcases Table.find_put_cases hy with ⟨rfl, -⟩ | ⟨-, hy'⟩
      · exact absurd rfl hk
      · exact h.funded k x y hx' hy'
  · intro ref b hb
    obtain ⟨hk, ht, hsub, hpend, _⟩ := h.solvent ref b hb
    exact ⟨hk, ht, hsub, hpend, h.buys_place hp hb⟩
  · intro ref instrument
    exact h.sells_place hp ref instrument
  · intro k x hx
    rcases Table.find_put_cases hx with ⟨rfl, rfl⟩ | ⟨_, hx'⟩
    · have hquantity := h.untraded hp.free fun trade => trade.quantity
      have hnotional := h.untraded hp.free fun trade => trade.quantity * trade.price
      refine ⟨hquantity.trans hp.unfilled.symm, hnotional.trans ?_, ?_⟩
      · rw [hp.unfilled, zero_mul]
      · rw [hp.unfilled]
        exact fun hlt => absurd hlt (lt_irrefl 0)
    · obtain ⟨hq, hno, hv⟩ := h.traded k x hx'
      exact ⟨hq, hno, hv⟩
  · intro key trade htrade
    obtain ⟨x, hx⟩ := h.attributed key trade htrade
    exact ⟨x, (hforth hx).2⟩
  · intro k x y hx hy
    rcases Table.find_put_cases hx with ⟨rfl, rfl⟩ | ⟨hk, hx'⟩
    · rcases Table.find_put_cases hy with ⟨-, rfl⟩ | ⟨hk, -⟩
      · exact ⟨d, Table.find_put_self _ _ _, hp.price, fun hs => (hp.buying hs).1⟩
      · exact absurd rfl hk
    · rcases Table.find_put_cases hy with ⟨rfl, -⟩ | ⟨-, hy'⟩
      · exact absurd rfl hk
      · obtain ⟨d', hd', hq⟩ := h.quoted k x y hx' hy'
        exact ⟨d', (Table.find_put_of_ne _ _ hk).trans hd', hq⟩

end Place

section Fill

variable {a : SimulatedAccount} {e : SimulatedExecution} {now : Timestamp} {l' : Ledger}

theorem applyTo_quantity (s : Settlement) (position : SimulatedPosition) :
    (s.applyTo position).quantity = position.quantity + s.side.signed s.quantity := by
  unfold Settlement.applyTo OrderSide.signed
  cases s.side with
  | buy => rfl
  | sell => exact sub_eq_add_neg _ _

theorem filledOrder_terms (o : TradingOrder) (e : SimulatedExecution) (now : Timestamp) :
    SameTerms o (filledOrder o e now) :=
  ⟨rfl, rfl, rfl, rfl⟩

theorem held_settled (a : SimulatedAccount) (now : Timestamp) (ho : l.trading.orders.find o.id = some o)
    (hr : l.trading.reservations.find o.id = some r) {p : TradingOrder → Bool}
    (hp : p (filledOrder o e now) = p o) :
    (settledTables l.trading o r a e now).held p =
      l.trading.held p - if p o then (settlementOf o e).spent else 0 := by
  have hheld := held_update ((settlementOf o e).draw r) ho hr hp
  change (l.trading.update o.id (filledOrder o e now) ((settlementOf o e).draw r)).held p = _
  rw [hheld]
  split
  · simp only [Settlement.draw]
    ring
  · ring

theorem Inv.solvent_settled (h : Inv l) (ho : l.trading.orders.find o.id = some o)
    (hr : l.trading.reservations.find o.id = some r)
    (ha : l.trading.accounts.find o.accountRef = some a) (hf : AcceptsFill o r e) {ref : String}
    {b : SimulatedAccount} (hb : (settledTables l.trading o r a e now).accounts.find ref = some b) :
    Solvent (settledTables l.trading o r a e now) ref b := by
  have hheld := held_settled (e := e) a now ho hr
    ((filledOrder_terms o e now).buysOf ref)
  rcases Table.find_put_cases hb with ⟨rfl, rfl⟩ | ⟨hne, hb'⟩
  · obtain ⟨hk, ht, hsub, hp, hc⟩ := h.solvent _ a ha
    refine ⟨hk, ht, hsub, hp, ?_⟩
    rw [hheld]
    cases hs : o.side with
    | buy =>
      have hspent : (settlementOf o e).spent = (settlementOf o e).debit := by
        simp [Settlement.spent, settlementOf, hs]
      have hbalance : (settlementOf o e).balanceAfter a.totalBalance =
          a.totalBalance - (settlementOf o e).debit := by
        simp [Settlement.balanceAfter, settlementOf, hs]
      rw [if_pos (by simp [buysOf, hs]), hspent, hbalance]
      linarith
    | sell =>
      have hbalance : (settlementOf o e).balanceAfter a.totalBalance =
          a.totalBalance + (e.quantity * e.price - (settlementOf o e).fee) := by
        simp [Settlement.balanceAfter, settlementOf, hs]
      have hfee := hf.fee.2
      rw [if_neg (by simp [buysOf, hs]), hbalance]
      linarith
  · obtain ⟨hk, ht, hsub, hp, hc⟩ := h.solvent ref b hb'
    refine ⟨hk, ht, hsub, hp, ?_⟩
    have hnot : ¬buysOf ref o = true := by
      simp [buysOf, Ne.symm hne]
    rw [hheld, if_neg hnot, sub_zero]
    exact hc

theorem positionAt_settled (now : Timestamp) (t : TradingTables) (ref instrument : String) :
    ((settledTables t o r a e now).positionAt ref instrument).quantity =
      (t.positionAt ref instrument).quantity +
        if (o.accountRef, o.instrumentId) = (ref, instrument) then o.side.signed e.quantity else 0 := by
  unfold TradingTables.positionAt
  change (((t.positions.put (o.accountRef, o.instrumentId) _).find (ref, instrument)).getD {}).quantity = _
  rw [Table.find_put]
  by_cases hk : (o.accountRef, o.instrumentId) = (ref, instrument)
  · rw [if_pos hk.symm, if_pos hk, Option.getD_some, applyTo_quantity]
    obtain ⟨rfl, rfl⟩ := Prod.mk.inj hk
    rfl
  · rw [if_neg fun heq => hk heq.symm, if_neg hk, add_zero]

theorem Inv.covered_settled (h : Inv l) (ho : l.trading.orders.find o.id = some o)
    (hr : l.trading.reservations.find o.id = some r) (hf : AcceptsFill o r e) (ref instrument : String) :
    (settledTables l.trading o r a e now).held (sellsOf ref instrument) ≤
      ((settledTables l.trading o r a e now).positionAt ref instrument).quantity := by
  have hcov := h.covered ref instrument
  rw [held_settled a now ho hr ((filledOrder_terms o e now).sellsOf ref instrument), positionAt_settled]
  have hq := hf.quantity
  cases hs : o.side with
  | buy =>
    have hnot : ¬sellsOf ref instrument o = true := by simp [sellsOf, hs]
    rw [if_neg hnot]
    simp only [OrderSide.signed]
    split <;> linarith
  | sell =>
    have hspent : (settlementOf o e).spent = e.quantity := by
      simp [Settlement.spent, settlementOf, hs]
    have hiff : sellsOf ref instrument o = true ↔ (o.accountRef, o.instrumentId) = (ref, instrument) := by
      simp [sellsOf, hs]
    simp only [hiff, hspent, OrderSide.signed]
    split <;> linarith

theorem Traded.average_fill {t : TradingTables} (ht : Traded t id o) (hb : Backed id o r)
    (hf : AcceptsFill o r e) :
    0 < (o.filledQuantity * o.averageFillPrice.getD 0 + e.quantity * e.price) /
      (o.filledQuantity + e.quantity) := by
  have hfilled := hb.filled.1
  have hpos : 0 < o.filledQuantity + e.quantity := by linarith [hf.quantity]
  have hvalue : 0 ≤ o.filledQuantity * o.averageFillPrice.getD 0 := by
    rcases hfilled.lt_or_eq with hlt | heq
    · exact (mul_pos hlt (ht.average hlt)).le
    · rw [← heq, zero_mul]
  have hfill : 0 < e.quantity * e.price := mul_pos hf.quantity hf.price
  exact div_pos (by linarith) hpos

theorem Inv.traded_settled (h : Inv l) (hfresh : l.trading.trades.find e.executionId = none)
    (hb : Backed o.id o r) (hf : AcceptsFill o r e) {k : Uuid} {x : TradingOrder}
    (ho : l.trading.orders.find o.id = some o)
    (hx : (settledTables l.trading o r a e now).orders.find k = some x) :
    Traded (settledTables l.trading o r a e now) k x := by
  have hsum (g : SimulatedTrade → ℚ) (id : Uuid) :
      ((settledTables l.trading o r a e now).trades.sum fun _ trade =>
        if trade.orderId = id then g trade else 0) =
      (l.trading.trades.sum fun _ trade => if trade.orderId = id then g trade else 0) +
        if o.id = id then g { orderId := o.id, instrumentId := o.instrumentId, side := o.side
                              quantity := e.quantity, price := e.price
                              fee := (settlementOf o e).fee, executedAt := now } else 0 :=
    Table.sum_put_of_none hfresh _ _
  have hquantity := hsum (fun trade => trade.quantity) k
  have hnotional := hsum (fun trade => trade.quantity * trade.price) k
  rcases Table.find_put_cases hx with ⟨rfl, rfl⟩ | ⟨hne, hx'⟩
  · have htraded := h.traded o.id o ho
    have hpos : 0 < o.filledQuantity + e.quantity := by linarith [hb.filled.1, hf.quantity]
    rw [if_pos rfl] at hquantity hnotional
    refine ⟨?_, ?_, fun _ => htraded.average_fill hb hf⟩
    · exact hquantity.trans (congrArg (· + e.quantity) htraded.quantity)
    · refine (hnotional.trans (congrArg (· + e.quantity * e.price) htraded.notional)).trans ?_
      exact (mul_div_cancel₀ _ hpos.ne').symm
  · obtain ⟨hq, hno, hv⟩ := h.traded k x hx'
    rw [if_neg (Ne.symm hne), add_zero] at hquantity hnotional
    exact ⟨hquantity.trans hq, hnotional.trans hno, hv⟩

structure SameHolder (a a' : SimulatedAccount) : Prop where
  tenant : a'.tenantRef = a.tenantRef
  subject : a'.subjectRef = a.subjectRef
  account : a'.accountRef = a.accountRef
  currency : a'.quoteCurrency = a.quoteCurrency

theorem account_settled (now : Timestamp) (ha : l.trading.accounts.find o.accountRef = some a) {ref : String}
    {b : SimulatedAccount} (hb : l.trading.accounts.find ref = some b) :
    ∃ b', (settledTables l.trading o r a e now).accounts.find ref = some b' ∧ SameHolder b b' := by
  by_cases hk : ref = o.accountRef
  · subst hk
    rw [ha] at hb
    cases hb
    exact ⟨_, Table.find_put_self _ _ _, ⟨rfl, rfl, rfl, rfl⟩⟩
  · exact ⟨b, (Table.find_put_of_ne _ _ hk).trans hb, ⟨rfl, rfl, rfl, rfl⟩⟩

theorem Inv.funded_settled (h : Inv l) (ho : l.trading.orders.find o.id = some o)
    (hr : l.trading.reservations.find o.id = some r)
    (ha : l.trading.accounts.find o.accountRef = some a) {k : Uuid} {x : TradingOrder}
    {y : SimulatedReservation} (hx : (settledTables l.trading o r a e now).orders.find k = some x)
    (hy : (settledTables l.trading o r a e now).reservations.find k = some y) :
    ∃ b, (settledTables l.trading o r a e now).accounts.find x.accountRef = some b ∧
      y.asset = assetOf x b := by
  rcases Table.find_put_cases hx with ⟨rfl, rfl⟩ | ⟨hk, hx'⟩
  · rcases Table.find_put_cases hy with ⟨-, rfl⟩ | ⟨hk, -⟩
    · obtain ⟨b, hb, hasset⟩ := h.funded o.id o r ho hr
      rw [ha] at hb
      cases hb
      exact ⟨_, Table.find_put_self _ _ _, hasset⟩
    · exact absurd rfl hk
  · rcases Table.find_put_cases hy with ⟨rfl, -⟩ | ⟨-, hy'⟩
    · exact absurd rfl hk
    · obtain ⟨b, hb, hasset⟩ := h.funded k x y hx' hy'
      obtain ⟨b', hb', hsame⟩ := account_settled (r := r) (e := e) now ha hb
      refine ⟨b', hb', hasset.trans ?_⟩
      unfold assetOf
      rw [hsame.currency]

theorem Inv.quoted_settled (h : Inv l) (ho : l.trading.orders.find o.id = some o)
    (hr : l.trading.reservations.find o.id = some r) {k : Uuid} {x : TradingOrder}
    {y : SimulatedReservation} (hx : (settledTables l.trading o r a e now).orders.find k = some x)
    (hy : (settledTables l.trading o r a e now).reservations.find k = some y) :
    ∃ d, l.trading.routingDecisions.find k = some d ∧ Quoted d x y := by
  rcases Table.find_put_cases hx with ⟨rfl, rfl⟩ | ⟨hk, hx'⟩
  · rcases Table.find_put_cases hy with ⟨-, rfl⟩ | ⟨hk, -⟩
    · obtain ⟨d, hd, hpos, hquote⟩ := h.quoted o.id o r ho hr
      exact ⟨d, hd, hpos, hquote⟩
    · exact absurd rfl hk
  · rcases Table.find_put_cases hy with ⟨rfl, -⟩ | ⟨-, hy'⟩
    · exact absurd rfl hk
    · exact h.quoted k x y hx' hy'

theorem Inv.fill (h : Inv l) {event : ProcessedEvent} (ho : l.trading.orders.find id = some o)
    (hr : l.trading.reservations.find id = some r)
    (ha : l.trading.accounts.find o.accountRef = some a) (hnone : l.Unprocessed e.executionId)
    (hf : AcceptsFill o r e) (hbooks : BooksMoved l l' o e)
    (htrading : l'.trading = settledTables l.trading o r a e now)
    (hprocessed : l'.processed = l.processed.put (uuid5 e.executionId, executionConsumer) event) :
    Inv l' := by
  have hb := h.backing ho hr
  obtain rfl := hb.keyed
  obtain ⟨hfresh, -⟩ := h.fresh e.executionId hnone
  have hforth {k : Uuid} {x : TradingOrder} (hx : l.trading.orders.find k = some x) :
      ∃ y, (settledTables l.trading o r a e now).orders.find k = some y := by
    by_cases hk : k = o.id
    · exact ⟨_, by rw [hk]; exact Table.find_put_self _ _ _⟩
    · exact ⟨x, (Table.find_put_of_ne _ _ hk).trans hx⟩
  refine ⟨?_, ?_, ?_, ?_, ?_, ?_, ?_, hbooks.kept, ?_, ?_, ?_, ?_, hbooks.calendars.trans h.calendars⟩
  · intro k x hx
    rw [htrading] at hx ⊢
    rcases Table.find_put_cases hx with ⟨rfl, rfl⟩ | ⟨hk, hx'⟩
    · exact ⟨_, Table.find_put_self _ _ _, hb.fill hf now⟩
    · obtain ⟨y, hy, hxy⟩ := h.backed k x hx'
      exact ⟨y, (Table.find_put_of_ne _ _ hk).trans hy, hxy⟩
  · intro k y hy
    rw [htrading] at hy ⊢
    rcases Table.find_put_cases hy with ⟨rfl, rfl⟩ | ⟨_, hy'⟩
    · exact ⟨_, Table.find_put_self _ _ _⟩
    · obtain ⟨x, hx⟩ := h.owned k y hy'
      exact hforth hx
  · intro k x y hx hy
    rw [htrading] at hx hy ⊢
    exact h.funded_settled ho hr ha hx hy
  · intro ref b hacc
    rw [htrading] at hacc ⊢
    exact h.solvent_settled ho hr ha hf hacc
  · intro ref i hi
    rw [htrading] at hi ⊢
    obtain ⟨b, hacc, hm⟩ := h.identified ref i hi
    obtain ⟨b', hacc', hsame⟩ := account_settled (r := r) (e := e) now ha hacc
    exact ⟨b', hacc', hsame.tenant ▸ hm.tenant, hsame.subject ▸ hm.subject,
      hsame.account ▸ hm.account, hsame.currency ▸ hm.currency, hm.paper⟩
  · intro ref instrument
    rw [htrading]
    exact h.covered_settled ho hr hf ref instrument
  · intro ref instrument
    rw [htrading, positionAt_settled, hbooks.held, h.lots, hb.tenant]
    simp only [Prod.mk.injEq, Holding.mk.injEq, true_and]
  · intro k x hx
    rw [htrading] at hx ⊢
    exact h.traded_settled hfresh hb hf ho hx
  · intro key trade htrade
    rw [htrading] at htrade ⊢
    rcases Table.find_put_cases htrade with ⟨rfl, rfl⟩ | ⟨_, htrade'⟩
    · exact hforth ho
    · obtain ⟨x, hx⟩ := h.attributed key trade htrade'
      exact hforth hx
  · intro k x y hx hy
    rw [htrading] at hx hy ⊢
    exact h.quoted_settled ho hr hx hy
  · intro executionId hun
    unfold Ledger.Unprocessed at hun
    rw [hprocessed] at hun
    obtain ⟨hne, hun'⟩ := Table.find_put_none hun
    have hid : executionId ≠ e.executionId := fun heq => hne (by rw [heq])
    obtain ⟨htrades, hbooked, hunbooked⟩ := h.fresh executionId hun'
    rw [htrading]
    exact ⟨(Table.find_put_of_ne _ _ hid).trans htrades, (hbooks.booked _ hid).trans hbooked,
      hbooks.unbooked _ hid hunbooked⟩

end Fill

theorem Inv.effect {F : Regime} {l' : Ledger} (h : Inv l)
    (he : Effect F l l') : Inv l' := by
  cases he with
  | enrolled ref a hn => exact h.enrol hn
  | identified ref i a ha hm => exact h.identify ha hm
  | placed o r a d hp _ => exact h.place hp
  | moved id o o' r r' ho hr hm => exact h.move ho hr hm
  | closed id o o' r r' e event ho hr hm _ => exact (h.move ho hr hm).withProcessed _ event
  | filled id o r a e now event l' ho hr ha hnone hf _ hbooks htrading hprocessed =>
    exact h.fill ho hr ha hnone hf hbooks htrading hprocessed
  | invalidated env change _ => exact h.invalidate env change
  | consumed key event _ => exact h.withProcessed key event

end Preservation

end Beyvra
