import Beyvra.Trading.PartialFills

namespace Beyvra

open Relational

structure Rejection where
  orderId : Uuid
  execution : SimulatedExecution

def rejectAll (env : Env) : List Rejection → Database → Outcome Database
  | [], db => pure db
  | rejection :: rest, db => do
    let (_, db) ← applyExecution env rejection.orderId rejection.execution db
    rejectAll env rest db

def Pending (t : TradingTables) (id : Uuid) : Prop :=
  ∃ o, t.orders.find id = some o ∧ o.state = .pending

def Rejected (t : TradingTables) (id : Uuid) : Prop :=
  ∃ o, t.orders.find id = some o ∧ o.state = .rejected

def Released (t : TradingTables) (id : Uuid) : Prop :=
  ∃ r, t.reservations.find id = some r ∧ r.state = .released

def MovedToRejected (t t' : TradingTables) (id : Uuid) : Prop := Pending t id ∧ Rejected t' id

structure Rejects (db : Database) (moved : Uuid → Prop) (rejections : List Rejection) : Prop where
  outcome : ∀ x ∈ rejections, x.execution.outcome = .reject
  unused : ∀ x ∈ rejections, db.ledger.Unprocessed x.execution.executionId
  distinct : (rejections.map (·.execution.executionId)).Nodup
  once : (rejections.map (·.orderId)).Nodup
  orders : ∀ id, id ∈ rejections.map (·.orderId) ↔ moved id

namespace TradingTables

def available (t : TradingTables) (ref : String) : Option ℚ := (t.accounts.find ref).map t.availableQuote

def sellable (t : TradingTables) (ref instrument : String) : ℚ :=
  (t.positionAt ref instrument).quantity - t.activeReserved ref (baseAsset instrument)

def reserves (ref asset : String) (_ : Uuid) (r : SimulatedReservation) : ℚ :=
  if r.account = ref ∧ r.asset = asset ∧ r.state = .active then r.remainingAmount else 0

def reservedBy (t : TradingTables) (ref asset : String) (ids : List Uuid) : ℚ :=
  (ids.map (t.reservations.contribution (reserves ref asset))).sum

end TradingTables

structure SameSpendable (t t' : TradingTables) : Prop where
  available : ∀ ref, t.available ref = t'.available ref
  sellable : ∀ ref instrument, t.sellable ref instrument = t'.sellable ref instrument

structure ReleasesInvalidated (env : Env) (db db' : Database) : Prop where
  released : ∀ id, MovedToRejected db.trading db'.trading id → Released db'.trading id
  spendable : ∀ rejections, Rejects db (MovedToRejected db.trading db'.trading) rejections →
    ∃ db'', rejectAll env rejections db = .ok db'' ∧ SameSpendable db'.trading db''.trading

def Invalidates (env : Env) (mutation : Mutation) (db : Database) : Prop :=
  ∃ change, mutation.change env db.compliance = .ok (some change) ∧
    (change.decision env).result ≠ .allowed ∧
    ∃ id o, db.trading.orders.find id = some o ∧ change.affects o

section Reject

variable {env : Env} {db db' : Database} {id : Uuid} {o : TradingOrder} {r : SimulatedReservation}
  {e : SimulatedExecution} {ref asset : String}

structure RejectedBy (env : Env) (db db' : Database) (id : Uuid) (e : SimulatedExecution)
    (r : SimulatedReservation) : Prop where
  applied : applyExecution env id e db = .ok (true, db')
  accounts : db'.trading.accounts = db.trading.accounts
  positions : db'.trading.positions = db.trading.positions
  orders : ∀ k, k ≠ id → db'.trading.orders.find k = db.trading.orders.find k
  rejected : Rejected db'.trading id
  reservations : db'.trading.reservations = db.trading.reservations.put id r.release
  unprocessed : ∀ executionId, executionId ≠ e.executionId → db.ledger.Unprocessed executionId →
    db'.ledger.Unprocessed executionId

theorem Inv.rejectedBy (env : Env) (h : Inv db.ledger) (hpending : Pending db.trading id)
    (hnone : db.ledger.Unprocessed e.executionId) (he : e.outcome = .reject) :
    ∃ db' r, RejectedBy env db db' id e r := by
  obtain ⟨o, ho, hstate⟩ := hpending
  obtain ⟨r, hr, hb⟩ := h.backed id o ho
  have hacc : Accepts o r e := by
    unfold Accepts
    rwa [he]
  have hclosing : e.outcome ≠ .fill := by
    rw [he]
    decide
  obtain ⟨db', hok, hledger⟩ := h.applyExecution_close env ho hr hnone hclosing hacc
  have htrading : db'.ledger.trading = db.ledger.trading.update id (closedOrder env o e) r.release := by
    rw [hledger]
    rfl
  have horders : db'.trading.orders = db.trading.orders.put id (closedOrder env o e) :=
    congrArg TradingTables.orders htrading
  have haccounts : db'.trading.accounts = db.trading.accounts := by
    change db'.ledger.trading.accounts = _
    rw [htrading]
    rfl
  have hpositions : db'.trading.positions = db.trading.positions := by
    change db'.ledger.trading.positions = _
    rw [htrading]
    rfl
  refine ⟨db', r, hok, haccounts, hpositions, ?_, ?_, congrArg TradingTables.reservations htrading, ?_⟩
  · intro k hk
    rw [horders, Table.find_put_of_ne _ _ hk]
  · refine ⟨closedOrder env o e, by rw [horders, Table.find_put_self], ?_⟩
    unfold closedOrder
    rw [he]
  · intro executionId hne hun
    unfold Ledger.Unprocessed
    rw [hledger]
    have hkey : (uuid5 executionId, executionConsumer) ≠ deliveryKey e := fun heq =>
      hne (uuid5_injective (Prod.mk.inj heq).1)
    exact (Table.find_put_of_ne _ _ hkey).trans hun

theorem RejectedBy.inv (h : RejectedBy env db db' id e r) (hinv : Inv db.ledger) : Inv db'.ledger :=
  hinv.effects (hinv.applyExecution_effects (F := .any) h.applied fun _ => trivial)

theorem reserves_release (ref asset : String) (id : Uuid) (r : SimulatedReservation) :
    TradingTables.reserves ref asset id r.release = 0 := by
  unfold TradingTables.reserves
  refine if_neg ?_
  rintro ⟨-, -, hactive⟩
  unfold SimulatedReservation.release at hactive
  split at hactive
  · cases hactive
  · contradiction

theorem RejectedBy.freed (h : RejectedBy env db db' id e r) :
    db'.trading.activeReserved ref asset =
      db.trading.activeReserved ref asset - db.trading.reservedBy ref asset [id] := by
  change db'.trading.reservations.sum (TradingTables.reserves ref asset) =
    db.trading.reservations.sum (TradingTables.reserves ref asset) - _
  rw [h.reservations, Table.sum_put, reserves_release, add_zero]
  simp [TradingTables.reservedBy]

theorem RejectedBy.reservedBy (h : RejectedBy env db db' id e r) {ids : List Uuid} (hid : id ∉ ids) :
    db'.trading.reservedBy ref asset ids = db.trading.reservedBy ref asset ids := by
  unfold TradingTables.reservedBy
  congr 1
  refine List.map_congr_left ?_
  intro k hk
  have hne : k ≠ id := fun heq => hid (heq ▸ hk)
  unfold Table.contribution
  rw [h.reservations, Table.find_put_of_ne _ _ hne]

structure AllRejected (db db' : Database) (ids : List Uuid) : Prop where
  accounts : db'.trading.accounts = db.trading.accounts
  positions : db'.trading.positions = db.trading.positions
  rejected : ∀ id ∈ ids, Rejected db'.trading id
  orders : ∀ id, id ∉ ids → db'.trading.orders.find id = db.trading.orders.find id
  freed : ∀ ref asset, db'.trading.activeReserved ref asset =
    db.trading.activeReserved ref asset - db.trading.reservedBy ref asset ids

theorem Inv.all_rejected {rejections : List Rejection} {moved : Uuid → Prop} (env : Env)
    (h : Inv db.ledger) (hrejects : Rejects db moved rejections)
    (hpending : ∀ id, moved id → Pending db.trading id) :
    ∃ db', rejectAll env rejections db = .ok db' ∧
      AllRejected db db' (rejections.map (·.orderId)) := by
  induction rejections generalizing db moved with
  | nil =>
    refine ⟨db, rfl, rfl, rfl, ?_, fun _ _ => rfl, ?_⟩
    · simp
    · simp [TradingTables.reservedBy]
  | cons x xs ih =>
    obtain ⟨houtcome, hunused, hdistinct, honce, horders⟩ := hrejects
    obtain ⟨hfresh, hdistinct⟩ := List.nodup_cons.mp hdistinct
    obtain ⟨hnew, honce⟩ := List.nodup_cons.mp honce
    obtain ⟨db₁, r, hfirst⟩ := h.rejectedBy env
      (hpending x.orderId ((horders x.orderId).mp List.mem_cons_self))
      (hunused x List.mem_cons_self) (houtcome x List.mem_cons_self)
    have hrest : Rejects db₁ (· ∈ xs.map (·.orderId)) xs := by
      refine ⟨fun y hy => houtcome y (List.mem_cons_of_mem _ hy), ?_, hdistinct, honce, fun _ => Iff.rfl⟩
      intro y hy
      refine hfirst.unprocessed _ ?_ (hunused y (List.mem_cons_of_mem _ hy))
      exact fun heq => hfresh (List.mem_map.mpr ⟨y, hy, heq⟩)
    have hwaiting : ∀ id, id ∈ xs.map (·.orderId) → Pending db₁.trading id := by
      intro id hid
      obtain ⟨o, ho, hstate⟩ := hpending id ((horders id).mp (List.mem_cons_of_mem _ hid))
      have hne : id ≠ x.orderId := fun heq => hnew (by rwa [heq] at hid)
      exact ⟨o, (hfirst.orders id hne).trans ho, hstate⟩
    obtain ⟨db', hok, hall⟩ := ih (hfirst.inv h) hrest hwaiting
    refine ⟨db', (bind_of_ok hfirst.applied).trans hok, hall.accounts.trans hfirst.accounts,
      hall.positions.trans hfirst.positions, ?_, ?_, ?_⟩
    · intro id hid
      by_cases hin : id ∈ xs.map (·.orderId)
      · exact hall.rejected id hin
      · obtain rfl := (List.mem_cons.mp hid).resolve_right hin
        obtain ⟨o, ho, hstate⟩ := hfirst.rejected
        exact ⟨o, (hall.orders _ hin).trans ho, hstate⟩
    · intro id hid
      obtain ⟨hne, hout⟩ := not_or.mp fun hmem => hid (List.mem_cons.mpr hmem)
      exact (hall.orders id hout).trans (hfirst.orders id hne)
    · intro ref asset
      rw [hall.freed, hfirst.freed, hfirst.reservedBy hnew]
      simp only [TradingTables.reservedBy, List.map_cons, List.map_nil, List.sum_cons, List.sum_nil]
      ring

end Reject

section Invalidate

variable {env : Env} {db db' : Database} {mutation : Mutation} {id : Uuid}

theorem invalidated_frame (hrun : mutation.run env db = .ok db') :
    db'.trading.accounts = db.trading.accounts ∧ db'.trading.positions = db.trading.positions ∧
      db'.trading.reservations = db.trading.reservations := by
  rcases Mutation.run_eq_ok.mp hrun with ⟨-, rfl⟩ | ⟨change, -, rfl⟩
  · exact ⟨rfl, rfl, rfl⟩
  · rw [change.apply_trading, invalidatePending_orders]
    exact ⟨rfl, rfl, rfl⟩

theorem movedToRejected_iff (hrun : mutation.run env db = .ok db') :
    MovedToRejected db.trading db'.trading id ↔
      ∃ change o, mutation.change env db.compliance = .ok (some change) ∧
        (change.decision env).result ≠ .allowed ∧ db.trading.orders.find id = some o ∧
          change.affects o := by
  rcases Mutation.run_eq_ok.mp hrun with ⟨hnone, rfl⟩ | ⟨change, hchange, rfl⟩
  · constructor
    · rintro ⟨⟨o, ho, hpending⟩, o', ho', hrejected⟩
      rw [ho] at ho'
      obtain rfl := Option.some.inj ho'
      rw [hpending] at hrejected
      cases hrejected
    · rintro ⟨change, o, hchange, -⟩
      rw [hnone] at hchange
      cases hchange
  · constructor
    · rintro ⟨⟨o, ho, hpending⟩, o', ho', hrejected⟩
      rw [change.apply_trading, find_invalidated, ho, Option.map_some] at ho'
      by_cases hmoved : (change.decision env).result ≠ .allowed ∧ change.affects o
      · exact ⟨change, o, hchange, hmoved.1, ho, hmoved.2⟩
      · rw [if_neg hmoved] at ho'
        obtain rfl := Option.some.inj ho'
        rw [hpending] at hrejected
        cases hrejected
    · rintro ⟨change', o, hchange', hdenied, ho, haffects⟩
      rw [hchange] at hchange'
      obtain rfl := Option.some.inj (Except.ok.inj hchange')
      refine ⟨⟨o, ho, invalidated_pending haffects⟩, o.invalidate (change.decision env), ?_, rfl⟩
      rw [change.apply_trading, find_invalidated, ho, Option.map_some, if_pos ⟨hdenied, haffects⟩]

theorem invalidates_iff (hrun : mutation.run env db = .ok db') :
    Invalidates env mutation db ↔ ∃ id, MovedToRejected db.trading db'.trading id := by
  simp only [movedToRejected_iff hrun]
  constructor
  · rintro ⟨change, hchange, hdenied, id, o, ho, haffects⟩
    exact ⟨id, change, o, hchange, hdenied, ho, haffects⟩
  · rintro ⟨id, change, o, hchange, hdenied, ho, haffects⟩
    exact ⟨change, hchange, hdenied, id, o, ho, haffects⟩

theorem Inv.pending_unreleased (h : Inv db.ledger) (hpending : Pending db.trading id) :
    ∃ r, db.trading.reservations.find id = some r ∧ r.state = .active ∧ 0 < r.remainingAmount := by
  obtain ⟨o, ho, hstate⟩ := hpending
  obtain ⟨r, hr, hb⟩ := h.backed id o ho
  have hpos : 0 < r.remainingAmount := by
    rw [(hb.untouched (by simp [hstate])).2]
    exact hb.original
  exact ⟨r, hr, hb.active.mpr hpos, hpos⟩

theorem Inv.not_released (h : Inv db.ledger) (hrun : mutation.run env db = .ok db')
    (hmoved : MovedToRejected db.trading db'.trading id) : ¬Released db'.trading id := by
  rintro ⟨r, hr, hreleased⟩
  obtain ⟨r', hr', hactive, -⟩ := h.pending_unreleased hmoved.1
  rw [(invalidated_frame hrun).2.2, hr'] at hr
  obtain rfl := Option.some.inj hr
  rw [hactive] at hreleased
  cases hreleased

theorem sameSpendable_of {t t' : TradingTables} (haccounts : t.accounts = t'.accounts)
    (hpositions : t.positions = t'.positions) (hreservations : t.reservations = t'.reservations) :
    SameSpendable t t' := by
  constructor
  · intro ref
    unfold TradingTables.available TradingTables.availableQuote TradingTables.activeReserved
    rw [haccounts, hreservations]
  · intro ref instrument
    unfold TradingTables.sellable TradingTables.positionAt TradingTables.activeReserved
    rw [hpositions, hreservations]

-- What the bulk update withholds: the reservations of the orders it rejects stay counted.
theorem Inv.invalidation_shortfall {rejections : List Rejection} (h : Inv db.ledger)
    (hrun : mutation.run env db = .ok db')
    (hrejects : Rejects db (MovedToRejected db.trading db'.trading) rejections) :
    ∃ db'', rejectAll env rejections db = .ok db'' ∧
      (∀ ref a, db.trading.accounts.find ref = some a → db'.trading.availableQuote a =
        db''.trading.availableQuote a -
          db.trading.reservedBy a.accountRef a.quoteCurrency (rejections.map (·.orderId))) ∧
      ∀ ref instrument, db'.trading.sellable ref instrument = db''.trading.sellable ref instrument -
        db.trading.reservedBy ref (baseAsset instrument) (rejections.map (·.orderId)) := by
  obtain ⟨haccounts, hpositions, hreservations⟩ := invalidated_frame hrun
  obtain ⟨db'', hok, hall⟩ := h.all_rejected env hrejects fun id hmoved => hmoved.1
  have hkept (ref asset : String) :
      db'.trading.activeReserved ref asset = db.trading.activeReserved ref asset := by
    unfold TradingTables.activeReserved
    rw [hreservations]
  refine ⟨db'', hok, ?_, ?_⟩
  · intro ref a ha
    unfold TradingTables.availableQuote
    rw [hkept, hall.freed]
    ring
  · intro ref instrument
    unfold TradingTables.sellable TradingTables.positionAt
    rw [hkept, hall.freed, hpositions, hall.positions]
    ring

theorem releases_invalidated_iff {start : Database} (hinit : Initial start)
    (hreach : Reaches step (fun _ _ => True) start db) (hrun : mutation.run env db = .ok db') :
    ReleasesInvalidated env db db' ↔ ¬Invalidates env mutation db := by
  have hinv := hinit.inv.run hreach
  rw [invalidates_iff hrun]
  constructor
  · rintro ⟨hreleased, -⟩ ⟨id, hmoved⟩
    exact hinv.not_released hrun hmoved (hreleased id hmoved)
  · intro hnone
    refine ⟨fun id hmoved => absurd ⟨id, hmoved⟩ hnone, ?_⟩
    intro rejections hrejects
    have hempty : rejections = [] := by
      cases rejections with
      | nil => rfl
      | cons x xs => exact absurd ⟨x.orderId, (hrejects.orders _).mp List.mem_cons_self⟩ hnone
    subst hempty
    obtain ⟨haccounts, hpositions, hreservations⟩ := invalidated_frame hrun
    exact ⟨db, rfl, sameSpendable_of haccounts hpositions hreservations⟩

end Invalidate

def clearedProfile : ComplianceProfile where
  organization := "organization"
  user := "alice"
  accountState := .active
  kycState := .approved
  amlState := .cleared
  sanctionsState := .clear
  jurisdictionState := .supported

def clearedDatabase : Database :=
  { freshDatabase with
    compliance :=
      { profiles := Table.empty.put "profile" clearedProfile
        memberships := [⟨"alice", "organization", true, true⟩] } }

theorem clearedDatabase_initial : Initial clearedDatabase :=
  ⟨rfl, rfl, rfl, rfl, rfl, rfl, rfl, rfl, fun _ _ ha => freshDatabase_initial.accounts _ _ ha,
    fun _ _ hi => freshDatabase_initial.identities _ _ hi⟩

def depositsDisabled : Mutation :=
  .restriction "profile"
    { restrictionType := .depositsDisabled, reasonCode := "DEPOSITS_DISABLED", source := "POLICY"
      actor := "officer", expiresAt := none }

def suspended : Mutation := .accountState "profile" .suspended

theorem releases_invalidated_by_deposit_restriction :
    ∃ db', depositsDisabled.run (fixtureEnv []) (step clearedDatabase createTen) = .ok db' ∧
      ReleasesInvalidated (fixtureEnv []) (step clearedDatabase createTen) db' := by
  have hallowed : (depositsDisabled.change (fixtureEnv []) (step clearedDatabase createTen).compliance).map
      (·.map fun change => (change.decision (fixtureEnv [])).result) = .ok (some .allowed) := by
    decide +kernel
  have hharmless : ¬Invalidates (fixtureEnv []) depositsDisabled (step clearedDatabase createTen) := by
    rintro ⟨change, hchange, hdenied, -⟩
    rw [hchange] at hallowed
    exact hdenied (Option.some.inj (Except.ok.inj hallowed))
  cases hrun : depositsDisabled.run (fixtureEnv []) (step clearedDatabase createTen) with
  | error e =>
    have hruns : (depositsDisabled.run (fixtureEnv []) (step clearedDatabase createTen)).isOk = true := by
      decide +kernel
    rw [hrun] at hruns
    cases hruns
  | ok db' =>
    exact ⟨db', rfl, (releases_invalidated_iff clearedDatabase_initial
      (.single ⟨createTen, trivial, rfl⟩) hrun).mpr hharmless⟩

theorem suspension_keeps_reservation :
    ¬∀ start db db' env mutation, Initial start → Reaches step (fun _ _ => True) start db →
      Mutation.run env mutation db = .ok db' → ReleasesInvalidated env db db' := by
  intro hclaim
  cases hrun : suspended.run (fixtureEnv []) (step clearedDatabase createTen) with
  | error e =>
    have hruns : (suspended.run (fixtureEnv []) (step clearedDatabase createTen)).isOk = true := by
      decide +kernel
    rw [hrun] at hruns
    cases hruns
  | ok db' =>
    have hbefore : ((step clearedDatabase createTen).trading.orders.find "TradingOrder").map (·.state) =
        some .pending := by
      decide +kernel
    have hafter : (suspended.run (fixtureEnv []) (step clearedDatabase createTen)).map (fun db =>
        ((db.trading.orders.find "TradingOrder").map (·.state),
          (db.trading.reservations.find "TradingOrder").map fun r => (r.state, r.remainingAmount))) =
        .ok (some .rejected, some (.active, 1001)) := by
      decide +kernel
    rw [hrun] at hafter
    obtain ⟨horder, hreservation⟩ := Prod.mk.inj (Except.ok.inj hafter)
    obtain ⟨r, hr, hreleased⟩ := (hclaim _ _ db' _ suspended clearedDatabase_initial
      (.single ⟨createTen, trivial, rfl⟩) hrun).released "TradingOrder"
        ⟨Option.map_eq_some_iff.mp hbefore, Option.map_eq_some_iff.mp horder⟩
    rw [hr] at hreservation
    have hactive := (Prod.mk.inj (Option.some.inj hreservation)).1
    rw [hreleased] at hactive
    cases hactive

end Beyvra
