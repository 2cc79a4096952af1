import Beyvra.Trading.Invalidation

namespace Beyvra

open Relational

def Eligible (env : Env) (user : String) (c : ComplianceTables) : Prop :=
  (complianceDecision env user c).map (·.result) = some .allowed

instance (env : Env) (user : String) (c : ComplianceTables) : Decidable (Eligible env user c) := by
  unfold Eligible
  infer_instance

def Unfilled (t : TradingTables) (id : Uuid) : Prop :=
  ∀ key trade, t.trades.find key = some trade → trade.orderId ≠ id

structure Blocked (t : TradingTables) (id : Uuid) (o : TradingOrder) : Prop where
  closed : o.state.terminal = true
  unfilled : Unfilled t id

def Op.background : Op → Prop
  | .createAllowed .. => False
  | .createTransaction .. => False
  | _ => True

-- An order transaction that places an order must start while its user is eligible.
def Call.admitted (db : Database) (call : Call) : Prop :=
  match call.op with
  | .createAllowed user data key correlationId recordGiven => ∀ body db',
    createAllowed call.env user data key correlationId recordGiven db = .ok (.created body, db') →
      Eligible call.env user db.compliance
  | .createTransaction user data key correlationId => ∀ body db',
    createTransaction call.env user data key correlationId db = .ok (.created body, db') →
      Eligible call.env user db.compliance
  | _ => True

def Call.ineligible (db : Database) (call : Call) : Prop :=
  match call.op with
  | .createAllowed user .. => ¬Eligible call.env user db.compliance
  | .createTransaction user .. => ¬Eligible call.env user db.compliance
  | _ => False

def Call.places (db : Database) (call : Call) (id : Uuid) : Prop :=
  db.trading.orders.find id = none ∧ (step db call).trading.orders.find id ≠ none

def FillsCounted (t : TradingTables) : Prop :=
  ∀ key trade o, t.trades.find key = some trade → t.orders.find trade.orderId = some o →
    0 < o.filledQuantity

def DeniedStopped (orders : Table Uuid TradingOrder) : Prop :=
  ∀ id o, orders.find id = some o → o.eligibilityResult ≠ .allowed →
    o.state = .rejected ∧ o.filledQuantity = 0

def Regime.placeless : Regime := ⟨fun _ => False, fun _ _ _ => True, fun _ _ => True⟩

section Steps

variable {F : Regime} {l l' : Ledger} {id : Uuid} {o o' : TradingOrder} {r r' : SimulatedReservation}

theorem FillsCounted.update {t : TradingTables} (h : FillsCounted t)
    (ho : t.orders.find id = some o) (hfilled : o.filledQuantity ≤ o'.filledQuantity) :
    FillsCounted (t.update id o' r') := by
  intro key trade x htrade hx
  rcases Table.find_put_cases hx with ⟨hid, rfl⟩ | ⟨-, hx'⟩
  · exact (h key trade o htrade (hid ▸ ho)).trans_le hfilled
  · exact h key trade x htrade hx'

theorem FillsCounted.effect (h : FillsCounted l.trading) (hi : Inv l) (he : Effect F l l') :
    FillsCounted l'.trading := by
  cases he with
  | enrolled ref a hn => exact h
  | identified ref i a ha hm => exact h
  | placed o r a d hp hF =>
    intro key trade x htrade hx
    rcases Table.find_put_cases hx with ⟨hid, -⟩ | ⟨-, hx'⟩
    · obtain ⟨y, hy⟩ := hi.attributed key trade htrade
      rw [hid, hp.free] at hy
      cases hy
    · exact h key trade x htrade hx'
  | moved id o o' r r' ho hr hm => exact h.update ho hm.succeeds.filled
  | closed id o o' r r' e event ho hr hm hnone => exact h.update ho hm.succeeds.filled
  | filled id o r a e now event l' ho hr ha hnone hf hF hbooks htrading hprocessed =>
    have hb := hi.backing ho hr
    obtain rfl := hb.keyed
    have hless : o.filledQuantity < (filledOrder o e now).filledQuantity := by
      have hquantity := hf.quantity
      change o.filledQuantity < o.filledQuantity + e.quantity
      linarith
    rw [htrading]
    intro key trade x htrade hx
    rcases Table.find_put_cases hx with ⟨-, rfl⟩ | ⟨hne, hx'⟩
    · exact hb.filled.1.trans_lt hless
    · rcases Table.find_put_cases htrade with ⟨-, rfl⟩ | ⟨-, htrade'⟩
      · exact absurd rfl hne
      · exact h key trade x htrade' hx'
  | invalidated env change hF =>
    have hrel := relabelled_invalidate env change l.trading
    intro key trade x htrade hx
    change (invalidatePendingSimulationOrdersIfDenied env change l.trading).trades.find key = _ at htrade
    rw [hrel.trades] at htrade
    obtain ⟨y, hy, rfl⟩ := hrel.back hx
    rw [(invalidateIf_terms env change y).2.1]
    exact h key trade y htrade hy
  | consumed key event hne => exact h

theorem FillsCounted.effects (h : FillsCounted l.trading) (hi : Inv l) (he : Effects F l l') :
    FillsCounted l'.trading := by
  induction he with
  | refl => exact h
  | tail hprefix hlast ih => exact ih.effect (hi.effects hprefix) hlast

theorem FillsCounted.unfilled {t : TradingTables} (h : FillsCounted t) (ho : t.orders.find id = some o)
    (hzero : o.filledQuantity = 0) : Unfilled t id := by
  intro key trade htrade hid
  have hpos := h key trade o htrade (hid ▸ ho)
  rw [hzero] at hpos
  exact lt_irrefl 0 hpos

theorem OrderMove.eligibility (h : OrderMove o r o' r') : o'.eligibilityResult = o.eligibilityResult := by
  cases h <;> rfl

theorem DeniedStopped.update {orders : Table Uuid TradingOrder} (h : DeniedStopped orders)
    (ho : orders.find id = some o) (hopen : o.state.terminal = false)
    (heligibility : o'.eligibilityResult = o.eligibilityResult) : DeniedStopped (orders.put id o') := by
  intro k x hx hdenied
  rcases Table.find_put_cases hx with ⟨-, rfl⟩ | ⟨-, hx'⟩
  · rw [heligibility] at hdenied
    rw [(h id o ho hdenied).1] at hopen
    cases hopen
  · exact h k x hx' hdenied

theorem DeniedStopped.effect (h : DeniedStopped l.trading.orders) (hi : Inv l)
    (he : Effect .placeless l l') : DeniedStopped l'.trading.orders := by
  cases he with
  | enrolled ref a hn => exact h
  | identified ref i a ha hm => exact h
  | placed o r a d hp hF => exact hF.elim
  | moved id o o' r r' ho hr hm => exact h.update ho hm.opening hm.eligibility
  | closed id o o' r r' e event ho hr hm hnone => exact h.update ho hm.opening hm.eligibility
  | filled id o r a e now event l' ho hr ha hnone hf hF hbooks htrading hprocessed =>
    obtain rfl := (hi.backing ho hr).keyed
    rw [htrading]
    exact h.update ho hf.opening rfl
  | invalidated env change hF =>
    intro k x hx hdenied
    obtain ⟨y, hy, rfl⟩ := (relabelled_invalidate env change l.trading).back hx
    rcases invalidateIf_cases env change y with hsame | ⟨hpending, hrejected⟩
    · rw [hsame] at hdenied ⊢
      exact h k y hy hdenied
    · obtain ⟨r, hr, hb⟩ := hi.backed k y hy
      rw [hrejected]
      exact ⟨rfl, (hb.untouched (by simp [hpending])).1⟩
  | consumed key event hne => exact h

theorem DeniedStopped.effects (h : DeniedStopped l.trading.orders) (hi : Inv l)
    (he : Effects .placeless l l') : DeniedStopped l'.trading.orders := by
  induction he with
  | refl => exact h
  | tail hprefix hlast ih => exact ih.effect (hi.effects hprefix) hlast

end Steps

section Creations

variable {env : Env} {db db' : Database} {user key : String} {data : OrderRequest}
  {correlationId : Option CorrelationRef} {reply : CreateReply} {body : Payload} {id : Uuid}

theorem Placed.recorded {e : Evaluation} {o : TradingOrder} {r : SimulatedReservation}
    {d : RoutingDecision} (h : Placed env user e db db' o r d) :
    o.eligibilityResult = .allowed ↔ Eligible env user db.compliance := by
  rw [h.order]
  unfold eligibleOrder Eligible
  rw [recordEligibility_eq]
  cases complianceDecision env user db.compliance with
  | none => simp [TradingOrder.reserved, newOrder]
  | some decision => simp [TradingOrder.reserved]

theorem Placed.orders {e : Evaluation} {o : TradingOrder} {r : SimulatedReservation}
    {d : RoutingDecision} (h : Placed env user e db db' o r d) :
    db'.trading.orders = db.trading.orders.put o.id o := by
  change db'.ledger.trading.orders = _
  rw [h.ledger]
  rfl

theorem Created.stopped (h : Created env user db db' reply) (hstopped : DeniedStopped db.trading.orders)
    (hadmitted : ∀ body, reply = .created body → Eligible env user db.compliance) :
    DeniedStopped db'.trading.orders := by
  cases h with
  | replayed body hc ho => rwa [ho]
  | rejected reason hc ho => rwa [ho]
  | created opened e o r d hc ho hp =>
    intro k x hx hdenied
    rw [hp.orders, ho] at hx
    rcases Table.find_put_cases hx with ⟨-, rfl⟩ | ⟨-, hx'⟩
    · have heligible := hadmitted _ rfl
      rw [← hc] at heligible
      exact absurd (hp.recorded.mpr heligible) hdenied
    · exact hstopped k x hx' hdenied

theorem Created.adds (h : Created env user db db' reply) (hfree : db.trading.orders.find id = none)
    (hfound : db'.trading.orders.find id ≠ none) : ∃ body, reply = .created body := by
  cases h with
  | replayed body hc ho =>
    rw [ho] at hfound
    exact absurd hfree hfound
  | rejected reason hc ho =>
    rw [ho] at hfound
    exact absurd hfree hfound
  | created opened e o r d hc ho hp => exact ⟨_, rfl⟩

theorem DeniedStopped.commit {body : Database → Outcome (CreateReply × Database)}
    (h : DeniedStopped db.trading.orders)
    (hadmitted : ∀ reply db', body db = .ok (.created reply, db') → Eligible env user db.compliance)
    (hcreated : ∀ reply db', body db = .ok (reply, db') → Created env user db db' reply) :
    DeniedStopped (commit body db).trading.orders := by
  rcases commit_cases body db with ⟨reply, db', hok, hdb⟩ | ⟨-, hdb⟩
  · rw [hdb]
    refine (hcreated reply db' hok).stopped h ?_
    rintro body rfl
    exact hadmitted body db' hok
  · rw [hdb]
    exact h

theorem eligible_of_added {body : Database → Outcome (CreateReply × Database)}
    (hadmitted : ∀ reply db', body db = .ok (.created reply, db') → Eligible env user db.compliance)
    (hcreated : ∀ reply db', body db = .ok (reply, db') → Created env user db db' reply)
    (hfree : db.trading.orders.find id = none)
    (hfound : (commit body db).trading.orders.find id ≠ none) : Eligible env user db.compliance := by
  rcases commit_cases body db with ⟨reply, db', hok, hdb⟩ | ⟨-, hdb⟩
  · rw [hdb] at hfound
    obtain ⟨body, rfl⟩ := (hcreated reply db' hok).adds hfree hfound
    exact hadmitted body db' hok
  · rw [hdb] at hfound
    exact absurd hfree hfound

-- The condition is exact: an order placed while its user is ineligible is left PENDING.
theorem Inv.ineligible_left_pending (h : Inv db.ledger)
    (hok : createTransaction env user data key correlationId db = .ok (.created body, db'))
    (hineligible : ¬Eligible env user db.compliance) :
    ∃ id o, db.trading.orders.find id = none ∧ db'.trading.orders.find id = some o ∧
      o.eligibilityResult ≠ .allowed ∧ o.state = .pending := by
  have hcreated := (h.createTransaction_effects (F := .any) (fun _ _ => trivial) hok).2
  cases hcreated with
  | created opened e o r d hc ho hp =>
    refine ⟨o.id, o, ?_, ?_, ?_, hp.placement.state⟩
    · rw [← ho]
      exact hp.placement.free
    · rw [hp.orders, Table.find_put_self]
    · intro hallowed
      have heligible := hp.recorded.mp hallowed
      rw [hc] at heligible
      exact hineligible heligible

end Creations

section Run

variable {db db' start later : Database} {call : Call} {id : Uuid} {o : TradingOrder}

theorem meets_placeless (hbackground : call.op.background) (db : Database) :
    call.meets .placeless db := by
  obtain ⟨env, op⟩ := call
  cases op with
  | createAllowed user data key correlationId recordGiven => exact hbackground.elim
  | createTransaction user data key correlationId => exact hbackground.elim
  | process orderId scenario => exact fun _ _ _ _ _ _ _ => fillsIn_of_all (fun _ _ => trivial) _ _ _
  | consume eventId orderId =>
    exact fun _ _ _ _ _ _ _ _ => fillsIn_of_all (fun _ _ => trivial) _ _ _
  | execute orderId execution => exact fun _ => trivial
  | comply mutation => exact fun _ _ => trivial
  | _ => trivial

theorem DeniedStopped.background (h : DeniedStopped db.trading.orders) (hinv : Inv db.ledger)
    (hbackground : call.op.background) : DeniedStopped (step db call).trading.orders := by
  have heffects := hinv.step_effects (meets_placeless hbackground db)
  change DeniedStopped (step db call).ledger.trading.orders
  exact DeniedStopped.effects h hinv heffects

theorem DeniedStopped.step (h : DeniedStopped db.trading.orders) (hinv : Inv db.ledger)
    (hadmitted : call.admitted db) : DeniedStopped (step db call).trading.orders := by
  obtain ⟨env, op⟩ := call
  cases op with
  | createAllowed user data key correlationId recordGiven =>
    exact h.commit hadmitted fun _ _ hok =>
      (hinv.createAllowed_effects (F := .any) (fun _ _ => trivial) hok).2
  | createTransaction user data key correlationId =>
    exact h.commit hadmitted fun _ _ hok =>
      (hinv.createTransaction_effects (F := .any) (fun _ _ => trivial) hok).2
  | _ => exact h.background hinv trivial

theorem Inv.eligible_of_places (hinv : Inv db.ledger) (hadmitted : call.admitted db)
    (hplaces : call.places db id) : ¬call.ineligible db := by
  obtain ⟨env, op⟩ := call
  obtain ⟨hfree, hfound⟩ := hplaces
  cases op with
  | createAllowed user data key correlationId recordGiven =>
    exact not_not_intro (eligible_of_added hadmitted (fun _ _ hok =>
      (hinv.createAllowed_effects (F := .any) (fun _ _ => trivial) hok).2) hfree hfound)
  | createTransaction user data key correlationId =>
    exact not_not_intro (eligible_of_added hadmitted (fun _ _ hok =>
      (hinv.createTransaction_effects (F := .any) (fun _ _ => trivial) hok).2) hfree hfound)
  | _ => exact not_false

structure Guarded (db : Database) : Prop where
  inv : Inv db.ledger
  stopped : DeniedStopped db.trading.orders
  counted : FillsCounted db.ledger.trading

theorem Initial.guarded (h : Initial db) : Guarded db := by
  refine ⟨h.inv, ?_, ?_⟩
  · intro id o ho
    rw [h.orders] at ho
    simp at ho
  · intro key trade o htrade
    change db.trading.trades.find key = some trade at htrade
    rw [h.trades] at htrade
    simp at htrade

theorem Guarded.step (h : Guarded db) (hadmitted : call.admitted db) : Guarded (step db call) := by
  have heffects := h.inv.step_effects (meets_any db call)
  exact ⟨h.inv.effects heffects, h.stopped.step h.inv hadmitted, h.counted.effects h.inv heffects⟩

theorem Guarded.run (h : Guarded db)
    (hrun : Reaches Beyvra.step (fun d call => call.admitted d) db db') : Guarded db' :=
  hrun.invariant h fun _ _ hguarded hadmitted => hguarded.step hadmitted

theorem Guarded.blocked (h : Guarded db) (ho : db.trading.orders.find id = some o)
    (hdenied : o.eligibilityResult ≠ .allowed) : Blocked db.trading id o := by
  obtain ⟨hrejected, hzero⟩ := h.stopped id o ho hdenied
  have hunfilled : Unfilled db.ledger.trading id := h.counted.unfilled ho hzero
  exact ⟨by rw [hrejected]; rfl, hunfilled⟩

theorem eligibility_gate (hinit : Initial start)
    (hrun : Reaches step (fun d call => call.admitted d) start db) :
    (∀ id o, db.trading.orders.find id = some o → o.eligibilityResult ≠ .allowed →
      Blocked db.trading id o) ∧
    ∀ call later, call.admitted db → Reaches step (fun d call => call.admitted d) (step db call) later →
      call.ineligible db → ∀ id o, call.places db id → later.trading.orders.find id = some o →
        Blocked later.trading id o := by
  have hguarded := hinit.guarded.run hrun
  refine ⟨fun id o ho hdenied => hguarded.blocked ho hdenied, ?_⟩
  intro call later hadmitted _ hineligible id o hplaces _
  exact absurd hineligible (hguarded.inv.eligible_of_places hadmitted hplaces)

end Run

def orderTen : Call :=
  ⟨fixtureEnv [("BTC-USD", 100)], .createTransaction "alice" (buyOrder 10) "key" none⟩

def checkAlice : Call := ⟨fixtureEnv [("BTC-USD", 100)], .check "alice"⟩

def suspendAlice : Call := ⟨fixtureEnv [("BTC-USD", 100)], .comply suspended⟩

def processTen : Call := ⟨fixtureEnv [("BTC-USD", 100)], .process "TradingOrder" none⟩

theorem eligibility_gate_after_suspension :
    ∃ o, (step (step clearedDatabase orderTen) suspendAlice).trading.orders.find "TradingOrder" = some o ∧
      o.eligibilityResult = .denied ∧
      Blocked (step (step clearedDatabase orderTen) suspendAlice).trading "TradingOrder" o := by
  have hrow : ((step (step clearedDatabase orderTen) suspendAlice).trading.orders.find
      "TradingOrder").map (·.eligibilityResult) = some .denied := by
    decide +kernel
  obtain ⟨o, ho, hdenied⟩ := Option.map_eq_some_iff.mp hrow
  have heligible : Eligible (fixtureEnv [("BTC-USD", 100)]) "alice" clearedDatabase.compliance := by
    decide +kernel
  have hgate := eligibility_gate clearedDatabase_initial
    (.tail (.single ⟨orderTen, fun _ _ _ => heligible, rfl⟩) ⟨suspendAlice, trivial, rfl⟩)
  exact ⟨o, ho, hdenied, hgate.1 "TradingOrder" o ho (by rw [hdenied]; decide)⟩

theorem suspended_user_order_filled :
    ¬∀ start checked db later env user data key correlationId, Initial start →
      checkEligibility env user start = (.ok (), checked) →
      Reaches step (fun _ call => call.op.background) checked db →
      Reaches step (fun _ call => call.op.background)
        (step db ⟨env, .createTransaction user data key correlationId⟩) later →
      ∀ id o, later.trading.orders.find id = some o → o.eligibilityResult ≠ .allowed →
        Blocked later.trading id o := by
  intro hclaim
  have hpasses : (checkEligibility (fixtureEnv [("BTC-USD", 100)]) "alice" clearedDatabase).1 = .ok () := by
    decide +kernel
  have hrow : ((step (step (step (step clearedDatabase checkAlice) suspendAlice) orderTen)
      processTen).trading.orders.find "TradingOrder").map (fun o => (o.eligibilityResult, o.state)) =
        some (.denied, .filled) := by
    decide +kernel
  have htrade : ((step (step (step (step clearedDatabase checkAlice) suspendAlice) orderTen)
      processTen).trading.trades.rows.map (·.2.orderId)) = ["TradingOrder"] := by
    decide +kernel
  obtain ⟨o, ho, hrecorded⟩ := Option.map_eq_some_iff.mp hrow
  have hblocked := hclaim clearedDatabase (step clearedDatabase checkAlice) _ _ _ "alice" (buyOrder 10) "key"
    none clearedDatabase_initial (Prod.ext hpasses rfl) (.single ⟨suspendAlice, trivial, rfl⟩)
    (.single ⟨processTen, trivial, rfl⟩) "TradingOrder" o ho (by rw [(Prod.mk.inj hrecorded).1]; decide)
  obtain ⟨row, hrow, horder⟩ := List.mem_map.mp (htrade ▸ List.mem_singleton_self "TradingOrder")
  exact hblocked.unfilled row.1 row.2 (Table.mem_rows_iff.mp hrow) horder

end Beyvra
