import Beyvra.Operations.OperatorControls

namespace Beyvra

open Relational

namespace OperatorControls

inductive ControlRef where
  | halt (id : Uuid)
  | hold (pk : Nat)
  | freeze (pk : Nat)
  deriving DecidableEq

structure ActiveControl where
  tenantId : String
  account : Option Nat
  level : Option FreezeLevel
  reason : String
  deriving DecidableEq

def AccountFreeze.control (freeze : AccountFreeze) : ActiveControl :=
  ⟨freeze.tenantId, some freeze.account, some freeze.level, freeze.reasonCode⟩

def OperationsTables.active (s : OperationsTables) : ControlRef → Option ActiveControl
  | .halt id => ((s.halts.find id).filter (·.releasedAt = none)).map fun halt => ⟨halt.tenantId, none, none, halt.reason⟩
  | .hold pk => (s.holds[pk]?.filter fun hold => hold.active && hold.releasedAt = none).map fun hold =>
    ⟨hold.tenantId, some hold.account, none, hold.reason⟩
  | .freeze pk => (s.freezes[pk]?.filter (·.releasedAt = none)).map AccountFreeze.control

def OperatorTarget.Names (target : OperatorTarget) (c : ControlRef) (control : ActiveControl) : Prop :=
  match target with
  | .halt id => c = .halt id
  | .hold id => c = .hold id
  | .account id => (∃ pk, c = .freeze pk) ∧ control.account = some id

structure LogEntry where
  tables : OperationsTables
  env : OperatorEnv
  command : OperatorCommand

-- The log holds the accepted commands and the tables each ran in, the latest first.
structure ControlHistory where
  tables : OperationsTables
  log : List LogEntry := []

abbrev OperatorCall := OperatorEnv × OperatorCommand

def ControlHistory.step (text : TargetText) (h : ControlHistory) (call : OperatorCall) : ControlHistory :=
  match call.2.run text call.1 h.tables with
  | .ok s => { tables := s, log := ⟨h.tables, call.1, call.2⟩ :: h.log }
  | .error _ => h

-- The request was approved in time by someone other than its maker, with a role for the action.
structure ApprovedBy (entry : LogEntry) (requestId : Uuid) (request : OperatorActionRequest)
    (approver : Nat) (roles : List String) : Prop where
  command : entry.command = .approve requestId request.tenantId approver roles
  independent : approver ≠ request.requestedBy
  role : permitted request.actionType.roles roles
  inTime : entry.env.now < request.expiresAt

structure Justified (text : TargetText) (h : ControlHistory) (requestId : Uuid)
    (request : OperatorActionRequest) (executor : Nat) (roles : List String) (c : ControlRef)
    (control : ActiveControl) : Prop where
  recorded : h.tables.requests.find requestId = some request
  tenant : request.tenantId = control.tenantId
  target : ∃ target, request.target text = some target ∧ target.Names c control
  independent : executor ≠ request.requestedBy
  role : permitted request.actionType.roles roles
  approval : ∃ entry ∈ h.log, ∃ approver approverRoles,
    ApprovedBy entry requestId request approver approverRoles ∧ entry.tables.active c = some control
  once : ∀ entry ∈ h.log, ∀ tenant executor roles, entry.command ≠ .execute requestId tenant executor roles

def FourEyes (text : TargetText) (h : ControlHistory) (call : OperatorCall) : Prop :=
  ∀ c control, h.tables.active c = some control → (h.step text call).tables.active c = none →
    ∃ requestId tenant executor roles request, call.2 = .execute requestId tenant executor roles ∧
      Justified text h requestId request executor roles c control

def Outstanding (text : TargetText) (s : OperationsTables) (tenant : String) (target : OperatorTarget) : Prop :=
  ∃ id request, s.requests.find id = some request ∧ request.status = .approved ∧ request.tenantId = tenant ∧
    request.target text = some target

-- No control that an approved request waits for is put up or changed before the request is executed.
def Undisturbed (text : TargetText) (h : ControlHistory) (call : OperatorCall) : Prop :=
  match call.2 with
  | .freeze tenant account _ roles level reasonCode =>
    permitted ["security_manager", "platform_admin"] roles → call.1.tenantAccount tenant account →
      ∀ parsed, freezeLevel level = some parsed → Outstanding text h.tables tenant (.account account) →
        ((h.tables.activeFreeze tenant account).bind fun pk => h.tables.active (.freeze pk)) =
          some ⟨tenant, some account, some parsed, reasonCode⟩
  | .hold tenant account _ roles _ =>
    permitted ["compliance_manager", "platform_admin"] roles → call.1.tenantAccount tenant account →
      ¬Outstanding text h.tables tenant (.hold h.tables.holds.length)
  | .halt tenant _ roles _ =>
    permitted ["operations_manager", "platform_admin"] roles → ¬h.tables.halted tenant →
      ¬Outstanding text h.tables tenant (.halt call.1.uuid4)
  | _ => True

section Active

variable {s s' : OperationsTables} {env : OperatorEnv} {requestId : Uuid} {request : OperatorActionRequest}
  {executor : Nat} {target : OperatorTarget} {c : ControlRef} {control : ActiveControl}

@[simp] theorem active_withRequests (s : OperationsTables) (requests : Table Uuid OperatorActionRequest) :
    OperationsTables.active { s with requests } = s.active := by
  funext c
  cases c <;> rfl

theorem activeFreeze_eq_some {tenant : String} {account pk : Nat} (h : s.activeFreeze tenant account = some pk) :
    ∃ freeze, s.freezes[pk]? = some freeze ∧ freeze.tenantId = tenant ∧ freeze.account = account ∧
      freeze.releasedAt = none := by
  obtain ⟨hlt, hfreeze, -⟩ := List.findIdx?_eq_some_iff_getElem.mp h
  simp only [AccountFreeze.activeFor, Bool.and_eq_true, decide_eq_true_eq] at hfreeze
  exact ⟨s.freezes[pk], List.getElem?_eq_getElem hlt, hfreeze.1.1, hfreeze.1.2, hfreeze.2⟩

-- What a release writes: one control of the tenant that the target names, active before and not after.
structure Released (s s' : OperationsTables) (request : OperatorActionRequest) (target : OperatorTarget) : Prop where
  requests : s'.requests = s.requests
  released : ∃ c control, s.active c = some control ∧ s'.active c = none ∧ target.Names c control ∧
    control.tenantId = request.tenantId ∧ ∀ c', c' ≠ c → s'.active c' = s.active c'

theorem release_eq_ok (h : s.release env requestId request executor target = .ok s') :
    Released s s' request target := by
  cases target with
  | halt id =>
    obtain ⟨halt, hhalt, h₁⟩ := bind_eq_ok.mp h
    obtain rfl := pure_eq_ok.mp h₁
    obtain ⟨hfound, hactive⟩ := Option.filter_eq_some_iff.mp (demand_eq_ok.mp hhalt)
    simp only [Bool.and_eq_true, decide_eq_true_eq] at hactive
    refine ⟨rfl, .halt id, ⟨halt.tenantId, none, none, halt.reason⟩, ?_, ?_, rfl, hactive.1, ?_⟩
    · simp only [OperationsTables.active, hfound, Option.filter_some, hactive.2, decide_true, if_true]
      rfl
    · simp [OperationsTables.active]
    · intro c' hne
      cases c' with
      | halt id' =>
        have hid : id' ≠ id := fun heq => hne (congrArg ControlRef.halt heq)
        simp only [OperationsTables.active, Table.find_put_of_ne _ _ hid]
      | hold pk => rfl
      | freeze pk => rfl
  | hold id =>
    obtain ⟨hold, hhold, h₁⟩ := bind_eq_ok.mp h
    obtain rfl := pure_eq_ok.mp h₁
    obtain ⟨hfound, hactive⟩ := Option.filter_eq_some_iff.mp (demand_eq_ok.mp hhold)
    simp only [Bool.and_eq_true, decide_eq_true_eq] at hactive
    have hlt := (List.getElem?_eq_some_iff.mp hfound).1
    refine ⟨rfl, .hold id, ⟨hold.tenantId, some hold.account, none, hold.reason⟩, ?_, ?_, rfl, hactive.1.1, ?_⟩
    · simp only [OperationsTables.active, hfound, Option.filter_some, hactive.1.2, hactive.2, decide_true,
        Bool.and_self, if_true]
      rfl
    · simp [OperationsTables.active, hlt]
    · intro c' hne
      cases c' with
      | halt id' => rfl
      | hold pk =>
        have hpk : id ≠ pk := fun heq => hne (congrArg ControlRef.hold heq.symm)
        simp only [OperationsTables.active, List.getElem?_set_ne hpk]
      | freeze pk => rfl
  | account id =>
    obtain ⟨_, -, h₁⟩ := bind_eq_ok.mp h
    obtain ⟨pk, hpk, h₂⟩ := bind_eq_ok.mp h₁
    obtain rfl := pure_eq_ok.mp h₂
    obtain ⟨freeze, hfound, htenant, haccount, hactive⟩ := activeFreeze_eq_some (demand_eq_ok.mp hpk)
    refine ⟨rfl, .freeze pk, freeze.control, ?_, ?_, ⟨⟨pk, rfl⟩, congrArg some haccount⟩, htenant, ?_⟩
    · simp only [OperationsTables.active, hfound, Option.filter_some, hactive, decide_true, if_true]
      rfl
    · simp [OperationsTables.active, hfound]
    · intro c' hne
      cases c' with
      | halt id' => rfl
      | hold pk' => rfl
      | freeze pk' =>
        have hpk : pk ≠ pk' := fun heq => hne (congrArg ControlRef.freeze heq.symm)
        simp only [OperationsTables.active, List.getElem?_modify_ne _ _ hpk]

theorem Released.kept (h : Released s s' request target) (hactive : s'.active c = some control) :
    s.active c = some control := by
  obtain ⟨c₀, control₀, -, hgone, -, -, hothers⟩ := h.released
  by_cases hc : c = c₀
  · rw [hc, hgone] at hactive
    cases hactive
  · rwa [← hothers c hc]

theorem Released.names (h : Released s s' request target) (hactive : s.active c = some control)
    (hgone : s'.active c = none) : target.Names c control ∧ control.tenantId = request.tenantId := by
  obtain ⟨c₀, control₀, hbefore, -, hnames, htenant, hothers⟩ := h.released
  by_cases hc : c = c₀
  · subst hc
    obtain rfl := Option.some.inj (hactive.symm.trans hbefore)
    exact ⟨hnames, htenant⟩
  · rw [hothers c hc, hactive] at hgone
    cases hgone

end Active

section Commands

variable {s s' : OperationsTables} {text : TargetText} {env : OperatorEnv} {tenant : String} {requestId : Uuid}
  {roles : List String} {account actor executor approver user : Nat} {level reasonCode reason actionType : String}
  {targetRef : String} {c : ControlRef} {control : ActiveControl}

theorem requestOf_eq_ok {request : OperatorActionRequest} (h : s.requestOf requestId tenant = .ok request) :
    s.requests.find requestId = some request ∧ request.tenantId = tenant := by
  have hfound := Option.filter_eq_some_iff.mp (demand_eq_ok.mp h)
  exact ⟨hfound.1, of_decide_eq_true hfound.2⟩

theorem createAction_eq_ok (h : createAction env tenant user roles actionType reason targetRef s = .ok s') :
    ∃ request, request.status = .pending ∧ s.requests.find env.uuid4 = none ∧
      s' = { s with requests := s.requests.put env.uuid4 request } := by
  obtain ⟨_, -, h₁⟩ := bind_eq_ok.mp h
  obtain ⟨action, -, h₂⟩ := bind_eq_ok.mp h₁
  obtain ⟨_, -, h₃⟩ := bind_eq_ok.mp h₂
  obtain ⟨_, -, h₄⟩ := bind_eq_ok.mp h₃
  obtain ⟨_, hfree, h₅⟩ := bind_eq_ok.mp h₄
  obtain rfl := pure_eq_ok.mp h₅
  exact ⟨_, rfl, require_eq_ok.mp hfree, rfl⟩

theorem approve_eq_ok (h : approveOperatorRequest env requestId tenant approver roles s = .ok s') :
    ∃ request, s.requests.find requestId = some request ∧ request.tenantId = tenant ∧
      request.requestedBy ≠ approver ∧ request.status = .pending ∧ env.now < request.expiresAt ∧
      permitted request.actionType.roles roles ∧
      s' = { s with requests := s.requests.put requestId { request with
        status := .approved, approvedBy := some approver, approvedAt := some env.now } } := by
  obtain ⟨request, hrequest, h₁⟩ := bind_eq_ok.mp h
  obtain ⟨_, hmaker, h₂⟩ := bind_eq_ok.mp h₁
  obtain ⟨_, hpending, h₃⟩ := bind_eq_ok.mp h₂
  obtain ⟨_, hrole, h₄⟩ := bind_eq_ok.mp h₃
  obtain ⟨hfound, htenant⟩ := requestOf_eq_ok hrequest
  obtain ⟨hstatus, hintime⟩ := require_eq_ok.mp hpending
  exact ⟨request, hfound, htenant, require_eq_ok.mp hmaker, hstatus, hintime, require_eq_ok.mp hrole,
    (pure_eq_ok.mp h₄).symm⟩

theorem execute_eq_ok (h : executeOperatorRequest text env requestId tenant executor roles s = .ok s') :
    ∃ request target s₁, s.requests.find requestId = some request ∧ request.tenantId = tenant ∧
      request.status = .approved ∧ request.requestedBy ≠ executor ∧ permitted request.actionType.roles roles ∧
      request.target text = some target ∧ Released s s₁ request target ∧
      s' = { s₁ with requests := s₁.requests.put requestId { request with
        status := .executed, executedAt := some env.now } } := by
  obtain ⟨request, hrequest, h₁⟩ := bind_eq_ok.mp h
  obtain ⟨_, happroved, h₂⟩ := bind_eq_ok.mp h₁
  obtain ⟨_, hmaker, h₃⟩ := bind_eq_ok.mp h₂
  obtain ⟨_, -, h₄⟩ := bind_eq_ok.mp h₃
  obtain ⟨_, hrole, h₅⟩ := bind_eq_ok.mp h₄
  obtain ⟨target, htarget, h₆⟩ := bind_eq_ok.mp h₅
  obtain ⟨s₁, hrelease, h₇⟩ := bind_eq_ok.mp h₆
  obtain ⟨hfound, htenant⟩ := requestOf_eq_ok hrequest
  exact ⟨request, target, s₁, hfound, htenant, (require_eq_ok.mp happroved).1, require_eq_ok.mp hmaker,
    require_eq_ok.mp hrole, demand_eq_ok.mp htarget, release_eq_ok hrelease, (pure_eq_ok.mp h₇).symm⟩

-- A freeze leaves every other control as it was and ends with one freeze of the account.
theorem freezeAccount_eq_ok (h : freezeAccount env tenant account actor roles level reasonCode s = .ok s') :
    permitted ["security_manager", "platform_admin"] roles ∧ env.tenantAccount tenant account ∧
      s'.requests = s.requests ∧ ∃ parsed pk, freezeLevel level = some parsed ∧
        s'.active (.freeze pk) = some ⟨tenant, some account, some parsed, reasonCode⟩ ∧
        (∀ c, c ≠ .freeze pk → s'.active c = s.active c) ∧
        (s.activeFreeze tenant account = some pk ∨
          s.activeFreeze tenant account = none ∧ s.active (.freeze pk) = none) := by
  obtain ⟨_, hrole, h₁⟩ := bind_eq_ok.mp h
  obtain ⟨_, haccount, h₂⟩ := bind_eq_ok.mp h₁
  obtain ⟨parsed, hparsed, h₃⟩ := bind_eq_ok.mp h₂
  obtain ⟨_, -, h₄⟩ := bind_eq_ok.mp h₃
  cases hactive : s.activeFreeze tenant account with
  | some pk =>
    simp only [hactive] at h₄
    obtain rfl := pure_eq_ok.mp h₄
    obtain ⟨freeze, hfound, htenant, hsame, hnone⟩ := activeFreeze_eq_some hactive
    refine ⟨require_eq_ok.mp hrole, require_eq_ok.mp haccount, rfl, parsed, pk, demand_eq_ok.mp hparsed, ?_, ?_, .inl rfl⟩
    · simp [OperationsTables.active, hfound, hnone, AccountFreeze.control, htenant, hsame]
    · intro c hne
      cases c with
      | halt id => rfl
      | hold pk' => rfl
      | freeze pk' =>
        have hpk : pk ≠ pk' := fun heq => hne (congrArg ControlRef.freeze heq.symm)
        simp only [OperationsTables.active, List.getElem?_modify_ne _ _ hpk]
  | none =>
    simp only [hactive] at h₄
    obtain rfl := pure_eq_ok.mp h₄
    refine ⟨require_eq_ok.mp hrole, require_eq_ok.mp haccount, rfl, parsed, s.freezes.length,
      demand_eq_ok.mp hparsed, ?_, ?_, .inr ⟨rfl, ?_⟩⟩
    · simp [OperationsTables.active, AccountFreeze.control]
    · intro c hne
      cases c with
      | halt id => rfl
      | hold pk' => rfl
      | freeze pk' =>
        have hpk : pk' ≠ s.freezes.length := fun heq => hne (congrArg ControlRef.freeze heq)
        rcases lt_or_gt_of_ne hpk with hlt | hgt
        · simp only [OperationsTables.active, List.getElem?_append_left hlt]
        · simp [OperationsTables.active, List.getElem?_eq_none hgt.le, hgt]
    · simp [OperationsTables.active]

theorem createLegalHold_eq_ok (h : createLegalHold env tenant account actor roles reason s = .ok s') :
    permitted ["compliance_manager", "platform_admin"] roles ∧ env.tenantAccount tenant account ∧
      s'.requests = s.requests ∧ s.active (.hold s.holds.length) = none ∧
      (∀ control, s'.active (.hold s.holds.length) = some control → control.tenantId = tenant) ∧
      ∀ c, c ≠ .hold s.holds.length → s'.active c = s.active c := by
  obtain ⟨_, hrole, h₁⟩ := bind_eq_ok.mp h
  obtain ⟨_, haccount, h₂⟩ := bind_eq_ok.mp h₁
  obtain rfl := pure_eq_ok.mp h₂
  refine ⟨require_eq_ok.mp hrole, require_eq_ok.mp haccount, rfl, ?_, ?_, ?_⟩
  · simp [OperationsTables.active]
  · intro control hcontrol
    simp only [OperationsTables.active, List.getElem?_concat_length, Option.filter_some, decide_true,
      Bool.and_self, if_true, Option.map_some, Option.some.injEq] at hcontrol
    rw [← hcontrol]
  · intro c hne
    cases c with
    | halt id => rfl
    | freeze pk => rfl
    | hold pk =>
      have hpk : pk ≠ s.holds.length := fun heq => hne (congrArg ControlRef.hold heq)
      rcases lt_or_gt_of_ne hpk with hlt | hgt
      · simp only [OperationsTables.active, List.getElem?_append_left hlt]
      · simp [OperationsTables.active, List.getElem?_eq_none hgt.le, hgt]

theorem activateTradingHalt_eq_ok (h : activateTradingHalt env tenant actor roles reason s = .ok s') :
    s' = s ∨ permitted ["operations_manager", "platform_admin"] roles ∧ ¬s.halted tenant ∧
      s'.requests = s.requests ∧ s.active (.halt env.uuid4) = none ∧
      (∀ control, s'.active (.halt env.uuid4) = some control → control.tenantId = tenant) ∧
      ∀ c, c ≠ .halt env.uuid4 → s'.active c = s.active c := by
  obtain ⟨_, hrole, h₁⟩ := bind_eq_ok.mp h
  obtain ⟨_, -, h₂⟩ := bind_eq_ok.mp h₁
  split at h₂
  · exact .inl (pure_eq_ok.mp h₂).symm
  · next hhalted =>
    obtain ⟨_, hfree, h₃⟩ := bind_eq_ok.mp h₂
    obtain rfl := pure_eq_ok.mp h₃
    have hnone := require_eq_ok.mp hfree
    refine .inr ⟨require_eq_ok.mp hrole, hhalted, rfl, by simp [OperationsTables.active, hnone], ?_, ?_⟩
    · intro control hcontrol
      simp only [OperationsTables.active, Table.find_put_self, Option.filter_some, decide_true, if_true,
        Option.map_some, Option.some.injEq] at hcontrol
      rw [← hcontrol]
    · intro c hne
      cases c with
      | hold pk => rfl
      | freeze pk => rfl
      | halt id =>
        have hid : id ≠ env.uuid4 := fun heq => hne (congrArg ControlRef.halt heq)
        simp only [OperationsTables.active, Table.find_put_of_ne _ _ hid]

end Commands

-- An approved request was approved in the log, and what its target names now was there at that moment.
def Vouched (text : TargetText) (h : ControlHistory) (requestId : Uuid) (request : OperatorActionRequest) : Prop :=
  ∃ entry ∈ h.log, ∃ approver roles, ApprovedBy entry requestId request approver roles ∧
    ∀ target c control, request.target text = some target → target.Names c control →
      control.tenantId = request.tenantId → h.tables.active c = some control → entry.tables.active c = some control

structure Recorded (text : TargetText) (h : ControlHistory) : Prop where
  vouched : ∀ id request, h.tables.requests.find id = some request → request.status = .approved →
    Vouched text h id request
  executed : ∀ entry ∈ h.log, ∀ id tenant executor roles, entry.command = .execute id tenant executor roles →
    ∃ request, h.tables.requests.find id = some request ∧ request.status = .executed

section Run

variable {text : TargetText} {h : ControlHistory} {call : OperatorCall} {s' : OperationsTables} {id : Uuid}
  {request : OperatorActionRequest} {target : OperatorTarget} {c : ControlRef} {control : ActiveControl}

theorem step_cases (text : TargetText) (h : ControlHistory) (call : OperatorCall) :
    (∃ s', call.2.run text call.1 h.tables = .ok s' ∧
      h.step text call = { tables := s', log := ⟨h.tables, call.1, call.2⟩ :: h.log }) ∨ h.step text call = h := by
  cases hrun : call.2.run text call.1 h.tables with
  | error e => exact .inr (by simp only [ControlHistory.step, hrun])
  | ok s' => exact .inl ⟨s', rfl, by simp only [ControlHistory.step, hrun]⟩

-- An undisturbed command brings no control to an approved request: what its target names was there before.
theorem Undisturbed.active (hcall : Undisturbed text h call) (hrun : call.2.run text call.1 h.tables = .ok s')
    (hfound : h.tables.requests.find id = some request) (happroved : request.status = .approved)
    (htarget : request.target text = some target) (hnames : target.Names c control)
    (htenant : control.tenantId = request.tenantId) (hactive : s'.active c = some control) :
    h.tables.active c = some control := by
  obtain ⟨env, command⟩ := call
  cases command with
  | create tenant user roles actionType reason targetRef =>
    obtain ⟨created, -, -, rfl⟩ := createAction_eq_ok hrun
    rwa [active_withRequests] at hactive
  | approve requestId tenant approver roles =>
    obtain ⟨found, -, -, -, -, -, -, rfl⟩ := approve_eq_ok hrun
    rwa [active_withRequests] at hactive
  | execute requestId tenant executor roles =>
    obtain ⟨found, target', s₁, -, -, -, -, -, -, hreleased, rfl⟩ := execute_eq_ok hrun
    rw [active_withRequests] at hactive
    exact hreleased.kept hactive
  | freeze tenant account actor roles level reasonCode =>
    obtain ⟨hrole, haccount, -, parsed, pk, hparsed, hfrozen, hothers, hpk⟩ := freezeAccount_eq_ok hrun
    by_cases hc : c = .freeze pk
    · subst hc
      obtain rfl := Option.some.inj (hactive.symm.trans hfrozen)
      have houtstanding : Outstanding text h.tables tenant (.account account) := by
        cases target with
        | halt id => cases hnames
        | hold id => cases hnames
        | account id =>
          obtain rfl := Option.some.inj hnames.2
          exact ⟨_, request, hfound, happroved, htenant.symm, htarget⟩
      have hkept := hcall hrole haccount parsed hparsed houtstanding
      rcases hpk with hsame | ⟨hnone, -⟩
      · rwa [hsame] at hkept
      · rw [hnone] at hkept
        cases hkept
    · rwa [← hothers c hc]
  | hold tenant account actor roles reason =>
    obtain ⟨hrole, haccount, -, -, hnew, hothers⟩ := createLegalHold_eq_ok hrun
    by_cases hc : c = .hold h.tables.holds.length
    · subst hc
      have houtstanding : Outstanding text h.tables tenant (.hold h.tables.holds.length) := by
        cases target with
        | halt id => cases hnames
        | hold id =>
          obtain rfl := ControlRef.hold.inj hnames
          exact ⟨_, request, hfound, happroved, htenant.symm.trans (hnew _ hactive), htarget⟩
        | account id => exact absurd hnames.1 (by simp)
      exact absurd houtstanding (hcall hrole haccount)
    · rwa [← hothers c hc]
  | halt tenant actor roles reason =>
    rcases activateTradingHalt_eq_ok hrun with rfl | ⟨hrole, hhalted, -, -, hnew, hothers⟩
    · exact hactive
    · by_cases hc : c = .halt env.uuid4
      · subst hc
        have houtstanding : Outstanding text h.tables tenant (.halt env.uuid4) := by
          cases target with
          | halt id =>
            obtain rfl := ControlRef.halt.inj hnames
            exact ⟨_, request, hfound, happroved, htenant.symm.trans (hnew _ hactive), htarget⟩
          | hold id => cases hnames
          | account id => exact absurd hnames.1 (by simp)
        exact absurd houtstanding (hcall hrole hhalted)
      · rwa [← hothers c hc]

theorem Vouched.step (hvouched : Vouched text h id request) (hcall : Undisturbed text h call)
    (hrun : call.2.run text call.1 h.tables = .ok s') (hfound : h.tables.requests.find id = some request)
    (happroved : request.status = .approved) :
    Vouched text { tables := s', log := ⟨h.tables, call.1, call.2⟩ :: h.log } id request := by
  obtain ⟨entry, hentry, approver, roles, happrovedBy, hactive⟩ := hvouched
  refine ⟨entry, List.mem_cons_of_mem _ hentry, approver, roles, happrovedBy, ?_⟩
  intro target c control htarget hnames htenant hnow
  exact hactive target c control htarget hnames htenant
    (hcall.active hrun hfound happroved htarget hnames htenant hnow)

-- What an accepted command does to the requests.
theorem run_requests (hrun : call.2.run text call.1 h.tables = .ok s') :
    s'.requests = h.tables.requests ∨
    (∃ request, request.status = .pending ∧ h.tables.requests.find call.1.uuid4 = none ∧
      s'.requests = h.tables.requests.put call.1.uuid4 request) ∨
    (∃ requestId approver roles request request', call.2 = .approve requestId request.tenantId approver roles ∧
      h.tables.requests.find requestId = some request ∧ request.status = .pending ∧
      s'.requests = h.tables.requests.put requestId request' ∧ s'.active = h.tables.active ∧
      ApprovedBy ⟨h.tables, call.1, call.2⟩ requestId request' approver roles) ∨
    ∃ requestId tenant executor roles request', call.2 = .execute requestId tenant executor roles ∧
      request'.status = .executed ∧ s'.requests = h.tables.requests.put requestId request' := by
  obtain ⟨env, command⟩ := call
  cases command with
  | create tenant user roles actionType reason targetRef =>
    obtain ⟨created, hpending, hnone, rfl⟩ := createAction_eq_ok hrun
    exact .inr (.inl ⟨created, hpending, hnone, rfl⟩)
  | approve requestId tenant approver roles =>
    obtain ⟨request, hfound, rfl, hmaker, hpending, hintime, hrole, rfl⟩ := approve_eq_ok hrun
    exact .inr (.inr (.inl ⟨requestId, approver, roles, request, _, rfl, hfound, hpending, rfl,
      active_withRequests _ _, rfl, hmaker.symm, hrole, hintime⟩))
  | execute requestId tenant executor roles =>
    obtain ⟨request, target, s₁, -, -, -, -, -, -, hreleased, rfl⟩ := execute_eq_ok hrun
    exact .inr (.inr (.inr ⟨requestId, tenant, executor, roles, _, rfl, rfl, by rw [← hreleased.requests]⟩))
  | freeze tenant account actor roles level reasonCode => exact .inl (freezeAccount_eq_ok hrun).2.2.1
  | hold tenant account actor roles reason => exact .inl (createLegalHold_eq_ok hrun).2.2.1
  | halt tenant actor roles reason =>
    rcases activateTradingHalt_eq_ok hrun with rfl | hnew
    · exact .inl rfl
    · exact .inl hnew.2.2.1

theorem executed_now {tenant : String} {executor : Nat} {roles : List String}
    (hrun : call.2.run text call.1 h.tables = .ok s') (hcommand : call.2 = .execute id tenant executor roles) :
    ∃ request, s'.requests.find id = some request ∧ request.status = .executed := by
  rw [hcommand] at hrun
  obtain ⟨found, target, s₁, -, -, -, -, -, -, -, rfl⟩ := execute_eq_ok hrun
  exact ⟨_, Table.find_put_self _ _ _, rfl⟩

theorem executed_kept (hrun : call.2.run text call.1 h.tables = .ok s')
    (hfound : h.tables.requests.find id = some request) (hexecuted : request.status = .executed) :
    ∃ request, s'.requests.find id = some request ∧ request.status = .executed := by
  have hother {requestId : Uuid} {written : OperatorActionRequest} (hne : id ≠ requestId) :
      (h.tables.requests.put requestId written).find id = some request := by
    rwa [Table.find_put_of_ne _ _ hne]
  rcases run_requests hrun with hsame | ⟨created, -, hnone, hput⟩ |
    ⟨requestId, -, -, before, after, -, hbefore, hpending, hput, -, -⟩ |
    ⟨requestId, -, -, -, after, -, hafter, hput⟩
  · exact ⟨request, hsame ▸ hfound, hexecuted⟩
  · rw [hput]
    refine ⟨request, hother fun heq => ?_, hexecuted⟩
    rw [heq, hnone] at hfound
    cases hfound
  · rw [hput]
    refine ⟨request, hother fun heq => ?_, hexecuted⟩
    rw [heq] at hfound
    obtain rfl := Option.some.inj (hbefore.symm.trans hfound)
    cases hpending.symm.trans hexecuted
  · rw [hput]
    by_cases hid : id = requestId
    · subst hid
      exact ⟨after, Table.find_put_self _ _ _, hafter⟩
    · exact ⟨request, hother hid, hexecuted⟩

theorem vouched_kept (hrecorded : Recorded text h) (hcall : Undisturbed text h call)
    (hrun : call.2.run text call.1 h.tables = .ok s') (hfound : s'.requests.find id = some request)
    (happroved : request.status = .approved) :
    Vouched text { tables := s', log := ⟨h.tables, call.1, call.2⟩ :: h.log } id request := by
  have hold (hbefore : h.tables.requests.find id = some request) :
      Vouched text { tables := s', log := ⟨h.tables, call.1, call.2⟩ :: h.log } id request :=
    (hrecorded.vouched id request hbefore happroved).step hcall hrun hbefore happroved
  rcases run_requests hrun with hsame | ⟨created, hpending, -, hput⟩ |
    ⟨requestId, approver, roles, before, after, -, -, -, hput, hactive, happrovedBy⟩ |
    ⟨requestId, -, -, -, after, -, hexecuted, hput⟩
  · exact hold (hsame ▸ hfound)
  · rw [hput] at hfound
    rcases Table.find_put_cases hfound with ⟨-, rfl⟩ | ⟨-, hbefore⟩
    · cases hpending.symm.trans happroved
    · exact hold hbefore
  · rw [hput] at hfound
    rcases Table.find_put_cases hfound with ⟨rfl, rfl⟩ | ⟨-, hbefore⟩
    · refine ⟨_, List.mem_cons_self, approver, roles, happrovedBy, fun target c control _ _ _ hnow => ?_⟩
      exact hactive ▸ hnow
    · exact hold hbefore
  · rw [hput] at hfound
    rcases Table.find_put_cases hfound with ⟨-, rfl⟩ | ⟨-, hbefore⟩
    · cases hexecuted.symm.trans happroved
    · exact hold hbefore

theorem Recorded.step (hrecorded : Recorded text h) (hcall : Undisturbed text h call) :
    Recorded text (h.step text call) := by
  obtain ⟨s', hrun, heq⟩ | heq := step_cases text h call
  · rw [heq]
    refine ⟨fun id request hfound happroved => vouched_kept hrecorded hcall hrun hfound happroved, ?_⟩
    intro entry hentry id tenant executor roles hcommand
    rcases List.mem_cons.mp hentry with rfl | hentry
    · exact executed_now hrun hcommand
    · obtain ⟨request, hfound, hexecuted⟩ := hrecorded.executed entry hentry id tenant executor roles hcommand
      exact executed_kept hrun hfound hexecuted
  · rwa [heq]

theorem Recorded.fourEyes (hrecorded : Recorded text h) : FourEyes text h call := by
  intro c control hactive hgone
  obtain ⟨s', hrun, heq⟩ | heq := step_cases text h call
  · rw [heq] at hgone
    obtain ⟨env, command⟩ := call
    have hkept {s : OperationsTables} (hsame : s.active c = h.tables.active c) (hnone : s.active c = none) :
        False := by
      rw [hsame, hactive] at hnone
      cases hnone
    cases command with
    | create tenant user roles actionType reason targetRef =>
      obtain ⟨created, -, -, rfl⟩ := createAction_eq_ok hrun
      exact (hkept (congrFun (active_withRequests _ _) c) hgone).elim
    | approve requestId tenant approver roles =>
      obtain ⟨found, -, -, -, -, -, -, rfl⟩ := approve_eq_ok hrun
      exact (hkept (congrFun (active_withRequests _ _) c) hgone).elim
    | execute requestId tenant executor roles =>
      obtain ⟨request, target, s₁, hfound, -, happroved, hmaker, hrole, htarget, hreleased, rfl⟩ :=
        execute_eq_ok hrun
      rw [active_withRequests] at hgone
      obtain ⟨hnames, htenant⟩ := hreleased.names hactive hgone
      obtain ⟨entry, hentry, approver, approverRoles, happrovedBy, hthen⟩ :=
        hrecorded.vouched requestId request hfound happroved
      exact ⟨requestId, tenant, executor, roles, request, rfl,
        { recorded := hfound
          tenant := htenant.symm
          target := ⟨target, htarget, hnames⟩
          independent := hmaker.symm
          role := hrole
          approval := ⟨entry, hentry, approver, approverRoles, happrovedBy,
            hthen target c control htarget hnames htenant hactive⟩
          once := fun entry hentry tenant executor roles hcommand => by
            obtain ⟨found, hfound', hexecuted⟩ := hrecorded.executed entry hentry _ tenant executor roles hcommand
            obtain rfl := Option.some.inj (hfound.symm.trans hfound')
            cases happroved.symm.trans hexecuted }⟩
    | freeze tenant account actor roles level reasonCode =>
      obtain ⟨-, -, -, parsed, pk, -, hfrozen, hothers, -⟩ := freezeAccount_eq_ok hrun
      by_cases hc : c = .freeze pk
      · rw [hc, hfrozen] at hgone
        cases hgone
      · exact (hkept (hothers c hc) hgone).elim
    | hold tenant account actor roles reason =>
      obtain ⟨-, -, -, hnew, -, hothers⟩ := createLegalHold_eq_ok hrun
      by_cases hc : c = .hold h.tables.holds.length
      · rw [hc, hnew] at hactive
        cases hactive
      · exact (hkept (hothers c hc) hgone).elim
    | halt tenant actor roles reason =>
      rcases activateTradingHalt_eq_ok hrun with rfl | ⟨-, -, -, hnew, -, hothers⟩
      · exact (hkept rfl hgone).elim
      · by_cases hc : c = .halt env.uuid4
        · rw [hc, hnew] at hactive
          cases hactive
        · exact (hkept (hothers c hc) hgone).elim
  · rw [heq, hactive] at hgone
    cases hgone

end Run

-- Nothing has been approved yet; requests may be pending and controls may stand.
def NoneApproved (s : OperationsTables) : Prop :=
  ∀ id request, s.requests.find id = some request → request.status ≠ .approved

theorem four_eyes_release (text : TargetText) {start : OperationsTables} (hstart : NoneApproved start)
    {calls : List OperatorCall} (h : Throughout (ControlHistory.step text) (Undisturbed text) calls { tables := start }) :
    ∀ before call after, calls = before ++ call :: after →
      FourEyes text (before.foldl (ControlHistory.step text) { tables := start }) call := by
  intro before call after heq
  rw [heq] at h
  have hrun := (throughout_append.mp h).1.reaches
  have hempty : Recorded text { tables := start } :=
    ⟨fun id request hfound happroved => absurd happroved (hstart id request hfound), nofun⟩
  exact (hrun.invariant hempty fun _ _ hrecorded hcall => hrecorded.step hcall).fourEyes

def decimal (text : String) : Option Nat :=
  let digits := text.toList
  if digits ≠ [] ∧ digits.all Char.isDigit then
    some (digits.foldl (fun n c => 10 * n + (c.toNat - '0'.toNat)) 0)
  else none

def plainText : TargetText where
  accountId := decimal
  holdId := decimal
  haltId := some

def callAt (now : Timestamp) (command : OperatorCommand) : OperatorCall :=
  ({ now, uuid4 := "R1", tenantAccount := fun _ _ => true }, command)

def securityManager : List String := ["security_manager"]

def frozenThenApproved : List OperatorCall :=
  [callAt 1 (.freeze "acme" 7 4 securityManager "PARTIAL" "UNUSUAL_LOGIN"),
    callAt 2 (.create "acme" 1 securityManager "UNFREEZE" "login explained" "account:7"),
    callAt 3 (.approve "R1" "acme" 2 securityManager)]

def unfreeze : OperatorCall := callAt 5 (.execute "R1" "acme" 3 securityManager)

theorem four_eyes_unfreeze :
    FourEyes plainText (frozenThenApproved.foldl (ControlHistory.step plainText) { tables := {} }) unfreeze := by
  have hstart : NoneApproved {} := fun id request hfound => by cases hfound
  have hfreeze : Undisturbed plainText { tables := {} }
      (callAt 1 (.freeze "acme" 7 4 securityManager "PARTIAL" "UNUSUAL_LOGIN")) := by
    rintro - - parsed - ⟨id, request, hfound, -⟩
    cases hfound
  have hrun : Throughout (ControlHistory.step plainText) (Undisturbed plainText) (frozenThenApproved ++ [unfreeze])
      { tables := {} } :=
    ⟨hfreeze, trivial, trivial, trivial, trivial⟩
  exact four_eyes_release plainText hstart hrun frozenThenApproved unfreeze [] rfl

-- After the approval the freeze is raised to FULL for a new reason, and the old approval releases it.
def escalated : List OperatorCall :=
  frozenThenApproved ++ [callAt 4 (.freeze "acme" 7 4 securityManager "FULL" "SANCTIONS_MATCH")]

theorem escalated_freeze_released : ¬∀ (text : TargetText) (start : OperationsTables), NoneApproved start →
    ∀ (calls before after : List OperatorCall) (call : OperatorCall), calls = before ++ call :: after →
      FourEyes text (before.foldl (ControlHistory.step text) { tables := start }) call := by
  intro hclaim
  have hcontrol : (escalated.foldl (ControlHistory.step plainText) { tables := {} }).tables.active (.freeze 0) =
      some ⟨"acme", some 7, some .fullFreeze, "SANCTIONS_MATCH"⟩ := by
    decide +kernel
  have hreleased : ((escalated.foldl (ControlHistory.step plainText) { tables := {} }).step plainText
      unfreeze).tables.active (.freeze 0) = none := by
    decide +kernel
  have hlog : ∀ entry ∈ (escalated.foldl (ControlHistory.step plainText) { tables := {} }).log,
      entry.tables.active (.freeze 0) ≠ some ⟨"acme", some 7, some .fullFreeze, "SANCTIONS_MATCH"⟩ := by
    decide +kernel
  obtain ⟨_, _, _, _, _, _, hjustified⟩ := hclaim plainText {} (fun id request hfound => by cases hfound)
    (escalated ++ [unfreeze]) escalated [] unfreeze rfl (.freeze 0) _ hcontrol hreleased
  obtain ⟨entry, hentry, _, _, _, hthen⟩ := hjustified.approval
  exact hlog entry hentry hthen

end OperatorControls

end Beyvra
