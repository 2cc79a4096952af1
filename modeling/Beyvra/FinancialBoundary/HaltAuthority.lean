import Beyvra.FinancialBoundary.Halts

namespace Beyvra

open Relational

section Calls

variable {env : HaltEnv} {s s' : HaltTables}

theorem requestFinancialHalt_eq_ok {args : HaltRequestArgs} {request : FinancialHaltRequest}
    (h : requestFinancialHalt env args s = .ok (request, s')) :
    s.requests.find env.uuid4 = none ∧ s'.requests = s.requests.put env.uuid4 request ∧
      s'.approvals = s.approvals := by
  simp only [requestFinancialHalt, bind_eq_ok, require_eq_ok, pure_eq_ok, Prod.mk.injEq] at h
  obtain ⟨_, -, _, -, _, -, _, -, _, -, _, -, _, -, _, -, _, -, _, hfresh, _, -, rfl, rfl⟩ := h
  exact ⟨hfresh, rfl, rfl⟩

structure Approves (env : HaltEnv) (args : HaltApprovalArgs) (s s' : HaltTables)
    (request : FinancialHaltRequest) (approval : FinancialHaltApproval) : Prop where
  written : s'.approvals = s.approvals ++ [approval]
  requests : s'.requests = s.requests
  requestId : approval.requestId = args.requestId
  approvedAt : approval.approvedAt = env.now
  unapproved : s.approvalFor args.requestId = none
  reduces : request.proposedState.allowed ⊂ (currentHaltState s request.tenantRef).allowed
  checker : request.requestedBy ≠ approval.approvedBy

structure Authorized (args : HaltApprovalArgs) (approvedBy : Int) : Prop where
  actor : args.approvedBy = .int approvedBy
  manager : ∃ roles, args.roles = .collection roles ∧ financialManager ∈ roles

theorem approveFinancialHalt_cases {args : HaltApprovalArgs} {approval : FinancialHaltApproval}
    (h : approveFinancialHalt env args s = .ok (approval, s')) :
    ∃ request, s.requests.find args.requestId = some request ∧
      (s.approvalFor args.requestId = some approval ∧ s' = s ∨
        Approves env args s s' request approval ∧ Authorized args approval.approvedBy) := by
  simp only [approveFinancialHalt, bind_eq_ok, require_eq_ok, fetch_eq_ok] at h
  obtain ⟨approvedBy, hactor, roles, hroles, _, hmanager, request, hrequest, _, hchecker, h⟩ := h
  refine ⟨request, hrequest, ?_⟩
  cases hexisting : s.approvalFor args.requestId with
  | some existing =>
    rw [hexisting] at h
    obtain ⟨rfl, rfl⟩ := Prod.mk.inj (pure_eq_ok.mp h)
    exact .inl ⟨rfl, rfl⟩
  | none =>
    rw [hexisting] at h
    simp only [approvePending, createApproval, bind_eq_ok, require_eq_ok, pure_eq_ok,
      Prod.mk.injEq] at h
    obtain ⟨_, ⟨hne, hsubset⟩, correlation, -, _, ⟨_, -, _, -, _, -, rfl⟩, _, -, rfl, rfl⟩ := h
    refine .inr ⟨⟨rfl, rfl, rfl, rfl, hexisting, ?_, hchecker⟩, ?_, ?_⟩
    · exact Finset.ssubset_iff_subset_ne.mpr ⟨hsubset, hne⟩
    · unfold validateActor at hactor
      split at hactor
      · split at hactor
        · cases hactor
        · exact Except.ok.inj hactor ▸ ‹_›
      · cases hactor
    · unfold rolesOf at hroles
      split at hroles
      · exact ⟨_, ‹_›, Except.ok.inj hroles ▸ hmanager⟩
      · cases hroles

end Calls

def HaltTables.tenantOf (s : HaltTables) (approval : FinancialHaltApproval) : Option Uuid :=
  (s.requests.find approval.requestId).map (·.tenantRef)

structure HaltInv (s : HaltTables) : Prop where
  checked : ∀ a ∈ s.approvals, ∃ request, s.requests.find a.requestId = some request ∧
    request.requestedBy ≠ a.approvedBy
  single : (s.approvals.map (·.requestId)).Nodup

-- What one call did to the approvals.
inductive HaltEffect (call : HaltCall) (s s' : HaltTables) : Prop where
  | nothing (h : s' = s)
  | requested (request : FinancialHaltRequest) (hfresh : s.requests.find call.env.uuid4 = none)
      (hrequests : s'.requests = s.requests.put call.env.uuid4 request)
      (happrovals : s'.approvals = s.approvals)
  | approved (args : HaltApprovalArgs) (request : FinancialHaltRequest)
      (approval : FinancialHaltApproval) (hop : call.op = .approve args)
      (hrequest : s.requests.find args.requestId = some request)
      (happroves : Approves call.env args s s' request approval)
      (hauthorized : Authorized args approval.approvedBy)
      (hok : approveFinancialHalt call.env args s = .ok (approval, s'))

section Effects

variable {s s' : HaltTables} {call : HaltCall}

theorem haltStep_effect (s : HaltTables) (call : HaltCall) : HaltEffect call s (haltStep s call) := by
  obtain ⟨env, op⟩ := call
  cases op with
  | request args =>
    rcases commit_cases (requestFinancialHalt env args) s with ⟨request, s', hok, hs'⟩ | ⟨-, hs⟩
    · obtain ⟨hfresh, hrequests, happrovals⟩ := requestFinancialHalt_eq_ok hok
      rw [← hs'] at hrequests happrovals
      exact .requested request hfresh hrequests happrovals
    · exact .nothing hs
  | approve args =>
    rcases commit_cases (approveFinancialHalt env args) s with ⟨approval, s', hok, hs'⟩ | ⟨-, hs⟩
    · obtain ⟨request, hrequest, ⟨-, hsame⟩ | ⟨happroves, hauthorized⟩⟩ :=
        approveFinancialHalt_cases hok
      · exact .nothing (hs'.trans hsame)
      · rw [← hs'] at happroves hok
        exact .approved args request approval rfl hrequest happroves hauthorized hok
    · exact .nothing hs

theorem HaltInv.requests_put (h : HaltInv s) {id : Uuid} {request : FinancialHaltRequest}
    (hfresh : s.requests.find id = none) {a : FinancialHaltApproval} (ha : a ∈ s.approvals) :
    (s.requests.put id request).find a.requestId = s.requests.find a.requestId := by
  obtain ⟨r, hr, -⟩ := h.checked a ha
  refine Table.find_put_of_ne _ _ fun heq => ?_
  rw [heq, hfresh] at hr
  cases hr

theorem not_mem_of_unapproved {id : Uuid} (h : s.approvalFor id = none) :
    id ∉ s.approvals.map (·.requestId) := by
  intro hmem
  obtain ⟨a, ha, rfl⟩ := List.mem_map.mp hmem
  have hnone := List.find?_eq_none.mp h a ha
  simp at hnone

theorem HaltInv.effect (h : HaltInv s) (he : HaltEffect call s s') : HaltInv s' := by
  cases he with
  | nothing hs =>
    subst hs
    exact h
  | requested request hfresh hrequests happrovals =>
    refine ⟨?_, happrovals ▸ h.single⟩
    intro a ha
    rw [happrovals] at ha
    rw [hrequests, h.requests_put hfresh ha]
    exact h.checked a ha
  | approved args request approval hop hrequest happroves hauthorized hok =>
    refine ⟨?_, ?_⟩
    · intro a ha
      rw [happroves.requests]
      rw [happroves.written] at ha
      rcases List.mem_append.mp ha with hold | hnew
      · exact h.checked a hold
      · obtain rfl := List.mem_singleton.mp hnew
        exact ⟨request, happroves.requestId ▸ hrequest, happroves.checker⟩
    · rw [happroves.written, List.map_append, List.nodup_append_comm]
      have hnot := not_mem_of_unapproved happroves.unapproved
      rw [← happroves.requestId] at hnot
      exact List.nodup_cons.mpr ⟨hnot, h.single⟩

theorem approvalsOf_requested (h : HaltInv s) (tenant : Uuid) {id : Uuid}
    {request : FinancialHaltRequest} (hfresh : s.requests.find id = none)
    (hrequests : s'.requests = s.requests.put id request) (happrovals : s'.approvals = s.approvals) :
    s'.approvalsOf tenant = s.approvalsOf tenant := by
  unfold HaltTables.approvalsOf
  rw [happrovals]
  refine List.filter_congr fun a ha => ?_
  rw [hrequests, h.requests_put hfresh ha]

theorem approvalsOf_approved (tenant : Uuid) {env : HaltEnv} {args : HaltApprovalArgs}
    {request : FinancialHaltRequest} {approval : FinancialHaltApproval}
    (hrequest : s.requests.find args.requestId = some request)
    (ha : Approves env args s s' request approval) :
    s'.approvalsOf tenant =
      s.approvalsOf tenant ++ if request.tenantRef = tenant then [approval] else [] := by
  unfold HaltTables.approvalsOf
  rw [ha.written, ha.requests, List.filter_append]
  congr 1
  by_cases htenant : request.tenantRef = tenant
  · simp [ha.requestId, hrequest, htenant]
  · simp [ha.requestId, hrequest, htenant]

instance : Std.Total approvedBefore := ⟨fun a b => by
  unfold approvedBefore
  rcases lt_trichotomy a.approvedAt b.approvedAt with h | h | h
  · exact .inr (.inl h)
  · rcases le_total a.approvalId b.approvalId with hid | hid
    · exact .inr (.inr ⟨h, hid⟩)
    · exact .inl (.inr ⟨h.symm, hid⟩)
  · exact .inl (.inl h)⟩

instance : IsTrans FinancialHaltApproval approvedBefore := ⟨fun a b c hab hbc => by
  unfold approvedBefore at *
  rcases hab with hab | ⟨hab, hid⟩ <;> rcases hbc with hbc | ⟨hbc, hid'⟩
  · exact .inl (hbc.trans hab)
  · exact .inl (hbc ▸ hab)
  · exact .inl (hab ▸ hbc)
  · exact .inr ⟨hbc.trans hab, hid'.trans hid⟩⟩

-- An approval is later than those before it; requests come at any time.
def Timely (s : HaltTables) (call : HaltCall) : Prop :=
  ∀ args, call.op = .approve args → ∀ a ∈ s.approvals, a.approvedAt < call.env.now

theorem currentHaltState_requested (h : HaltInv s) (tenant : Uuid) {id : Uuid}
    {request : FinancialHaltRequest} (hfresh : s.requests.find id = none)
    (hrequests : s'.requests = s.requests.put id request) (happrovals : s'.approvals = s.approvals) :
    currentHaltState s' tenant = currentHaltState s tenant := by
  unfold currentHaltState
  rw [approvalsOf_requested h tenant hfresh hrequests happrovals]
  cases hlatest : latest approvedBefore (s.approvalsOf tenant) with
  | none => rfl
  | some a =>
    have ha := List.mem_of_mem_filter (mem_of_latest hlatest)
    simp only [HaltTables.proposed, hrequests, h.requests_put hfresh ha]

theorem currentHaltState_approved (tenant : Uuid) {env : HaltEnv} {args : HaltApprovalArgs}
    {request : FinancialHaltRequest} {approval : FinancialHaltApproval}
    (hrequest : s.requests.find args.requestId = some request)
    (ha : Approves env args s s' request approval)
    (htimely : ∀ a ∈ s.approvals, a.approvedAt < env.now) :
    currentHaltState s' tenant =
      if request.tenantRef = tenant then request.proposedState else currentHaltState s tenant := by
  unfold currentHaltState
  rw [approvalsOf_approved tenant hrequest ha]
  split_ifs with htenant
  · have hnewest : latest approvedBefore (s.approvalsOf tenant ++ [approval]) = some approval := by
      refine latest_append_newest fun a hmem hbefore => ?_
      have hlt := htimely a (List.mem_of_mem_filter hmem)
      rw [← ha.approvedAt] at hlt
      rcases hbefore with h | ⟨h, -⟩
      · exact lt_asymm hlt h
      · exact absurd h.symm hlt.ne
    simp only [hnewest, HaltTables.proposed, ha.requests, ha.requestId, hrequest, Option.map_some,
      Option.getD_some]
  · simp only [List.append_nil, HaltTables.proposed, ha.requests]

end Effects

-- The operation names that assert_financial_operation_allowed lets through.
def accepted (s : HaltTables) (tenant : Uuid) : Set String :=
  {operation | ∃ state, assertFinancialOperationAllowed s (some tenant) operation = .ok state}

section Accepted

variable {s s' : HaltTables} {tenant : Uuid} {operation : String}

theorem mem_accepted : operation ∈ accepted s tenant ↔
    ∃ o, parseNamed FinancialOperation.named operation = some o ∧
      o ∈ (currentHaltState s tenant).allowed := by
  constructor
  · rintro ⟨state, h⟩
    simp only [assertFinancialOperationAllowed, uuidOf, bind_eq_ok, require_eq_ok, pure_eq_ok,
      demand_eq_ok] at h
    obtain ⟨o, ho, t, ht, _, hallowed, -⟩ := h
    obtain rfl := Option.some.inj ht
    exact ⟨o, ho, hallowed⟩
  · rintro ⟨o, ho, hallowed⟩
    refine ⟨currentHaltState s tenant, ?_⟩
    simp only [assertFinancialOperationAllowed, uuidOf, bind_eq_ok, require_eq_ok, pure_eq_ok,
      demand_eq_ok]
    exact ⟨o, ho, tenant, rfl, (), hallowed, rfl⟩

theorem accepted_subset
    (h : (currentHaltState s' tenant).allowed ⊆ (currentHaltState s tenant).allowed) :
    accepted s' tenant ⊆ accepted s tenant := by
  intro operation hmem
  obtain ⟨o, ho, hallowed⟩ := mem_accepted.mp hmem
  exact mem_accepted.mpr ⟨o, ho, h hallowed⟩

theorem exists_named (o : FinancialOperation) : ∃ name, parseNamed FinancialOperation.named name = some o := by
  cases o with
  | deposit => exact ⟨"DEPOSIT", rfl⟩
  | withdrawal => exact ⟨"WITHDRAWAL", rfl⟩
  | transfer => exact ⟨"TRANSFER", rfl⟩
  | reservation => exact ⟨"RESERVATION", rfl⟩
  | settlement => exact ⟨"SETTLEMENT", rfl⟩

theorem accepted_loses
    (h : (currentHaltState s' tenant).allowed ⊂ (currentHaltState s tenant).allowed) :
    ∃ operation ∈ accepted s tenant, operation ∉ accepted s' tenant := by
  obtain ⟨o, ho, hnot⟩ := Finset.exists_of_ssubset h
  obtain ⟨name, hname⟩ := exists_named o
  refine ⟨name, mem_accepted.mpr ⟨o, hname, ho⟩, fun hback => hnot ?_⟩
  obtain ⟨o', ho', hallowed⟩ := mem_accepted.mp hback
  rw [hname] at ho'
  exact Option.some.inj ho' ▸ hallowed

theorem accepted_congr (h : currentHaltState s' tenant = currentHaltState s tenant) :
    accepted s' tenant = accepted s tenant := by
  ext operation
  rw [mem_accepted, mem_accepted, h]

end Accepted

def HaltCall.tenant (call : HaltCall) (s : HaltTables) : Option Uuid :=
  match call.op with
  | .request args => args.tenantRef
  | .approve args => (s.requests.find args.requestId).map (·.tenantRef)

structure Restricts (s : HaltTables) (call : HaltCall) : Prop where
  never : ∀ tenant, accepted (haltStep s call) tenant ⊆ accepted s tenant
  strict : ∀ a ∈ (haltStep s call).approvals, a ∉ s.approvals → ∀ tenant,
    (haltStep s call).tenantOf a = some tenant →
      ∃ operation ∈ accepted s tenant, operation ∉ accepted (haltStep s call) tenant
  isolated : ∀ tenant, call.tenant s ≠ some tenant →
    accepted (haltStep s call) tenant = accepted s tenant

section Authority

variable {s s' later : HaltTables} {call : HaltCall} {tenant : Uuid}

theorem HaltInv.restricts (h : HaltInv s) (htimely : Timely s call) : Restricts s call := by
  cases haltStep_effect s call with
  | nothing hs =>
    refine ⟨fun tenant => by rw [hs], fun a ha hnot => ?_, fun tenant _ => by rw [hs]⟩
    rw [hs] at ha
    exact absurd ha hnot
  | requested request hfresh hrequests happrovals =>
    have hsame (tenant : Uuid) : accepted (haltStep s call) tenant = accepted s tenant :=
      accepted_congr (currentHaltState_requested h tenant hfresh hrequests happrovals)
    refine ⟨fun tenant => (hsame tenant).subset, fun a ha hnot => ?_, fun tenant _ => hsame tenant⟩
    rw [happrovals] at ha
    exact absurd ha hnot
  | approved args request approval hop hrequest happroves hauthorized hok =>
    have hstate (tenant : Uuid) :=
      currentHaltState_approved tenant hrequest happroves (htimely args hop)
    have hreduces : (currentHaltState (haltStep s call) request.tenantRef).allowed ⊂
        (currentHaltState s request.tenantRef).allowed := by
      rw [hstate, if_pos rfl]
      exact happroves.reduces
    have hother (tenant : Uuid) (hne : request.tenantRef ≠ tenant) :
        accepted (haltStep s call) tenant = accepted s tenant :=
      accepted_congr ((hstate tenant).trans (if_neg hne))
    refine ⟨?_, ?_, ?_⟩
    · intro tenant
      by_cases htenant : request.tenantRef = tenant
      · exact htenant ▸ accepted_subset hreduces.subset
      · exact (hother tenant htenant).subset
    · intro a ha hnot tenant htenant
      rw [happroves.written] at ha
      obtain rfl := List.mem_singleton.mp ((List.mem_append.mp ha).resolve_left hnot)
      unfold HaltTables.tenantOf at htenant
      rw [happroves.requests, happroves.requestId, hrequest] at htenant
      exact Option.some.inj htenant ▸ accepted_loses hreduces
    · intro tenant hne
      refine hother tenant fun heq => hne ?_
      simp only [HaltCall.tenant, hop, hrequest, Option.map_some, heq]

theorem HaltInv.run (h : HaltInv s) (hrun : Reaches haltStep Timely s later) : HaltInv later :=
  hrun.invariant h fun t call ht _ => ht.effect (haltStep_effect t call)

theorem HaltInv.never_regains (h : HaltInv s) (hrun : Reaches haltStep Timely s later) (tenant : Uuid) :
    accepted later tenant ⊆ accepted s tenant := by
  induction hrun with
  | refl => exact subset_rfl
  | tail hprevious hmove ih =>
    obtain ⟨call, htimely, rfl⟩ := hmove
    exact (((h.run hprevious).restricts htimely).never tenant).trans ih

-- The stored approval was written by a call of the run whose actor held the manager role.
def ApprovedByManager (a : FinancialHaltApproval) : Prop :=
  ∃ t env args t' roles, Reaches haltStep Timely {} t ∧ t.approvalFor a.requestId = none ∧
    approveFinancialHalt env args t = .ok (a, t') ∧ args.approvedBy = .int a.approvedBy ∧
    args.roles = .collection roles ∧ financialManager ∈ roles

theorem approved_by_manager (hrun : Reaches haltStep Timely {} s) :
    ∀ a ∈ s.approvals, ApprovedByManager a := by
  induction hrun with
  | refl => exact fun a ha => absurd ha List.not_mem_nil
  | @tail t _ hprevious hmove ih =>
    obtain ⟨call, htimely, rfl⟩ := hmove
    intro a ha
    cases haltStep_effect t call with
    | nothing hs => exact ih a (hs ▸ ha)
    | requested request hfresh hrequests happrovals => exact ih a (happrovals ▸ ha)
    | approved args request approval hop hrequest happroves hauthorized hok =>
      rw [happroves.written] at ha
      rcases List.mem_append.mp ha with hold | hnew
      · exact ih a hold
      · obtain rfl := List.mem_singleton.mp hnew
        obtain ⟨hactor, roles, hroles, hmanager⟩ := hauthorized
        exact ⟨t, call.env, args, _, roles, hprevious, happroves.requestId ▸ happroves.unapproved, hok,
          hactor, hroles, hmanager⟩

theorem HaltInv.reapproved (h : HaltInv s) {env : HaltEnv} {args : HaltApprovalArgs}
    {a b : FinancialHaltApproval} (hok : approveFinancialHalt env args s = .ok (a, s'))
    (hb : b ∈ s.approvals) (hid : b.requestId = args.requestId) : a = b ∧ s' = s := by
  obtain ⟨request, -, ⟨hexisting, hsame⟩ | ⟨happroves, -⟩⟩ := approveFinancialHalt_cases hok
  · have ha := List.mem_of_find?_eq_some hexisting
    have haid : a.requestId = args.requestId := by
      simpa using List.find?_some hexisting
    exact ⟨List.inj_on_of_nodup_map h.single ha hb (haid.trans hid.symm), hsame⟩
  · have hnot := not_mem_of_unapproved happroves.unapproved
    exact absurd (List.mem_map.mpr ⟨b, hb, hid⟩) hnot

theorem halt_authority (hrun : Reaches haltStep Timely {} s) :
    (∀ call, Timely s call → Restricts s call) ∧
      (∀ later, Reaches haltStep Timely s later → ∀ tenant, accepted later tenant ⊆ accepted s tenant) ∧
      (∀ a ∈ s.approvals, ApprovedByManager a ∧ ∃ request,
        s.requests.find a.requestId = some request ∧ request.requestedBy ≠ a.approvedBy) ∧
      (∀ a ∈ s.approvals, ∀ b ∈ s.approvals, a.requestId = b.requestId → a = b) ∧
      ∀ env args a s', approveFinancialHalt env args s = .ok (a, s') → ∀ b ∈ s.approvals,
        b.requestId = args.requestId → a = b ∧ s' = s := by
  have hempty : HaltInv {} := ⟨fun a ha => absurd ha List.not_mem_nil, List.nodup_nil⟩
  have hinv : HaltInv s := hempty.run hrun
  refine ⟨fun call htimely => hinv.restricts htimely, fun later hlater tenant => ?_, ?_, ?_, ?_⟩
  · exact hinv.never_regains hlater tenant
  · exact fun a ha => ⟨approved_by_manager hrun a ha, hinv.checked a ha⟩
  · exact fun a ha b hb hid => List.inj_on_of_nodup_map hinv.single ha hb hid
  · exact fun env args a s' hok b hb hid => hinv.reapproved hok hb hid

end Authority

def haltWithdrawals : HaltCall where
  env := { now := 1, uuid4 := "request" }
  op := .request
    { tenantRef := some "tenant", proposedState := "WITHDRAWALS_HALTED", requestedBy := .int 1
      roles := .collection [financialOperations], reasonCode := "INCIDENT"
      correlationId := some "correlation" }

def approveHalt (approvedBy : Int) : HaltCall where
  env := { now := 2, uuid4 := "approval" }
  op := .approve
    { requestId := "request", approvedBy := .int approvedBy, roles := .collection [financialManager]
      correlationId := some "correlation" }

theorem halt_authority_after_request :
    ∃ operation ∈ accepted (haltStep {} haltWithdrawals) "tenant",
      operation ∉ accepted (haltStep (haltStep {} haltWithdrawals) (approveHalt 2)) "tenant" := by
  have hrequested : Reaches haltStep Timely {} (haltStep {} haltWithdrawals) :=
    .single ⟨haltWithdrawals, fun _ _ a ha => absurd ha List.not_mem_nil, rfl⟩
  have hauthority := halt_authority hrequested
  have happrovals : (haltStep {} haltWithdrawals).approvals = [] := by
    decide +kernel
  have hstored : (haltStep (haltStep {} haltWithdrawals) (approveHalt 2)).approvals.map
      (fun a => (a.approvedBy, (haltStep (haltStep {} haltWithdrawals) (approveHalt 2)).tenantOf a)) =
        [(2, some "tenant")] := by
    decide +kernel
  have htimely : Timely (haltStep {} haltWithdrawals) (approveHalt 2) := by
    intro args _ a ha
    rw [happrovals] at ha
    cases ha
  obtain ⟨a, ha, hfound⟩ := List.mem_map.mp (hstored ▸ List.mem_singleton_self (2, some "tenant"))
  refine (hauthority.1 (approveHalt 2) htimely).strict a ha ?_ "tenant" (Prod.mk.inj hfound).2
  rw [happrovals]
  exact List.not_mem_nil

end Beyvra
