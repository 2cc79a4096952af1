import Beyvra.Foundation.Records

namespace Beyvra

open Relational

namespace Treasury

structure TreasuryException where
  tenant : Uuid
  severity : String
  state : String
  assignedTo : Option Nat
  resolvedAt : Option Timestamp
  resolutionCode : String
  deriving DecidableEq

-- `resolution_code` of the request body
inductive ResolutionCode where
  | absent
  | null
  | text (code : String)
  deriving DecidableEq

-- `request.data.get("resolution_code")`
def ResolutionCode.get : ResolutionCode → Option String
  | .text code => some code
  | _ => none

-- The headers are stripped; the correlation is the header or else the request id.
structure ActionRequest where
  actor : Nat
  tenant : Uuid
  exceptionId : Uuid
  action : String
  idempotencyKey : String
  requestId : String
  correlation : String
  ifMatch : String
  resolutionCode : ResolutionCode
  now : Timestamp
  deriving DecidableEq

structure CommandScope where
  key : String
  tenant : Uuid
  actor : Nat
  exceptionId : Uuid
  action : String
  deriving DecidableEq

structure CommandRecord where
  expectedVersion : String
  resolutionCode : Option String
  body : TreasuryException
  deriving DecidableEq

structure ExceptionTables where
  exceptions : Table Uuid TreasuryException
  records : List (CommandScope × CommandRecord)
  deriving DecidableEq

inductive ActionOutcome where
  | refused (status : Nat) (code : String)
  | replayed (body : TreasuryException)
  | serverError
  | committed (item : TreasuryException)
  deriving DecidableEq

def exceptionVersion (item : TreasuryException) : String :=
  item.state ++ ":" ++ item.severity ++ ":" ++ (item.assignedTo.map toString).getD "-"

def ActionRequest.scope (r : ActionRequest) : CommandScope :=
  ⟨r.idempotencyKey, r.tenant, r.actor, r.exceptionId, r.action⟩

def ActionRequest.record (r : ActionRequest) (item : TreasuryException) : CommandRecord :=
  ⟨r.ifMatch, r.resolutionCode.get, item⟩

-- What command_context answers
def contextError (isUuid : String → Bool) (r : ActionRequest) : Option ActionOutcome :=
  if r.idempotencyKey = "" ∨ 255 < r.idempotencyKey.length ∨ r.requestId = "" ∨ 128 < r.requestId.length then
    some (.refused 400 "VALIDATION_ERROR")
  else if r.ifMatch = "" then some (.refused 428 "PRECONDITION_REQUIRED")
  else if isUuid r.correlation then none
  else some (.refused 400 "VALIDATION_ERROR")

def findItem (s : ExceptionTables) (tenant exceptionId : Uuid) : Option TreasuryException :=
  (s.exceptions.find exceptionId).filter fun item => item.tenant = tenant

def resolveItem (r : ActionRequest) (item : TreasuryException) : ActionOutcome :=
  if item.assignedTo = none ∨ item.assignedTo = some r.actor then .refused 409 "MAKER_CHECKER_REQUIRED"
  else
    match r.resolutionCode with
    | .null => .serverError
    | .absent => .committed { item with state := "RESOLVED", resolvedAt := some r.now, resolutionCode := "SIMULATION_REVIEWED" }
    | .text code =>
      if 64 < code.length then .serverError
      else .committed { item with state := "RESOLVED", resolvedAt := some r.now, resolutionCode := code }

def applyAction (r : ActionRequest) (item : TreasuryException) : ActionOutcome :=
  if r.action = "assign" then .committed { item with assignedTo := some r.actor }
  else if r.action = "escalate" then .committed { item with severity := "CRITICAL" }
  else if r.action = "resolve" then resolveItem r item
  else .refused 400 "VALIDATION_ERROR"

-- Answered under the lock of the exception's row
def outcomeOn (s : ExceptionTables) (r : ActionRequest) (item : TreasuryException) : ActionOutcome :=
  match s.records.lookup r.scope with
  | some record =>
    if record.expectedVersion = r.ifMatch ∧ record.resolutionCode = r.resolutionCode.get then .replayed record.body
    else .refused 409 "IDEMPOTENCY_CONFLICT"
  | none => if exceptionVersion item = r.ifMatch then applyAction r item else .refused 409 "VERSION_CONFLICT"

-- OperatorExceptionActionView.post
def outcome (isUuid : String → Bool) (s : ExceptionTables) (r : ActionRequest) : ActionOutcome :=
  match contextError isUuid r with
  | some error => error
  | none =>
    match findItem s r.tenant r.exceptionId with
    | none => .refused 404 "NOT_FOUND"
    | some item => outcomeOn s r item

def post (isUuid : String → Bool) (s : ExceptionTables) (r : ActionRequest) : ExceptionTables :=
  match outcome isUuid s r with
  | .committed item => ⟨s.exceptions.put r.exceptionId item, (r.scope, r.record item) :: s.records⟩
  | _ => s

section Runs

variable (isUuid : String → Bool)

abbrev runCommands (ops : List ActionRequest) (s : ExceptionTables) : ExceptionTables := ops.foldl (post isUuid) s

def versionAt (s : ExceptionTables) (tenant exceptionId : Uuid) : Option String :=
  (findItem s tenant exceptionId).map exceptionVersion

-- A command that is no repetition of an earlier one
def FreshCommand (s : ExceptionTables) (r : ActionRequest) : Prop := s.records.lookup r.scope = none

-- The version was read after `before`, and `op` on the same exception committed after that.
def StaleRejected (ops : List ActionRequest) (s : ExceptionTables) : Prop :=
  ∀ before gap op later after, ops = before ++ gap ++ op :: later ++ after → ∀ request : ActionRequest,
    contextError isUuid request = none → op.tenant = request.tenant → op.exceptionId = request.exceptionId →
    (∃ item, outcome isUuid (runCommands isUuid (before ++ gap) s) op = .committed item) →
    versionAt (runCommands isUuid before s) request.tenant request.exceptionId = some request.ifMatch →
    FreshCommand (runCommands isUuid (before ++ gap ++ op :: later) s) request →
    outcome isUuid (runCommands isUuid (before ++ gap ++ op :: later) s) request = .refused 409 "VERSION_CONFLICT"

def NewVersions (ops : List ActionRequest) (s : ExceptionTables) : Prop :=
  ∀ before op after, ops = before ++ op :: after → ∀ item, outcome isUuid (runCommands isUuid before s) op = .committed item →
    ∀ early rest, before = early ++ rest →
      versionAt (runCommands isUuid early s) op.tenant op.exceptionId ≠ some (exceptionVersion item)

end Runs

variable {isUuid : String → Bool} {s : ExceptionTables} {r request : ActionRequest} {item item' : TreasuryException}
  {tenant exceptionId : Uuid} {ops : List ActionRequest}

theorem findItem_eq_some : findItem s tenant exceptionId = some item ↔
    s.exceptions.find exceptionId = some item ∧ item.tenant = tenant := by
  simp [findItem, Option.filter_eq_some_iff]

theorem outcome_committed (h : outcome isUuid s r = .committed item') : contextError isUuid r = none ∧
    ∃ item, findItem s r.tenant r.exceptionId = some item ∧ applyAction r item = .committed item' := by
  unfold outcome at h
  split at h
  · next error herror =>
    unfold contextError at herror
    split_ifs at herror <;> · obtain rfl := Option.some.inj herror; cases h
  · next hcontext =>
    refine ⟨hcontext, ?_⟩
    split at h
    · cases h
    · next item hitem =>
      refine ⟨item, hitem, ?_⟩
      unfold outcomeOn at h
      split at h
      · split_ifs at h
      · split_ifs at h
        exact h

theorem applyAction_tenant (h : applyAction r item = .committed item') : item'.tenant = item.tenant := by
  unfold applyAction resolveItem at h
  split_ifs at h
  · obtain rfl := ActionOutcome.committed.inj h
    rfl
  · obtain rfl := ActionOutcome.committed.inj h
    rfl
  · cases hcode : r.resolutionCode with
    | absent =>
      rw [hcode] at h
      obtain rfl := ActionOutcome.committed.inj h
      rfl
    | null =>
      rw [hcode] at h
      cases h
    | text code =>
      rw [hcode] at h
      dsimp only at h
      split_ifs at h
      obtain rfl := ActionOutcome.committed.inj h
      rfl

theorem versionAt_post (isUuid : String → Bool) (s : ExceptionTables) (r : ActionRequest) (tenant exceptionId : Uuid) :
    (∃ item, outcome isUuid s r = .committed item ∧ r.tenant = tenant ∧ r.exceptionId = exceptionId ∧
      versionAt (post isUuid s r) tenant exceptionId = some (exceptionVersion item)) ∨
    versionAt (post isUuid s r) tenant exceptionId = versionAt s tenant exceptionId := by
  cases houtcome : outcome isUuid s r with
  | committed item' =>
    obtain ⟨-, item, hitem, happly⟩ := outcome_committed houtcome
    obtain ⟨hfind, htenant⟩ := findItem_eq_some.mp hitem
    have hpost : post isUuid s r =
        ⟨s.exceptions.put r.exceptionId item', (r.scope, r.record item') :: s.records⟩ := by
      rw [post, houtcome]
    have htenant' : item'.tenant = r.tenant := (applyAction_tenant happly).trans htenant
    rcases eq_or_ne r.exceptionId exceptionId with rfl | hid
    · rcases eq_or_ne r.tenant tenant with rfl | hother
      · refine .inl ⟨item', rfl, rfl, rfl, ?_⟩
        rw [versionAt, hpost, findItem_eq_some.mpr ⟨Table.find_put_self _ _ _, htenant'⟩]
        rfl
      · refine .inr ?_
        rw [versionAt, versionAt, hpost, findItem, findItem, Table.find_put_self, hfind]
        simp [Option.filter_some, htenant, htenant', hother]
    · refine .inr ?_
      rw [versionAt, versionAt, hpost, findItem, findItem, Table.find_put_of_ne _ _ hid.symm]
  | refused status code => exact .inr (by rw [post, houtcome])
  | replayed body => exact .inr (by rw [post, houtcome])
  | serverError => exact .inr (by rw [post, houtcome])

theorem exceptionVersion_ne_empty (item : TreasuryException) : exceptionVersion item ≠ "" := by
  intro h
  have hlength := congrArg String.length h
  simp [exceptionVersion] at hlength

-- Only a commit gives the exception another version, and then one it has not had.
theorem version_moved (hnew : NewVersions isUuid ops s) {before gap later after : List ActionRequest}
    {op : ActionRequest} {version : String} (hops : ops = before ++ gap ++ op :: later ++ after)
    (hcommit : ∃ item, outcome isUuid (runCommands isUuid (before ++ gap) s) op = .committed item)
    (hread : versionAt (runCommands isUuid before s) op.tenant op.exceptionId = some version) :
    ∃ now, versionAt (runCommands isUuid (before ++ gap ++ op :: later) s) op.tenant op.exceptionId = some now ∧
      now ≠ version := by
  induction later using List.reverseRecOn generalizing after with
  | nil =>
    obtain ⟨item, hitem⟩ := hcommit
    refine ⟨exceptionVersion item, ?_, fun heq => ?_⟩
    · obtain ⟨-, old, hold, happly⟩ := outcome_committed hitem
      rw [runCommands, List.foldl_append, List.foldl_cons, List.foldl_nil, post, hitem, versionAt,
        findItem_eq_some.mpr ⟨Table.find_put_self _ _ _, (applyAction_tenant happly).trans (findItem_eq_some.mp hold).2⟩]
      rfl
    · refine hnew (before ++ gap) op after (by simp [hops]) item hitem before gap rfl ?_
      rw [heq]
      exact hread
  | append_singleton later x ih =>
    have hlater : ops = before ++ gap ++ op :: later ++ x :: after := by simp [hops]
    obtain ⟨now, hnow, hne⟩ := ih hlater
    have hstep : runCommands isUuid (before ++ gap ++ op :: (later ++ [x])) s =
        post isUuid (runCommands isUuid (before ++ gap ++ op :: later) s) x := by
      rw [← List.cons_append, ← List.append_assoc, runCommands, List.foldl_append]
      rfl
    rw [hstep]
    rcases versionAt_post isUuid (runCommands isUuid (before ++ gap ++ op :: later) s) x op.tenant op.exceptionId with
      ⟨item, hitem, htenant, hid, hversion⟩ | hsame
    · refine ⟨exceptionVersion item, hversion, fun heq => ?_⟩
      refine hnew (before ++ gap ++ op :: later) x after (by simp [hops]) item hitem before (gap ++ op :: later)
        (by simp) ?_
      rw [heq, htenant, hid]
      exact hread
    · exact ⟨now, hsame.trans hnow, hne⟩

theorem outcome_conflict {version : String} (hcontext : contextError isUuid request = none)
    (hfresh : FreshCommand s request) (hversion : versionAt s request.tenant request.exceptionId = some version)
    (hne : version ≠ request.ifMatch) : outcome isUuid s request = .refused 409 "VERSION_CONFLICT" := by
  obtain ⟨item, hitem, rfl⟩ := Option.map_eq_some_iff.mp hversion
  rw [outcome, hcontext]
  dsimp only
  rw [hitem]
  dsimp only
  rw [outcomeOn, hfresh]
  exact if_neg hne

theorem staleRejected_of_newVersions (hnew : NewVersions isUuid ops s) : StaleRejected isUuid ops s := by
  intro before gap op later after hops request hcontext htenant hid hcommit hread hfresh
  rw [← htenant, ← hid] at hread
  obtain ⟨now, hnow, hne⟩ := version_moved hnew hops hcommit hread
  rw [htenant, hid] at hnow
  exact outcome_conflict hcontext hfresh hnow hne

theorem exists_freshCommand (s : ExceptionTables) (r : ActionRequest) :
    ∃ actor, FreshCommand s { r with actor := actor, action := "escalate" } := by
  obtain ⟨actor, hactor⟩ := Infinite.exists_notMem_finset (s.records.map (·.1.actor)).toFinset
  refine ⟨actor, List.lookup_eq_none_iff.mpr fun record hrecord => ?_⟩
  rw [bne_iff_ne]
  rintro hscope
  refine hactor (List.mem_toFinset.mpr (List.mem_map.mpr ⟨record, hrecord, ?_⟩))
  rw [← hscope]
  rfl

theorem newVersions_of_staleRejected (h : StaleRejected isUuid ops s) : NewVersions isUuid ops s := by
  intro before op after hops item hitem early rest hbefore hold
  obtain ⟨hcontext, old, hfound, happly⟩ := outcome_committed hitem
  obtain ⟨actor, hfresh⟩ := exists_freshCommand (post isUuid (runCommands isUuid before s) op)
    { op with ifMatch := exceptionVersion item }
  let request : ActionRequest := { op with ifMatch := exceptionVersion item, actor := actor, action := "escalate" }
  have hstate : runCommands isUuid (before ++ [op]) s = post isUuid (runCommands isUuid before s) op := by
    rw [runCommands, List.foldl_append]
    rfl
  have hrequest : contextError isUuid request = none := by
    unfold contextError at hcontext ⊢
    split_ifs at hcontext with hkey hmatch huuid
    rw [if_neg hkey, if_neg (exceptionVersion_ne_empty item), if_pos huuid]
  have hconflict := h early rest op [] after (by simp [hops, hbefore]) request hrequest rfl rfl
    ⟨item, by rw [← hbefore]; exact hitem⟩ hold (by rw [← hbefore, hstate]; exact hfresh)
  rw [← hbefore, hstate] at hconflict
  have hitem' : findItem (post isUuid (runCommands isUuid before s) op) request.tenant request.exceptionId = some item := by
    rw [post, hitem]
    exact findItem_eq_some.mpr ⟨Table.find_put_self _ _ _, (applyAction_tenant happly).trans (findItem_eq_some.mp hfound).2⟩
  rw [outcome, hrequest] at hconflict
  dsimp only at hconflict
  rw [hitem'] at hconflict
  dsimp only at hconflict
  rw [outcomeOn, hfresh] at hconflict
  dsimp only at hconflict
  rw [if_pos rfl] at hconflict
  cases hconflict

theorem stale_rejected_iff : StaleRejected isUuid ops s ↔ NewVersions isUuid ops s :=
  ⟨newVersions_of_staleRejected, staleRejected_of_newVersions⟩

def openException : TreasuryException := ⟨"tenant", "CRITICAL", "OPEN", none, none, ""⟩

def exceptionTables : ExceptionTables := ⟨Table.empty.put "exception" openException, []⟩

def escalateBy (actor : Nat) : ActionRequest :=
  ⟨actor, "tenant", "exception", "escalate", "key", "request", "request", "OPEN:CRITICAL:-", .absent, 0⟩

-- Escalating what is critical already gives no other version.
theorem stale_escalation_commits :
    (outcome (fun _ => true) exceptionTables (escalateBy 1)) = .committed openException ∧
      (outcome (fun _ => true) (post (fun _ => true) exceptionTables (escalateBy 1)) (escalateBy 2)) =
        .committed openException ∧ ¬StaleRejected (fun _ => true) [escalateBy 1] exceptionTables := by
  refine ⟨by decide +kernel, by decide +kernel, fun h => ?_⟩
  refine newVersions_of_staleRejected h [] (escalateBy 1) [] rfl openException (by decide +kernel) [] [] rfl ?_
  decide +kernel

end Treasury

end Beyvra
