import Beyvra.Foundation.Records

namespace Beyvra

open Relational

namespace ExportJobs

inductive JobStatus where
  | queued | running | completed | failed
  deriving DecidableEq

structure ExportJob where
  tenantId : String
  account : Nat
  status : JobStatus := .queued
  completedAt : Option Timestamp := none
  expiresAt : Option Timestamp := none
  artifactRef : String := ""
  -- set when a report is requested; a privacy export has no such column
  reconciliationPassed : Bool := false
  deriving DecidableEq

-- generate_report_artifact and generate_privacy_export
inductive ExportTask where
  | report | privacy
  deriving DecidableEq

namespace ExportTask

def action : ExportTask → String
  | .report => "REPORT_EXPORTED"
  | .privacy => "PRIVACY_EXPORT_GENERATED"

def passes (job : ExportJob) : ExportTask → Bool
  | .report => job.reconciliationPassed
  | .privacy => true

def maxRetries : ExportTask → Nat
  | .report => 3
  | .privacy => 3

end ExportTask

structure JobKey where
  task : ExportTask
  jobId : Uuid
  deriving DecidableEq

structure AuditEvent where
  tenantId : String
  actor : Nat
  action : String
  target : String
  deriving DecidableEq

-- Where an execution stands: raised is an exception on its way to the task's handler
inductive Phase where
  | starting
  | generating
  | generated (reference : String)
  | counting
  | raised
  | returned (status : JobStatus)
  | abandoned
  deriving DecidableEq

structure Execution where
  key : JobKey
  retries : Nat := 0
  phase : Phase := .starting
  deriving DecidableEq

structure ExportSystem where
  jobs : Table JobKey ExportJob := Table.empty
  audits : List AuditEvent := []
  executions : Table Nat Execution := Table.empty

-- What a step meets: whether it raises, the clock, and the reference of the artifact it writes
structure Turn where
  raises : Bool := false
  now : Timestamp := 0
  reference : String := ""

def artifactLifetime : Int := microsecondsPerDay

def ExportJob.complete (job : ExportJob) (now : Timestamp) (reference : String) : ExportJob :=
  { job with
    status := .completed
    completedAt := some now
    expiresAt := some (now + artifactLifetime)
    artifactRef := reference }

def ExportJob.audit (job : ExportJob) (key : JobKey) : AuditEvent :=
  ⟨job.tenantId, job.account, key.task.action, key.jobId⟩

namespace ExportSystem

def save (s : ExportSystem) (i : Nat) (x : Execution) (phase : Phase) : ExportSystem :=
  { s with executions := s.executions.put i { x with phase } }

def setStatus (s : ExportSystem) (key : JobKey) (job : ExportJob) (status : JobStatus) : ExportSystem :=
  { s with jobs := s.jobs.put key { job with status } }

end ExportSystem

-- The locked start transaction
def start (s : ExportSystem) (i : Nat) (x : Execution) : ExportSystem :=
  match s.jobs.find x.key with
  | none => s.save i x .raised
  | some job =>
    if job.status = .completed then s.save i x (.returned .completed)
    else if job.status ≠ .queued ∧ job.status ≠ .failed then s.save i x (.returned job.status)
    else if x.key.task.passes job = false then (s.setStatus x.key job .failed).save i x (.returned .failed)
    else (s.setStatus x.key job .running).save i x .generating

-- The locked completion transaction
def complete (s : ExportSystem) (i : Nat) (x : Execution) (now : Timestamp) (reference : String) : ExportSystem :=
  match s.jobs.find x.key with
  | none => s.save i x .raised
  | some job =>
    { s with jobs := s.jobs.put x.key (job.complete now reference), audits := job.audit x.key :: s.audits }.save i x .counting

-- The handler: its update looks at no state.
def markFailed (s : ExportSystem) (key : JobKey) : ExportSystem :=
  match s.jobs.find key with
  | none => s
  | some job => s.setStatus key job .failed

def retry (s : ExportSystem) (i : Nat) (x : Execution) : ExportSystem :=
  if x.retries < x.key.task.maxRetries then s.save i { x with retries := x.retries + 1 } .starting
  else s.save i x .abandoned

def turn (s : ExportSystem) (i : Nat) (x : Execution) (t : Turn) : ExportSystem :=
  match x.phase with
  | .starting => if t.raises then s.save i x .raised else start s i x
  | .generating => if t.raises then s.save i x .raised else s.save i x (.generated t.reference)
  | .generated reference => if t.raises then s.save i x .raised else complete s i x t.now reference
  | .counting => if t.raises then s.save i x .raised else s.save i x (.returned .completed)
  | .raised => if t.raises then s.save i x .abandoned else retry (markFailed s x.key) i x
  | .returned _ | .abandoned => s

inductive ExportStep where
  | request (key : JobKey) (tenantId : String) (account : Nat) (reconciliationPassed : Bool)
  | deliver (i : Nat) (key : JobKey)
  | turn (i : Nat) (t : Turn)
  | die (i : Nat)

def exportStep (s : ExportSystem) : ExportStep → ExportSystem
  | .request key tenantId account reconciliationPassed =>
    match s.jobs.find key with
    | none => { s with jobs := s.jobs.put key { tenantId, account, reconciliationPassed } }
    | some _ => s
  | .deliver i key =>
    match s.executions.find i with
    | none => s.save i { key } .starting
    | some _ => s
  | .turn i t =>
    match s.executions.find i with
    | none => s
    | some x => turn s i x t
  | .die i =>
    match s.executions.find i with
    | none => s
    | some x => s.save i x .abandoned

def exportAudits (s : ExportSystem) (key : JobKey) : List AuditEvent :=
  s.audits.filter fun event => event.action = key.task.action ∧ event.target = key.jobId

variable {s s' : ExportSystem} {i j : Nat} {x y : Execution} {key : JobKey} {job job' : ExportJob} {op : ExportStep}
  {ops : List ExportStep}

-- Between the start transaction of an execution and its completion
def Phase.holding : Phase → Bool
  | .generating | .generated _ => true
  | _ => false

def ExportSystem.completed (s : ExportSystem) (key : JobKey) : Bool := (s.jobs.find key).map ExportJob.status = some .completed

def ExportSystem.heldBy (s : ExportSystem) (key : JobKey) : Bool :=
  s.executions.values.any fun y => y.key = key ∧ y.phase.holding = true

-- The job that a completion or a handler's update writes
def ExportSystem.writes (s : ExportSystem) : ExportStep → Option JobKey
  | .turn i t =>
    match s.executions.find i with
    | none => none
    | some x =>
      match x.phase with
      | .generated _ | .raised => if t.raises then none else some x.key
      | _ => none
  | _ => none

-- A handler's update finds its job neither completed nor held by an execution.
def Owned (s : ExportSystem) : ExportStep → Prop
  | .turn i t => ∀ x ∈ s.executions.find i, x.phase = .raised → t.raises = false →
      s.completed x.key = false ∧ s.heldBy x.key = false
  | _ => True

def Unfinished (s : ExportSystem) (op : ExportStep) : Prop := ∀ key ∈ s.writes op, s.completed key = false

instance (s : ExportSystem) : (op : ExportStep) → Decidable (Owned s op)
  | .turn i t => inferInstanceAs (Decidable (∀ x ∈ s.executions.find i, x.phase = .raised → t.raises = false →
      s.completed x.key = false ∧ s.heldBy x.key = false))
  | .request .. | .deliver .. | .die _ => .isTrue trivial

theorem completed_of_find (h : s.jobs.find key = some job) : s.completed key = decide (job.status = .completed) := by
  simp [ExportSystem.completed, h]

theorem heldBy_eq_false : s.heldBy key = false ↔
    ∀ j y, s.executions.find j = some y → y.key = key → y.phase.holding = false := by
  simp only [ExportSystem.heldBy, List.any_eq_false, decide_eq_true_eq, not_and, Bool.not_eq_true]
  constructor
  · intro h j y hj
    exact h y (Table.mem_values_iff.mpr ⟨j, hj⟩)
  · intro h y hy
    obtain ⟨j, hj⟩ := Table.mem_values_iff.mp hy
    exact h j y hj

inductive ExportChange (s : ExportSystem) (op : ExportStep) : ExportSystem → Prop where
  | nothing : ExportChange s op s
  | requested {key : JobKey} {job : ExportJob} (hfree : s.jobs.find key = none) (hstatus : job.status = .queued) :
      ExportChange s op { s with jobs := s.jobs.put key job }
  | moved {i : Nat} {y : Execution} (hholding : y.phase.holding = true →
      ∃ x, s.executions.find i = some x ∧ x.key = y.key ∧ x.phase.holding = true) :
      ExportChange s op { s with executions := s.executions.put i y }
  | started {i : Nat} {x : Execution} {job : ExportJob} (hjob : s.jobs.find x.key = some job)
      (hstatus : job.status = .queued ∨ job.status = .failed) :
      ExportChange s op ((s.setStatus x.key job .running).save i x .generating)
  | refused {i : Nat} {x : Execution} {job : ExportJob} (hjob : s.jobs.find x.key = some job)
      (hstatus : job.status = .queued ∨ job.status = .failed) :
      ExportChange s op ((s.setStatus x.key job .failed).save i x (.returned .failed))
  | completed {i : Nat} {x : Execution} {job : ExportJob} (now : Timestamp) (reference : String)
      (hi : s.executions.find i = some x) (hphase : x.phase = .generated reference) (hjob : s.jobs.find x.key = some job)
      (hwrites : s.writes op = some x.key) :
      ExportChange s op ({ s with
        jobs := s.jobs.put x.key (job.complete now reference), audits := job.audit x.key :: s.audits }.save i x .counting)
  | failed {i : Nat} {x y : Execution} {job : ExportJob} (hjob : s.jobs.find x.key = some job)
      (hwrites : s.writes op = some x.key) (howned : Owned s op → s.heldBy x.key = false) (hy : y.phase.holding = false) :
      ExportChange s op { s.setStatus x.key job .failed with executions := s.executions.put i y }

theorem start_change (s : ExportSystem) (i : Nat) (x : Execution) : ExportChange s op (start s i x) := by
  unfold start
  split
  · exact .moved fun hholding => by cases hholding
  · rename_i job hjob
    split
    · exact .moved fun hholding => by cases hholding
    · split
      · exact .moved fun hholding => by cases hholding
      · rename_i hopen
        have hstatus : job.status = .queued ∨ job.status = .failed := by
          cases hcase : job.status <;> simp [hcase] at hopen ⊢
        split
        · exact .refused hjob hstatus
        · exact .started hjob hstatus

theorem retry_eq (s : ExportSystem) (i : Nat) (x : Execution) :
    ∃ y : Execution, y.phase.holding = false ∧ retry s i x = { s with executions := s.executions.put i y } := by
  unfold retry
  split
  · exact ⟨_, rfl, rfl⟩
  · exact ⟨_, rfl, rfl⟩

theorem turn_change {t : Turn} (hi : s.executions.find i = some x) : ExportChange s (.turn i t) (turn s i x t) := by
  cases hraises : t.raises with
  | true =>
    have hstop (phase : Phase) (hphase : phase.holding = false) : ExportChange s (.turn i t) (s.save i x phase) :=
      .moved fun hholding => absurd hholding (by simp [hphase])
    cases hphase : x.phase <;> simp only [turn, hphase, hraises, if_true]
    all_goals first | exact hstop _ rfl | exact .nothing
  | false =>
    cases hphase : x.phase with
    | starting =>
      simp only [turn, hphase, hraises, Bool.false_eq_true, if_false]
      exact start_change s i x
    | generating =>
      simp only [turn, hphase, hraises, Bool.false_eq_true, if_false]
      exact .moved fun _ => ⟨x, hi, rfl, by simp [hphase, Phase.holding]⟩
    | generated reference =>
      simp only [turn, hphase, hraises, Bool.false_eq_true, if_false, complete]
      split
      · exact .moved fun hholding => by cases hholding
      · rename_i job hjob
        exact .completed t.now reference hi hphase hjob (by simp [ExportSystem.writes, hi, hphase, hraises])
    | counting =>
      simp only [turn, hphase, hraises, Bool.false_eq_true, if_false]
      exact .moved fun hholding => by cases hholding
    | raised =>
      simp only [turn, hphase, hraises, Bool.false_eq_true, if_false, markFailed]
      split
      · obtain ⟨y, hy, heq⟩ := retry_eq s i x
        rw [heq]
        exact .moved fun hholding => absurd hholding (by simp [hy])
      · rename_i job hjob
        obtain ⟨y, hy, heq⟩ := retry_eq (s.setStatus x.key job .failed) i x
        rw [heq]
        refine .failed hjob (by simp [ExportSystem.writes, hi, hphase, hraises]) (fun howned => ?_) hy
        exact (howned x hi hphase hraises).2
    | returned status =>
      simp only [turn, hphase]
      exact .nothing
    | abandoned =>
      simp only [turn, hphase]
      exact .nothing

theorem exportStep_change (s : ExportSystem) (op : ExportStep) : ExportChange s op (exportStep s op) := by
  cases op with
  | request key tenantId account reconciliationPassed =>
    simp only [exportStep]
    split
    · rename_i hfree
      exact .requested hfree rfl
    · exact .nothing
  | deliver i key =>
    simp only [exportStep]
    split
    · exact .moved fun hholding => by cases hholding
    · exact .nothing
  | turn i t =>
    simp only [exportStep]
    split
    · exact .nothing
    · rename_i x hi
      exact turn_change hi
  | die i =>
    simp only [exportStep]
    split
    · exact .nothing
    · exact .moved fun hholding => by cases hholding

-- An execution that holds a job holds it alone, and the job is running.
structure Held (s : ExportSystem) : Prop where
  sole : ∀ i j x y, s.executions.find i = some x → s.executions.find j = some y → x.key = y.key →
    x.phase.holding = true → y.phase.holding = true → i = j
  running : ∀ i x, s.executions.find i = some x → x.phase.holding = true →
    ∃ job, s.jobs.find x.key = some job ∧ job.status = .running

theorem Held.free (h : Held s) (hjob : s.jobs.find key = some job) (hstatus : job.status ≠ .running) {j : Nat} {y : Execution}
    (hj : s.executions.find j = some y) (hy : y.phase.holding = true) : y.key ≠ key := by
  rintro rfl
  obtain ⟨running, hfound, hrunning⟩ := h.running j y hj hy
  rw [hjob] at hfound
  obtain rfl := Option.some.inj hfound
  exact hstatus hrunning

-- Where no other execution holds the job that is written
theorem Held.put (h : Held s) (hothers : ∀ j z, j ≠ i → s.executions.find j = some z → z.phase.holding = true → z.key ≠ key)
    (hy : y.phase.holding = true → y.key = key ∧ job.status = .running) (audits : List AuditEvent) :
    Held ⟨s.jobs.put key job, audits, s.executions.put i y⟩ where
  sole a b x z ha hb hkey hx hz := by
    rcases Table.find_put_cases ha with ⟨rfl, rfl⟩ | ⟨hane, haold⟩
    · rcases Table.find_put_cases hb with ⟨rfl, -⟩ | ⟨hbne, hbold⟩
      · rfl
      · exact absurd (hkey.symm.trans (hy hx).1) (hothers b z hbne hbold hz)
    · rcases Table.find_put_cases hb with ⟨-, rfl⟩ | ⟨-, hbold⟩
      · exact absurd (hkey.trans (hy hz).1) (hothers a x hane haold hx)
      · exact h.sole a b x z haold hbold hkey hx hz
  running a x ha hx := by
    rcases Table.find_put_cases ha with ⟨rfl, rfl⟩ | ⟨hane, ha⟩
    · refine ⟨job, ?_, (hy hx).2⟩
      rw [(hy hx).1]
      exact Table.find_put_self s.jobs key job
    · obtain ⟨running, hfound, hrunning⟩ := h.running a x ha hx
      exact ⟨running, (Table.find_put_of_ne s.jobs job (hothers a x hane ha hx)).trans hfound, hrunning⟩

theorem Held.moved (h : Held s) (hholding : y.phase.holding = true →
    ∃ x, s.executions.find i = some x ∧ x.key = y.key ∧ x.phase.holding = true) :
    Held { s with executions := s.executions.put i y } := by
  have hback (a : Nat) (x : Execution) (ha : (s.executions.put i y).find a = some x) (hx : x.phase.holding = true) :
      ∃ x', s.executions.find a = some x' ∧ x'.key = x.key ∧ x'.phase.holding = true := by
    rcases Table.find_put_cases ha with ⟨rfl, rfl⟩ | ⟨-, hold⟩
    · exact hholding hx
    · exact ⟨x, hold, rfl, hx⟩
  constructor
  · intro a b x z ha hb hkey hx hz
    obtain ⟨x', hx', hxkey, hxhold⟩ := hback a x ha hx
    obtain ⟨z', hz', hzkey, hzhold⟩ := hback b z hb hz
    exact h.sole a b x' z' hx' hz' (hxkey.trans (hkey.trans hzkey.symm)) hxhold hzhold
  · intro a x ha hx
    obtain ⟨x', hx', hxkey, hxhold⟩ := hback a x ha hx
    rw [← hxkey]
    exact h.running a x' hx' hxhold

theorem Held.change (h : Held s) (howned : Owned s op) (hchange : ExportChange s op s') : Held s' := by
  cases hchange with
  | nothing => exact h
  | requested hfree hstatus =>
    refine ⟨h.sole, fun a x ha hx => ?_⟩
    obtain ⟨running, hfound, hrunning⟩ := h.running a x ha hx
    have hne : x.key ≠ _ := fun heq => Option.some_ne_none _ (hfound.symm.trans ((congrArg s.jobs.find heq).trans hfree))
    exact ⟨running, (Table.find_put_of_ne s.jobs _ hne).trans hfound, hrunning⟩
  | moved hholding => exact h.moved hholding
  | @started i x job hjob hstatus =>
    have hidle : job.status ≠ .running := by rcases hstatus with heq | heq <;> simp [heq]
    show Held ⟨s.jobs.put x.key { job with status := .running }, s.audits, s.executions.put i { x with phase := .generating }⟩
    refine h.put (fun j z _ hj hz => h.free hjob hidle hj hz) ?_ s.audits
    exact fun _ => ⟨rfl, rfl⟩
  | @refused i x job hjob hstatus =>
    have hidle : job.status ≠ .running := by rcases hstatus with heq | heq <;> simp [heq]
    refine h.put (fun j z _ hj hz => h.free hjob hidle hj hz) (fun hholding => ?_) s.audits
    cases hholding
  | @completed i x job now reference hi hphase hjob hwrites =>
    refine h.put (fun j z hne hj hz heq => hne ?_) (fun hholding => ?_) _
    · exact h.sole j i z x hj hi heq hz (by simp [hphase, Phase.holding])
    · cases hholding
  | @failed i x y job hjob hwrites hheld hy =>
    refine h.put (fun j z _ hj hz heq => ?_) (fun hholding => absurd hholding (by simp [hy])) s.audits
    exact absurd hz (by simp [heldBy_eq_false.mp (hheld howned) j z hj heq])

theorem Held.unfinished (h : Held s) (howned : Owned s op) : Unfinished s op := by
  intro key hkey
  cases op with
  | turn i t =>
    simp only [ExportSystem.writes] at hkey
    cases hi : s.executions.find i with
    | none => simp [hi] at hkey
    | some x =>
      simp only [hi] at hkey
      cases hraises : t.raises with
      | true => cases hphase : x.phase <;> simp [hphase, hraises] at hkey
      | false =>
        cases hphase : x.phase <;> simp [hphase, hraises] at hkey
        · obtain ⟨job, hjob, hrunning⟩ := h.running i x hi (by simp [hphase, Phase.holding])
          rw [← hkey, completed_of_find hjob]
          simp [hrunning]
        · rw [← hkey]
          exact (howned x hi hphase hraises).1
  | request key' tenantId account reconciliationPassed => cases hkey
  | deliver i key' => cases hkey
  | die i => cases hkey

theorem completed_put (jobs : Table JobKey ExportJob) (audits : List AuditEvent) (executions : Table Nat Execution)
    (key key' : JobKey) (job : ExportJob) : ExportSystem.completed ⟨jobs.put key job, audits, executions⟩ key' =
      if key' = key then decide (job.status = .completed) else ExportSystem.completed ⟨jobs, audits, executions⟩ key' := by
  simp only [ExportSystem.completed, Table.find_put]
  split <;> simp

theorem action_injective {task task' : ExportTask} (h : task.action = task'.action) : task = task' := by
  cases task <;> cases task' <;> first | rfl | exact absurd h (by decide)

theorem exportAudits_cons (jobs : Table JobKey ExportJob) (audits : List AuditEvent) (executions : Table Nat Execution)
    (key key' : JobKey) (job : ExportJob) : (exportAudits ⟨jobs, job.audit key :: audits, executions⟩ key').length =
      (exportAudits ⟨jobs, audits, executions⟩ key').length + if key' = key then 1 else 0 := by
  have hkey : ((job.audit key).action = key'.task.action ∧ (job.audit key).target = key'.jobId) ↔ key' = key := by
    constructor
    · rintro ⟨haction, htarget⟩
      obtain ⟨task, jobId⟩ := key'
      exact (congrArg₂ JobKey.mk (action_injective haction) htarget).symm
    · rintro rfl
      exact ⟨rfl, rfl⟩
  simp only [exportAudits, List.filter_cons, hkey, decide_eq_true_eq]
  split <;> simp

-- One export audit record for a completed job, none for another
def Audited (s : ExportSystem) : Prop := ∀ key, (exportAudits s key).length = if s.completed key = true then 1 else 0

theorem Audited.put (h : Audited s) (hbefore : s.completed key = false) (hafter : job.status ≠ .completed)
    (executions : Table Nat Execution) : Audited ⟨s.jobs.put key job, s.audits, executions⟩ := by
  intro key'
  have hsame : ExportSystem.completed ⟨s.jobs.put key job, s.audits, executions⟩ key' = s.completed key' := by
    rw [completed_put]
    split
    · rename_i heq
      rw [heq, hbefore]
      exact decide_eq_false hafter
    · rfl
  rw [hsame]
  exact h key'

theorem Audited.complete (h : Audited s) (hbefore : s.completed key = false) (now : Timestamp) (reference : String)
    (executions : Table Nat Execution) :
    Audited ⟨s.jobs.put key (job.complete now reference), job.audit key :: s.audits, executions⟩ := by
  intro key'
  rw [exportAudits_cons, completed_put]
  have hkey := h key'
  by_cases heq : key' = key
  · subst heq
    rw [hbefore] at hkey
    simpa [exportAudits, ExportJob.complete] using hkey
  · rw [if_neg heq, if_neg heq, Nat.add_zero]
    exact hkey

theorem completed_of_open (hjob : s.jobs.find key = some job) (hstatus : job.status = .queued ∨ job.status = .failed) :
    s.completed key = false := by
  rw [completed_of_find hjob]
  rcases hstatus with heq | heq <;> simp [heq]

theorem Audited.change (h : Audited s) (hunfinished : Unfinished s op) (hchange : ExportChange s op s') : Audited s' := by
  cases hchange with
  | nothing => exact h
  | requested hfree hstatus => exact h.put (by simp [ExportSystem.completed, hfree]) (by simp [hstatus]) _
  | moved hholding => exact h
  | started hjob hstatus => exact h.put (completed_of_open hjob hstatus) (by simp) _
  | refused hjob hstatus => exact h.put (completed_of_open hjob hstatus) (by simp) _
  | completed now reference hi hphase hjob hwrites => exact h.complete (hunfinished _ hwrites) now reference _
  | failed hjob hwrites howned hy => exact h.put (hunfinished _ hwrites) (by simp) _

theorem job_kept (hunfinished : Unfinished s op) (hchange : ExportChange s op s') (hjob : s.jobs.find key = some job)
    (hstatus : job.status = .completed) : s'.jobs.find key = some job := by
  have hother {key' : JobKey} (hopen : s.completed key' = false) (job' : ExportJob) :
      (s.jobs.put key' job').find key = some job := by
    have hne : key ≠ key' := by
      rintro rfl
      rw [completed_of_find hjob, hstatus] at hopen
      exact absurd hopen (by decide)
    rw [Table.find_put_of_ne s.jobs job' hne, hjob]
  cases hchange with
  | nothing => exact hjob
  | requested hfree hqueued => exact hother (by simp [ExportSystem.completed, hfree]) _
  | moved hholding => exact hjob
  | started hfound hopen => exact hother (completed_of_open hfound hopen) _
  | refused hfound hopen => exact hother (completed_of_open hfound hopen) _
  | completed now reference hi hphase hfound hwrites => exact hother (hunfinished _ hwrites) _
  | failed hfound hwrites howned hy => exact hother (hunfinished _ hwrites) _

theorem job_kept_run (hunfinished : Throughout exportStep Unfinished ops s) (hjob : s.jobs.find key = some job)
    (hstatus : job.status = .completed) : (ops.foldl exportStep s).jobs.find key = some job := by
  induction ops generalizing s with
  | nil => exact hjob
  | cons op ops ih => exact ih hunfinished.2 (job_kept hunfinished.1 (exportStep_change s op) hjob hstatus)

theorem Audited.run (h : Audited s) (hunfinished : Throughout exportStep Unfinished ops s) :
    Audited (ops.foldl exportStep s) := by
  induction ops generalizing s with
  | nil => exact h
  | cons op ops ih => exact ih (h.change hunfinished.1 (exportStep_change s op)) hunfinished.2

theorem Held.throughout (h : Held s) (howned : Throughout exportStep Owned ops s) : Throughout exportStep Unfinished ops s := by
  induction ops generalizing s with
  | nil => trivial
  | cons op ops ih =>
    exact ⟨h.unfinished howned.1, ih (h.change howned.1 (exportStep_change s op)) howned.2⟩

-- What is promised of the jobs at the end of a run, and of what was completed on the way
structure ExportsFinal (ops : List ExportStep) : Prop where
  final : ∀ before after key job, ops = before ++ after → (before.foldl exportStep {}).jobs.find key = some job →
    job.status = .completed → ∃ job', (ops.foldl exportStep {}).jobs.find key = some job' ∧
      job'.status = .completed ∧ job'.artifactRef = job.artifactRef
  audited : ∀ key job, (ops.foldl exportStep {}).jobs.find key = some job → job.status = .completed →
    (exportAudits (ops.foldl exportStep {}) key).length = 1

theorem exports_final_of_unfinished (hunfinished : Throughout exportStep Unfinished ops {}) : ExportsFinal ops where
  final := by
    rintro before after key job rfl hjob hstatus
    refine ⟨job, ?_, hstatus, rfl⟩
    rw [List.foldl_append]
    exact job_kept_run (throughout_append.mp hunfinished).2 hjob hstatus
  audited key job hjob hstatus := by
    have hstart : Audited {} := fun key => rfl
    rw [hstart.run hunfinished key, completed_of_find hjob, hstatus]
    rfl

theorem exports_final_of_owned (ops : List ExportStep) (howned : Throughout exportStep Owned ops {}) :
    ∀ before after, ops = before ++ after → ExportsFinal before := by
  rintro before after rfl
  have hstart : Held {} := ⟨fun i j x y hi => (by cases hi), fun i x hi => (by cases hi)⟩
  exact exports_final_of_unfinished (hstart.throughout (throughout_append.mp howned).1)

def activityReport : JobKey := ⟨.report, "job"⟩

-- A write of the artifact fails, the execution marks its own job FAILED and its retry completes it.
def retriedOnce : List ExportStep :=
  [.request activityReport "tenant" 1 true, .deliver 0 activityReport, .turn 0 {}, .turn 0 { raises := true }, .turn 0 {},
    .turn 0 {}, .turn 0 { reference := "reports/a.csv" }, .turn 0 { now := 5 }, .deliver 1 activityReport, .turn 1 {}]

theorem exports_final_of_owned_retry : ExportsFinal retriedOnce :=
  exports_final_of_owned retriedOnce (by decide +kernel) retriedOnce [] (List.append_nil _).symm

-- The start transaction of a second execution raises while the first one generates: its handler makes the job
-- FAILED, its retry starts, and both complete.
def failedUnderRun : List ExportStep :=
  [.request activityReport "tenant" 1 true, .deliver 0 activityReport, .turn 0 {}, .deliver 1 activityReport,
    .turn 1 { raises := true }, .turn 1 {}, .turn 1 {}, .turn 0 { reference := "reports/a.csv" }, .turn 0 { now := 5 },
    .turn 1 { reference := "reports/b.csv" }, .turn 1 { now := 6 }]

theorem completed_export_replaced : ¬∀ ops before after : List ExportStep, ops = before ++ after → ExportsFinal before := by
  intro hclaim
  have hfinal := hclaim failedUnderRun failedUnderRun [] (List.append_nil _).symm
  have hrun : (failedUnderRun.foldl exportStep {}).completed activityReport = true ∧
      (exportAudits (failedUnderRun.foldl exportStep {}) activityReport).length = 2 := by
    decide +kernel
  cases hjob : (failedUnderRun.foldl exportStep {}).jobs.find activityReport with
  | none =>
    have hcompleted := hrun.1
    simp [ExportSystem.completed, hjob] at hcompleted
  | some job =>
    have hcompleted := hrun.1
    rw [completed_of_find hjob] at hcompleted
    have hone := hfinal.audited activityReport job hjob (of_decide_eq_true hcompleted)
    rw [hrun.2] at hone
    exact absurd hone (by decide)

end ExportJobs

end Beyvra
