import Mathlib.Data.List.Nodup
import Beyvra.Surveillance.Cases

namespace Beyvra

open Numeric Relational

namespace Surveillance

variable {sha : Hashed → String} {isoformat : Timestamp → String} {now : Timestamp} {current : Prop}

-- The status that an entry of the timeline leads to
def advance : CaseStatus → CaseEventType → Option CaseStatus
  | .opened, .assigned => some .inReview
  | .escalated, .assigned => some .inReview
  | .opened, .escalated => some .escalated
  | .inReview, .escalated => some .escalated
  | .opened, .resolved => some .resolved
  | .inReview, .resolved => some .resolved
  | .escalated, .resolved => some .resolved
  | .restricted, .resolved => some .resolved
  | _, _ => none

def replay : List CaseEventType → Option CaseStatus
  | .opened :: rest => rest.foldlM advance .opened
  | _ => none

theorem replay_append {types : List CaseEventType} {status : CaseStatus} {eventType : CaseEventType}
    (h : replay types = some status) : replay (types ++ [eventType]) = advance status eventType := by
  match types with
  | .opened :: rest =>
    rw [replay] at h
    rw [List.cons_append, replay, List.foldlM_append, h]
    rw [Option.bind_eq_bind, Option.bind_some, List.foldlM_cons]
    exact bind_pure _
  | [] => cases h
  | .assigned :: rest => cases h
  | .escalated :: rest => cases h
  | .resolved :: rest => cases h

theorem advance_open {status status' : CaseStatus} {eventType : CaseEventType}
    (h : advance status eventType = some status') : status ∈ openStatuses ∧ (eventType = .resolved → status' = .resolved) := by
  revert h
  cases status <;> cases eventType <;> simp +contextual [advance, openStatuses]

theorem replay_resolved {types : List CaseEventType} {status : CaseStatus} (h : replay types = some status)
    (hmem : .resolved ∈ types) : status = .resolved := by
  induction types using List.reverseRecOn generalizing status with
  | nil => cases hmem
  | append_singleton types last ih =>
    cases hbefore : replay types with
    | none =>
      match types with
      | [] =>
        obtain rfl := List.mem_singleton.mp hmem
        cases h
      | .opened :: rest =>
        rw [replay] at hbefore
        rw [List.cons_append, replay, List.foldlM_append, hbefore] at h
        cases h
      | .assigned :: rest => cases h
      | .escalated :: rest => cases h
      | .resolved :: rest => cases h
    | some before =>
      rw [replay_append hbefore] at h
      obtain ⟨hopen, hresolved⟩ := advance_open h
      rcases List.mem_append.mp hmem with hold | hnew
      · obtain rfl := ih hbefore hold
        exact absurd hopen (by decide)
      · exact hresolved (List.mem_singleton.mp hnew).symm

def Resource.event? : Resource → Option Nat
  | .event id => some id
  | .case _ => none

def Resource.case? : Resource → Option Nat
  | .case id => some id
  | .event _ => none

@[simp] theorem Resource.event?_event (id : Nat) : (Resource.event id).event? = some id := rfl

@[simp] theorem Resource.event?_case (id : Nat) : (Resource.case id).event? = none := rfl

@[simp] theorem Resource.case?_case (id : Nat) : (Resource.case id).case? = some id := rfl

@[simp] theorem Resource.case?_event (id : Nat) : (Resource.event id).case? = none := rfl

structure Changes (command : CaseCommand) (row row' : SurveillanceCase) : Prop where
  advance : advance row.status command.action = some row'.status
  key : row'.key = row.key
  severity : row'.severity = row.severity
  fourEyes : command.action = .resolved → row.severity = "CRITICAL" → command.actor.pk ≠ row'.assignedTo

theorem changes_changedCase {users : String → Option CaseActor} {command : CaseCommand} {row row' : SurveillanceCase}
    (h : changedCase now users command row = .ok row') : Changes command row row' := by
  unfold changedCase at h
  split at h
  next => cases h
  next haction =>
    simp only [bind_eq_ok, require_eq_ok, demand_eq_ok, pure_eq_ok] at h
    obtain ⟨_, hstatus, assignee, -, _, -, _, -, rfl⟩ := h
    refine ⟨?_, rfl, rfl, fun hresolved => ?_⟩
    · rw [haction]
      rcases List.mem_pair.mp hstatus with heq | heq <;> rw [heq] <;> rfl
    · rw [haction] at hresolved
      cases hresolved
  next haction =>
    simp only [bind_eq_ok, require_eq_ok, pure_eq_ok] at h
    obtain ⟨_, hstatus, rfl⟩ := h
    refine ⟨?_, rfl, rfl, fun hresolved => ?_⟩
    · rw [haction]
      rcases List.mem_pair.mp hstatus with heq | heq <;> rw [heq] <;> rfl
    · rw [haction] at hresolved
      cases hresolved
  next haction =>
    simp only [bind_eq_ok, require_eq_ok, pure_eq_ok] at h
    obtain ⟨_, hstatus, _, hself, rfl⟩ := h
    refine ⟨?_, rfl, rfl, fun _ hcritical heq => hself ⟨hcritical, heq.symm⟩⟩
    rw [haction]
    revert hstatus
    cases row.status <;> simp [advance, openStatuses]

namespace CaseTables

def timelineOf (s : CaseTables) (id : Nat) : List CaseEventType := (s.timeline.filter (·.case = id)).map (·.eventType)

-- No other event has its source and its rule.
def Unseen (s : CaseTables) (event : SurveillanceEvent) : Prop :=
  ∀ source, event.sourceEventId = some source →
    ∀ other ∈ s.events, other.sourceEventId = some source → other.finding.ruleId ≠ event.finding.ruleId

-- All that one finding, one command or the note of a delivery can do to the tables
inductive Effect (sha : Hashed → String) (current : Prop) (s : CaseTables) : CaseTables → Prop where
  | light {event : SurveillanceEvent} {actorRef : String} (hunseen : s.Unseen event)
    (hlight : severe event.finding = false) : Effect sha current s (s.withEvent sha actorRef event)
  | joined {event : SurveillanceEvent} {actorRef : String} {case : Nat} {row : SurveillanceCase}
    (hunseen : s.Unseen event) (hsevere : severe event.finding = true) (hrow : s.cases[case]? = some row)
    (hkey : row.key = event.key) : Effect sha current s ((s.withEvent sha actorRef event).linked case s.events.length)
  | opened {event : SurveillanceEvent} {actorRef : String} (hunseen : s.Unseen event)
    (hsevere : severe event.finding = true)
    (hcurrent : current → ∀ row ∈ s.cases, row.key = event.key → row.status ∉ openStatuses) :
    Effect sha current s
      (((s.withEvent sha actorRef event).withCase sha event).linked s.cases.length s.events.length)
  | changed {now : Timestamp} {command : CaseCommand} {key : String} {row row' : SurveillanceCase}
    (hrow : s.cases[command.case]? = some row) (hchanges : Changes command row row')
    (hfresh : s.commands.find ⟨key, command.actor.pk, command.case, command.action⟩ = none) :
    Effect sha current s (s.changed sha now command key row').1
  | noted (processed : Table Uuid String) (deadLetters : Table (Uuid × String) DeadLetter) :
    Effect sha current s { s with processed, deadLetters }

variable {s s' : CaseTables} {look : CaseLookup} {origin : Origin}

theorem effect_persistFinding {finding : Finding} (h : persistFinding sha look now origin s finding = .ok s') :
    s' = s ∨ Effect sha look.Current s s' := by
  unfold persistFinding at h
  by_cases hknown : known origin s finding
  · rw [if_pos hknown, pure_eq_ok] at h
    exact .inl h.symm
  · rw [if_neg hknown] at h
    obtain ⟨score, -, h⟩ := bind_eq_ok.mp h
    rw [pure_eq_ok] at h
    subst h
    right
    have hunseen : s.Unseen (eventOf sha now origin finding score) := fun source hsource other hother hsame hrule =>
      hknown ⟨fun hnone => Option.some_ne_none source (hsource.symm.trans hnone), other, hother, hsame.trans hsource.symm,
        hrule⟩
    have hplace : (s.withEvent sha origin.actorRef (eventOf sha now origin finding score)).events.length - 1 =
        s.events.length := by
      simp [withEvent]
    cases hsevere : severe finding with
    | false => exact .light hunseen hsevere
    | true =>
      rw [if_pos rfl]
      unfold filed
      split
      next case hcase =>
        obtain ⟨row, hrow, hkey⟩ := look.found _ _ _ hcase
        rw [hplace]
        exact .joined hunseen hsevere hrow hkey
      next hnone =>
        rw [hplace]
        exact .opened hunseen hsevere fun hcurrent =>
          hcurrent (s.withEvent sha origin.actorRef (eventOf sha now origin finding score)) _ hnone

theorem effects_persistFindings {findings : List Finding}
    (h : persistFindings sha look now origin findings s = .ok s') :
    Relation.ReflTransGen (Effect sha look.Current) s s' := by
  unfold persistFindings at h
  induction findings generalizing s with
  | nil =>
    obtain rfl := pure_eq_ok.mp h
    exact .refl
  | cons finding findings ih =>
    rw [List.foldlM_cons] at h
    obtain ⟨t, ht, hrest⟩ := bind_eq_ok.mp h
    rcases effect_persistFinding ht with rfl | heffect
    · exact ih hrest
    · exact .head heffect (ih hrest)

end CaseTables

-- No transaction of another comes between what the operation reads and what it writes.
def SurveillanceOp.Current : SurveillanceOp → Prop
  | .persist look .. => look.Current
  | .ingest look .. => look.Current
  | .command .. => True

namespace CaseTables

variable {s s' : CaseTables}

theorem consume_cases {look : CaseLookup} {rules : SurveillanceEngine.RuleTable} {envelope : Envelope} {fresh : Bool}
    (h : consume sha look now rules envelope s = .ok (fresh, s')) :
    fresh = false ∧ s' = s ∨ fresh = true ∧ s.processed.find envelope.eventId = none ∧
      ∃ findings t, SurveillanceEngine.evaluateWindow rules now envelope.windowEvents = .ok findings ∧
        persistFindings sha look now envelope.origin findings s = .ok t ∧
        s' = { t with processed := t.processed.put envelope.eventId envelope.payloadHash } := by
  unfold consume at h
  split at h
  · simp only [bind_eq_ok, pure_eq_ok, Prod.mk.injEq] at h
    obtain ⟨_, -, rfl, rfl⟩ := h
    exact .inl ⟨rfl, rfl⟩
  next hnone =>
    simp only [bind_eq_ok, pure_eq_ok, Prod.mk.injEq] at h
    obtain ⟨findings, hfindings, t, ht, rfl, rfl⟩ := h
    exact .inr ⟨rfl, hnone, findings, t, hfindings, ht, rfl⟩

theorem consume_of_processed {look : CaseLookup} {rules : SurveillanceEngine.RuleTable} {envelope : Envelope}
    {payloadHash : String} (h : s.processed.find envelope.eventId = some payloadHash) :
    consume sha look now rules envelope s =
      if payloadHash = envelope.payloadHash then .ok (false, s) else .error "ValueError" := by
  simp only [consume, h]
  split_ifs with hsame
  · rw [require_of hsame]
    rfl
  · rw [require_of_not hsame]
    rfl

theorem postCase_cases {users : String → Option CaseActor} {command : CaseCommand} {reply : CaseReply}
    (h : postCase sha isoformat now users command s = .ok (reply, s')) :
    s' = s ∨ ∃ key row row', s.cases[command.case]? = some row ∧ Changes command row row' ∧
      s.commands.find ⟨key, command.actor.pk, command.case, command.action⟩ = none ∧
      s' = (s.changed sha now command key row').1 := by
  unfold postCase runCommand at h
  simp only [bind_eq_ok, require_eq_ok, demand_eq_ok, Option.filter_eq_some_iff] at h
  obtain ⟨_, -, row, ⟨hrow, -⟩, key, -, _, -, _, -, h⟩ := h
  split at h
  · simp only [bind_eq_ok, pure_eq_ok, Prod.mk.injEq] at h
    obtain ⟨_, -, -, rfl⟩ := h
    exact .inl rfl
  next hfresh =>
    simp only [bind_eq_ok, pure_eq_ok, Prod.mk.injEq] at h
    obtain ⟨_, -, row', hchanged, _, -, -, rfl⟩ := h
    exact .inr ⟨key, row, row', hrow, changes_changedCase hchanged, hfresh, rfl⟩

theorem effects_step (s : CaseTables) (op : SurveillanceOp) :
    Relation.ReflTransGen (Effect sha op.Current) s (s.step sha isoformat op) := by
  cases op with
  | persist look now tenantRef accountRef instrumentId actorRef findings =>
    rw [step]
    cases hpersist : persistFindings sha look now { tenantRef, accountRef, instrumentId, actorRef } findings s with
    | error e =>
      rw [commitState_of_error hpersist]
    | ok s' =>
      rw [commitState_of_ok hpersist]
      exact effects_persistFindings hpersist
  | ingest look now rules envelope =>
    rw [step, ingestEvent]
    cases hconsume : consume sha look now rules envelope s with
    | error e => exact .single (.noted s.processed _)
    | ok p =>
      obtain ⟨fresh, s'⟩ := p
      rcases consume_cases hconsume with ⟨-, rfl⟩ | ⟨-, -, findings, t, -, ht, rfl⟩
      · exact .refl
      · exact (effects_persistFindings ht).tail (.noted _ t.deadLetters)
  | command now users command =>
    rw [step]
    rcases commit_cases (postCase sha isoformat now users command) s with ⟨reply, s', hbody, hs⟩ | ⟨-, hs⟩
    · rw [hs]
      rcases postCase_cases hbody with rfl | ⟨key, row, row', hrow, hchanges, hfresh, rfl⟩
      · exact .refl
      · exact .single (.changed hrow hchanges hfresh)
    · rw [hs]

-- What every effect keeps, a whole operation keeps.
theorem step_induction {P : CaseTables → Prop} (op : SurveillanceOp)
    (hkept : ∀ t t', P t → Effect sha op.Current t t' → P t') (h : P s) : P (s.step sha isoformat op) := by
  have heffects : Relation.ReflTransGen (Effect sha op.Current) s (s.step sha isoformat op) := effects_step s op
  generalize s.step sha isoformat op = t at heffects ⊢
  induction heffects with
  | refl => exact h
  | tail _ heffect ih => exact hkept _ _ ih heffect

def caseEntry (audit : SurveillanceAudit) : Option (Nat × String × String × String) :=
  audit.resource.case?.map fun case => (case, audit.action, audit.actorRef, audit.reason)

def commandEntry (entry : SurveillanceCaseEvent) : Option (Nat × String × CaseEventType) :=
  if entry.eventType = .opened then none else some (entry.case, entry.actorRef, entry.eventType)

-- The records of what happened: each event and each entry of a timeline once, in order
structure Logged (s : CaseTables) : Prop where
  eventAudits : s.audits.filterMap (·.resource.event?) = List.range s.events.length
  caseAudits : s.audits.filterMap caseEntry =
    s.timeline.map fun entry => (entry.case, actionText entry.eventType, entry.actorRef, entry.reason)
  eventNotices : s.notices.filterMap (·.aggregate.event?) = List.range s.events.length
  caseNotices : s.notices.filterMap (·.aggregate.case?) = List.range s.cases.length

section Logged

variable {event : SurveillanceEvent} {actorRef key : String} {command : CaseCommand} {row : SurveillanceCase}

theorem Logged.withEvent (h : Logged s) : Logged (s.withEvent sha actorRef event) where
  eventAudits := by simp [CaseTables.withEvent, h.eventAudits, List.range_succ]
  caseAudits := by simp [CaseTables.withEvent, h.caseAudits, caseEntry]
  eventNotices := by simp [CaseTables.withEvent, h.eventNotices, List.range_succ]
  caseNotices := by simp [CaseTables.withEvent, h.caseNotices]

theorem Logged.withCase (h : Logged s) : Logged (s.withCase sha event) where
  eventAudits := by simp [CaseTables.withCase, h.eventAudits]
  caseAudits := by simp [CaseTables.withCase, h.caseAudits, caseEntry, actionText]
  eventNotices := by simp [CaseTables.withCase, h.eventNotices]
  caseNotices := by simp [CaseTables.withCase, h.caseNotices, List.range_succ]

theorem Logged.changed (h : Logged s) : Logged (s.changed sha now command key row).1 where
  eventAudits := by simp [CaseTables.changed, h.eventAudits]
  caseAudits := by simp [CaseTables.changed, h.caseAudits, caseEntry]
  eventNotices := by simp [CaseTables.changed, h.eventNotices]
  caseNotices := by simp [CaseTables.changed, h.caseNotices]

theorem Logged.linked (h : Logged s) (case event : Nat) : Logged (s.linked case event) :=
  ⟨h.eventAudits, h.caseAudits, h.eventNotices, h.caseNotices⟩

theorem Logged.effect (h : Logged s) (heffect : Effect sha current s s') : Logged s' := by
  cases heffect with
  | light hunseen hlight => exact h.withEvent
  | joined hunseen hsevere hrow hkey => exact h.withEvent.linked _ _
  | opened hunseen hsevere hcurrent => exact h.withEvent.withCase.linked _ _
  | changed hrow hchanges hfresh => exact h.changed
  | noted processed deadLetters => exact ⟨h.eventAudits, h.caseAudits, h.eventNotices, h.caseNotices⟩

end Logged

-- The status of a case is what its timeline says, and no command is answered without an entry in it.
structure Handled (s : CaseTables) : Prop where
  placed : ∀ entry ∈ s.timeline, entry.case < s.cases.length
  history : ∀ (id : Nat) (row : SurveillanceCase), s.cases[id]? = some row → replay (s.timelineOf id) = some row.status
  fourEyes : ∀ entry ∈ s.timeline, entry.eventType = .resolved → ∀ row, s.cases[entry.case]? = some row →
    row.severity = "CRITICAL" → entry.actorRef ≠ row.assignedTo
  applicationAudits : s.applicationAudits = s.timeline.filterMap commandEntry
  answers : s.commands.rows.map (fun row => (row.1.case, row.1.actorRef, row.1.action)) = s.applicationAudits

section Handled

variable {event : SurveillanceEvent} {key : String} {command : CaseCommand} {row row' : SurveillanceCase}

theorem Handled.unplaced (h : Handled s) {id : Nat} (hid : s.cases.length ≤ id) : s.timelineOf id = [] := by
  rw [timelineOf, List.filter_eq_nil_iff.mpr, List.map_nil]
  intro entry hentry heq
  have hlt := h.placed entry hentry
  rw [of_decide_eq_true heq] at hlt
  omega

theorem Handled.withCase (h : Handled s) : Handled (s.withCase sha event) where
  placed entry hentry := by
    simp only [CaseTables.withCase, List.length_append, List.length_singleton] at hentry ⊢
    rcases List.mem_append.mp hentry with hold | hnew
    · have hlt := h.placed entry hold
      omega
    · rw [List.mem_singleton.mp hnew]
      exact Nat.lt_succ_self _
  history id row hrow := by
    have htimeline : (s.withCase sha event).timelineOf id =
        s.timelineOf id ++ if s.cases.length = id then [.opened] else [] := by
      simp only [timelineOf, CaseTables.withCase, List.filter_append, List.map_append]
      split_ifs with heq <;> simp [heq]
    rw [htimeline]
    simp only [CaseTables.withCase] at hrow
    rcases lt_trichotomy id s.cases.length with hlt | rfl | hgt
    · rw [List.getElem?_append_left hlt] at hrow
      rw [if_neg hlt.ne', List.append_nil]
      exact h.history id row hrow
    · rw [List.getElem?_concat_length, Option.some.injEq] at hrow
      rw [if_pos rfl, h.unplaced le_rfl, ← hrow]
      rfl
    · rw [List.getElem?_eq_none (by simpa using hgt)] at hrow
      cases hrow
  fourEyes entry hentry hresolved row hrow hcritical := by
    simp only [CaseTables.withCase] at hentry hrow
    rcases List.mem_append.mp hentry with hold | hnew
    · rw [List.getElem?_append_left (h.placed entry hold)] at hrow
      exact h.fourEyes entry hold hresolved row hrow hcritical
    · rw [List.mem_singleton.mp hnew] at hresolved
      cases hresolved
  applicationAudits := by simp [CaseTables.withCase, h.applicationAudits, commandEntry]
  answers := h.answers

theorem timelineOf_changed (s : CaseTables) (id : Nat) : (s.changed sha now command key row).1.timelineOf id =
    s.timelineOf id ++ if command.case = id then [command.action] else [] := by
  simp only [timelineOf, CaseTables.changed, List.filter_append, List.map_append]
  split_ifs with heq <;> simp [heq]

theorem Handled.changed (h : Handled s) (hrow : s.cases[command.case]? = some row) (hchanges : Changes command row row')
    (hfresh : s.commands.find ⟨key, command.actor.pk, command.case, command.action⟩ = none) :
    Handled (s.changed sha now command key row').1 := by
  obtain ⟨hlt, -⟩ := List.getElem?_eq_some_iff.mp hrow
  have hhistory := h.history _ row hrow
  have hunresolved : .resolved ∉ s.timelineOf command.case := fun hmem => by
    have hopen := (advance_open hchanges.advance).1
    rw [replay_resolved hhistory hmem] at hopen
    exact absurd hopen (by decide)
  have hset : (s.changed sha now command key row').1.cases = s.cases.set command.case row' := rfl
  refine ⟨fun entry hentry => ?_, fun id other hother => ?_, fun entry hentry hresolved other hother hcritical => ?_, ?_, ?_⟩
  · rw [hset, List.length_set]
    rcases List.mem_append.mp hentry with hold | hnew
    · exact h.placed entry hold
    · rw [List.mem_singleton.mp hnew]
      exact hlt
  · rw [timelineOf_changed]
    rw [hset] at hother
    rcases eq_or_ne command.case id with rfl | hne
    · rw [List.getElem?_set_self hlt, Option.some.injEq] at hother
      rw [if_pos rfl, replay_append hhistory, hchanges.advance, hother]
    · rw [List.getElem?_set_ne hne] at hother
      rw [if_neg hne, List.append_nil]
      exact h.history id other hother
  · rw [hset] at hother
    rcases List.mem_append.mp hentry with hold | hnew
    · have hne : command.case ≠ entry.case := fun heq => hunresolved (List.mem_map.mpr
        ⟨entry, List.mem_filter.mpr ⟨hold, decide_eq_true heq.symm⟩, hresolved⟩)
      rw [List.getElem?_set_ne hne] at hother
      exact h.fourEyes entry hold hresolved other hother hcritical
    · rw [List.mem_singleton.mp hnew] at hresolved hother ⊢
      rw [List.getElem?_set_self hlt, Option.some.injEq] at hother
      subst hother
      exact hchanges.fourEyes hresolved (hchanges.severity ▸ hcritical)
  · have hopened : command.action ≠ .opened := fun heq => by
      have hadvance := hchanges.advance
      rw [heq] at hadvance
      cases hstatus : row.status <;> rw [hstatus] at hadvance <;> cases hadvance
    simp [CaseTables.changed, h.applicationAudits, commandEntry, hopened]
  · simp [CaseTables.changed, Table.rows_put_of_none hfresh, h.answers]

theorem Handled.effect (h : Handled s) (heffect : Effect sha current s s') : Handled s' := by
  cases heffect with
  | light hunseen hlight => exact ⟨h.placed, h.history, h.fourEyes, h.applicationAudits, h.answers⟩
  | joined hunseen hsevere hrow hkey => exact ⟨h.placed, h.history, h.fourEyes, h.applicationAudits, h.answers⟩
  | @opened event actorRef hunseen hsevere hcurrent =>
    have hevent : Handled (s.withEvent sha actorRef event) :=
      ⟨h.placed, h.history, h.fourEyes, h.applicationAudits, h.answers⟩
    have hcase : Handled ((s.withEvent sha actorRef event).withCase sha event) := hevent.withCase
    exact ⟨hcase.placed, hcase.history, hcase.fourEyes, hcase.applicationAudits, hcase.answers⟩
  | changed hrow hchanges hfresh => exact h.changed hrow hchanges hfresh
  | noted processed deadLetters => exact ⟨h.placed, h.history, h.fourEyes, h.applicationAudits, h.answers⟩

end Handled

theorem getElem?_kept {α : Type} {xs : List α} {x y : α} {i : Nat} (h : xs[i]? = some x) : (xs ++ [y])[i]? = some x :=
  (List.getElem?_append_left (List.getElem?_eq_some_iff.mp h).1).trans h

-- Every severe event is in one case, which is one of its account and its kind; no other event is, and no case is empty.
structure Filed (s : CaseTables) : Prop where
  links : s.links.map (·.2) = placesOf (fun event => severe event.finding) s.events
  sameKey : ∀ link ∈ s.links, ∃ row event, s.cases[link.1]? = some row ∧ s.events[link.2]? = some event ∧ row.key = event.key
  evidenced : ∀ id < s.cases.length, id ∈ s.links.map (·.1)

theorem Filed.effect (h : Filed s) (heffect : Effect sha current s s') : Filed s' := by
  cases heffect with
  | @light event actorRef hunseen hlight =>
    refine ⟨?_, fun link hlink => ?_, h.evidenced⟩
    · simp [CaseTables.withEvent, placesOf_append, h.links, hlight]
    · obtain ⟨row, other, hrow, hother, hkey⟩ := h.sameKey link hlink
      exact ⟨row, other, hrow, getElem?_kept hother, hkey⟩
  | @joined event actorRef case row hunseen hsevere hrow hkey =>
    refine ⟨?_, fun link hlink => ?_, fun id hid => ?_⟩
    · simp [CaseTables.withEvent, linked, placesOf_append, h.links, hsevere]
    · rcases List.mem_append.mp hlink with hold | hnew
      · obtain ⟨row, other, hrow, hother, hkey⟩ := h.sameKey link hold
        exact ⟨row, other, hrow, getElem?_kept hother, hkey⟩
      · rw [List.mem_singleton.mp hnew]
        exact ⟨row, event, hrow, List.getElem?_concat_length, hkey⟩
    · rw [linked, List.map_append]
      exact List.mem_append_left _ (h.evidenced id hid)
  | @opened event actorRef hunseen hsevere hcurrent =>
    refine ⟨?_, fun link hlink => ?_, fun id hid => ?_⟩
    · simp [CaseTables.withEvent, withCase, linked, placesOf_append, h.links, hsevere]
    · rcases List.mem_append.mp hlink with hold | hnew
      · obtain ⟨row, other, hrow, hother, hkey⟩ := h.sameKey link hold
        exact ⟨row, other, getElem?_kept hrow, getElem?_kept hother, hkey⟩
      · rw [List.mem_singleton.mp hnew]
        exact ⟨caseOf event, event, List.getElem?_concat_length, List.getElem?_concat_length, rfl⟩
    · have hlength : id < s.cases.length + 1 := by simpa [linked, withCase, CaseTables.withEvent] using hid
      rw [linked, List.map_append]
      rcases Nat.lt_succ_iff_lt_or_eq.mp hlength with hlt | rfl
      · exact List.mem_append_left _ (h.evidenced id hlt)
      · exact List.mem_append_right _ List.mem_cons_self
  | @changed now command key row row' hrow hchanges hfresh =>
    obtain ⟨hlt, -⟩ := List.getElem?_eq_some_iff.mp hrow
    refine ⟨h.links, fun link hlink => ?_, fun id hid => h.evidenced id (by simpa [CaseTables.changed] using hid)⟩
    obtain ⟨other, event, hother, hevent, hkey⟩ := h.sameKey link hlink
    rcases eq_or_ne command.case link.1 with heq | hne
    · rw [← heq] at hother ⊢
      obtain rfl : row = other := Option.some.inj (hrow.symm.trans hother)
      exact ⟨row', event, List.getElem?_set_self hlt, hevent, hchanges.key.trans hkey⟩
    · exact ⟨other, event, (List.getElem?_set_ne hne).trans hother, hevent, hkey⟩
  | noted processed deadLetters => exact ⟨h.links, h.sameKey, h.evidenced⟩

def sourceOf (event : SurveillanceEvent) : Option (Uuid × Uuid) := event.sourceEventId.map (·, event.finding.ruleId)

theorem nodup_sources {event : SurveillanceEvent} (h : (s.events.filterMap sourceOf).Nodup) (hunseen : s.Unseen event) :
    ((s.events ++ [event]).filterMap sourceOf).Nodup := by
  rw [List.filterMap_append]
  cases hsource : event.sourceEventId with
  | none => simpa [sourceOf, hsource] using h
  | some source =>
    have hnew : [event].filterMap sourceOf = [(source, event.finding.ruleId)] := by simp [sourceOf, hsource]
    rw [hnew, List.nodup_append]
    refine ⟨h, List.nodup_singleton _, fun pair hpair new hmem heq => ?_⟩
    obtain ⟨other, hother, hpair⟩ := List.mem_filterMap.mp hpair
    rw [heq, List.mem_singleton.mp hmem, sourceOf, Option.map_eq_some_iff] at hpair
    obtain ⟨source', hsame, hpair⟩ := hpair
    obtain ⟨rfl, hrule⟩ := Prod.mk.inj hpair
    exact hunseen source' hsource other hother hsame hrule

theorem sources_effect (h : (s.events.filterMap sourceOf).Nodup) (heffect : Effect sha current s s') :
    (s'.events.filterMap sourceOf).Nodup := by
  cases heffect with
  | light hunseen hlight => exact nodup_sources h hunseen
  | joined hunseen hsevere hrow hkey => exact nodup_sources h hunseen
  | opened hunseen hsevere hcurrent => exact nodup_sources h hunseen
  | changed hrow hchanges hfresh => exact h
  | noted processed deadLetters => exact h

-- At most one case of an account and a kind is open.
def OneOpen (s : CaseTables) : Prop :=
  ∀ (i j : Nat) (x y : SurveillanceCase), s.cases[i]? = some x → s.cases[j]? = some y → x.key = y.key →
    x.status ∈ openStatuses → y.status ∈ openStatuses → i = j

theorem OneOpen.effect (h : OneOpen s) (heffect : Effect sha current s s') (hcurrent : current) : OneOpen s' := by
  cases heffect with
  | light hunseen hlight => exact h
  | joined hunseen hsevere hrow hkey => exact h
  | @opened event actorRef hunseen hsevere hfirst =>
    have hplace {i : Nat} {x : SurveillanceCase} (hx : (s.cases ++ [caseOf event])[i]? = some x) :
        s.cases[i]? = some x ∨ i = s.cases.length ∧ x = caseOf event := by
      rcases lt_trichotomy i s.cases.length with hlt | rfl | hgt
      · exact .inl ((List.getElem?_append_left hlt).symm.trans hx)
      · rw [List.getElem?_concat_length, Option.some.injEq] at hx
        exact .inr ⟨rfl, hx.symm⟩
      · rw [List.getElem?_eq_none (by simpa using hgt)] at hx
        cases hx
    intro i j x y hx hy hkey hxopen hyopen
    rcases hplace hx with hxold | ⟨rfl, rfl⟩
    · rcases hplace hy with hyold | ⟨rfl, rfl⟩
      · exact h i j x y hxold hyold hkey hxopen hyopen
      · exact absurd hxopen (hfirst hcurrent x (List.mem_of_getElem? hxold) hkey)
    · rcases hplace hy with hyold | ⟨rfl, rfl⟩
      · exact absurd hyopen (hfirst hcurrent y (List.mem_of_getElem? hyold) hkey.symm)
      · rfl
  | @changed now command key row row' hrow hchanges hfresh =>
    obtain ⟨hlt, -⟩ := List.getElem?_eq_some_iff.mp hrow
    have hopen : row.status ∈ openStatuses := (advance_open hchanges.advance).1
    have hbefore {i : Nat} {x : SurveillanceCase} (hx : (s.cases.set command.case row')[i]? = some x)
        (hxopen : x.status ∈ openStatuses) : ∃ x', s.cases[i]? = some x' ∧ x'.key = x.key ∧ x'.status ∈ openStatuses := by
      rcases eq_or_ne command.case i with rfl | hne
      · rw [List.getElem?_set_self hlt, Option.some.injEq] at hx
        exact ⟨row, hrow, by rw [← hx, hchanges.key], hopen⟩
      · exact ⟨x, (List.getElem?_set_ne hne).symm.trans hx, rfl, hxopen⟩
    intro i j x y hx hy hkey hxopen hyopen
    obtain ⟨x', hx', hxkey, hxopen'⟩ := hbefore hx hxopen
    obtain ⟨y', hy', hykey, hyopen'⟩ := hbefore hy hyopen
    exact h i j x' y' hx' hy' (hxkey.trans (hkey.trans hykey.symm)) hxopen' hyopen'
  | noted processed deadLetters => exact h

-- What has been recorded stays.
structure Continues (s s' : CaseTables) : Prop where
  events : s.events <+: s'.events
  links : s.links <+: s'.links
  timeline : s.timeline <+: s'.timeline
  audits : s.audits <+: s'.audits
  notices : s.notices <+: s'.notices

theorem Continues.refl (s : CaseTables) : Continues s s :=
  ⟨List.prefix_rfl, List.prefix_rfl, List.prefix_rfl, List.prefix_rfl, List.prefix_rfl⟩

theorem Continues.trans {s'' : CaseTables} (h : Continues s s') (h' : Continues s' s'') : Continues s s'' :=
  ⟨h.events.trans h'.events, h.links.trans h'.links, h.timeline.trans h'.timeline, h.audits.trans h'.audits,
    h.notices.trans h'.notices⟩

theorem continues_withEvent {event : SurveillanceEvent} {actorRef : String} : Continues s (s.withEvent sha actorRef event) :=
  ⟨List.prefix_append _ _, List.prefix_rfl, List.prefix_rfl, List.prefix_append _ _, List.prefix_append _ _⟩

theorem continues_linked {case event : Nat} : Continues s (s.linked case event) :=
  ⟨List.prefix_rfl, List.prefix_append _ _, List.prefix_rfl, List.prefix_rfl, List.prefix_rfl⟩

theorem continues_withCase {event : SurveillanceEvent} : Continues s (s.withCase sha event) :=
  ⟨List.prefix_rfl, List.prefix_rfl, List.prefix_append _ _, List.prefix_append _ _, List.prefix_append _ _⟩

theorem continues_effect (h : Effect sha current s s') : Continues s s' := by
  cases h with
  | light hunseen hlight => exact continues_withEvent
  | joined hunseen hsevere hrow hkey => exact continues_withEvent.trans continues_linked
  | opened hunseen hsevere hcurrent => exact continues_withEvent.trans (continues_withCase.trans continues_linked)
  | changed hrow hchanges hfresh =>
    exact ⟨List.prefix_rfl, List.prefix_rfl, List.prefix_append _ _, List.prefix_append _ _, List.prefix_rfl⟩
  | noted processed deadLetters =>
    exact ⟨List.prefix_rfl, List.prefix_rfl, List.prefix_rfl, List.prefix_rfl, List.prefix_rfl⟩

theorem continues_after (s : CaseTables) (ops : List SurveillanceOp) : Continues s (s.after sha isoformat ops) := by
  induction ops generalizing s with
  | nil => exact .refl s
  | cons op ops ih =>
    have hstep : Continues s (s.step sha isoformat op) :=
      step_induction op (fun t t' ht heffect => ht.trans (continues_effect heffect)) (.refl s)
    exact hstep.trans (ih _)

structure Consistent (s : CaseTables) : Prop extends Logged s, Handled s, Filed s where
  sources : (s.events.filterMap sourceOf).Nodup

theorem Consistent.effect (h : Consistent s) (heffect : Effect sha current s s') : Consistent s' where
  toLogged := h.toLogged.effect heffect
  toHandled := h.toHandled.effect heffect
  toFiled := h.toFiled.effect heffect
  sources := sources_effect h.sources heffect

theorem Consistent.initial : Consistent {} where
  eventAudits := rfl
  caseAudits := rfl
  eventNotices := rfl
  caseNotices := rfl
  placed _ hentry := by cases hentry
  history _ _ hrow := by cases hrow
  fourEyes _ hentry := by cases hentry
  applicationAudits := rfl
  answers := rfl
  links := rfl
  sameKey _ hlink := by cases hlink
  evidenced _ hid := absurd hid (Nat.not_lt_zero _)
  sources := List.nodup_nil

theorem Consistent.after (h : Consistent s) (ops : List SurveillanceOp) : Consistent (s.after sha isoformat ops) := by
  induction ops generalizing s with
  | nil => exact h
  | cons op ops ih => exact ih (step_induction op (fun _ _ ht heffect => ht.effect heffect) h)

theorem OneOpen.after (h : OneOpen s) {ops : List SurveillanceOp} (hcurrent : ∀ op ∈ ops, op.Current) :
    OneOpen (s.after sha isoformat ops) := by
  induction ops generalizing s with
  | nil => exact h
  | cons op ops ih =>
    have hstep : OneOpen (s.step sha isoformat op) :=
      step_induction op (fun _ _ ht heffect => ht.effect heffect (hcurrent op List.mem_cons_self)) h
    exact ih hstep fun later hlater => hcurrent later (List.mem_cons_of_mem _ hlater)

theorem Consistent.reconciled (h : Consistent s) : Reconciler.reconcileSurveillance s = [] := by
  have hcase : Reconciler.criticalEventWithoutCase s = [] := by
    refine List.filter_eq_nil_iff.mpr fun id hid => ?_
    obtain ⟨event, hevent, hcritical⟩ := mem_placesOf.mp hid
    have hsevere : severe event.finding = true := decide_eq_true (.inr (of_decide_eq_true hcritical))
    rw [decide_eq_true_eq, not_not, h.links]
    exact mem_placesOf.mpr ⟨event, hevent, hsevere⟩
  have haudit : Reconciler.eventAuditGap s = [] := by
    refine List.filter_eq_nil_iff.mpr fun id hid => ?_
    obtain ⟨event, hevent, -⟩ := mem_placesOf.mp hid
    have hmem : id ∈ s.audits.filterMap (·.resource.event?) := by
      rw [h.eventAudits]
      exact List.mem_range.mpr (List.getElem?_eq_some_iff.mp hevent).1
    obtain ⟨audit, haudit, hresource⟩ := List.mem_filterMap.mp hmem
    rw [decide_eq_true_eq, not_not]
    refine List.mem_map.mpr ⟨audit, haudit, ?_⟩
    cases hcase : audit.resource with
    | event id' =>
      rw [hcase] at hresource
      exact congrArg _ (Option.some.inj hresource)
    | case id' =>
      rw [hcase] at hresource
      cases hresource
  have hempty : Reconciler.caseWithoutEvents s = [] := by
    refine List.filter_eq_nil_iff.mpr fun id hid => ?_
    rw [decide_eq_true_eq, not_not]
    exact h.evidenced id (List.mem_range.mp hid)
  have houtbox : Reconciler.outboxGap s = [] := by
    refine List.filter_eq_nil_iff.mpr fun id hid => ?_
    rw [← h.eventNotices] at hid
    obtain ⟨notice, hnotice, hresource⟩ := List.mem_filterMap.mp hid
    rw [decide_eq_true_eq, not_not]
    refine List.mem_map.mpr ⟨notice, hnotice, ?_⟩
    cases hcase : notice.aggregate with
    | event id' =>
      rw [hcase] at hresource
      exact congrArg _ (Option.some.inj hresource)
    | case id' =>
      rw [hcase] at hresource
      cases hresource
  rw [Reconciler.reconcileSurveillance, hcase, haudit, hempty, houtbox]
  rfl

theorem surveillance_law (sha : Hashed → String) (isoformat : Timestamp → String) (ops later : List SurveillanceOp) :
    Consistent (after sha isoformat {} ops) ∧ Reconciler.reconcileSurveillance (after sha isoformat {} ops) = [] ∧
      ((∀ op ∈ ops, op.Current) → OneOpen (after sha isoformat {} ops)) ∧
      Continues (after sha isoformat {} ops) (after sha isoformat {} (ops ++ later)) := by
  have hconsistent : Consistent (after sha isoformat {} ops) := Consistent.initial.after ops
  refine ⟨hconsistent, hconsistent.reconciled, fun hcurrent => OneOpen.after (fun _ _ _ _ hx => (by cases hx)) hcurrent, ?_⟩
  rw [after, after, List.foldl_append]
  exact continues_after _ later

def flipRule : SurveillanceRule where
  eventType := "RAPID_ORDER_FLIP"
  severity := "CRITICAL"
  policyVersion := "v1"
  effectiveFrom := 0

-- An order each way in one second
def flipEnvelope : Envelope where
  eventId := "event"
  eventType := "trading.window.v1"
  tenantRef := "default"
  accountRef := "account"
  instrumentId := "BTC-USD"
  windowEvents := [⟨"ORDER", 0, "BUY", 1, none, false, false⟩, ⟨"ORDER", 1, "SELL", 1, none, false, false⟩]
  payloadHash := "hash"

def flipDelivery : SurveillanceOp := .ingest firstOpen 5 (Table.empty.put "rule" flipRule) flipEnvelope

-- The case that the delivery opens is assigned to user 7, and user 8 resolves it.
def reviewRun : List SurveillanceOp :=
  let analyst : CaseActor := { pk := "7", groups := ["surveillance_analyst"], mfa := true }
  let manager : CaseActor := { pk := "8", groups := ["surveillance_manager"], mfa := true }
  let users (pk : String) : Option CaseActor := if pk = "7" then some analyst else none
  let assign : CaseCommand :=
    { action := .assigned, case := 0, actor := analyst, headers := ⟨"k1", "r1"⟩, expectedVersion := "5", reason := "review" }
  let resolve : CaseCommand :=
    { action := .resolved, case := 0, actor := manager, headers := ⟨"k2", "r2"⟩, expectedVersion := "6", reason := "closed" }
  [flipDelivery, .command 6 users assign, .command 7 users resolve]

def reviewed : CaseTables := after (fun _ => "sha") toString {} reviewRun

theorem surveillance_law_reviewed : reviewed.cases.map (·.status) = [.resolved] ∧ Consistent reviewed ∧ OneOpen reviewed := by
  obtain ⟨hconsistent, -, hone, -⟩ := surveillance_law (fun _ => "sha") toString reviewRun []
  refine ⟨by decide +kernel, hconsistent, hone fun op hop => ?_⟩
  rcases List.mem_cons.mp hop with rfl | hop
  · exact firstOpen_current
  · rcases List.mem_pair.mp hop with rfl | rfl <;> trivial

-- Two findings of one window come from different rules.
theorem nodup_ruleIds {rules : SurveillanceEngine.RuleTable} {events : List WindowEvent} {findings : List Finding}
    (h : SurveillanceEngine.evaluateWindow rules now events = .ok findings) : (findings.map (·.ruleId)).Nodup := by
  have hlaw := SurveillanceEngine.window_law rules now events
  have htypes : (findings.map (·.eventType)).Nodup :=
    (hlaw.types findings h).nodup (by decide)
  refine List.pairwise_map.mpr ((List.pairwise_map.mp htypes).imp_of_mem fun {x y} hx hy hne hrule => hne ?_)
  obtain ⟨id, rule, hfind, -, -, hxfinding⟩ := hlaw.newest findings h x hx
  obtain ⟨id', rule', hfind', -, -, hyfinding⟩ := hlaw.newest findings h y hy
  rw [hxfinding, hyfinding] at hrule ⊢
  obtain rfl : id = id' := hrule
  obtain rfl : rule = rule' := Option.some.inj (hfind.symm.trans hfind')
  rfl

def fromSource (source : Uuid) (event : SurveillanceEvent) : Bool := event.sourceEventId = some source

-- What an event says, and of whom
def reported (event : SurveillanceEvent) : String × String × String × Timestamp × Finding :=
  (event.tenantRef, event.accountRef, event.instrumentId, event.detectedAt, event.finding)

section Source

variable {look : CaseLookup} {origin : Origin} {findings : List Finding} {source : Uuid} {rules : SurveillanceEngine.RuleTable}
  {envelope : Envelope}

@[simp] theorem filed_events (s : CaseTables) (event : SurveillanceEvent) : (s.filed sha look event).events = s.events := by
  unfold filed
  split <;> rfl

@[simp] theorem filed_processed (s : CaseTables) (event : SurveillanceEvent) :
    (s.filed sha look event).processed = s.processed := by
  unfold filed
  split <;> rfl

theorem events_persistFinding {finding : Finding} (h : persistFinding sha look now origin s finding = .ok s') :
    s'.processed = s.processed ∧ (known origin s finding ∧ s'.events = s.events ∨
      ¬known origin s finding ∧ ∃ score, s'.events = s.events ++ [eventOf sha now origin finding score]) := by
  unfold persistFinding at h
  by_cases hknown : known origin s finding
  · rw [if_pos hknown, pure_eq_ok] at h
    subst h
    exact ⟨rfl, .inl ⟨hknown, rfl⟩⟩
  · rw [if_neg hknown] at h
    obtain ⟨score, -, h⟩ := bind_eq_ok.mp h
    rw [pure_eq_ok] at h
    subst h
    refine ⟨?_, .inr ⟨hknown, score, ?_⟩⟩
    · split_ifs
      · exact filed_processed _ _
      · rfl
    · split_ifs
      · exact filed_events _ _
      · rfl

theorem events_persistFindings (h : persistFindings sha look now origin findings s = .ok s') :
    s'.processed = s.processed ∧
      ∃ added, s'.events = s.events ++ added ∧ ∀ event ∈ added, event.sourceEventId = origin.sourceEventId := by
  unfold persistFindings at h
  induction findings generalizing s with
  | nil =>
    obtain rfl := pure_eq_ok.mp h
    exact ⟨rfl, [], (List.append_nil _).symm, by simp⟩
  | cons finding findings ih =>
    rw [List.foldlM_cons] at h
    obtain ⟨t, ht, hrest⟩ := bind_eq_ok.mp h
    obtain ⟨hprocessed, added, hevents, hadded⟩ := ih hrest
    obtain ⟨hsame, ⟨-, hkept⟩ | ⟨-, score, hnew⟩⟩ := events_persistFinding ht
    · exact ⟨hprocessed.trans hsame, added, by rw [hevents, hkept], hadded⟩
    · refine ⟨hprocessed.trans hsame, eventOf sha now origin finding score :: added, ?_, fun event hevent => ?_⟩
      · rw [hevents, hnew, List.append_assoc, List.singleton_append]
      · rcases List.mem_cons.mp hevent with rfl | hlater
        · rfl
        · exact hadded event hlater

-- Of rules that the source has no event of yet, each finding gives its event.
theorem reported_persistFindings (h : persistFindings sha look now origin findings s = .ok s')
    (hsource : origin.sourceEventId = some source) (hnodup : (findings.map (·.ruleId)).Nodup)
    (hfresh : ∀ event ∈ s.events, event.sourceEventId = some source → event.finding.ruleId ∉ findings.map (·.ruleId)) :
    (s'.events.filter (fromSource source)).map reported = (s.events.filter (fromSource source)).map reported ++
      findings.map fun finding => (origin.tenantRef, origin.accountRef, origin.instrumentId, now, finding) := by
  unfold persistFindings at h
  induction findings generalizing s with
  | nil =>
    obtain rfl := pure_eq_ok.mp h
    exact (List.append_nil _).symm
  | cons finding findings ih =>
    rw [List.foldlM_cons] at h
    obtain ⟨t, ht, hrest⟩ := bind_eq_ok.mp h
    obtain ⟨hnew, hnodup⟩ := List.nodup_cons.mp hnodup
    obtain ⟨-, ⟨⟨-, event, hevent, hsame, hrule⟩, -⟩ | ⟨-, score, hadded⟩⟩ := events_persistFinding ht
    · exact absurd (hrule ▸ List.mem_cons_self) (hfresh event hevent (hsame.trans hsource))
    · have hlater := ih hrest hnodup fun event hevent hsame hmem => by
        rw [hadded] at hevent
        rcases List.mem_append.mp hevent with hold | hone
        · exact hfresh event hold hsame (List.mem_cons_of_mem _ hmem)
        · rw [List.mem_singleton.mp hone] at hmem
          exact hnew hmem
      have hfrom : fromSource source (eventOf sha now origin finding score) = true := decide_eq_true hsource
      rw [hlater, hadded, List.filter_append, List.filter_cons_of_pos hfrom, List.filter_nil, List.map_append,
        List.append_assoc]
      rfl

-- The events of a source that has been processed
structure Settled (source : Uuid) (payloadHash : String) (before s : CaseTables) : Prop where
  processed : s.processed.find source = some payloadHash
  events : s.events.filter (fromSource source) = before.events.filter (fromSource source)

theorem filter_added {added : List SurveillanceEvent} {other : Option Uuid} (hevents : s'.events = s.events ++ added)
    (hadded : ∀ event ∈ added, event.sourceEventId = other) (hother : other ≠ some source) :
    s'.events.filter (fromSource source) = s.events.filter (fromSource source) := by
  have hnone : added.filter (fromSource source) = [] := List.filter_eq_nil_iff.mpr fun event hevent => by
    rw [fromSource, decide_eq_true_eq, hadded event hevent]
    exact hother
  rw [hevents, List.filter_append, hnone, List.append_nil]

theorem Settled.step {before : CaseTables} {payloadHash : String} (h : Settled source payloadHash before s)
    (op : SurveillanceOp) : Settled source payloadHash before (s.step sha isoformat op) := by
  cases op with
  | persist look now tenantRef accountRef instrumentId actorRef findings =>
    rw [CaseTables.step]
    cases hpersist : persistFindings sha look now { tenantRef, accountRef, instrumentId, actorRef } findings s with
    | error e => rwa [commitState_of_error hpersist]
    | ok s' =>
      rw [commitState_of_ok hpersist]
      obtain ⟨hprocessed, added, hevents, hadded⟩ := events_persistFindings hpersist
      have hsame : s'.events.filter (fromSource source) = s.events.filter (fromSource source) :=
        filter_added hevents hadded (Option.some_ne_none source).symm
      exact ⟨by rw [hprocessed]; exact h.processed, hsame.trans h.events⟩
  | ingest look now rules envelope =>
    rw [CaseTables.step, ingestEvent]
    cases hconsume : consume sha look now rules envelope s with
    | error e => exact ⟨h.processed, h.events⟩
    | ok p =>
      obtain ⟨fresh, s'⟩ := p
      rcases consume_cases hconsume with ⟨-, rfl⟩ | ⟨-, hnone, findings, t, -, ht, rfl⟩
      · exact h
      · obtain ⟨hprocessed, added, hevents, hadded⟩ := events_persistFindings ht
        have hne : envelope.eventId ≠ source := fun heq => by
          rw [heq, h.processed] at hnone
          cases hnone
        have hsame : t.events.filter (fromSource source) = s.events.filter (fromSource source) :=
          filter_added hevents hadded fun heq => hne (Option.some.inj heq)
        refine ⟨?_, hsame.trans h.events⟩
        exact (Table.find_put_of_ne _ _ hne.symm).trans (by rw [hprocessed]; exact h.processed)
  | command now users command =>
    rw [CaseTables.step]
    rcases commit_cases (postCase sha isoformat now users command) s with ⟨reply, s', hbody, hs⟩ | ⟨-, hs⟩
    · rw [hs]
      rcases postCase_cases hbody with rfl | ⟨key, row, row', -, -, -, rfl⟩
      · exact h
      · exact ⟨h.processed, h.events⟩
    · rwa [hs]

theorem Settled.after {before : CaseTables} {payloadHash : String} (h : Settled source payloadHash before s)
    (ops : List SurveillanceOp) : Settled source payloadHash before (s.after sha isoformat ops) := by
  induction ops generalizing s with
  | nil => exact h
  | cons op ops ih => exact ih (h.step op)

-- No event is of a source that is yet to be processed.
def Sourced (s : CaseTables) : Prop :=
  ∀ event ∈ s.events, ∀ source, event.sourceEventId = some source → (s.processed.find source).isSome = true

theorem Sourced.step (h : Sourced s) (op : SurveillanceOp) : Sourced (s.step sha isoformat op) := by
  cases op with
  | persist look now tenantRef accountRef instrumentId actorRef findings =>
    rw [CaseTables.step]
    cases hpersist : persistFindings sha look now { tenantRef, accountRef, instrumentId, actorRef } findings s with
    | error e => rwa [commitState_of_error hpersist]
    | ok s' =>
      rw [commitState_of_ok hpersist]
      obtain ⟨hprocessed, added, hevents, hadded⟩ := events_persistFindings hpersist
      intro event hevent source hsource
      rw [hprocessed]
      rw [hevents] at hevent
      rcases List.mem_append.mp hevent with hold | hnew
      · exact h event hold source hsource
      · rw [hadded event hnew] at hsource
        cases hsource
  | ingest look now rules envelope =>
    rw [CaseTables.step, ingestEvent]
    cases hconsume : consume sha look now rules envelope s with
    | error e => exact h
    | ok p =>
      obtain ⟨fresh, s'⟩ := p
      rcases consume_cases hconsume with ⟨-, rfl⟩ | ⟨-, -, findings, t, -, ht, rfl⟩
      · exact h
      · obtain ⟨hprocessed, added, hevents, hadded⟩ := events_persistFindings ht
        intro event hevent source hsource
        rw [Table.find_put, hprocessed]
        rcases List.mem_append.mp (hevents ▸ hevent) with hold | hnew
        · split_ifs
          · rfl
          · exact h event hold source hsource
        · have hid : envelope.eventId = source := Option.some.inj ((hadded event hnew).symm.trans hsource)
          rw [if_pos hid.symm]
          rfl
  | command now users command =>
    rw [CaseTables.step]
    rcases commit_cases (postCase sha isoformat now users command) s with ⟨reply, s', hbody, hs⟩ | ⟨-, hs⟩
    · rw [hs]
      rcases postCase_cases hbody with rfl | ⟨key, row, row', -, -, -, rfl⟩
      · exact h
      · exact h
    · rwa [hs]

theorem Sourced.after (h : Sourced s) (ops : List SurveillanceOp) : Sourced (s.after sha isoformat ops) := by
  induction ops generalizing s with
  | nil => exact h
  | cons op ops ih => exact ih (h.step op)

-- The first delivery that succeeds leaves one event for each finding of its window, and no other delivery adds to them.
theorem ingest_once (h : Sourced s) (hingest : ingestEvent sha look now rules envelope s = (s', .ok true)) :
    ∃ findings, SurveillanceEngine.evaluateWindow rules now envelope.windowEvents = .ok findings ∧
      s'.processed.find envelope.eventId = some envelope.payloadHash ∧
      (s'.events.filter (fromSource envelope.eventId)).map reported = findings.map fun finding =>
        (envelope.tenantRef, envelope.accountRef, envelope.instrumentId, now, finding) := by
  unfold ingestEvent at hingest
  split at hingest
  next fresh t hconsume =>
    obtain ⟨rfl, hfresh⟩ := Prod.mk.inj hingest
    obtain rfl : fresh = true := Except.ok.inj hfresh
    rcases consume_cases hconsume with ⟨hfalse, -⟩ | ⟨-, hnone, findings, u, hfindings, hu, rfl⟩
    · cases hfalse
    · have hunseen : ∀ event ∈ s.events, event.sourceEventId ≠ some envelope.eventId := fun event hevent hsource => by
        have hprocessed := h event hevent _ hsource
        rw [hnone] at hprocessed
        cases hprocessed
      have hbefore : s.events.filter (fromSource envelope.eventId) = [] := List.filter_eq_nil_iff.mpr fun event hevent => by
        rw [fromSource, decide_eq_true_eq]
        exact hunseen event hevent
      have hreported := reported_persistFindings hu rfl (nodup_ruleIds hfindings) fun event hevent hsource =>
        absurd hsource (hunseen event hevent)
      rw [hbefore] at hreported
      exact ⟨findings, hfindings, Table.find_put_self _ _ _, hreported⟩
  next => cases hingest

end Source

structure DeliveredOnce (sha : Hashed → String) (isoformat : Timestamp → String) (look : CaseLookup) (now : Timestamp)
    (rules : SurveillanceEngine.RuleTable) (envelope : Envelope) (s : CaseTables) : Prop where
  fresh : ∀ s', ingestEvent sha look now rules envelope s = (s', .ok true) →
    ∃ findings, SurveillanceEngine.evaluateWindow rules now envelope.windowEvents = .ok findings ∧
      ∀ later, ((s'.after sha isoformat later).events.filter (fromSource envelope.eventId)).map reported =
        findings.map fun finding => (envelope.tenantRef, envelope.accountRef, envelope.instrumentId, now, finding)
  again : ∀ s', ingestEvent sha look now rules envelope s = (s', .ok true) → ∀ later look' now' rules' envelope',
    envelope'.eventId = envelope.eventId → (ingestEvent sha look' now' rules' envelope' (s'.after sha isoformat later)).2 =
      if envelope.payloadHash = envelope'.payloadHash then .ok false else .error "ValueError"
  repeated : ∀ s', ingestEvent sha look now rules envelope s = (s', .ok false) → s' = s
  failed : ∀ s' error, ingestEvent sha look now rules envelope s = (s', .error error) →
    s' = s.withDeadLetter now envelope error

theorem delivered_once (sha : Hashed → String) (isoformat : Timestamp → String) (ops : List SurveillanceOp)
    (look : CaseLookup) (now : Timestamp) (rules : SurveillanceEngine.RuleTable) (envelope : Envelope) :
    DeliveredOnce sha isoformat look now rules envelope (after sha isoformat {} ops) := by
  have hsourced : Sourced (after sha isoformat {} ops) := Sourced.after (fun _ hevent => (by cases hevent)) ops
  refine ⟨fun s' hingest => ?_, fun s' hingest later look' now' rules' envelope' hid => ?_, fun s' hingest => ?_,
    fun s' error hingest => ?_⟩
  · obtain ⟨findings, hfindings, hprocessed, hreported⟩ := ingest_once hsourced hingest
    refine ⟨findings, hfindings, fun later => ?_⟩
    have hsettled : Settled envelope.eventId envelope.payloadHash s' (s'.after sha isoformat later) :=
      Settled.after ⟨hprocessed, rfl⟩ later
    rw [hsettled.events, hreported]
  · obtain ⟨-, -, hprocessed, -⟩ := ingest_once hsourced hingest
    have hsettled : Settled envelope.eventId envelope.payloadHash s' (s'.after sha isoformat later) :=
      Settled.after ⟨hprocessed, rfl⟩ later
    rw [ingestEvent, consume_of_processed (hid ▸ hsettled.processed)]
    split_ifs <;> rfl
  · unfold ingestEvent at hingest
    split at hingest
    next fresh t hconsume =>
      obtain ⟨rfl, hfresh⟩ := Prod.mk.inj hingest
      obtain rfl : fresh = false := Except.ok.inj hfresh
      rcases consume_cases hconsume with ⟨-, hsame⟩ | ⟨htrue, -⟩
      · exact hsame
      · cases htrue
    · cases hingest
  · unfold ingestEvent at hingest
    split at hingest
    · cases hingest
    · obtain ⟨rfl, herror⟩ := Prod.mk.inj hingest
      rw [Except.error.inj herror]

theorem delivered_once_flip :
    (ingestEvent (fun _ => "sha") firstOpen 5 (Table.empty.put "rule" flipRule) flipEnvelope {}).2 = .ok true ∧
      DeliveredOnce (fun _ => "sha") toString firstOpen 5 (Table.empty.put "rule" flipRule) flipEnvelope {} :=
  ⟨by decide +kernel, delivered_once _ toString [] firstOpen 5 _ flipEnvelope⟩

end CaseTables

end Surveillance

end Beyvra
