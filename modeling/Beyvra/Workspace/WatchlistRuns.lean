import Beyvra.Workspace.WatchlistInvariants

namespace Beyvra

open Relational

namespace Workspace

variable {env : WorkspaceEnv} {request : WorkspaceRequest} {p : PreparedCommand} {scope : RecordScope}
  {s begun : WorkspaceTables} {reply : Reply} {record : IdempotencyRecord} {out : Reply × WorkspaceTables}

def WatchlistCommand.target : WatchlistCommand → Option Uuid
  | .create _ => none
  | .rename id _ | .delete id | .addItem id _ _ | .removeItem id _ => some id

def NoContent (reply : Reply) : Prop := reply.status = 204 → reply.body = .empty

def Current (p : PreparedCommand) (t : Table Uuid Watchlist) (target : Option Uuid) : Prop :=
  ∀ id, target = some id → ∃ row, t.find id = some row ∧ some row.version = p.request.expectedVersion

inductive Performed (env : WorkspaceEnv) (target : Option Uuid) (p : PreparedCommand) (s begun : WorkspaceTables) :
    Reply × WorkspaceTables → Prop where
  | rolledBack {reply : Reply} (hrefused : 400 ≤ reply.status) : Performed env target p s begun (reply, s)
  | withdrawn {reply : Reply} (hrefused : 400 ≤ reply.status) :
      Performed env target p s begun (reply, { begun with records := begun.records.erase p.scope })
  | settled {reply : Reply} (resourceType resourceId : String) (hempty : NoContent reply) :
      Performed env target p s begun (completeResponse p.scope reply resourceType resourceId begun)
  | applied {reply : Reply} (resourceType resourceId : String) {watchlists : Table Uuid Watchlist}
      {audits : List ApplicationAuditEvent} (hempty : NoContent reply) (haccepted : reply.status < 400)
      (hversion : Current p begun.watchlists target) (hchange : WatchlistChange env begun.watchlists watchlists) :
      Performed env target p s begun
        (completeResponse p.scope reply resourceType resourceId { begun with watchlists, audits })

theorem createWatchlist_performed (name : String) :
    Performed env none p s begun (createWatchlist env request p.scope name begun) := by
  simp only [createWatchlist]
  split
  · exact .settled _ _ (by simp [NoContent, alreadyExists])
  · rename_i hfree
    rw [not_or, not_not, Bool.not_eq_true] at hfree
    exact .applied _ _ (by simp [NoContent]) (by simp) (by simp [Current]) (.created hfree.1 hfree.2 rfl rfl)

theorem withVersion_performed {id : Uuid} {body : Watchlist → Reply × WorkspaceTables}
    (hbody : ∀ row, begun.watchlists.find id = some row → Current p begun.watchlists (some id) →
      Performed env (some id) p s begun (body row)) :
    Performed env (some id) p s begun (withVersion p.scope p.request.expectedVersion id begun body) := by
  unfold withVersion
  cases hfound : begun.watchlists.find id with
  | none => exact .settled _ _ (by simp [NoContent, notFound])
  | some row =>
    by_cases hversion : some row.version = p.request.expectedVersion
    · simp only [hversion, ne_eq, not_true_eq_false, if_false]
      refine hbody row hfound ?_
      rintro id' ⟨⟩
      exact ⟨row, hfound, hversion⟩
    · simp only [ne_eq, hversion, not_false_eq_true, if_true]
      exact .settled _ _ (by simp [NoContent])

section Versioned

variable {id : Uuid} {row : Watchlist}

theorem renameWatchlist_performed (hfound : begun.watchlists.find id = some row)
    (hversion : Current p begun.watchlists (some id)) (name : String) :
    Performed env (some id) p s begun (renameWatchlist env request p.scope id name begun row) := by
  unfold renameWatchlist
  split
  · exact .settled _ _ (by simp [NoContent, alreadyExists])
  · rename_i hfree
    exact .applied _ _ (by simp [NoContent]) (by simp) hversion
      (.edited hfound rfl rfl (.inr (Bool.not_eq_true _ ▸ hfree)) fun hitems => hitems)

theorem deleteWatchlist_performed (hfound : begun.watchlists.find id = some row)
    (hversion : Current p begun.watchlists (some id)) :
    Performed env (some id) p s begun (deleteWatchlist request p.scope id begun row) :=
  .applied _ _ (by simp [NoContent]) (by simp) hversion (.deleted request.now hfound)

theorem addWatchlistItem_performed (hfound : begun.watchlists.find id = some row)
    (hversion : Current p begun.watchlists (some id)) (instrument : Uuid) (sortOrder : Nat) :
    Performed env (some id) p s begun (addWatchlistItem env request p.scope id instrument sortOrder begun row) := by
  unfold addWatchlistItem
  cases hitem : row.items.find? (·.instrumentId = instrument) with
  | some existing => exact .settled _ _ (by simp [NoContent])
  | none =>
    refine .applied _ _ (by simp [NoContent]) (by simp) hversion (.edited hfound rfl rfl (.inl rfl) fun hitems => ?_)
    have hnew : instrument ∉ WatchlistItems row := by
      simpa [WatchlistItems, List.find?_eq_none] using hitem
    simpa [WatchlistItems, List.nodup_append] using ⟨hitems, fun item hmem heq => hnew (List.mem_map.mpr ⟨item, hmem, heq⟩)⟩

theorem removeWatchlistItem_performed (hfound : begun.watchlists.find id = some row)
    (hversion : Current p begun.watchlists (some id)) (reference : Uuid) :
    Performed env (some id) p s begun (removeWatchlistItem request p.scope id reference begun row) := by
  unfold removeWatchlistItem
  cases hitem : row.items.find? (·.instrumentId = reference) with
  | none => exact .settled _ _ (by simp [NoContent, notFound])
  | some item =>
    refine .applied _ _ (by simp [NoContent]) (by simp) hversion (.edited hfound rfl rfl (.inl rfl) fun hitems => ?_)
    exact hitems.sublist (List.filter_sublist.map _)

end Versioned

theorem instrumentStatus_refused (removal : Bool) (code : String) : 400 ≤ instrumentStatus removal code := by
  unfold instrumentStatus
  split
  · decide
  · split <;> decide

theorem perform_performed : Performed env request.command.target p s begun (perform env request p s begun) := by
  unfold perform
  split
  · rename_i hcommand _
    rw [hcommand]
    exact createWatchlist_performed _
  · rename_i hcommand _
    rw [hcommand]
    exact withVersion_performed fun row hfound hversion => renameWatchlist_performed hfound hversion _
  · rename_i hcommand
    rw [hcommand]
    exact withVersion_performed fun row hfound hversion => deleteWatchlist_performed hfound hversion
  · rename_i hcommand
    rw [hcommand]
    split
    · exact .withdrawn (instrumentStatus_refused _ _)
    · split
      · exact .rolledBack (by simp)
      · exact withVersion_performed fun row hfound hversion => addWatchlistItem_performed hfound hversion _ _
  · rename_i hcommand _
    rw [hcommand]
    exact withVersion_performed fun row hfound hversion => removeWatchlistItem_performed hfound hversion _
  · exact .rolledBack (by simp)

-- Every record tells what was answered.
def Answered (s : WorkspaceTables) : Prop :=
  ∀ scope record, s.records.find scope = some record → record.responseStatus ≠ none

def replyOf (record : IdempotencyRecord) (status : Nat) : Reply :=
  ⟨status, if status = 204 then .empty else record.responseBody⟩

def opened (p : PreparedCommand) (now : Timestamp) (s : WorkspaceTables) : WorkspaceTables :=
  { s with records := s.records.put p.scope { request := p.request, expiresAt := now + recordTtl } }

theorem beginCommand_free (now : Timestamp) (h : s.records.find p.scope = none) :
    beginCommand p now s = .ok (opened p now s) := by
  simp only [beginCommand, h, opened]

theorem beginCommand_found (hanswered : Answered s) (now : Timestamp) (h : s.records.find p.scope = some record) :
    ∃ status, record.responseStatus = some status ∧ beginCommand p now s =
      .error (if record.request = p.request then replyOf record status else ⟨409, errorBody "IDEMPOTENCY_CONFLICT"⟩) := by
  obtain ⟨status, hstatus⟩ := Option.ne_none_iff_exists'.mp (hanswered p.scope record h)
  refine ⟨status, hstatus, ?_⟩
  by_cases hsame : record.request = p.request <;> simp [beginCommand, h, hsame, hstatus, replyOf]

theorem parseVersion_refused {raw : RawVersion} (h : parseVersion raw = .error reply) : 400 ≤ reply.status := by
  unfold parseVersion at h
  grind

theorem parseCommand_refused {requireVersion : Bool} (h : parseCommand request requireVersion = .error reply) :
    400 ≤ reply.status := by
  unfold parseCommand at h
  simp only [bind_eq_error, require_eq_error] at h
  rcases h with ⟨-, rfl⟩ | ⟨_, -, hversion | ⟨_, -, ⟨-, rfl⟩ | ⟨_, -, h⟩⟩⟩
  · decide
  · exact parseVersion_refused hversion
  · decide
  · cases h

theorem requestName_refused {name : Option String} {missing : Reply} (hmissing : 400 ≤ missing.status)
    (h : requestName name missing = .error reply) : 400 ≤ reply.status := by
  cases name with
  | none =>
    cases h
    exact hmissing
  | some value =>
    obtain ⟨-, rfl⟩ := demand_eq_error.mp h
    decide

theorem parsed_refused {requireVersion : Bool} {f : ParsedCommand → PreparedCommand}
    (h : (parseCommand request requireVersion >>= fun command => pure (f command)) = .error reply) :
    400 ≤ reply.status := by
  rcases bind_eq_error.mp h with hparse | ⟨_, -, hpure⟩
  · exact parseCommand_refused hparse
  · cases hpure

theorem prepare_refused (h : prepare env request = .error reply) : 400 ≤ reply.status := by
  simp only [prepare] at h
  split at h
  · rcases bind_eq_error.mp h with hname | ⟨_, -, hparsed⟩
    · exact requestName_refused (by decide) hname
    · exact parsed_refused hparsed
  · rcases bind_eq_error.mp h with hname | ⟨_, -, hparsed⟩
    · exact requestName_refused (by decide) hname
    · exact parsed_refused hparsed
  · exact parsed_refused h
  · exact parsed_refused h
  · split at h
    · cases h
      exact instrumentStatus_refused _ _
    · exact parsed_refused h

theorem prepare_scope (h : prepare env request = .ok p) : p.scope = request.scope := by
  simp only [prepare] at h
  split at h
  · simp only [bind_eq_ok, pure_eq_ok] at h
    obtain ⟨_, -, _, -, rfl⟩ := h
    rfl
  · simp only [bind_eq_ok, pure_eq_ok] at h
    obtain ⟨_, -, _, -, rfl⟩ := h
    rfl
  · simp only [bind_eq_ok, pure_eq_ok] at h
    obtain ⟨_, -, rfl⟩ := h
    rfl
  · simp only [bind_eq_ok, pure_eq_ok] at h
    obtain ⟨_, -, rfl⟩ := h
    rfl
  · split at h
    · cases h
    · simp only [bind_eq_ok, pure_eq_ok] at h
      obtain ⟨_, -, rfl⟩ := h
      rfl

-- The three ways a request ends: its form is refused, its record answers, or it is performed.
theorem answer_cases (env : WorkspaceEnv) (hanswered : Answered s) (request : WorkspaceRequest) :
    (∃ reply, prepare env request = .error reply ∧ answer env request s = (reply, s)) ∨
    (∃ p record status, prepare env request = .ok p ∧ s.records.find p.scope = some record ∧
      record.responseStatus = some status ∧ answer env request s =
        (if record.request = p.request then replyOf record status else ⟨409, errorBody "IDEMPOTENCY_CONFLICT"⟩, s)) ∨
    ∃ p, prepare env request = .ok p ∧ s.records.find p.scope = none ∧
      Performed env request.command.target p s (opened p request.now s) (answer env request s) := by
  cases hprep : prepare env request with
  | error reply => exact .inl ⟨reply, rfl, by simp only [answer, hprep]⟩
  | ok p =>
    cases hfound : s.records.find p.scope with
    | none =>
      refine .inr (.inr ⟨p, rfl, hfound, ?_⟩)
      simp only [answer, hprep, beginCommand_free request.now hfound]
      exact perform_performed
    | some record =>
      obtain ⟨status, hstatus, hbegin⟩ := beginCommand_found hanswered request.now hfound
      exact .inr (.inl ⟨p, record, status, rfl, hfound, hstatus, by simp only [answer, hprep, hbegin]⟩)

section Completed

variable {resourceType resourceId : String} {t : WorkspaceTables}

theorem completeResponse_watchlists :
    (completeResponse scope reply resourceType resourceId t).2.watchlists = t.watchlists := by
  unfold completeResponse
  split <;> rfl

theorem completeResponse_audits :
    (completeResponse scope reply resourceType resourceId t).2.audits = t.audits := by
  unfold completeResponse
  split <;> rfl

theorem completeResponse_reply : (completeResponse scope reply resourceType resourceId t).1 = reply := by
  unfold completeResponse
  split <;> rfl

-- The record that begin_command has made takes the reply.
theorem completeResponse_opened {now : Timestamp} (h : t.records = (opened p now s).records) :
    (completeResponse p.scope reply resourceType resourceId t).2.records =
      s.records.put p.scope
        { request := p.request, responseStatus := some reply.status, responseBody := reply.body,
          resourceType := resourceType, resourceId := resourceId, expiresAt := now + recordTtl } := by
  simp only [completeResponse, h, opened, Table.find_put_self, Table.put_put]

end Completed

theorem Performed.records {target : Option Uuid} {now : Timestamp} (hnone : s.records.find p.scope = none)
    (h : Performed env target p s (opened p now s) out) :
    (∀ scope, scope ≠ p.scope → out.2.records.find scope = s.records.find scope) ∧
      ∀ record, out.2.records.find p.scope = some record →
        record.responseStatus = some out.1.status ∧ replyOf record out.1.status = out.1 := by
  have hcompleted {reply : Reply} {resourceType resourceId : String} {t : WorkspaceTables} (hempty : NoContent reply)
      (hrecords : t.records = (opened p now s).records) :
      (∀ scope, scope ≠ p.scope → (completeResponse p.scope reply resourceType resourceId t).2.records.find scope =
          s.records.find scope) ∧
        ∀ record, (completeResponse p.scope reply resourceType resourceId t).2.records.find p.scope = some record →
          record.responseStatus = some (completeResponse p.scope reply resourceType resourceId t).1.status ∧
          replyOf record (completeResponse p.scope reply resourceType resourceId t).1.status =
            (completeResponse p.scope reply resourceType resourceId t).1 := by
    rw [completeResponse_opened hrecords, completeResponse_reply]
    refine ⟨fun scope hne => Table.find_put_of_ne _ _ hne, ?_⟩
    intro record hrecord
    rw [Table.find_put_self] at hrecord
    obtain rfl := Option.some.inj hrecord
    refine ⟨rfl, ?_⟩
    by_cases hstatus : reply.status = 204
    · have hbody := hempty hstatus
      rw [replyOf, if_pos hstatus, ← hbody]
    · simp [replyOf, hstatus]
  cases h with
  | rolledBack hrefused =>
    refine ⟨fun _ _ => rfl, ?_⟩
    intro record hrecord
    rw [hnone] at hrecord
    cases hrecord
  | withdrawn hrefused =>
    refine ⟨fun scope hne => ?_, ?_⟩
    · rw [Table.find_erase_of_ne _ hne]
      exact Table.find_put_of_ne _ _ hne
    · intro record hrecord
      rw [Table.find_erase_self] at hrecord
      cases hrecord
  | settled _ _ hempty => exact hcompleted hempty rfl
  | applied _ _ hempty haccepted hversion hchange => exact hcompleted hempty rfl

theorem answer_answered (h : Answered s) (request : WorkspaceRequest) : Answered (answer env request s).2 := by
  rcases answer_cases env h request with ⟨_, -, heq⟩ | ⟨_, _, _, -, -, -, heq⟩ | ⟨p, -, hnone, hperformed⟩
  · rwa [heq]
  · rwa [heq]
  · obtain ⟨hothers, hown⟩ := hperformed.records hnone
    intro scope record hrecord
    by_cases hscope : scope = p.scope
    · subst hscope
      rw [(hown record hrecord).1]
      exact Option.some_ne_none _
    · rw [hothers scope hscope] at hrecord
      exact h scope record hrecord

theorem answer_keeps_record (h : Answered s) (request : WorkspaceRequest) (hrecord : s.records.find scope = some record) :
    (answer env request s).2.records.find scope = some record := by
  rcases answer_cases env h request with ⟨_, -, heq⟩ | ⟨_, _, _, -, -, -, heq⟩ | ⟨p, -, hnone, hperformed⟩
  · rwa [heq]
  · rwa [heq]
  · have hne : scope ≠ p.scope := by
      rintro rfl
      rw [hnone] at hrecord
      cases hrecord
    rw [(hperformed.records hnone).1 scope hne, hrecord]

-- A stored record that matches the request holds the very reply.
theorem answer_stored (h : Answered s) (hprep : prepare env request = .ok p)
    (hrecord : (answer env request s).2.records.find p.scope = some record) (hsame : record.request = p.request) :
    ∃ status, record.responseStatus = some status ∧ replyOf record status = (answer env request s).1 := by
  rcases answer_cases env h request with
    ⟨_, hmalformed, -⟩ | ⟨p', record', status, hprep', hfound, hstatus, heq⟩ | ⟨p', hprep', hnone, hperformed⟩
  · rw [hprep] at hmalformed
    cases hmalformed
  · obtain rfl := Except.ok.inj (hprep'.symm.trans hprep)
    rw [heq, hfound] at hrecord
    obtain rfl := Option.some.inj hrecord
    exact ⟨status, hstatus, by rw [heq, if_pos hsame]⟩
  · obtain rfl := Except.ok.inj (hprep'.symm.trans hprep)
    exact ⟨_, (hperformed.records hnone).2 record hrecord⟩

theorem Performed.change {target : Option Uuid} {now : Timestamp}
    (h : Performed env target p s (opened p now s) out) :
    out.2.watchlists = s.watchlists ∧ out.2.audits = s.audits ∨
      out.1.status < 400 ∧ Current p s.watchlists target ∧ WatchlistChange env s.watchlists out.2.watchlists := by
  cases h with
  | rolledBack hrefused => exact .inl ⟨rfl, rfl⟩
  | withdrawn hrefused => exact .inl ⟨rfl, rfl⟩
  | settled _ _ hempty => exact .inl ⟨completeResponse_watchlists, completeResponse_audits⟩
  | applied _ _ hempty haccepted hversion hchange =>
    refine .inr ⟨?_, hversion, ?_⟩
    · rw [completeResponse_reply]
      exact haccepted
    · rw [completeResponse_watchlists]
      exact hchange

def run (env : WorkspaceEnv) (s : WorkspaceTables) (requests : List WorkspaceRequest) : WorkspaceTables :=
  requests.foldl (fun s request => (answer env request s).2) s

structure Sound (env : WorkspaceEnv) (s : WorkspaceTables) : Prop where
  answered : Answered s
  lawful : Lawful env s.watchlists

theorem Sound.empty (env : WorkspaceEnv) : Sound env {} :=
  ⟨by simp [Answered], Lawful.empty env⟩

theorem Sound.after (h : Sound env s) (request : WorkspaceRequest) : Sound env (answer env request s).2 := by
  refine ⟨answer_answered h.answered request, ?_⟩
  rcases answer_cases env h.answered request with
    ⟨_, -, heq⟩ | ⟨_, _, _, -, -, -, heq⟩ | ⟨p, -, hnone, hperformed⟩
  · rw [heq]
    exact h.lawful
  · rw [heq]
    exact h.lawful
  · rcases hperformed.change with ⟨hkept, -⟩ | ⟨-, -, hchange⟩
    · rw [hkept]
      exact h.lawful
    · exact hchange.lawful h.lawful

theorem Sound.after_run (h : Sound env s) (requests : List WorkspaceRequest) : Sound env (run env s requests) := by
  induction requests generalizing s with
  | nil => exact h
  | cons request requests ih => exact ih (h.after request)

theorem run_keeps_record (h : Sound env s) (requests : List WorkspaceRequest)
    (hrecord : s.records.find scope = some record) : (run env s requests).records.find scope = some record := by
  induction requests generalizing s with
  | nil => exact hrecord
  | cons request requests ih => exact ih (h.after request) (answer_keeps_record h.answered request hrecord)

-- What one request may do to the watchlists.
structure Disciplined (env : WorkspaceEnv) (s : WorkspaceTables) (request : WorkspaceRequest) : Prop where
  raised : Raised s.watchlists (answer env request s).2.watchlists
  refused : 400 ≤ (answer env request s).1.status →
    (answer env request s).2.watchlists = s.watchlists ∧ (answer env request s).2.audits = s.audits
  stale : ∀ p id row, prepare env request = .ok p → request.command.target = some id →
    s.watchlists.find id = some row → p.request.expectedVersion ≠ some row.version →
    (answer env request s).2.watchlists = s.watchlists ∧ (answer env request s).2.audits = s.audits

-- The record of a request answers every later request under its key, at its endpoint and with its method.
def Replayed (env : WorkspaceEnv) (s : WorkspaceTables) (request : WorkspaceRequest) : Prop :=
  ∀ p record, prepare env request = .ok p → (answer env request s).2.records.find p.scope = some record →
    record.request = p.request → ∀ between again, again.scope = request.scope →
      let later := run env (answer env request s).2 between
      (∀ p', prepare env again = .ok p' → p'.request = p.request →
        answer env again later = ((answer env request s).1, later)) ∧
      ((∀ p', prepare env again = .ok p' → p'.request ≠ p.request) →
        400 ≤ (answer env again later).1.status ∧ (answer env again later).2 = later)

theorem Sound.replayed (h : Sound env s) (request : WorkspaceRequest) : Replayed env s request := by
  intro p record hprep hrecord hsame between again hscope later
  obtain ⟨status, hstatus, hstored⟩ := answer_stored h.answered hprep hrecord hsame
  have hsound : Sound env later := (h.after request).after_run between
  have hlater : later.records.find again.scope = some record := by
    rw [hscope, ← prepare_scope hprep]
    exact run_keeps_record (h.after request) between hrecord
  rcases answer_cases env hsound.answered again with
    ⟨reply, hmalformed, heq⟩ | ⟨p', record', status', hprep', hfound, hstatus', heq⟩ | ⟨p', hprep', hnone, -⟩
  · refine ⟨fun p' hprep' _ => ?_, fun _ => ?_⟩
    · rw [hprep'] at hmalformed
      cases hmalformed
    · rw [heq]
      exact ⟨prepare_refused hmalformed, rfl⟩
  · rw [prepare_scope hprep', hlater] at hfound
    obtain rfl := Option.some.inj hfound
    obtain rfl := Option.some.inj (hstatus'.symm.trans hstatus)
    rw [heq]
    refine ⟨fun p'' hprep'' hequal => ?_, fun hdiffers => ?_⟩
    · obtain rfl := Except.ok.inj (hprep''.symm.trans hprep')
      rw [if_pos (hsame.trans hequal.symm), hstored]
    · rw [if_neg fun hequal => hdiffers p' hprep' (hequal.symm.trans hsame)]
      exact ⟨le_of_lt (by decide : 400 < 409), rfl⟩
  · rw [prepare_scope hprep', hlater] at hnone
    cases hnone

end Workspace

end Beyvra
