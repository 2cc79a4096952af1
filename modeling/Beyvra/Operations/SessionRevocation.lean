import Beyvra.Operations.Sessions

namespace Beyvra

open Relational

namespace Sessions

def Accepted (s : SessionTables) (now : Timestamp) (token : TokenClaims) : Prop :=
  ∃ user, authenticate now token s = .ok user

-- The token names a session that has been revoked or has expired.
def Lapsed (s : SessionTables) (now : Timestamp) (token : TokenClaims) : Prop :=
  ∃ sessionId session, token.sessionId = some sessionId ∧ s.sessions.find sessionId = some session ∧
    (session.revokedAt ≠ none ∨ session.expiresAt ≤ now)

def SessionCommand.Changes (userId : Nat) (command : SessionCommand) : Prop :=
  ∃ now, command = .changeCredentials now userId

def run (settings : JwtSettings) (start : SessionTables) (commands : List SessionCommand) : SessionHistory :=
  commands.foldl (SessionHistory.step settings) { tables := start }

-- After any commands before, what the commands in between stop is refused at every moment from then on.
def RevocationComplete (settings : JwtSettings) (start : SessionTables) (commands : List SessionCommand) : Prop :=
  ∀ before between after, commands = before ++ between ++ after →
    ∀ token ∈ (run settings start before).accessTokens, ∀ now later, now ≤ later →
      (∀ command ∈ between, command.now ≤ later) →
      (∃ command ∈ between, command.Changes token.userId) ∨ Lapsed (run settings start before).tables now token →
      ¬Accepted (run settings start (before ++ between)).tables later token

def HasNoUnbound (h : SessionHistory) : SessionCommand → Prop
  | .changeCredentials now userId => ∀ token ∈ h.accessTokens, token.userId = userId → token.sessionId = none →
      token.expired now ∨ ∃ user, h.tables.users.find userId = some user ∧ h.tables.operator userId user
  | _ => True

-- What every command leaves as it is: users, roles, the terms of a session and its revocation.
structure Kept (s s' : SessionTables) : Prop where
  users : ∀ id user, s.users.find id = some user → s'.users.find id = some user
  operatorRoles : s'.operatorRoles = s.operatorRoles
  sessions : ∀ id session, s.sessions.find id = some session → ∃ session', s'.sessions.find id = some session' ∧
    session'.tenantId = session.tenantId ∧ session'.account = session.account ∧
    session'.expiresAt = session.expiresAt ∧ (session.revokedAt ≠ none → session'.revokedAt ≠ none)

variable {settings : JwtSettings} {s s' s'' : SessionTables} {now later : Timestamp} {token : TokenClaims}
  {userId : Nat} {user : User} {pair : TokenPair} {chosen : Uuid → Bool}

theorem Kept.refl (s : SessionTables) : Kept s s where
  users _ _ h := h
  operatorRoles := rfl
  sessions _ session h := ⟨session, h, rfl, rfl, rfl, id⟩

theorem Kept.trans (h : Kept s s') (h' : Kept s' s'') : Kept s s'' where
  users id user hfound := h'.users id user (h.users id user hfound)
  operatorRoles := h'.operatorRoles.trans h.operatorRoles
  sessions id session hfound := by
    obtain ⟨session', hfound', htenant, haccount, hexpires, hrevoked⟩ := h.sessions id session hfound
    obtain ⟨session'', hfound'', htenant', haccount', hexpires', hrevoked'⟩ := h'.sessions id session' hfound'
    exact ⟨session'', hfound'', htenant'.trans htenant, haccount'.trans haccount, hexpires'.trans hexpires,
      hrevoked' ∘ hrevoked⟩

theorem find_revokeWhere (huser : s.users.find userId = some user) (id : Uuid) :
    (s.revokeWhere now userId chosen).sessions.find id = (s.sessions.find id).map fun session =>
      if session.tenantId = tenantFor user ∧ session.account = userId ∧ chosen id then session.revoke now
      else session := by
  simp only [SessionTables.revokeWhere, huser, Table.find_mapRows]

theorem revoke_revoked (now : Timestamp) (session : AccountSession) : (session.revoke now).revokedAt ≠ none := by
  by_cases h : session.revokedAt = none <;> simp [AccountSession.revoke, h]

theorem revoke_terms (now : Timestamp) (session : AccountSession) :
    (session.revoke now).tenantId = session.tenantId ∧ (session.revoke now).account = session.account ∧
      (session.revoke now).expiresAt = session.expiresAt := by
  by_cases h : session.revokedAt = none <;> simp [AccountSession.revoke, h]

theorem kept_revokeWhere (s : SessionTables) (now : Timestamp) (userId : Nat) (chosen : Uuid → Bool) :
    Kept s (s.revokeWhere now userId chosen) := by
  cases huser : s.users.find userId with
  | none =>
    have hsame : s.revokeWhere now userId chosen = s := by simp only [SessionTables.revokeWhere, huser]
    rw [hsame]
    exact .refl s
  | some user =>
    refine ⟨fun id found hfound => ?_, ?_, fun id session hfound => ?_⟩
    · simpa only [SessionTables.revokeWhere, huser] using hfound
    · simp only [SessionTables.revokeWhere, huser]
    · rw [find_revokeWhere huser, hfound, Option.map_some]
      refine ⟨_, rfl, ?_⟩
      split
      · obtain ⟨htenant, haccount, hexpires⟩ := revoke_terms now session
        exact ⟨htenant, haccount, hexpires, fun _ => revoke_revoked now session⟩
      · exact ⟨rfl, rfl, rfl, fun hrevoked => hrevoked⟩

theorem activeUser_eq_ok {id : Nat} :
    s.activeUser id = .ok user ↔ s.users.find id = some user ∧ user.isActive = true := by
  simp only [SessionTables.activeUser, bind_eq_ok, fetch_eq_ok, require_eq_ok, pure_eq_ok]
  constructor
  · rintro ⟨found, hfound, -, hactive, rfl⟩
    exact ⟨hfound, hactive⟩
  · rintro ⟨hfound, hactive⟩
    exact ⟨user, hfound, (), hactive, rfl⟩

theorem mapError_eq_ok {ε ε' α : Type} {x : Except ε α} {f : ε → ε'} {a : α} :
    x.mapError f = .ok a ↔ x = .ok a := by
  cases x <;> simp [Except.mapError]

-- A pair that was handed out: both tokens name one active user, and one session of his or none.
structure Issued (s : SessionTables) (pair : TokenPair) : Prop where
  user : ∃ user, s.activeUser pair.access.userId = .ok user
  sameUser : pair.refresh.userId = pair.access.userId
  sameSession : pair.refresh.sessionId = pair.access.sessionId
  bound : ∀ sessionId user, pair.access.sessionId = some sessionId →
    s.users.find pair.access.userId = some user → ∃ session, s.sessions.find sessionId = some session ∧
      session.tenantId = tenantFor user ∧ session.account = pair.access.userId

theorem Issued.kept (h : Issued s pair) (hkept : Kept s s') : Issued s' pair := by
  obtain ⟨user, huser⟩ := h.user
  obtain ⟨hfound, hactive⟩ := activeUser_eq_ok.mp huser
  have hfound' := hkept.users _ _ hfound
  refine ⟨⟨user, activeUser_eq_ok.mpr ⟨hfound', hactive⟩⟩, h.sameUser, h.sameSession, ?_⟩
  intro sessionId user' hsession huser'
  obtain rfl := Option.some.inj (hfound'.symm.trans huser')
  obtain ⟨session, hrow, htenant, haccount⟩ := h.bound sessionId user hsession hfound
  obtain ⟨session', hrow', htenant', haccount', -, -⟩ := hkept.sessions sessionId session hrow
  exact ⟨session', hrow', htenant'.trans htenant, haccount'.trans haccount⟩

theorem Issued.unbound (huser : s.activeUser userId = .ok user) :
    Issued s ((getToken settings now userId).pair settings now) where
  user := ⟨user, huser⟩
  sameUser := rfl
  sameSession := rfl
  bound _ _ hsession := by cases hsession

theorem login_eq_ok {uuid4 : Uuid} {mfaVerified : Bool}
    (h : login settings now uuid4 userId mfaVerified s = .ok (pair, s')) : Kept s s' ∧ Issued s' pair := by
  obtain ⟨user, huser, h₁⟩ := bind_eq_ok.mp h
  obtain ⟨_, hfresh, h₂⟩ := bind_eq_ok.mp h₁
  obtain ⟨rfl, rfl⟩ := Prod.mk.inj (pure_eq_ok.mp h₂)
  have hnone := require_eq_ok.mp hfresh
  have hactive := mapError_eq_ok.mp huser
  refine ⟨⟨fun _ _ hfound => hfound, rfl, fun id session hfound => ?_⟩, ⟨user, hactive⟩, rfl, rfl, ?_⟩
  · have hne : id ≠ uuid4 := by
      rintro rfl
      rw [hnone] at hfound
      cases hfound
    exact ⟨session, (Table.find_put_of_ne _ _ hne).trans hfound, rfl, rfl, rfl, fun hrevoked => hrevoked⟩
  · intro sessionId user' hsession huser'
    obtain rfl := Option.some.inj hsession
    obtain rfl := Option.some.inj ((activeUser_eq_ok.mp hactive).1.symm.trans huser')
    exact ⟨_, Table.find_put_self .., rfl, rfl⟩

theorem registered (hnone : s.users.find userId = none) (hactive : user.isActive = true) :
    Kept s { s with users := s.users.put userId user } ∧
      Issued { s with users := s.users.put userId user } ((getToken settings now userId).pair settings now) := by
  have hregistered : SessionTables.activeUser { s with users := s.users.put userId user } userId = .ok user :=
    activeUser_eq_ok.mpr ⟨Table.find_put_self .., hactive⟩
  refine ⟨⟨fun id found hfound => ?_, rfl, (Kept.refl s).sessions⟩, .unbound hregistered⟩
  have hne : id ≠ userId := by
    rintro rfl
    rw [hnone] at hfound
    cases hfound
  exact (Table.find_put_of_ne _ _ hne).trans hfound

theorem verifyRegistration_eq_ok (h : verifyRegistration settings now userId s = .ok (pair, s')) :
    Kept s s' ∧ Issued s' pair := by
  obtain ⟨_, hfresh, h₁⟩ := bind_eq_ok.mp h
  obtain ⟨rfl, rfl⟩ := Prod.mk.inj (pure_eq_ok.mp h₁)
  exact registered (require_eq_ok.mp hfresh) rfl

theorem createUser_eq_ok {brand : Option String} (h : createUser settings now userId brand s = .ok (pair, s')) :
    Kept s s' ∧ Issued s' pair := by
  obtain ⟨_, -, h₁⟩ := bind_eq_ok.mp h
  obtain ⟨_, hfresh, h₂⟩ := bind_eq_ok.mp h₁
  obtain ⟨rfl, rfl⟩ := Prod.mk.inj (pure_eq_ok.mp h₂)
  exact registered (require_eq_ok.mp hfresh) rfl

theorem googleCredential_eq_ok (h : googleCredential settings now userId s = .ok (pair, s')) :
    Kept s s' ∧ Issued s' pair := by
  obtain ⟨user, huser, h₁⟩ := bind_eq_ok.mp h
  obtain ⟨rfl, rfl⟩ := Prod.mk.inj (pure_eq_ok.mp h₁)
  exact ⟨.refl s, .unbound (mapError_eq_ok.mp huser)⟩

theorem tokenRefresh_eq_ok {old : TokenPair} (hold : Issued s old)
    (h : tokenRefresh settings now old.refresh s = .ok (pair, s')) : Kept s s' ∧ Issued s' pair := by
  obtain ⟨-, -, h₁⟩ := bind_eq_ok.mp h
  obtain ⟨user, huser, h₂⟩ := bind_eq_ok.mp h₁
  obtain ⟨rfl, rfl⟩ := Prod.mk.inj (pure_eq_ok.mp h₂)
  refine ⟨.refl s, ⟨user, mapError_eq_ok.mp huser⟩, ?_, ?_, ?_⟩
  · simp only [TokenClaims.accessToken]
    split <;> rfl
  · simp only [TokenClaims.accessToken]
    split <;> rfl
  · intro sessionId user' hsession huser'
    simp only [TokenClaims.accessToken, hold.sameUser, hold.sameSession] at hsession huser' ⊢
    exact hold.bound sessionId user' hsession huser'

def SessionHistory.Bound (h : SessionHistory) : Prop := ∀ pair ∈ h.pairs, Issued h.tables pair

theorem issue_bound {h : SessionHistory} {outcome : SessionOutcome (TokenPair × SessionTables)} (hbound : h.Bound)
    (hissued : ∀ pair tables, outcome = .ok (pair, tables) → Kept h.tables tables ∧ Issued tables pair) :
    Kept h.tables (h.issue outcome).tables ∧ (h.issue outcome).Bound := by
  cases houtcome : outcome with
  | error e => exact ⟨.refl _, hbound⟩
  | ok result =>
    obtain ⟨pair, tables⟩ := result
    obtain ⟨hkept, hpair⟩ := hissued pair tables houtcome
    refine ⟨hkept, fun pair' hmem => ?_⟩
    rcases List.mem_cons.mp hmem with rfl | hmem
    · exact hpair
    · exact (hbound pair' hmem).kept hkept

theorem withTables_bound {h : SessionHistory} (hbound : h.Bound) (hkept : Kept h.tables s) :
    Kept h.tables s ∧ SessionHistory.Bound { h with tables := s } :=
  ⟨hkept, fun pair hmem => (hbound pair hmem).kept hkept⟩

theorem step_bound {h : SessionHistory} (hbound : h.Bound) (command : SessionCommand) :
    Kept h.tables (h.step settings command).tables ∧ (h.step settings command).Bound := by
  cases command with
  | login now uuid4 userId mfaVerified => exact issue_bound hbound fun _ _ => login_eq_ok
  | verifyRegistration now userId => exact issue_bound hbound fun _ _ => verifyRegistration_eq_ok
  | createUser now userId brand => exact issue_bound hbound fun _ _ => createUser_eq_ok
  | googleCredential now userId => exact issue_bound hbound fun _ _ => googleCredential_eq_ok
  | tokenRefresh now place =>
    cases hplace : h.pairs[place]? with
    | none =>
      simp only [SessionHistory.step, hplace]
      exact ⟨.refl _, hbound⟩
    | some old =>
      simp only [SessionHistory.step, hplace]
      exact issue_bound hbound fun _ _ => tokenRefresh_eq_ok (hbound old (List.mem_of_getElem? hplace))
  | revokeSession now userId sessionId => exact withTables_bound hbound (kept_revokeWhere ..)
  | revokeOthers now userId current => exact withTables_bound hbound (kept_revokeWhere ..)
  | changeCredentials now userId => exact withTables_bound hbound (kept_revokeWhere ..)

theorem steps_bound {h : SessionHistory} (hbound : h.Bound) (commands : List SessionCommand) :
    Kept h.tables (commands.foldl (SessionHistory.step settings) h).tables ∧
      (commands.foldl (SessionHistory.step settings) h).Bound := by
  induction commands generalizing h with
  | nil => exact ⟨.refl _, hbound⟩
  | cons command commands ih =>
    obtain ⟨hkept, hnext⟩ := step_bound hbound command
    obtain ⟨hkept', hlast⟩ := ih hnext
    exact ⟨hkept.trans hkept', hlast⟩

theorem getUser_eq_ok : getUser now token s = .ok user ↔ s.activeUser token.userId = .ok user ∧
    match token.sessionId with
    | some sessionId => s.sessionActive sessionId (tenantFor user) token.userId now = true
    | none => s.operator token.userId user = false := by
  unfold getUser
  cases hid : token.sessionId with
  | some sessionId =>
    simp only [bind_eq_ok, require_eq_ok, pure_eq_ok]
    constructor
    · rintro ⟨found, hfound, -, hactive, rfl⟩
      exact ⟨hfound, hactive⟩
    · rintro ⟨hfound, hactive⟩
      exact ⟨user, hfound, (), hactive, rfl⟩
  | none =>
    simp only [bind_eq_ok, require_eq_ok, pure_eq_ok, Bool.not_eq_true]
    constructor
    · rintro ⟨found, hfound, -, hoperator, rfl⟩
      exact ⟨hfound, hoperator⟩
    · rintro ⟨hfound, hoperator⟩
      exact ⟨user, hfound, (), hoperator, rfl⟩

theorem accepted_iff : Accepted s now token ↔ token.expired now = false ∧ ∃ user, getUser now token s = .ok user := by
  simp only [Accepted, authenticate, bind_eq_ok, require_eq_ok, Bool.not_eq_true, exists_and_left, exists_const]

theorem refused_of_lapsed (h : Lapsed s now token) (hkept : Kept s s') (hlater : now ≤ later) :
    ¬Accepted s' later token := by
  intro haccepted
  obtain ⟨sessionId, session, hid, hfound, hlapsed⟩ := h
  obtain ⟨-, user, huser⟩ := accepted_iff.mp haccepted
  have hactive := (getUser_eq_ok.mp huser).2
  obtain ⟨session', hfound', -, -, hexpires, hrevoked⟩ := hkept.sessions sessionId session hfound
  simp only [hid, SessionTables.sessionActive, hfound', Option.any_some, Bool.and_eq_true, decide_eq_true_eq]
    at hactive
  rcases hlapsed with hlapsed | hlapsed
  · exact hrevoked hlapsed hactive.1.2
  · have hunexpired := hactive.2
    rw [hexpires] at hunexpired
    exact absurd (hlapsed.trans hlater) (not_le.mpr hunexpired)

theorem lapsed_of_change (now : Timestamp) (hissued : Issued s pair) (hbound : pair.access.sessionId ≠ none)
    (later : Timestamp) :
    Lapsed (revokeSessionsAfterCredentialChange now pair.access.userId s) later pair.access := by
  obtain ⟨sessionId, hid⟩ := Option.ne_none_iff_exists'.mp hbound
  obtain ⟨user, huser⟩ := hissued.user
  have hfound := (activeUser_eq_ok.mp huser).1
  obtain ⟨session, hrow, htenant, haccount⟩ := hissued.bound sessionId user hid hfound
  refine ⟨sessionId, session.revoke now, hid, ?_, .inl (revoke_revoked now session)⟩
  rw [revokeSessionsAfterCredentialChange, find_revokeWhere hfound, hrow, Option.map_some]
  exact congrArg some (if_pos ⟨htenant, haccount, rfl⟩)

theorem expired_mono (h : token.expired now) (hlater : now ≤ later) : token.expired later := by
  simp only [TokenClaims.expired, decide_eq_true_eq] at h ⊢
  exact h.trans hlater

theorem operator_kept (hkept : Kept s s') (id : Nat) (user : User) : s'.operator id user = s.operator id user := by
  simp only [SessionTables.operator, hkept.operatorRoles]

theorem refused_after_change {h : SessionHistory} (hbound : h.Bound)
    (hunbound : HasNoUnbound h (.changeCredentials now token.userId)) (htoken : token ∈ h.accessTokens)
    (hkept : Kept (h.step settings (.changeCredentials now token.userId)).tables s') (hlater : now ≤ later) :
    ¬Accepted s' later token := by
  obtain ⟨pair, hpair, rfl⟩ := List.mem_map.mp htoken
  cases hid : pair.access.sessionId with
  | some sessionId =>
    have hlapsed := lapsed_of_change now (hbound pair hpair) (by simp [hid]) now
    exact refused_of_lapsed hlapsed hkept hlater
  | none =>
    intro haccepted
    obtain ⟨hunexpired, user, haccepted⟩ := accepted_iff.mp haccepted
    obtain ⟨huser, hoperator⟩ := getUser_eq_ok.mp haccepted
    simp only [hid] at hoperator
    rcases hunbound pair.access htoken rfl hid with hexpired | ⟨user', hfound', hoperator'⟩
    · rw [expired_mono hexpired hlater] at hunexpired
      cases hunexpired
    · have hkept' : Kept h.tables s' := (kept_revokeWhere ..).trans hkept
      obtain rfl := Option.some.inj ((hkept'.users _ _ hfound').symm.trans (activeUser_eq_ok.mp huser).1)
      rw [operator_kept hkept', hoperator'] at hoperator
      cases hoperator

theorem issue_pairs (h : SessionHistory) (outcome : SessionOutcome (TokenPair × SessionTables)) :
    h.pairs ⊆ (h.issue outcome).pairs := by
  cases outcome with
  | error e => exact List.Subset.refl _
  | ok result => exact List.subset_cons_self _ _

theorem step_pairs (h : SessionHistory) (command : SessionCommand) :
    h.pairs ⊆ (h.step settings command).pairs := by
  cases command with
  | login now uuid4 userId mfaVerified => exact issue_pairs ..
  | verifyRegistration now userId => exact issue_pairs ..
  | createUser now userId brand => exact issue_pairs ..
  | googleCredential now userId => exact issue_pairs ..
  | tokenRefresh now place =>
    simp only [SessionHistory.step]
    split
    · exact issue_pairs ..
    · exact List.Subset.refl _
  | revokeSession now userId sessionId => exact List.Subset.refl _
  | revokeOthers now userId current => exact List.Subset.refl _
  | changeCredentials now userId => exact List.Subset.refl _

theorem steps_pairs (h : SessionHistory) (commands : List SessionCommand) :
    h.pairs ⊆ (commands.foldl (SessionHistory.step settings) h).pairs := by
  induction commands generalizing h with
  | nil => exact List.Subset.refl _
  | cons command commands ih => exact List.Subset.trans (step_pairs h command) (ih _)

theorem mem_accessTokens_run {start : SessionTables} {before between : List SessionCommand}
    (h : token ∈ (run settings start before).accessTokens) :
    token ∈ (run settings start (before ++ between)).accessTokens := by
  simp only [run, List.foldl_append]
  exact List.map_subset _ (steps_pairs _ _) h

theorem run_bound (settings : JwtSettings) (start : SessionTables) (commands : List SessionCommand) :
    (run settings start commands).Bound :=
  (steps_bound (fun _ hmem => absurd hmem List.not_mem_nil) commands).2

theorem run_kept (settings : JwtSettings) (start : SessionTables) (before between : List SessionCommand) :
    Kept (run settings start before).tables (run settings start (before ++ between)).tables := by
  simp only [run, List.foldl_append]
  exact (steps_bound (run_bound settings start before) between).1

theorem revocation_complete_iff {settings : JwtSettings} {start : SessionTables} {commands : List SessionCommand} :
    RevocationComplete settings start commands ↔
      Throughout (SessionHistory.step settings) HasNoUnbound commands { tables := start } := by
  rw [throughout_iff]
  constructor
  · intro hcomplete before command after heq
    cases command with
    | changeCredentials now userId =>
      rintro token htoken rfl hunbound
      by_contra hlive
      rw [not_or, Bool.not_eq_true] at hlive
      obtain ⟨hunexpired, hoperator⟩ := hlive
      obtain ⟨pair, hpair, rfl⟩ := List.mem_map.mp htoken
      obtain ⟨user, huser⟩ := (run_bound settings start before pair hpair).user
      have hfound := (activeUser_eq_ok.mp huser).1
      refine hcomplete before [.changeCredentials now pair.access.userId] after ?_ pair.access htoken now now le_rfl
        ?_ (.inl ⟨_, List.mem_singleton_self _, now, rfl⟩) ?_
      · rw [heq, List.append_assoc, List.singleton_append]
      · intro command hmem
        rw [List.mem_singleton.mp hmem]
        exact le_rfl
      · have hkept := run_kept settings start before [.changeCredentials now pair.access.userId]
        have hactive := activeUser_eq_ok.mpr ⟨hkept.users _ _ hfound, (activeUser_eq_ok.mp huser).2⟩
        refine accepted_iff.mpr ⟨hunexpired, user, getUser_eq_ok.mpr ⟨hactive, ?_⟩⟩
        simp only [hunbound]
        rw [operator_kept hkept]
        exact Bool.eq_false_iff.mpr fun hop => hoperator ⟨user, hfound, hop⟩
    | _ => trivial
  · intro hunbound before between after heq token htoken now later hlater htimes hstopped
    rcases hstopped with ⟨change, hmem, changed, rfl⟩ | hlapsed
    · obtain ⟨first, rest, rfl⟩ := List.append_of_mem hmem
      have hat := hunbound (before ++ first) (.changeCredentials changed token.userId) (rest ++ after) (by simp [heq])
      have hkept := run_kept settings start
        ((before ++ first) ++ [.changeCredentials changed token.userId]) rest
      have hstep : run settings start ((before ++ first) ++ [.changeCredentials changed token.userId]) =
          (run settings start (before ++ first)).step settings (.changeCredentials changed token.userId) := by
        simp only [run, List.foldl_append, List.foldl_cons, List.foldl_nil]
      rw [hstep] at hkept
      have hrefused := refused_after_change (run_bound settings start (before ++ first)) hat
        (mem_accessTokens_run htoken) hkept (htimes _ hmem)
      simpa using hrefused
    · exact refused_of_lapsed hlapsed (run_kept settings start before between) hlater

-- A customer verifies his registration and changes his password one minute later.
def verifiedThenChanged : List SessionCommand :=
  [.verifyRegistration 0 7, .changeCredentials (60 * microsecondsPerSecond) 7]

theorem verified_token_survives : ¬∀ settings start commands, RevocationComplete settings start commands := by
  intro hclaim
  have hrefused := hclaim {} {} verifiedThenChanged [.verifyRegistration 0 7]
    [.changeCredentials (60 * microsecondsPerSecond) 7] [] rfl { userId := 7, exp := 300 } (by decide)
    (60 * microsecondsPerSecond) (60 * microsecondsPerSecond) le_rfl
  refine hrefused ?_ (.inl ⟨_, List.mem_singleton_self _, _, rfl⟩) ⟨{}, rfl⟩
  intro command hmem
  rw [List.mem_singleton.mp hmem]
  exact le_rfl

end Sessions

end Beyvra
