import Beyvra.Operations.OperatorControls

namespace Beyvra

open OperatorControls

namespace LoginRisk

structure Account where
  tenantId : String
  id : Nat
  deriving DecidableEq

inductive EventType where
  | loginSuccess | loginFailure | passwordReset | mfaEnabled | mfaDisabled | mfaReset | sessionCreated | sessionRevoked
  | newDevice | newNetwork
  deriving DecidableEq

-- What revokes an account's sessions
inductive CredentialChange where
  | passwordReset | mfaEnabled | mfaDisabled | mfaReset
  deriving DecidableEq

def CredentialChange.eventType : CredentialChange → EventType
  | .passwordReset => .passwordReset
  | .mfaEnabled => .mfaEnabled
  | .mfaDisabled => .mfaDisabled
  | .mfaReset => .mfaReset

inductive RiskLevel where
  | low | medium | high | critical
  deriving DecidableEq

structure SecurityEvent where
  account : Account
  eventType : EventType
  occurredAt : Timestamp
  riskLevel : RiskLevel
  networkRef : String := ""

structure DeviceIdentity where
  account : Account
  fingerprintHash : String
  revoked : Bool := false

-- The references that a request's user agent and address are hashed to
structure Origin where
  device : String
  network : String
  deriving DecidableEq

-- In the order of their names
inductive Reason where
  | accountFrozen | accountReviewRequired | highRiskAction | newDevice | newNetwork | recentMfaReset | recentPasswordReset
  | sessionRisk | tooManyFailedLogins | velocityExceeded
  deriving DecidableEq

def reasonCodes : List Reason :=
  [.accountFrozen, .accountReviewRequired, .highRiskAction, .newDevice, .newNetwork, .recentMfaReset, .recentPasswordReset,
    .sessionRisk, .tooManyFailedLogins, .velocityExceeded]

inductive Decision where
  | deny | review | stepUp | allow
  deriving DecidableEq

structure RiskDecision where
  decision : Decision
  reasonCodes : List Reason

structure LoginTables where
  events : List SecurityEvent := []
  devices : List DeviceIdentity := []
  freezes : List AccountFreeze := []
  audits : List (Account × RiskDecision) := []

structure User where
  account : Account
  isActive : Bool
  isMfaEnabled : Bool
  twoFactorAuthenticationEnabled : Bool

inductive LoginReply where
  | invalidCredentials | banned | stepUpRequired | mfaRequired | loggedIn
  deriving DecidableEq

def failureWindow : Int := 600 * microsecondsPerSecond

def resetWindow : Int := microsecondsPerDay

section Tables

variable (s : LoginTables) (account : Account)

def LoginTables.rows (type : EventType) : List SecurityEvent :=
  s.events.filter fun e => e.account = account && e.eventType = type

def LoginTables.devicesOf : List DeviceIdentity := s.devices.filter fun d => d.account = account

def LoginTables.networksOf : List String :=
  (s.events.filter fun e => e.account = account && e.eventType ∈ [.loginSuccess, .newNetwork]).map (·.networkRef)

def LoginTables.freezeLevel : Option FreezeLevel :=
  (s.freezes.find? (·.activeFor account.tenantId account.id)).map (·.level)

def recordLoginFailure (now : Timestamp) : LoginTables :=
  let recentFailures := (s.rows account .loginFailure).countP fun e => now - failureWindow ≤ e.occurredAt
  { s with events := s.events ++ [⟨account, .loginFailure, now, if 4 ≤ recentFailures then .high else .medium, ""⟩] }

def LoginTables.signals (now : Timestamp) (origin : Origin) : Reason → Bool
  | .tooManyFailedLogins =>
    (s.rows account .loginFailure).any fun e => e.riskLevel ∈ [.high, .critical] && now - failureWindow ≤ e.occurredAt
  | .recentPasswordReset => (s.rows account .passwordReset).any fun e => now - resetWindow ≤ e.occurredAt
  | .recentMfaReset => (s.rows account .mfaReset).any fun e => now - resetWindow ≤ e.occurredAt
  | .newDevice =>
    !(s.devicesOf account).isEmpty && !(s.devicesOf account).any fun d => d.fingerprintHash = origin.device && !d.revoked
  | .newNetwork => !(s.networksOf account).isEmpty && origin.network ∉ s.networksOf account
  | _ => false

end Tables

def evaluateAccountRisk (freeze : Option FreezeLevel) (signals : Reason → Bool) : RiskDecision :=
  let reasons := reasonCodes.filter signals
  if freeze ∈ [some .partialFreeze, some .fullFreeze] then
    ⟨.deny, LoginRisk.reasonCodes.filter fun r => r = .accountFrozen || signals r⟩
  else if reasons.any (· ∈ [.tooManyFailedLogins, .highRiskAction]) then ⟨.deny, reasons⟩
  else if reasons.any (· ∈ [.accountReviewRequired, .sessionRisk, .velocityExceeded]) then ⟨.review, reasons⟩
  else if reasons.any (· ∈ [.newDevice, .newNetwork, .recentPasswordReset, .recentMfaReset]) then ⟨.stepUp, reasons⟩
  else ⟨.allow, reasons⟩

def evaluateLoginRisk (s : LoginTables) (account : Account) (now : Timestamp) (origin : Origin) : RiskDecision × LoginTables :=
  let decision := evaluateAccountRisk (s.freezeLevel account) (s.signals account now origin)
  (decision, { s with audits := s.audits ++ [(account, decision)] })

def knownDevice (s : LoginTables) (account : Account) (origin : Origin) : Bool :=
  (s.devicesOf account).any fun d => d.fingerprintHash = origin.device

def sessionEvents (s : LoginTables) (account : Account) (now : Timestamp) (origin : Origin) : List SecurityEvent :=
  [⟨account, .loginSuccess, now, .low, origin.network⟩, ⟨account, .sessionCreated, now, .low, origin.network⟩] ++
    (if knownDevice s account origin then [] else [⟨account, .newDevice, now, .medium, ""⟩]) ++
    if !(s.networksOf account).isEmpty && origin.network ∉ s.networksOf account then
      [⟨account, .newNetwork, now, .medium, origin.network⟩] else []

-- The rows that issuing a token pair leaves
def issueSession (s : LoginTables) (account : Account) (now : Timestamp) (origin : Origin) : LoginTables :=
  { s with
    devices := s.devices ++ if knownDevice s account origin then [] else [⟨account, origin.device, false⟩]
    events := s.events ++ sessionEvents s account now origin }

-- LoginView with the password that the serializer checks
def login (s : LoginTables) (now : Timestamp) (user : User) (passwordRight : Bool) (origin : Origin) :
    LoginReply × LoginTables :=
  if passwordRight = false then (.invalidCredentials, recordLoginFailure s user.account now)
  else if user.isActive = false then (.banned, s)
  else
    let evaluated := evaluateLoginRisk s user.account now origin
    if evaluated.1.decision ∈ [.deny, .review] then (.invalidCredentials, evaluated.2)
    else if evaluated.1.decision = .stepUp ∧ ¬(user.isMfaEnabled = true ∧ user.twoFactorAuthenticationEnabled = true) then
      (.stepUpRequired, evaluated.2)
    else if user.twoFactorAuthenticationEnabled = true then (.mfaRequired, evaluated.2)
    else (.loggedIn, issueSession evaluated.2 user.account now origin)

-- Logins, tokens that another way of signing in issues, changes of credentials, logouts, and what operators do to the freezes
inductive LoginOp where
  | login (now : Timestamp) (user : User) (passwordRight : Bool) (origin : Origin)
  | issue (now : Timestamp) (account : Account) (origin : Origin)
  | changeCredentials (now : Timestamp) (account : Account) (change : CredentialChange)
  | revokeBoundSession (now : Timestamp) (account : Account)
  | freezes (rows : List AccountFreeze)

def LoginTables.step (s : LoginTables) : LoginOp → LoginReply × LoginTables
  | .login now user passwordRight origin => LoginRisk.login s now user passwordRight origin
  | .issue now account origin => (.loggedIn, issueSession s account now origin)
  | .changeCredentials now account change =>
    (.loggedIn, { s with events := s.events ++ [⟨account, change.eventType, now, .medium, ""⟩] })
  | .revokeBoundSession now account =>
    (.loggedIn, { s with events := s.events ++ [⟨account, .sessionRevoked, now, .low, ""⟩] })
  | .freezes rows => (.loggedIn, { s with freezes := rows })

structure Run where
  tables : LoginTables := {}
  history : List (LoginOp × LoginReply) := []

def Run.step (r : Run) (op : LoginOp) : Run := ⟨(r.tables.step op).2, r.history ++ [(op, (r.tables.step op).1)]⟩

def Run.after (ops : List LoginOp) : Run := ops.foldl Run.step {}

section History

variable (history : List (LoginOp × LoginReply)) (account : Account)

def wrongTime (account : Account) : LoginOp × LoginReply → Option Timestamp
  | (.login now user false _, _) => if user.account = account then some now else none
  | _ => none

def issuedTo (account : Account) : LoginOp × LoginReply → Option Origin
  | (.login _ user _ origin, .loggedIn) => if user.account = account then some origin else none
  | (.issue _ a origin, _) => if a = account then some origin else none
  | _ => none

def changedAt (type : EventType) (account : Account) : LoginOp × LoginReply → Option Timestamp
  | (.changeCredentials now a change, _) => if a = account ∧ change.eventType = type then some now else none
  | _ => none

def wrongTimes : List Timestamp := history.filterMap (wrongTime account)

def issuedOrigins : List Origin := history.filterMap (issuedTo account)

def changeTimes (type : EventType) : List Timestamp := history.filterMap (changedAt type account)

def freezeRows : List AccountFreeze :=
  history.foldl (fun rows entry => match entry.1 with
    | .freezes rows => rows
    | _ => rows) []

-- Four wrong passwords within the ten minutes before another one, and that one within the last ten minutes
def LockedOut (times : List Timestamp) (now : Timestamp) : Prop :=
  ∃ four last, four.length = 4 ∧ (four ++ [last]).Sublist times ∧ (∀ t ∈ four, last - failureWindow ≤ t) ∧
    now - failureWindow ≤ last

def Frozen (rows : List AccountFreeze) : Prop :=
  (rows.find? (·.activeFor account.tenantId account.id)).map (·.level) ∈ [some .partialFreeze, some .fullFreeze]

def Unfamiliar (now : Timestamp) (origin : Origin) : Prop :=
  (∃ t ∈ changeTimes history account .passwordReset, now - resetWindow ≤ t) ∨
    (∃ t ∈ changeTimes history account .mfaReset, now - resetWindow ≤ t) ∨
    issuedOrigins history account ≠ [] ∧ ((∀ o ∈ issuedOrigins history account, o.device ≠ origin.device) ∨
      ∀ o ∈ issuedOrigins history account, o.network ≠ origin.network)

end History

def Triggered (times : List Timestamp) (t : Timestamp) : Prop :=
  ∃ before later, times = before ++ t :: later ∧ 4 ≤ before.countP fun x => t - failureWindow ≤ x

structure Tracks (r : Run) (account : Account) : Prop where
  times : (r.tables.rows account .loginFailure).map (·.occurredAt) = wrongTimes r.history account
  high : ∀ t, (∃ e ∈ r.tables.rows account .loginFailure, e.riskLevel ∈ [.high, .critical] ∧ e.occurredAt = t) ↔
    Triggered (wrongTimes r.history account) t
  passwordResets : (r.tables.rows account .passwordReset).map (·.occurredAt) = changeTimes r.history account .passwordReset
  mfaResets : (r.tables.rows account .mfaReset).map (·.occurredAt) = changeTimes r.history account .mfaReset
  networks : ∀ n, n ∈ r.tables.networksOf account ↔ ∃ o ∈ issuedOrigins r.history account, o.network = n
  devices : ∀ f, (∃ d ∈ r.tables.devicesOf account, d.fingerprintHash = f) ↔
    ∃ o ∈ issuedOrigins r.history account, o.device = f
  unrevoked : ∀ d ∈ r.tables.devices, d.revoked = false
  freezes : r.tables.freezes = freezeRows r.history

variable {r : Run} {s : LoginTables} {account : Account} {times : List Timestamp} {t now : Timestamp}

theorem triggered_append {x : Timestamp} : Triggered (times ++ [x]) t ↔
    Triggered times t ∨ t = x ∧ 4 ≤ times.countP fun y => x - failureWindow ≤ y := by
  constructor
  · rintro ⟨before, later, heq, hcount⟩
    rcases List.eq_nil_or_concat later with rfl | ⟨later, y, rfl⟩
    · obtain ⟨rfl, hx⟩ := List.append_inj' heq rfl
      obtain rfl : x = t := List.singleton_inj.mp hx
      exact Or.inr ⟨rfl, hcount⟩
    · rw [List.concat_eq_append, ← List.cons_append, ← List.append_assoc] at heq
      exact Or.inl ⟨before, later, (List.append_inj' heq rfl).1, hcount⟩
  · rintro (⟨before, later, rfl, hcount⟩ | ⟨rfl, hcount⟩)
    · exact ⟨before, later ++ [x], by simp, hcount⟩
    · exact ⟨times, [], rfl, hcount⟩

theorem lockedOut_iff : LockedOut times now ↔ ∃ t, Triggered times t ∧ now - failureWindow ≤ t := by
  constructor
  · rintro ⟨four, last, hfour, hsub, hwithin, hnow⟩
    obtain ⟨front, back, rfl, hfront, hback⟩ := List.append_sublist_iff.mp hsub
    obtain ⟨middle, later, rfl⟩ := List.append_of_mem (List.singleton_sublist.mp hback)
    refine ⟨last, ⟨front ++ middle, later, by simp, ?_⟩, hnow⟩
    have hall : four.countP (fun x => last - failureWindow ≤ x) = four.length :=
      List.countP_eq_length.mpr fun x hx => decide_eq_true (hwithin x hx)
    calc 4 = four.countP fun x => last - failureWindow ≤ x := by rw [hall, hfour]
      _ ≤ front.countP _ := hfront.countP_le
      _ ≤ (front ++ middle).countP _ := (List.sublist_append_left front middle).countP_le
  · rintro ⟨t, ⟨before, later, rfl, hcount⟩, hnow⟩
    rw [List.countP_eq_length_filter] at hcount
    have htake : ((before.filter fun x => t - failureWindow ≤ x).take 4).Sublist before :=
      (List.take_sublist 4 _).trans List.filter_sublist
    refine ⟨_, t, List.length_take_of_le hcount, htake.append ?_, fun x hx => ?_, hnow⟩
    · exact List.singleton_sublist.mpr List.mem_cons_self
    · exact of_decide_eq_true (List.mem_filter.mp (List.mem_of_mem_take hx)).2

section Step

variable {op : LoginOp} {entry : LoginOp × LoginReply} {s' : LoginTables} {new : List SecurityEvent} {type : EventType}

theorem rows_append (h : s'.events = s.events ++ new) (account : Account) (type : EventType) :
    s'.rows account type = s.rows account type ++ new.filter fun e => e.account = account && e.eventType = type := by
  rw [LoginTables.rows, h, List.filter_append]
  rfl

theorem networksOf_append (h : s'.events = s.events ++ new) (account : Account) :
    s'.networksOf account = s.networksOf account ++
      (new.filter fun e => e.account = account && e.eventType ∈ [.loginSuccess, .newNetwork]).map (·.networkRef) := by
  rw [LoginTables.networksOf, h, List.filter_append, List.map_append]
  rfl

theorem filterMap_snoc {α β : Type} (f : α → Option β) (l : List α) (a : α) :
    (l ++ [a]).filterMap f = l.filterMap f ++ (f a).toList := by
  rw [List.filterMap_append]
  cases h : f a <;> simp [h]

theorem freezeRows_snoc (history : List (LoginOp × LoginReply)) (entry : LoginOp × LoginReply)
    (h : ∀ rows, entry.1 ≠ .freezes rows) : freezeRows (history ++ [entry]) = freezeRows history := by
  rw [freezeRows, List.foldl_append]
  obtain ⟨op, reply⟩ := entry
  cases op with
  | freezes rows => exact absurd rfl (h rows)
  | _ => rfl

-- What a step adds to the rows of an account, beside failed logins, is what its entry adds to the history.
structure Adds (s s' : LoginTables) (account : Account) (entry : LoginOp × LoginReply) (new : List SecurityEvent) : Prop where
  events : s'.events = s.events ++ new
  passwordResets : (new.filter fun e => e.account = account && e.eventType = .passwordReset).map (·.occurredAt) =
    (changedAt .passwordReset account entry).toList
  mfaResets : (new.filter fun e => e.account = account && e.eventType = .mfaReset).map (·.occurredAt) =
    (changedAt .mfaReset account entry).toList
  networks : ∀ n,
    n ∈ (new.filter fun e => e.account = account && e.eventType ∈ [.loginSuccess, .newNetwork]).map (·.networkRef) ↔
    ∃ o ∈ issuedTo account entry, o.network = n
  devices : ∀ f, (∃ d ∈ s'.devicesOf account, d.fingerprintHash = f) ↔
    (∃ d ∈ s.devicesOf account, d.fingerprintHash = f) ∨ ∃ o ∈ issuedTo account entry, o.device = f
  unrevoked : (∀ d ∈ s.devices, d.revoked = false) → ∀ d ∈ s'.devices, d.revoked = false

theorem exists_mem_snoc {P : Origin → Prop} (history : List (LoginOp × LoginReply)) (entry : LoginOp × LoginReply) :
    (∃ o ∈ issuedOrigins (history ++ [entry]) account, P o) ↔
      (∃ o ∈ issuedOrigins history account, P o) ∨ ∃ o ∈ issuedTo account entry, P o := by
  simp only [issuedOrigins, filterMap_snoc, List.mem_append, Option.mem_toList, Option.mem_def, or_and_right, exists_or]

theorem Tracks.extend (h : Tracks r account) (hadds : Adds r.tables s' account entry new)
    (hfreezes : s'.freezes = freezeRows (r.history ++ [entry]))
    (htimes : (s'.rows account .loginFailure).map (·.occurredAt) = wrongTimes (r.history ++ [entry]) account)
    (hhigh : ∀ t, (∃ e ∈ s'.rows account .loginFailure, e.riskLevel ∈ [.high, .critical] ∧ e.occurredAt = t) ↔
      Triggered (wrongTimes (r.history ++ [entry]) account) t) : Tracks ⟨s', r.history ++ [entry]⟩ account where
  times := htimes
  high := hhigh
  passwordResets := by
    rw [rows_append hadds.events, List.map_append, h.passwordResets, hadds.passwordResets, changeTimes, changeTimes, filterMap_snoc]
  mfaResets := by
    rw [rows_append hadds.events, List.map_append, h.mfaResets, hadds.mfaResets, changeTimes, changeTimes, filterMap_snoc]
  networks n := by
    rw [networksOf_append hadds.events, List.mem_append, h.networks, hadds.networks, exists_mem_snoc]
  devices f := by rw [hadds.devices, h.devices, exists_mem_snoc]
  unrevoked := hadds.unrevoked h.unrevoked
  freezes := hfreezes

theorem Tracks.quiet (h : Tracks r account) (hadds : Adds r.tables s' account entry new)
    (hfreezes : s'.freezes = freezeRows (r.history ++ [entry]))
    (hnew : (new.filter fun e => e.account = account && e.eventType = .loginFailure) = [])
    (hentry : wrongTime account entry = none) : Tracks ⟨s', r.history ++ [entry]⟩ account := by
  have hrows : s'.rows account .loginFailure = r.tables.rows account .loginFailure := by
    rw [rows_append hadds.events, hnew, List.append_nil]
  have hwrong : wrongTimes (r.history ++ [entry]) account = wrongTimes r.history account := by
    rw [wrongTimes, filterMap_snoc, hentry, Option.toList_none, List.append_nil]
    rfl
  refine h.extend hadds hfreezes ?_ fun t => ?_
  · rw [hrows, hwrong, h.times]
  · rw [hrows, hwrong, h.high]

theorem Tracks.failed (h : Tracks r account) (now : Timestamp) (user : User) (origin : Origin) :
    Tracks ⟨recordLoginFailure r.tables user.account now,
      r.history ++ [(.login now user false origin, .invalidCredentials)]⟩ account := by
  have hadds : Adds r.tables (recordLoginFailure r.tables user.account now) account
      (.login now user false origin, .invalidCredentials) _ := {
    events := rfl
    passwordResets := by simp [changedAt]
    mfaResets := by simp [changedAt]
    networks := by simp [issuedTo]
    devices := by simp [issuedTo, recordLoginFailure, LoginTables.devicesOf]
    unrevoked := id }
  have hfreezes : r.tables.freezes = freezeRows (r.history ++ [(.login now user false origin, .invalidCredentials)]) := by
    rw [freezeRows_snoc _ _ (by simp), h.freezes]
  have hrows := rows_append hadds.events account .loginFailure
  by_cases haccount : user.account = account
  · subst haccount
    have hwrong : wrongTimes (r.history ++ [(.login now user false origin, .invalidCredentials)]) user.account =
        wrongTimes r.history user.account ++ [now] := by
      rw [wrongTimes, filterMap_snoc]
      simp [wrongTime, wrongTimes]
    have hcount : (r.tables.rows user.account .loginFailure).countP (fun e => now - failureWindow ≤ e.occurredAt) =
        (wrongTimes r.history user.account).countP fun x => now - failureWindow ≤ x := by
      rw [← h.times, List.countP_map]
      rfl
    simp only [decide_true, Bool.and_self, List.filter_cons_of_pos, List.filter_nil, hcount] at hrows
    refine h.extend hadds hfreezes ?_ fun t => ?_
    · rw [hrows, List.map_append, h.times, hwrong]
      rfl
    · rw [hrows, hwrong, triggered_append, ← h.high t]
      simp only [List.mem_append, List.mem_singleton, or_and_right, exists_or, exists_eq_left]
      refine or_congr_right ?_
      split_ifs with hfour
      · exact ⟨fun hlast => ⟨hlast.2.symm, hfour⟩, fun hlast => ⟨List.mem_cons_self, hlast.1.symm⟩⟩
      · exact ⟨fun hlast => absurd hlast.1 (by decide), fun hlast => absurd hlast.2 hfour⟩
  · have hnew : ([⟨user.account, .loginFailure, now, if 4 ≤ (r.tables.rows user.account .loginFailure).countP
        (fun e => now - failureWindow ≤ e.occurredAt) then .high else .medium, ""⟩] : List SecurityEvent).filter
          (fun e => e.account = account && e.eventType = .loginFailure) = [] := by simp [haccount]
    exact h.quiet hadds hfreezes hnew (if_neg haccount)

theorem mem_sessionEvents {a : Account} {origin : Origin} {e : SecurityEvent} (h : e ∈ sessionEvents s a now origin) :
    e.account = a ∧ e.eventType ∈ [.loginSuccess, .sessionCreated, .newDevice, .newNetwork] ∧
      (e.eventType ∈ [.loginSuccess, .newNetwork] → e.networkRef = origin.network) := by
  unfold sessionEvents at h
  simp only [List.mem_append, List.mem_cons, List.not_mem_nil, or_false] at h
  rcases h with ((rfl | rfl) | hdevice) | hnetwork
  · exact ⟨rfl, by simp, fun _ => rfl⟩
  · exact ⟨rfl, by simp, fun _ => rfl⟩
  · split_ifs at hdevice
    · cases hdevice
    · rw [List.mem_singleton.mp hdevice]
      exact ⟨rfl, by simp, fun hnone => absurd hnone (by simp)⟩
  · split_ifs at hnetwork
    · rw [List.mem_singleton.mp hnetwork]
      exact ⟨rfl, by simp, fun _ => rfl⟩
    · cases hnetwork

theorem sessionEvents_filter {a : Account} {origin : Origin}
    (htype : type ∉ [EventType.loginSuccess, .sessionCreated, .newDevice, .newNetwork]) (account : Account) :
    (sessionEvents s a now origin).filter (fun e => e.account = account && e.eventType = type) = [] := by
  refine List.filter_eq_nil_iff.mpr fun e he hmatch => ?_
  obtain ⟨-, hmem, -⟩ := mem_sessionEvents he
  rw [(of_decide_eq_true ((Bool.and_eq_true _ _).mp hmatch).2)] at hmem
  exact htype hmem

theorem mem_devicesOf {d : DeviceIdentity} : d ∈ s.devicesOf account ↔ d ∈ s.devices ∧ d.account = account := by
  rw [LoginTables.devicesOf, List.mem_filter, decide_eq_true_iff]

theorem adds_issueSession {a : Account} {origin : Origin}
    (hissued : issuedTo account entry = if a = account then some origin else none)
    (hchanged : ∀ type, changedAt type account entry = none) :
    Adds s (issueSession s a now origin) account entry (sessionEvents s a now origin) where
  events := rfl
  passwordResets := by rw [sessionEvents_filter (by decide), hchanged]; rfl
  mfaResets := by rw [sessionEvents_filter (by decide), hchanged]; rfl
  networks n := by
    rw [hissued, List.mem_map]
    split_ifs with haccount
    · subst haccount
      constructor
      · rintro ⟨e, he, rfl⟩
        obtain ⟨hmem, hmatch⟩ := List.mem_filter.mp he
        have htype := of_decide_eq_true ((Bool.and_eq_true _ _).mp hmatch).2
        exact ⟨origin, rfl, ((mem_sessionEvents hmem).2.2 htype).symm⟩
      · rintro ⟨o, ho, rfl⟩
        obtain rfl := Option.some.inj ho
        have hmem : ⟨a, .loginSuccess, now, .low, origin.network⟩ ∈ sessionEvents s a now origin := by simp [sessionEvents]
        exact ⟨_, List.mem_filter.mpr ⟨hmem, by simp⟩, rfl⟩
    · constructor
      · rintro ⟨e, he, rfl⟩
        obtain ⟨hmem, hmatch⟩ := List.mem_filter.mp he
        have hsame := of_decide_eq_true ((Bool.and_eq_true _ _).mp hmatch).1
        exact absurd ((mem_sessionEvents hmem).1.symm.trans hsame) haccount
      · rintro ⟨o, ho, -⟩
        cases ho
  devices f := by
    rw [hissued]
    unfold issueSession
    by_cases hknown : knownDevice s a origin = true
    · rw [if_pos hknown]
      obtain ⟨d, hd, hsame⟩ := List.any_eq_true.mp hknown
      have hdevice := of_decide_eq_true hsame
      simp only [mem_devicesOf, List.append_nil]
      refine ⟨Or.inl, ?_⟩
      rintro (hold | ⟨o, ho, rfl⟩)
      · exact hold
      · split_ifs at ho with haccount
        · obtain rfl := Option.some.inj ho
          subst haccount
          exact ⟨d, mem_devicesOf.mp hd, hdevice⟩
        · cases ho
    · rw [if_neg hknown]
      simp only [mem_devicesOf, List.mem_append, List.mem_singleton, or_and_right, exists_or]
      refine or_congr_right ⟨?_, ?_⟩
      · rintro ⟨d, ⟨rfl, haccount⟩, rfl⟩
        exact ⟨origin, if_pos haccount, rfl⟩
      · rintro ⟨o, ho, rfl⟩
        split_ifs at ho with haccount
        · obtain rfl := Option.some.inj ho
          exact ⟨_, ⟨rfl, haccount⟩, rfl⟩
        · cases ho
  unrevoked hold d hd := by
    rcases List.mem_append.mp hd with hmem | hnew
    · exact hold d hmem
    · split_ifs at hnew
      · cases hnew
      · rw [List.mem_singleton.mp hnew]

theorem Tracks.same (h : Tracks r account) (hevents : s'.events = r.tables.events) (hdevices : s'.devices = r.tables.devices)
    (hfreezes : s'.freezes = freezeRows (r.history ++ [entry])) (hissued : issuedTo account entry = none)
    (hchanged : ∀ type, changedAt type account entry = none) (hwrong : wrongTime account entry = none) :
    Tracks ⟨s', r.history ++ [entry]⟩ account := by
  have hadds : Adds r.tables s' account entry [] := {
    events := by rw [hevents, List.append_nil]
    passwordResets := by rw [hchanged]; rfl
    mfaResets := by rw [hchanged]; rfl
    networks := by simp [hissued]
    devices := by simp [hissued, LoginTables.devicesOf, hdevices]
    unrevoked := fun hold => hdevices ▸ hold }
  exact h.quiet hadds hfreezes rfl hwrong

theorem Tracks.added (h : Tracks r account) (hadds : Adds s s' account entry new) (hevents : s.events = r.tables.events)
    (hdevices : s.devices = r.tables.devices) (hfreezes : s'.freezes = freezeRows (r.history ++ [entry]))
    (hnew : (new.filter fun e => e.account = account && e.eventType = .loginFailure) = [])
    (hwrong : wrongTime account entry = none) : Tracks ⟨s', r.history ++ [entry]⟩ account := by
  have hdevicesOf : s.devicesOf account = r.tables.devicesOf account := by
    rw [LoginTables.devicesOf, LoginTables.devicesOf, hdevices]
  have hrest : Adds r.tables s' account entry new := {
    events := by rw [hadds.events, hevents]
    passwordResets := hadds.passwordResets
    mfaResets := hadds.mfaResets
    networks := hadds.networks
    devices := fun f => by rw [hadds.devices, hdevicesOf]
    unrevoked := fun hold => hadds.unrevoked (hdevices ▸ hold) }
  exact h.quiet hrest hfreezes hnew hwrong

theorem Tracks.changed (h : Tracks r account) (now : Timestamp) (a : Account) (change : CredentialChange) :
    Tracks ⟨{ r.tables with events := r.tables.events ++ [⟨a, change.eventType, now, .medium, ""⟩] },
      r.history ++ [(.changeCredentials now a change, .loggedIn)]⟩ account := by
  have hother : change.eventType ≠ .loginFailure ∧ change.eventType ≠ .loginSuccess ∧ change.eventType ≠ .newNetwork := by
    cases change <;> decide
  obtain ⟨hfailure, hsuccess, hnetwork⟩ := hother
  have hone (t : EventType) : (([⟨a, change.eventType, now, .medium, ""⟩] : List SecurityEvent).filter
      fun e => e.account = account && e.eventType = t).map (·.occurredAt) =
        (changedAt t account (.changeCredentials now a change, .loggedIn)).toList := by
    by_cases haccount : a = account <;> by_cases hsame : change.eventType = t <;> simp [changedAt, haccount, hsame]
  have hadds : Adds r.tables { r.tables with events := r.tables.events ++ [⟨a, change.eventType, now, .medium, ""⟩] } account
      (.changeCredentials now a change, .loggedIn) [⟨a, change.eventType, now, .medium, ""⟩] := {
    events := rfl
    passwordResets := hone .passwordReset
    mfaResets := hone .mfaReset
    networks := by simp [issuedTo, hsuccess, hnetwork]
    devices := by simp [issuedTo, LoginTables.devicesOf]
    unrevoked := id }
  refine h.quiet hadds ?_ ?_ rfl
  · rw [freezeRows_snoc _ _ (by simp), h.freezes]
  · simp [hfailure]

theorem Tracks.revoked (h : Tracks r account) (now : Timestamp) (a : Account) :
    Tracks ⟨{ r.tables with events := r.tables.events ++ [⟨a, .sessionRevoked, now, .low, ""⟩] },
      r.history ++ [(.revokeBoundSession now a, .loggedIn)]⟩ account := by
  have hadds : Adds r.tables { r.tables with events := r.tables.events ++ [⟨a, .sessionRevoked, now, .low, ""⟩] } account
      (.revokeBoundSession now a, .loggedIn) [⟨a, .sessionRevoked, now, .low, ""⟩] := {
    events := rfl
    passwordResets := by simp [changedAt]
    mfaResets := by simp [changedAt]
    networks := by simp [issuedTo]
    devices := by simp [issuedTo, LoginTables.devicesOf]
    unrevoked := id }
  refine h.quiet hadds ?_ (by simp) rfl
  rw [freezeRows_snoc _ _ (by simp), h.freezes]

theorem Tracks.step (h : Tracks r account) (op : LoginOp) : Tracks (r.step op) account := by
  have hkept (entry : LoginOp × LoginReply) (hentry : ∀ rows, entry.1 ≠ .freezes rows) :
      r.tables.freezes = freezeRows (r.history ++ [entry]) := by rw [freezeRows_snoc _ _ hentry, h.freezes]
  have hnone (s : LoginTables) (a : Account) (now : Timestamp) (origin : Origin) :
      (sessionEvents s a now origin).filter (fun e => e.account = account && e.eventType = .loginFailure) = [] :=
    sessionEvents_filter (by decide) account
  cases op with
  | login now user passwordRight origin =>
    cases passwordRight with
    | false => exact h.failed now user origin
    | true =>
      simp only [Run.step, LoginTables.step, login, Bool.true_eq_false, if_false]
      split_ifs with hactive hrefused hstep hmfa
      · exact h.same rfl rfl (hkept _ (by simp)) rfl (fun _ => rfl) rfl
      · exact h.same rfl rfl (hkept _ (by simp)) rfl (fun _ => rfl) rfl
      · exact h.same rfl rfl (hkept _ (by simp)) rfl (fun _ => rfl) rfl
      · exact h.same rfl rfl (hkept _ (by simp)) rfl (fun _ => rfl) rfl
      · exact h.added (adds_issueSession rfl fun _ => rfl) rfl rfl (hkept _ (by simp)) (hnone _ _ _ _) rfl
  | issue now a origin =>
    exact h.added (adds_issueSession rfl fun _ => rfl) rfl rfl (hkept _ (by simp)) (hnone _ _ _ _) rfl
  | changeCredentials now a change => exact h.changed now a change
  | revokeBoundSession now a => exact h.revoked now a
  | freezes rows =>
    refine h.same rfl rfl ?_ rfl (fun _ => rfl) rfl
    rw [freezeRows, List.foldl_append]
    rfl

end Step

theorem Tracks.start (account : Account) : Tracks {} account where
  times := rfl
  high t := iff_of_false (by simp [LoginTables.rows]) (by simp [Triggered, wrongTimes])
  passwordResets := rfl
  mfaResets := rfl
  networks := by simp [LoginTables.networksOf, issuedOrigins]
  devices := by simp [LoginTables.devicesOf, issuedOrigins]
  unrevoked := by simp
  freezes := rfl

theorem tracks_after (ops : List LoginOp) (account : Account) : Tracks (Run.after ops) account := by
  induction ops using List.reverseRecOn with
  | nil => exact .start account
  | append_singleton ops op ih =>
    rw [Run.after, List.foldl_append]
    exact ih.step op

section Decision

variable {freeze : Option FreezeLevel} {signals : Reason → Bool} {origin : Origin}

theorem any_reasons (signals : Reason → Bool) (l : List Reason) :
    (LoginRisk.reasonCodes.filter signals).any (· ∈ l) = l.any signals := by
  have hall : ∀ r : Reason, r ∈ LoginRisk.reasonCodes := by
    intro r
    cases r <;> decide
  rw [Bool.eq_iff_iff, List.any_eq_true, List.any_eq_true]
  constructor
  · rintro ⟨r, hr, hl⟩
    exact ⟨r, of_decide_eq_true hl, (List.mem_filter.mp hr).2⟩
  · rintro ⟨r, hl, hr⟩
    exact ⟨r, List.mem_filter.mpr ⟨hall r, hr⟩, decide_eq_true hl⟩

-- The signals of a login never ask for a review.
theorem decision_cases (hquiet : signals .highRiskAction = false ∧ signals .accountReviewRequired = false ∧
    signals .sessionRisk = false ∧ signals .velocityExceeded = false) :
    ((evaluateAccountRisk freeze signals).decision ∈ [.deny, .review] ↔
      freeze ∈ [some .partialFreeze, some .fullFreeze] ∨ signals .tooManyFailedLogins = true) ∧
    ((evaluateAccountRisk freeze signals).decision = .stepUp ↔
      ¬(freeze ∈ [some .partialFreeze, some .fullFreeze] ∨ signals .tooManyFailedLogins = true) ∧
        (signals .newDevice = true ∨ signals .newNetwork = true ∨ signals .recentPasswordReset = true ∨
          signals .recentMfaReset = true)) := by
  obtain ⟨haction, hreview, hsession, hvelocity⟩ := hquiet
  unfold evaluateAccountRisk
  simp only [any_reasons, List.any_cons, List.any_nil, haction, hreview, hsession, hvelocity, Bool.or_false, Bool.or_eq_true,
    Bool.false_eq_true, if_false]
  split_ifs with hfreeze hfailed hstep
  · simp [hfreeze]
  · simp [hfailed]
  · simp [hfreeze, hfailed, hstep]
  · simp [hfreeze, hfailed, hstep]

end Decision

section Law

variable {origin : Origin}

theorem signals_tooMany (h : Tracks r account) : r.tables.signals account now origin .tooManyFailedLogins = true ↔
    LockedOut (wrongTimes r.history account) now := by
  rw [lockedOut_iff, LoginTables.signals, List.any_eq_true]
  simp only [← h.high, Bool.and_eq_true, decide_eq_true_eq]
  constructor
  · rintro ⟨e, he, hhigh, hnow⟩
    exact ⟨_, ⟨e, he, hhigh, rfl⟩, hnow⟩
  · rintro ⟨t, ⟨e, he, hhigh, rfl⟩, hnow⟩
    exact ⟨e, he, hhigh, hnow⟩

theorem any_occurredAt {rows : List SecurityEvent} (h : rows.map (·.occurredAt) = times) (bound : Timestamp) :
    (rows.any fun e => bound ≤ e.occurredAt) = true ↔ ∃ t ∈ times, bound ≤ t := by
  rw [← h, List.any_eq_true]
  simp

theorem issued_empty_iff (h : Tracks r account) : r.tables.devicesOf account = [] ↔ issuedOrigins r.history account = [] := by
  simp only [List.eq_nil_iff_forall_not_mem]
  constructor
  · intro hnone o ho
    obtain ⟨d, hd, -⟩ := (h.devices o.device).mpr ⟨o, ho, rfl⟩
    exact hnone d hd
  · intro hnone d hd
    obtain ⟨o, ho, -⟩ := (h.devices d.fingerprintHash).mp ⟨d, hd, rfl⟩
    exact hnone o ho

theorem networks_empty_iff (h : Tracks r account) : r.tables.networksOf account = [] ↔ issuedOrigins r.history account = [] := by
  simp only [List.eq_nil_iff_forall_not_mem]
  constructor
  · exact fun hnone o ho => hnone o.network ((h.networks o.network).mpr ⟨o, ho, rfl⟩)
  · intro hnone n hn
    obtain ⟨o, ho, -⟩ := (h.networks n).mp hn
    exact hnone o ho

theorem signals_newDevice (h : Tracks r account) : r.tables.signals account now origin .newDevice = true ↔
    issuedOrigins r.history account ≠ [] ∧ ∀ o ∈ issuedOrigins r.history account, o.device ≠ origin.device := by
  have hknown : (r.tables.devicesOf account).any (fun d => d.fingerprintHash = origin.device && !d.revoked) = true ↔
      ∃ o ∈ issuedOrigins r.history account, o.device = origin.device := by
    rw [← h.devices, List.any_eq_true]
    constructor
    · rintro ⟨d, hd, hmatch⟩
      exact ⟨d, hd, of_decide_eq_true ((Bool.and_eq_true _ _).mp hmatch).1⟩
    · rintro ⟨d, hd, hmatch⟩
      exact ⟨d, hd, by simp [hmatch, h.unrevoked d (mem_devicesOf.mp hd).1]⟩
  rw [LoginTables.signals, Bool.and_eq_true, Bool.not_eq_true', Bool.not_eq_true', ← Bool.not_eq_true,
    ← Bool.not_eq_true, hknown, List.isEmpty_iff, issued_empty_iff h]
  simp only [not_exists, not_and, ne_eq]

theorem signals_newNetwork (h : Tracks r account) : r.tables.signals account now origin .newNetwork = true ↔
    issuedOrigins r.history account ≠ [] ∧ ∀ o ∈ issuedOrigins r.history account, o.network ≠ origin.network := by
  rw [LoginTables.signals, Bool.and_eq_true, Bool.not_eq_true', ← Bool.not_eq_true, List.isEmpty_iff, networks_empty_iff h,
    decide_eq_true_iff, h.networks]
  simp only [not_exists, not_and, ne_eq]

theorem signals_unfamiliar (h : Tracks r account) : (r.tables.signals account now origin .newDevice = true ∨
    r.tables.signals account now origin .newNetwork = true ∨ r.tables.signals account now origin .recentPasswordReset = true ∨
      r.tables.signals account now origin .recentMfaReset = true) ↔ Unfamiliar r.history account now origin := by
  have hpassword : r.tables.signals account now origin .recentPasswordReset = true ↔ _ := any_occurredAt h.passwordResets _
  have hmfa : r.tables.signals account now origin .recentMfaReset = true ↔ _ := any_occurredAt h.mfaResets _
  rw [signals_newDevice h, signals_newNetwork h, hpassword, hmfa, Unfamiliar]
  constructor
  · rintro (⟨hissued, hdevice⟩ | ⟨hissued, hnetwork⟩ | hreset | hreset)
    · exact Or.inr (Or.inr ⟨hissued, Or.inl hdevice⟩)
    · exact Or.inr (Or.inr ⟨hissued, Or.inr hnetwork⟩)
    · exact Or.inl hreset
    · exact Or.inr (Or.inl hreset)
  · rintro (hreset | hreset | ⟨hissued, hdevice | hnetwork⟩)
    · exact Or.inr (Or.inr (Or.inl hreset))
    · exact Or.inr (Or.inr (Or.inr hreset))
    · exact Or.inl ⟨hissued, hdevice⟩
    · exact Or.inr (Or.inl ⟨hissued, hnetwork⟩)

def replyOf (decision : Decision) (user : User) : LoginReply :=
  if decision ∈ [.deny, .review] then .invalidCredentials
  else if decision = .stepUp ∧ ¬(user.isMfaEnabled = true ∧ user.twoFactorAuthenticationEnabled = true) then .stepUpRequired
  else if user.twoFactorAuthenticationEnabled = true then .mfaRequired
  else .loggedIn

theorem login_reply {user : User} (hactive : user.isActive = true) : (login s now user true origin).1 =
    replyOf (evaluateAccountRisk (s.freezeLevel user.account) (s.signals user.account now origin)).decision user := by
  simp only [login, hactive, Bool.true_eq_false, if_false]
  change _ = replyOf (evaluateLoginRisk s user.account now origin).1.decision user
  unfold replyOf
  split_ifs <;> rfl

theorem replyOf_cases (decision : Decision) (user : User) :
    (replyOf decision user = .invalidCredentials ↔ decision ∈ [.deny, .review]) ∧
      (replyOf decision user = .stepUpRequired ↔
        decision = .stepUp ∧ ¬(user.isMfaEnabled = true ∧ user.twoFactorAuthenticationEnabled = true)) := by
  unfold replyOf
  split_ifs with hrefused hstep hfactor
  · refine ⟨iff_of_true rfl hrefused, iff_of_false (by decide) ?_⟩
    rintro ⟨rfl, -⟩
    exact absurd hrefused (by decide)
  · exact ⟨iff_of_false (by decide) hrefused, iff_of_true rfl hstep⟩
  · exact ⟨iff_of_false (by decide) hrefused, iff_of_false (by decide) hstep⟩
  · exact ⟨iff_of_false (by decide) hrefused, iff_of_false (by decide) hstep⟩

-- A login with the right password is refused exactly while the account is frozen or locked by five wrong ones. It asks for
-- another factor exactly where the credentials are fresh or the sessions before came from elsewhere.
theorem login_law (ops : List LoginOp) (now : Timestamp) (user : User) (passwordRight : Bool) (origin : Origin) :
    ((login (Run.after ops).tables now user passwordRight origin).1 = .invalidCredentials ↔
      passwordRight = false ∨ user.isActive = true ∧ (Frozen user.account (freezeRows (Run.after ops).history) ∨
        LockedOut (wrongTimes (Run.after ops).history user.account) now)) ∧
    ((login (Run.after ops).tables now user passwordRight origin).1 = .stepUpRequired ↔
      passwordRight = true ∧ user.isActive = true ∧ ¬Frozen user.account (freezeRows (Run.after ops).history) ∧
        ¬LockedOut (wrongTimes (Run.after ops).history user.account) now ∧
          Unfamiliar (Run.after ops).history user.account now origin ∧
            ¬(user.isMfaEnabled = true ∧ user.twoFactorAuthenticationEnabled = true)) := by
  have h := tracks_after ops user.account
  generalize Run.after ops = r at h ⊢
  have hfreeze : r.tables.freezeLevel user.account ∈ [some .partialFreeze, some .fullFreeze] ↔
      Frozen user.account (freezeRows r.history) := by rw [LoginTables.freezeLevel, h.freezes, Frozen]
  obtain ⟨hrefused, hstepUp⟩ := @decision_cases (r.tables.freezeLevel user.account)
    (r.tables.signals user.account now origin) ⟨rfl, rfl, rfl, rfl⟩
  rw [hfreeze, signals_tooMany h] at hrefused hstepUp
  rw [signals_unfamiliar h] at hstepUp
  cases passwordRight with
  | false => simp [login]
  | true =>
    cases hactive : user.isActive with
    | false => simp [login, hactive]
    | true =>
      obtain ⟨hinvalid, hrequired⟩ := replyOf_cases
        (evaluateAccountRisk (r.tables.freezeLevel user.account) (r.tables.signals user.account now origin)).decision user
      rw [login_reply hactive, hinvalid, hrequired, hrefused, hstepUp]
      simp only [Bool.true_eq_false, false_or, true_and, not_or, and_assoc]

end Law

end LoginRisk

end Beyvra
