import Beyvra.Compliance.Webhook

namespace Beyvra

open Relational

namespace ComplianceWebhook

variable {lib : WebhookLibrary} {settings : WebhookSettings} {env : Env} {s s' : WebhookState} {op : WebhookStep} {i : Nat}
  {account : Uuid} {control : Control} {value : ControlValue} {result : AppliedResult}

-- The tables of transitions; the jurisdiction has none.
def Allowed : ControlValue → ControlValue → Prop
  | .kyc old, .kyc new => new ∈ kycTransitions old
  | .aml old, .aml new => new ∈ amlTransitions old
  | .sanctions old, .sanctions new => new ∈ sanctionsTransitions old
  | .jurisdiction _, .jurisdiction _ => True
  | _, _ => False

def stateOf (s : WebhookState) (account : Uuid) (control : Control) : Option ControlValue :=
  (s.db.compliance.profiles.find account).map fun profile => controlValue profile control

-- A newer result was applied to the same control before.
def Older (s : WebhookState) (result : AppliedResult) : Prop :=
  ∃ newer ∈ s.applied, newer.account = result.account ∧ newer.value.control = result.value.control ∧
    result.occurredAt < newer.occurredAt

structure Fresh (settings : WebhookSettings) (occurredAt now : Timestamp) : Prop where
  past : now - settings.resultMaxAgeSeconds * microsecondsPerSecond ≤ occurredAt
  future : occurredAt ≤ now + settings.webhookMaxAgeSeconds * microsecondsPerSecond

def WebhookStep.request : WebhookStep → Option Nat
  | .govern _ _ => none
  | .arrive i _ _ | .execute i _ => some i

-- A delivery whose reply is none of an acceptance leaves the database and the inbox as they are.
def RefusedUnchanged (s : WebhookState) (op : WebhookStep) (s' : WebhookState) : Prop :=
  ∀ i reply, op.request = some i → s'.requests.find i = some (.answered reply) → reply ≠ .accepted →
    s'.db = s.db ∧ s'.inbox = s.inbox

def AppliedOnce (s : WebhookState) : Prop := (s.applied.map AppliedResult.key).Nodup

structure ResultsOrdered (lib : WebhookLibrary) (settings : WebhookSettings) (start : WebhookState) (ops : List WebhookStep) :
    Prop where
  once : ∀ before after, ops = before ++ after → AppliedOnce (before.foldl (webhookStep lib settings) start)
  refused : ∀ before op after, ops = before ++ op :: after →
    RefusedUnchanged (before.foldl (webhookStep lib settings) start) op
      (webhookStep lib settings (before.foldl (webhookStep lib settings) start) op)
  ordered : ∀ before op after, ops = before ++ op :: after → ∀ result,
    (webhookStep lib settings (before.foldl (webhookStep lib settings) start) op).applied =
      result :: (before.foldl (webhookStep lib settings) start).applied →
    Older (before.foldl (webhookStep lib settings) start) result →
      stateOf (webhookStep lib settings (before.foldl (webhookStep lib settings) start) op) result.account
        result.value.control = stateOf (before.foldl (webhookStep lib settings) start) result.account result.value.control

-- The state of a control changes by a fresh result alone, as the control's table allows.
structure ChangesGoverned (settings : WebhookSettings) (s : WebhookState) (op : WebhookStep) (s' : WebhookState) : Prop where
  changed : ∀ account control, stateOf s' account control ≠ stateOf s account control → ∃ i env result value,
    op = .execute i env ∧ s'.applied = result :: s.applied ∧ result.account = account ∧ result.value.control = control ∧
      Fresh settings result.occurredAt env.now ∧ stateOf s account control = some value ∧ Allowed value result.value ∧
      stateOf s' account control = some result.value
  matched : ∀ account, stateOf s account .sanctions = some (.sanctions .confirmedMatch) →
    stateOf s' account .sanctions ≠ some (.sanctions .clear)
  blocked : ∀ account, stateOf s account .aml = some (.aml .blocked) → stateOf s' account .aml ≠ some (.aml .cleared)

structure ResultsGoverned (lib : WebhookLibrary) (settings : WebhookSettings) (start : WebhookState) (ops : List WebhookStep) :
    Prop where
  once : ∀ before after, ops = before ++ after → AppliedOnce (before.foldl (webhookStep lib settings) start)
  refused : ∀ before op after, ops = before ++ op :: after →
    RefusedUnchanged (before.foldl (webhookStep lib settings) start) op
      (webhookStep lib settings (before.foldl (webhookStep lib settings) start) op)
  changes : ∀ before op after, ops = before ++ op :: after →
    ChangesGoverned settings (before.foldl (webhookStep lib settings) start) op
      (webhookStep lib settings (before.foldl (webhookStep lib settings) start) op)

structure Transitioned (c c' : ComplianceTables) (account : Uuid) (value : ControlValue) (old new : ComplianceProfile) :
    Prop where
  found : c.profiles.find account = some old
  profiles : c'.profiles = c.profiles.put account new
  allowed : Allowed (controlValue old value.control) value
  written : controlValue new value.control = value
  kept : ∀ control, control ≠ value.control → controlValue new control = controlValue old control

theorem transition_ok {evidenceRef : String} {c : ComplianceTables} {change : ProfileChange}
    (h : transition account value evidenceRef c = .ok change) :
    ∃ old new, Transitioned c change.compliance account value old new := by
  cases value with
  | kyc state =>
    simp only [transition, transitionKyc, fetchProfile, bind_eq_ok, fetch_eq_ok, require_eq_ok, pure_eq_ok] at h
    obtain ⟨old, hold, -, hallowed, -, -, evidence, -, rfl⟩ := h
    refine ⟨old, _, hold, rfl, hallowed, rfl, fun control hne => ?_⟩
    cases control with
    | kyc => exact absurd rfl hne
    | _ => rfl
  | aml state =>
    simp only [transition, transitionAml, fetchProfile, bind_eq_ok, fetch_eq_ok, require_eq_ok, pure_eq_ok] at h
    obtain ⟨old, hold, -, hallowed, -, -, evidence, -, rfl⟩ := h
    refine ⟨old, _, hold, rfl, hallowed, rfl, fun control hne => ?_⟩
    cases control with
    | aml => exact absurd rfl hne
    | _ => rfl
  | sanctions state =>
    simp only [transition, transitionSanctions, fetchProfile, bind_eq_ok, fetch_eq_ok, require_eq_ok, pure_eq_ok] at h
    obtain ⟨old, hold, -, hallowed, -, -, evidence, -, rfl⟩ := h
    refine ⟨old, _, hold, rfl, hallowed, rfl, fun control hne => ?_⟩
    cases control with
    | sanctions => exact absurd rfl hne
    | _ => rfl
  | jurisdiction state =>
    simp only [transition, transitionJurisdiction, fetchProfile, bind_eq_ok, fetch_eq_ok, require_eq_ok, pure_eq_ok] at h
    obtain ⟨-, -, evidence, -, old, hold, rfl⟩ := h
    refine ⟨old, _, hold, rfl, trivial, rfl, fun control hne => ?_⟩
    cases control with
    | jurisdiction => exact absurd rfl hne
    | _ => rfl

theorem occurredAt_ok {payload : List (String × Json)} {now instant : Timestamp}
    (h : occurredAt lib settings payload now = .ok instant) : Fresh settings instant now := by
  unfold occurredAt at h
  split at h
  · cases h
  · cases h
  · split_ifs at h with hstale
    obtain rfl := Except.ok.inj h
    simp only [not_or, not_lt] at hstale
    exact ⟨hstale.2.2, hstale.2.1⟩

theorem applyResult_ok {db db' : Database} {delivery : Delivery} {payload : List (String × Json)}
    (h : applyResult lib settings env db delivery payload = .ok (db', result)) :
    result.key = delivery.key ∧ Fresh settings result.occurredAt env.now ∧
      ∃ old new, Transitioned db.compliance db'.compliance result.account result.value old new := by
  simp only [applyResult, bind_eq_ok] at h
  obtain ⟨control, -, instant, hinstant, -, -, account, -, -, -, value, -, h⟩ := h
  split at h
  · cases h
  · rename_i change hchange
    obtain ⟨rfl, rfl⟩ := Prod.mk.inj (pure_eq_ok.mp h)
    exact ⟨rfl, occurredAt_ok hinstant, transition_ok hchange⟩

inductive WebhookChange (settings : WebhookSettings) (s : WebhookState) : WebhookStep → WebhookState → Prop where
  | kept {op : WebhookStep} {s' : WebhookState} (hdb : s'.db = s.db) (hinbox : s'.inbox = s.inbox)
      (happlied : s'.applied = s.applied) : WebhookChange settings s op s'
  | applied {i : Nat} {env : Env} {s' : WebhookState} {result : AppliedResult} {event : ComplianceInboxEvent}
      {old new : ComplianceProfile} (hunseen : s.inbox.find result.key = none)
      (hfresh : Fresh settings result.occurredAt env.now)
      (hmoved : Transitioned s.db.compliance s'.db.compliance result.account result.value old new)
      (hinbox : s'.inbox = s.inbox.put result.key event) (happlied : s'.applied = result :: s.applied)
      (hreply : s'.requests.find i = some (.answered .accepted)) : WebhookChange settings s (.execute i env) s'

theorem execute_change (s : WebhookState) (i : Nat) (delivery : Delivery) (payload : List (String × Json)) :
    WebhookChange settings s (.execute i env) (execute lib settings env s i delivery payload) := by
  unfold execute
  cases hseen : s.inbox.find delivery.key with
  | some existing => exact .kept rfl rfl rfl
  | none =>
    cases hresult : applyResult lib settings env s.db delivery payload with
    | error reply => exact .kept rfl rfl rfl
    | ok written =>
      obtain ⟨db, result⟩ := written
      obtain ⟨hkey, hfresh, old, new, hmoved⟩ := applyResult_ok hresult
      have hunseen : s.inbox.find result.key = none := by rw [hkey, hseen]
      exact .applied hunseen hfresh hmoved (congrArg (s.inbox.put · _) hkey.symm) rfl (Table.find_put_self _ _ _)

theorem webhookStep_change (s : WebhookState) (op : WebhookStep) :
    WebhookChange settings s op (webhookStep lib settings s op) := by
  cases op with
  | govern providerKey state => exact .kept rfl rfl rfl
  | arrive i delivery now =>
    simp only [webhookStep]
    cases s.requests.find i with
    | none => exact .kept rfl rfl rfl
    | some phase => exact .kept rfl rfl rfl
  | execute i env =>
    simp only [webhookStep]
    cases s.requests.find i with
    | none => exact .kept rfl rfl rfl
    | some phase =>
      cases phase with
      | answered reply => exact .kept rfl rfl rfl
      | received delivery payload => exact execute_change s i delivery payload

-- Every applied result has its inbox row.
structure Logged (s : WebhookState) : Prop where
  inbox : ∀ result ∈ s.applied, s.inbox.find result.key ≠ none
  once : AppliedOnce s

theorem Logged.change (h : Logged s) (hchange : WebhookChange settings s op s') : Logged s' := by
  cases hchange with
  | kept hdb hinbox happlied =>
    refine ⟨?_, ?_⟩
    · rw [hinbox, happlied]
      exact h.inbox
    · rw [AppliedOnce, happlied]
      exact h.once
  | @applied i env s' result event old new hunseen hfresh hmoved hinbox happlied hreply =>
    refine ⟨fun other hother => ?_, ?_⟩
    · rw [hinbox, Table.find_put]
      split_ifs with heq
      · exact Option.some_ne_none _
      · rw [happlied] at hother
        rcases List.mem_cons.mp hother with rfl | hold
        · exact absurd rfl heq
        · exact h.inbox other hold
    · rw [AppliedOnce, happlied]
      refine List.nodup_cons.mpr ⟨fun hmem => ?_, h.once⟩
      obtain ⟨other, hother, heq⟩ := List.mem_map.mp hmem
      exact h.inbox other hother (heq ▸ hunseen)

theorem Logged.run (h : Logged s) (ops : List WebhookStep) : Logged (ops.foldl (webhookStep lib settings) s) := by
  induction ops generalizing s with
  | nil => exact h
  | cons op ops ih =>
    have hchange : WebhookChange settings s op (webhookStep lib settings s op) := webhookStep_change s op
    exact ih (h.change hchange)

theorem WebhookChange.refused (h : WebhookChange settings s op s') : RefusedUnchanged s op s' := by
  cases h with
  | kept hdb hinbox happlied => exact fun _ _ _ _ _ => ⟨hdb, hinbox⟩
  | @applied i env s' result event old new hunseen hfresh hmoved hinbox happlied hreply =>
    intro j reply hj hanswer hrefused
    obtain rfl := Option.some.inj hj
    cases hreply.symm.trans hanswer
    exact absurd rfl hrefused

theorem not_cleared_match : ¬Allowed (.sanctions .confirmedMatch) (.sanctions .clear) := by
  have hmem : SanctionsState.clear ∉ sanctionsTransitions .confirmedMatch := by decide
  exact hmem

theorem not_cleared_block : ¬Allowed (.aml .blocked) (.aml .cleared) := by
  have hmem : AmlState.cleared ∉ amlTransitions .blocked := by decide
  exact hmem

theorem Transitioned.changed {old new : ComplianceProfile}
    (h : Transitioned s.db.compliance s'.db.compliance result.account result.value old new)
    (hchanged : stateOf s' account control ≠ stateOf s account control) : result.account = account ∧
      result.value.control = control ∧ stateOf s account control = some (controlValue old control) ∧
      stateOf s' account control = some result.value := by
  unfold stateOf at hchanged ⊢
  rw [h.profiles] at hchanged ⊢
  by_cases haccount : account = result.account
  · subst haccount
    rw [Table.find_put_self, h.found] at hchanged
    rw [Table.find_put_self, h.found]
    by_cases hcontrol : control = result.value.control
    · subst hcontrol
      exact ⟨rfl, rfl, rfl, congrArg some h.written⟩
    · exact absurd (congrArg some (h.kept control hcontrol)) hchanged
  · rw [Table.find_put_of_ne _ _ haccount] at hchanged
    exact absurd rfl hchanged

theorem WebhookChange.changed (h : WebhookChange settings s op s')
    (hchanged : stateOf s' account control ≠ stateOf s account control) : ∃ i env result value, op = .execute i env ∧
      s'.applied = result :: s.applied ∧ result.account = account ∧ result.value.control = control ∧
      Fresh settings result.occurredAt env.now ∧ stateOf s account control = some value ∧ Allowed value result.value ∧
      stateOf s' account control = some result.value := by
  cases h with
  | kept hdb hinbox happlied => exact absurd (by rw [stateOf, hdb, stateOf]) hchanged
  | @applied i env s' result event old new hunseen hfresh hmoved hinbox happlied hreply =>
    obtain ⟨haccount, hcontrol, hold, hnew⟩ := hmoved.changed hchanged
    exact ⟨i, env, result, _, rfl, happlied, haccount, hcontrol, hfresh, hold, hcontrol ▸ hmoved.allowed, hnew⟩

theorem WebhookChange.governed (h : WebhookChange settings s op s') : ChangesGoverned settings s op s' where
  changed account control hchanged := h.changed hchanged
  matched account hmatch hclear := by
    have hne : ControlValue.sanctions .clear ≠ .sanctions .confirmedMatch := by decide
    have hchanged : stateOf s' account .sanctions ≠ stateOf s account .sanctions := by
      rw [hmatch, hclear]
      exact fun heq => hne (Option.some.inj heq)
    obtain ⟨i, env, result, value, -, -, -, -, -, hold, hallowed, hnew⟩ := h.changed hchanged
    obtain rfl := Option.some.inj (hmatch.symm.trans hold)
    rw [← Option.some.inj (hclear.symm.trans hnew)] at hallowed
    exact not_cleared_match hallowed
  blocked account hblock hclear := by
    have hne : ControlValue.aml .cleared ≠ .aml .blocked := by decide
    have hchanged : stateOf s' account .aml ≠ stateOf s account .aml := by
      rw [hblock, hclear]
      exact fun heq => hne (Option.some.inj heq)
    obtain ⟨i, env, result, value, -, -, -, -, -, hold, hallowed, hnew⟩ := h.changed hchanged
    obtain rfl := Option.some.inj (hblock.symm.trans hold)
    rw [← Option.some.inj (hclear.symm.trans hnew)] at hallowed
    exact not_cleared_block hallowed

theorem refused_unchanged (s : WebhookState) (op : WebhookStep) :
    RefusedUnchanged s op (webhookStep lib settings s op) := by
  have hchange : WebhookChange settings s op (webhookStep lib settings s op) := webhookStep_change s op
  exact hchange.refused

def start (db : Database) (governance : Table String ProviderGovernanceState)
    (inbox : Table (String × String) ComplianceInboxEvent) : WebhookState := { db, governance, inbox }

theorem results_governed (lib : WebhookLibrary) (settings : WebhookSettings) (db : Database)
    (governance : Table String ProviderGovernanceState) (inbox : Table (String × String) ComplianceInboxEvent)
    (ops : List WebhookStep) : ResultsGoverned lib settings (start db governance inbox) ops where
  once before after hops := by
    have hstart : Logged (start db governance inbox) := ⟨fun _ hmem => absurd hmem List.not_mem_nil, List.nodup_nil⟩
    exact (hstart.run before).once
  refused before op after hops := refused_unchanged _ op
  changes before op after hops := (webhookStep_change _ op).governed

section OlderClear

def bodyOf (result occurredAt : String) : String :=
  "\x7b\"type\": \"sanctions.updated\", \"account_ref\": \"account\", \"verification_ref\": \"check\", \"result\": \"" ++
    result ++ "\", \"occurred_at\": \"" ++ occurredAt ++ "\"\x7d"

def fieldsOf (result occurredAt : String) : Json :=
  .obj [("type", .str "sanctions.updated"), ("account_ref", .str "account"), ("verification_ref", .str "check"),
    ("result", .str result), ("occurred_at", .str occurredAt)]

def library : WebhookLibrary where
  hmac secret text := secret ++ text
  sha256 := id
  loads text :=
    if text = bodyOf "possible_match" "2020-01-01T00:03:20+00:00" then
      some (fieldsOf "possible_match" "2020-01-01T00:03:20+00:00")
    else if text = bodyOf "clear" "2020-01-01T00:01:40+00:00" then some (fieldsOf "clear" "2020-01-01T00:01:40+00:00")
    else none
  str
    | .str text => text
    | _ => ""
  parseDatetime text :=
    if text = "2020-01-01T00:03:20+00:00" then .ok (some ⟨1577837000000000, true⟩)
    else if text = "2020-01-01T00:01:40+00:00" then .ok (some ⟨1577836900000000, true⟩)
    else .ok none
  uuid
    | .str text => some text
    | _ => none

def deliveryOf (eventId body : String) : Delivery where
  providerKey := "provider"
  timestamp := 1577837100
  signature := "secret" ++ ("provider" ++ "." ++ toString (1577837100 : Int) ++ "." ++ eventId ++ "." ++ body)
  eventId
  body

def envAt : Env where
  now := 1577837100000000
  settings := { simulatedExecutionPrices := [] }
  uuid4 name := name
  seeded := by decide

-- A match of 00:03:20 is applied, then a clear of 00:01:40.
def olderClear : List WebhookStep :=
  [.arrive 0 (deliveryOf "match" (bodyOf "possible_match" "2020-01-01T00:03:20+00:00")) 1577837100000000, .execute 0 envAt,
    .arrive 1 (deliveryOf "clear" (bodyOf "clear" "2020-01-01T00:01:40+00:00")) 1577837100000000, .execute 1 envAt]

def profiles : Database :=
  { compliance.profiles := Table.empty.put "account" { organization := "organization", user := "user" } }

def approved : Table String ProviderGovernanceState := Table.empty.put "provider" .stagingApproved

def newerMatch : AppliedResult := ⟨"provider", "match", "account", .sanctions .possibleMatch, 1577837000000000⟩

def older : AppliedResult := ⟨"provider", "clear", "account", .sanctions .clear, 1577836900000000⟩

theorem older_clear_applied : ¬∀ lib settings db governance inbox ops,
    ResultsOrdered lib settings (start db governance inbox) ops := by
  intro hclaim
  have hordered := (hclaim library ⟨"secret", 300, 86400⟩ profiles approved Table.empty olderClear).ordered
    (olderClear.take 3) (.execute 1 envAt) [] rfl older
  generalize hs : (olderClear.take 3).foldl (webhookStep library ⟨"secret", 300, 86400⟩)
    (start profiles approved Table.empty) = s at hordered
  have hbefore : s.applied = [newerMatch] := by
    subst hs
    decide +kernel
  have hafter : (webhookStep library ⟨"secret", 300, 86400⟩ s (.execute 1 envAt)).applied = [older, newerMatch] := by
    subst hs
    decide +kernel
  have hmatch : stateOf s "account" .sanctions = some (.sanctions .possibleMatch) := by
    subst hs
    decide +kernel
  have hclear : stateOf (webhookStep library ⟨"secret", 300, 86400⟩ s (.execute 1 envAt)) "account" .sanctions =
      some (.sanctions .clear) := by
    subst hs
    decide +kernel
  have holder : Older s older := ⟨newerMatch, by rw [hbefore]; exact List.mem_singleton_self _, rfl, rfl, by decide⟩
  have hsame := hordered (by rw [hafter, hbefore]) holder
  have hcleared := hclear.symm.trans (hsame.trans hmatch)
  exact absurd hcleared (by decide)

end OlderClear

end ComplianceWebhook

end Beyvra
