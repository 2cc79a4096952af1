import Beyvra.Compliance.Services
import Beyvra.FinancialBoundary.Canonical

namespace Beyvra

open Relational

namespace ComplianceWebhook

inductive ProviderGovernanceState where
  | discovered | configured | credentialPresent | technicallyCertified | securityApproved
  | complianceApproved | stagingApproved | productionApproved | disabled
  deriving DecidableEq

inductive Control where
  | kyc | aml | sanctions | jurisdiction
  deriving DecidableEq

-- A state of one of the controls
inductive ControlValue where
  | kyc (state : KycState)
  | aml (state : AmlState)
  | sanctions (state : SanctionsState)
  | jurisdiction (state : JurisdictionState)
  deriving DecidableEq

def ControlValue.control : ControlValue → Control
  | .kyc _ => .kyc
  | .aml _ => .aml
  | .sanctions _ => .sanctions
  | .jurisdiction _ => .jurisdiction

def controlValue (profile : ComplianceProfile) : Control → ControlValue
  | .kyc => .kyc profile.kycState
  | .aml => .aml profile.amlState
  | .sanctions => .sanctions profile.sanctionsState
  | .jurisdiction => .jurisdiction profile.jurisdictionState

structure WebhookSettings where
  secret : String
  webhookMaxAgeSeconds : Int := 300
  resultMaxAgeSeconds : Int := 86400

structure Datetime where
  instant : Timestamp
  aware : Bool

-- What the view calls of its libraries. loads gives none for a ValueError, parseDatetime an error for one, and uuid
-- none for the ValidationError of a primary key.
structure WebhookLibrary where
  hmac : String → String → String
  sha256 : String → String
  loads : String → Option Json
  str : Json → String
  parseDatetime : String → Except Unit (Option Datetime)
  uuid : Json → Option Uuid

structure ComplianceInboxEvent where
  payloadHash : String
  processedAt : Option Timestamp := none
  deriving DecidableEq

-- timestamp is what int reads of the header, 0 where it raises.
structure Delivery where
  providerKey : String
  timestamp : Int
  signature : String
  eventId : String
  body : String

inductive WebhookReply where
  | unauthorized
  | providerNotAvailable
  | badRequest
  | duplicate
  | replayConflict
  | stale
  | invalid
  | raised
  | accepted
  deriving DecidableEq

inductive Phase where
  | received (delivery : Delivery) (payload : List (String × Json))
  | answered (reply : WebhookReply)

structure AppliedResult where
  provider : String
  eventId : String
  account : Uuid
  value : ControlValue
  occurredAt : Timestamp
  deriving DecidableEq

def AppliedResult.key (r : AppliedResult) : String × String := (r.provider, r.eventId)

structure WebhookState where
  db : Database := {}
  governance : Table String ProviderGovernanceState := Table.empty
  inbox : Table (String × String) ComplianceInboxEvent := Table.empty
  requests : Table Nat Phase := Table.empty
  -- the results that were applied, the latest first
  applied : List AppliedResult := []

def eventIdChar (c : Char) : Bool := c.isAlphanum || c ∈ [':', '_', '.', '-']

def eventIdValid (eventId : String) : Bool :=
  eventId ≠ "" ∧ eventId.length ≤ 255 ∧ eventId.toList.all eventIdChar

def signedText (delivery : Delivery) : String :=
  delivery.providerKey ++ "." ++ toString delivery.timestamp ++ "." ++ delivery.eventId ++ "." ++ delivery.body

def replayReply (lib : WebhookLibrary) (delivery : Delivery) (existing : ComplianceInboxEvent) : WebhookReply :=
  if existing.payloadHash = lib.sha256 delivery.body then .duplicate else .replayConflict

def Delivery.key (delivery : Delivery) : String × String := (delivery.providerKey, delivery.eventId)

def decodeBody (lib : WebhookLibrary) (body : String) : Option (List (String × Json)) :=
  match lib.loads (if body = "" then "\x7b\x7d" else body) with
  | some (.obj fields) => some fields
  | _ => none

-- The view up to its transaction
def receive (lib : WebhookLibrary) (settings : WebhookSettings) (s : WebhookState) (delivery : Delivery) (now : Timestamp) :
    Phase :=
  if settings.secret = "" ∨ eventIdValid delivery.eventId = false ∨
      settings.webhookMaxAgeSeconds < |now / microsecondsPerSecond - delivery.timestamp| then .answered .unauthorized
  else if lib.hmac settings.secret (signedText delivery) ≠ delivery.signature then .answered .unauthorized
  else if s.governance.find delivery.providerKey ≠ some .stagingApproved ∧
      s.governance.find delivery.providerKey ≠ some .productionApproved then .answered .providerNotAvailable
  else
    match decodeBody lib delivery.body with
    | none => .answered .badRequest
    | some payload =>
      match s.inbox.find delivery.key with
      | some existing => .answered (replayReply lib delivery existing)
      | none => .received delivery payload

def field (payload : List (String × Json)) (key : String) : Option Json :=
  (payload.find? fun p => p.1 = key).map Prod.snd

def truthy : Json → Bool
  | .null => false
  | .bool b => b
  | .int n => n ≠ 0
  | .float repr => repr ≠ "0.0" ∧ repr ≠ "-0.0"
  | .str s => s ≠ ""
  | .arr items => !items.isEmpty
  | .obj fields => !fields.isEmpty
  | .other => true

def eventType (payload : List (String × Json)) : Option Control :=
  match field payload "type" with
  | some (.str type) =>
    if type = "verification.updated" then some .kyc
    else if type = "aml.updated" then some .aml
    else if type = "sanctions.updated" then some .sanctions
    else if type = "jurisdiction.updated" then some .jurisdiction
    else none
  | _ => none

def mappings : Control → List (String × ControlValue)
  | .kyc =>
    [("pending", .kyc .pending), ("review", .kyc .inReview), ("approved", .kyc .approved), ("rejected", .kyc .rejected),
      ("expired", .kyc .expired)]
  | .aml => [("pending", .aml .pending), ("clear", .aml .cleared), ("review", .aml .reviewRequired), ("blocked", .aml .blocked)]
  | .sanctions =>
    [("clear", .sanctions .clear), ("possible_match", .sanctions .possibleMatch),
      ("confirmed_match", .sanctions .confirmedMatch), ("review", .sanctions .manualReview)]
  | .jurisdiction =>
    [("supported", .jurisdiction .supported), ("limited", .jurisdiction .limited), ("restricted", .jurisdiction .restricted),
      ("unknown", .jurisdiction .unknown)]

def resultOf (control : Control) (payload : List (String × Json)) : Except WebhookReply ControlValue :=
  match field payload "result" with
  -- an unhashable key of dict.get
  | some (.arr _) | some (.obj _) => .error .raised
  | some (.str result) => demand ((mappings control).lookup result) .invalid
  | _ => .error .invalid

def occurredAt (lib : WebhookLibrary) (settings : WebhookSettings) (payload : List (String × Json)) (now : Timestamp) :
    Except WebhookReply Timestamp :=
  match lib.parseDatetime (((field payload "occurred_at").map lib.str).getD "") with
  | .error _ => .error .invalid
  | .ok none => .error .stale
  | .ok (some datetime) =>
    if datetime.aware = false ∨ now + settings.webhookMaxAgeSeconds * microsecondsPerSecond < datetime.instant ∨
        datetime.instant < now - settings.resultMaxAgeSeconds * microsecondsPerSecond then .error .stale
    else .ok datetime.instant

def accountRef (lib : WebhookLibrary) (payload : List (String × Json)) : Except WebhookReply (Option Uuid) :=
  match field payload "account_ref" with
  | none | some .null => .ok none
  | some value => some <$> demand (lib.uuid value) .raised

def reference (lib : WebhookLibrary) (payload : List (String × Json)) : String :=
  let value :=
    match field payload "evidence_ref" with
    | some value => if truthy value then some value else field payload "verification_ref"
    | none => field payload "verification_ref"
  String.ofList (((value.map lib.str).getD "").toList.take 255)

def transition (account : Uuid) (value : ControlValue) (evidenceRef : String) (c : ComplianceTables) : Outcome ProfileChange :=
  match value with
  | .kyc state => transitionKyc account state evidenceRef c
  | .aml state => transitionAml account state evidenceRef c
  | .sanctions state => transitionSanctions account state evidenceRef c
  | .jurisdiction state => transitionJurisdiction account state evidenceRef c

def raisedReply : Error → WebhookReply
  | .valueError _ => .invalid
  | _ => .raised

-- The transaction after the insertion of its inbox row
def applyResult (lib : WebhookLibrary) (settings : WebhookSettings) (env : Env) (db : Database) (delivery : Delivery)
    (payload : List (String × Json)) : Except WebhookReply (Database × AppliedResult) := do
  let control ← demand (eventType payload) .invalid
  let occurredAt ← occurredAt lib settings payload env.now
  let account ← accountRef lib payload
  let account ← demand (account.filter fun id => (db.compliance.profiles.find id).isSome) .invalid
  require (reference lib payload ≠ "") .invalid
  let value ← resultOf control payload
  match transition account value (reference lib payload) db.compliance with
  | .error error => .error (raisedReply error)
  | .ok change => pure (change.apply env db, ⟨delivery.providerKey, delivery.eventId, account, value, occurredAt⟩)

def WebhookState.answer (s : WebhookState) (i : Nat) (reply : WebhookReply) : WebhookState :=
  { s with requests := s.requests.put i (.answered reply) }

def execute (lib : WebhookLibrary) (settings : WebhookSettings) (env : Env) (s : WebhookState) (i : Nat)
    (delivery : Delivery) (payload : List (String × Json)) : WebhookState :=
  match s.inbox.find delivery.key with
  | some existing => s.answer i (replayReply lib delivery existing)
  | none =>
    match applyResult lib settings env s.db delivery payload with
    | .error reply => s.answer i reply
    | .ok (db, result) =>
      { s with
        db
        inbox := s.inbox.put delivery.key ⟨lib.sha256 delivery.body, some env.now⟩
        requests := s.requests.put i (.answered .accepted)
        applied := result :: s.applied }

inductive WebhookStep where
  | govern (providerKey : String) (state : ProviderGovernanceState)
  | arrive (i : Nat) (delivery : Delivery) (now : Timestamp)
  | execute (i : Nat) (env : Env)

def webhookStep (lib : WebhookLibrary) (settings : WebhookSettings) (s : WebhookState) : WebhookStep → WebhookState
  | .govern providerKey state => { s with governance := s.governance.put providerKey state }
  | .arrive i delivery now =>
    match s.requests.find i with
    | some _ => s
    | none => { s with requests := s.requests.put i (receive lib settings s delivery now) }
  | .execute i env =>
    match s.requests.find i with
    | some (.received delivery payload) => execute lib settings env s i delivery payload
    | _ => s

end ComplianceWebhook

end Beyvra
