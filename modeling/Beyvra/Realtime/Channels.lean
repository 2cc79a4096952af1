import Beyvra.Compliance.Domain
import Beyvra.Text.Pattern

namespace Beyvra

open Text

inductive Visibility where
  | everyone | owner
  deriving DecidableEq

structure ChannelEntry where
  pattern : String
  visibility : Visibility
  requiredPermission : String
  accountScope : Bool
  deriving DecidableEq

def publicChannel (pattern requiredPermission : String) : ChannelEntry :=
  ⟨pattern, .everyone, requiredPermission, false⟩

def privateChannel (pattern requiredPermission : String) (accountScope : Bool) : ChannelEntry :=
  ⟨pattern, .owner, requiredPermission, accountScope⟩

def channelRegistry : List ChannelEntry :=
  [publicChannel "market.\x7bsymbol\x7d.tick" "market.read",
    publicChannel "market.\x7bsymbol\x7d.quote" "market.read",
    publicChannel "market.\x7bsymbol\x7d.candle.\x7btimeframe\x7d" "market.read",
    publicChannel "market.\x7bsymbol\x7d.orderbook" "market.read",
    publicChannel "market.\x7bsymbol\x7d.trades" "market.read",
    publicChannel "news.\x7bsymbol\x7d" "news.read",
    publicChannel "news.market" "news.read",
    publicChannel "news.economic" "news.read",
    privateChannel "simulation.order.\x7baccount_id\x7d" "demo.trade.read" true,
    privateChannel "simulation.execution.\x7baccount_id\x7d" "demo.trade.read" true,
    privateChannel "simulation.position.\x7baccount_id\x7d" "demo.trade.read" true,
    privateChannel "simulation.execution-quality.\x7baccount_id\x7d" "demo.trade.read" true,
    privateChannel "notification.\x7buser_id\x7d" "notification.read" false,
    privateChannel "account.security.\x7buser_id\x7d" "account.security.read" false,
    privateChannel "treasury.\x7btenant_id\x7d" "treasury.read" false,
    privateChannel "institutional.subaccount.updated.v1.\x7buser_id\x7d" "institutional.read" false,
    publicChannel "system.status" "system.read"]

def wordChar (extra : List Char) (c : Char) : Bool := c.isAlphanum || c ∈ extra

def hexChar (c : Char) : Bool :=
  c.isDigit || c ∈ "ABCDEFabcdef".toList || c = '-'

def placeholders : List (String × (Char → Bool)) :=
  [("symbol", wordChar ['_', '.', '-']), ("timeframe", wordChar ['_', '-']),
    ("account_id", wordChar [':', '_', '-']), ("user_id", wordChar [':', '_', '-']),
    ("tenant_id", hexChar)]

def compilePattern (pattern : String) : List Atom :=
  placeholders.foldl
    (fun escaped (name, allowed) =>
      replaceLiteral ('\x7b' :: (name.toList ++ ['\x7d'])) allowed 0 escaped)
    (literal pattern.toList)

def channelEntry (channel : String) : Option ChannelEntry :=
  channelRegistry.find? fun entry => accepts (compilePattern entry.pattern) channel.toList

structure RealtimeUser where
  id : String
  isActive : Bool

-- What a request finds outside it: the environment variables, the memberships in the order of their
-- ids, the cached token versions, the clock and the source of the nonces.
structure Realtime where
  getenv : String → Option String
  memberships : List OrganizationMembership
  tokenVersion : String → Option Nat
  now : Int
  nonce : String

namespace Realtime

def secret (r : Realtime) : String := (r.getenv "CENTRIFUGO_TOKEN_HMAC_SECRET").getD ""

def proxySecret (r : Realtime) : String := (r.getenv "CENTRIFUGO_PROXY_SECRET").getD ""

def enabled (r : Realtime) : Bool :=
  ["REALTIME_V2_ENABLED", "REALTIME_V2_STAGING_ENABLED", "CENTRIFUGO_ENABLED",
    "NATS_JETSTREAM_ENABLED"].all fun name => ((r.getenv name).getD "false").toLower = "true"

def tenant (r : Realtime) (userId : String) : String :=
  ((r.memberships.find? (·.user = userId)).map (·.organization)).getD "default"

end Realtime

def startsWith (text pre : String) : Bool := pre.toList.isPrefixOf text.toList

def endsWith (text suffix : String) : Bool := suffix.toList.isSuffixOf text.toList

def contains (text part : String) : Bool := text.toList.tails.any part.toList.isPrefixOf

def ownsDemoAccount (userId channel : String) : Bool :=
  ["simulation.order.", "simulation.execution.", "simulation.position.",
      "simulation.execution-quality."].any (startsWith channel) &&
    lastSegment '.' channel.toList = ("sim-" ++ userId).toList

structure SubscriptionToken where
  sub : String
  userId : String
  tenantId : String
  workspaceId : String
  accountScope : List String
  allowedChannelPatterns : List String
  iat : Int
  exp : Int
  nonce : String
  sessionId : String
  aud : String
  tokenVersion : Nat
  channel : String
  channelPattern : String
  deriving DecidableEq

structure Refusal where
  code : String
  status : Nat
  deriving DecidableEq

def claims (r : Realtime) (userId audience channel pattern : String) : Option SubscriptionToken :=
  if r.secret = "" then none
  else some
    { sub := userId, userId, tenantId := r.tenant userId, workspaceId := "default"
      accountScope := ["demo:" ++ userId]
      allowedChannelPatterns := channelRegistry.map (·.pattern)
      iat := r.now, exp := r.now + 60, nonce := r.nonce
      sessionId := userId ++ ":" ++ toString r.now, aud := audience
      tokenVersion := (r.tokenVersion userId).getD 1, channel, channelPattern := pattern }

def notificationPattern : String := "notification.\x7buser_id\x7d"

def securityPattern : String := "account.security.\x7buser_id\x7d"

def treasuryPattern : String := "treasury.\x7btenant_id\x7d"

def institutionalPattern : String := "institutional.subaccount.updated.v1.\x7buser_id\x7d"

def forbiddenChannel : Refusal := ⟨"FORBIDDEN_CHANNEL", 403⟩

def privateRefusal (r : Realtime) (userId channel : String) (entry : ChannelEntry) : Bool :=
  (startsWith entry.pattern "simulation." && !ownsDemoAccount userId channel) ||
  (entry.pattern ∈ [notificationPattern, securityPattern] && !endsWith channel userId) ||
  (entry.pattern = treasuryPattern && channel ≠ "treasury." ++ r.tenant userId) ||
  (entry.accountScope && !(contains channel userId || ownsDemoAccount userId channel))

-- A channel that is no text is none.
def subscriptionToken (r : Realtime) (user : RealtimeUser) (channel : Option String) :
    Except Refusal SubscriptionToken :=
  if !r.enabled then .error ⟨"REALTIME_V2_DISABLED", 404⟩
  else match channel with
    | none => .error ⟨"INVALID_CHANNEL", 400⟩
    | some channel =>
      if channel = "" ∨ 200 < channel.length then .error ⟨"INVALID_CHANNEL", 400⟩
      else match channelEntry channel with
        | none => .error ⟨"UNSUPPORTED_CHANNEL", 403⟩
        | some entry =>
          if entry.visibility = .owner ∧ privateRefusal r user.id channel entry then
            .error forbiddenChannel
          else if startsWith entry.requiredPermission "demo." ∧ !user.isActive then
            .error forbiddenChannel
          else match claims r user.id "centrifugo-subscription" channel entry.pattern with
            | none => .error ⟨"REALTIME_V2_NOT_CONFIGURED", 503⟩
            | some token => .ok token

-- The headers are X-Beyvra-Proxy-Secret and X-Codestra-Proxy-Secret; an empty first one is passed over.
def suppliedSecret (beyvra codestra : Option String) : Option String :=
  match beyvra with
  | none => codestra
  | some supplied => if supplied = "" then codestra else some supplied

def userScoped (userId channel : String) (entry : ChannelEntry) : Bool :=
  entry.pattern ∈ [notificationPattern, securityPattern, institutionalPattern] &&
    lastSegment '.' channel.toList = userId.toList

def proxyRefusal (r : Realtime) (userId channel : String) (entry : ChannelEntry) : Bool :=
  (startsWith entry.pattern "simulation." && !ownsDemoAccount userId channel) ||
  (entry.pattern = treasuryPattern && channel ≠ "treasury." ++ r.tenant userId) ||
  (entry.pattern ≠ treasuryPattern &&
    !(userScoped userId channel entry || (entry.accountScope && ownsDemoAccount userId channel)))

def authorizeSubscription (r : Realtime) (beyvra codestra : Option String) (user : String)
    (channel : Option String) : Bool :=
  if suppliedSecret beyvra codestra ≠ some r.proxySecret then false
  else match channel.bind channelEntry, channel with
    | some entry, some channel => !(entry.visibility = .owner && proxyRefusal r user channel entry)
    | _, _ => false

end Beyvra
