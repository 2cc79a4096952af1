import Mathlib.Data.List.Dedup
import Mathlib.Data.Prod.Lex
import Mathlib.Data.String.Basic
import Mathlib.Tactic.Linarith
import Beyvra.ExecutionControl.ProviderHalt
import Beyvra.Numeric.Decimal
import Beyvra.Relational.SortedBy
import Beyvra.Trading.Records

namespace Beyvra

open Numeric Relational

namespace ExecutionControl

structure RoutedProvider where
  providerId : String
  priority : Nat := 100
  provider : ExecutionProviderRecord
  healthRecord : Option ExecutionProviderHealth := none
  deriving DecidableEq

structure ExecutionVenue where
  venueId : String
  status : String := "DISABLED"
  routingEnabled : Bool := false
  deriving DecidableEq

structure ExecutionProviderCapability where
  providerId : String
  assetClass : String
  venueId : Option String := none
  capabilityType : String
  enabled : Bool := false
  effectiveFrom : Timestamp
  effectiveTo : Option Timestamp := none
  verifiedAt : Timestamp

structure VenueCapability where
  venueId : String
  assetClass : String
  orderType : String
  timeInForce : String
  minimumQuantity : ℚ
  quantityIncrement : ℚ
  priceIncrement : ℚ
  effectiveFrom : Timestamp
  effectiveTo : Option Timestamp := none

structure BestExecutionPolicy where
  assetClass : String
  mode : ExecutionMode
  priceWeight : ℚ
  feeWeight : ℚ
  latencyWeight : ℚ
  fillProbabilityWeight : ℚ
  liquidityWeight : ℚ
  reliabilityWeight : ℚ
  marketImpactWeight : ℚ
  status : String := "DRAFT"
  policyVersion : String
  effectiveFrom : Timestamp
  effectiveTo : Option Timestamp := none

-- The seeded providers in their order, the seeded venue and the rows that are queried, those of a table in the order
-- in which it gives them without an order of its own
structure RoutingTables where
  providers : List RoutedProvider := []
  distinct : (providers.map (·.providerId)).Nodup := by decide
  venue : ExecutionVenue
  capabilities : List ExecutionProviderCapability := []
  venueCapabilities : List VenueCapability := []
  policies : List BestExecutionPolicy := []

structure RouteRequest where
  mode : ExecutionMode
  side : OrderSide
  assetClass : String := "CRYPTO"
  orderType : String := "MARKET"
  timeInForce : String := "DAY"
  quantity : ℚ
  referencePrice : ℚ
  limitPrice : Option ℚ := none

structure RouteEconomics where
  expectedPrice : ℚ
  expectedFee : ℚ
  expectedSlippage : ℚ
  availableQuantity : ℚ
  fillProbability : ℚ
  latencyMs : Nat
  priceScore : ℚ
  feeScore : ℚ
  latencyScore : ℚ
  fillScore : ℚ
  liquidityScore : ℚ
  reliabilityScore : ℚ
  impactScore : ℚ
  deriving DecidableEq

structure RouteCandidate where
  provider : RoutedProvider
  venue : ExecutionVenue
  economics : RouteEconomics
  reasons : List String
  deriving DecidableEq

structure ScoredCandidate extends RouteCandidate where
  score : ℚ
  deriving DecidableEq

namespace BrokerCapabilityAuthority

def matching (now : Timestamp) (providerId assetClass capability venueId : String)
    (row : ExecutionProviderCapability) : Bool :=
  row.providerId = providerId && row.assetClass = assetClass && row.capabilityType = capability && row.enabled &&
    row.verifiedAt ≤ now && row.effectiveFrom ≤ now && row.effectiveTo.isNone && row.venueId = some venueId

def supports (now : Timestamp) (t : RoutingTables) (providerId assetClass capability : String) : Bool :=
  t.capabilities.any (matching now providerId assetClass capability t.venue.venueId)

end BrokerCapabilityAuthority

namespace VenueCapabilityAuthority

def matching (now : Timestamp) (venueId assetClass orderType timeInForce : String) (row : VenueCapability) : Bool :=
  row.venueId = venueId && row.assetClass = assetClass && row.orderType = orderType &&
    row.timeInForce = timeInForce && row.effectiveFrom ≤ now && row.effectiveTo.isNone

def invalidQuantity (cap : VenueCapability) (quantity : ℚ) : Option Bool :=
  if quantity < cap.minimumQuantity then some true
  else (defaultContext.rem quantity cap.quantityIncrement).map fun r => r ≠ 0

def invalidPrice (cap : VenueCapability) : Option ℚ → Option Bool
  | none => some false
  | some price => (defaultContext.rem price cap.priceIncrement).map fun r => r ≠ 0

def capability (now : Timestamp) (t : RoutingTables) (request : RouteRequest) : Option VenueCapability :=
  t.venueCapabilities.find? (matching now t.venue.venueId request.assetClass request.orderType request.timeInForce)

-- Nothing where a remainder is an invalid operation
def validate (now : Timestamp) (t : RoutingTables) (request : RouteRequest) : Option (List String) :=
  if t.venue.routingEnabled = false ∨ t.venue.status ≠ "ACTIVE" then some ["VENUE_NOT_ROUTABLE"]
  else match capability now t request with
    | none => some ["VENUE_CAPABILITY_UNSUPPORTED"]
    | some cap => do
      let badQuantity ← invalidQuantity cap request.quantity
      let badPrice ← invalidPrice cap request.limitPrice
      pure (listed badQuantity "INVALID_QUANTITY_INCREMENT" ++ listed badPrice "INVALID_PRICE_INCREMENT")

end VenueCapabilityAuthority

namespace BestExecutionPolicyAuthority

def fixture (now : Timestamp) (assetClass : String) (mode : ExecutionMode) : BestExecutionPolicy where
  assetClass := assetClass
  mode := mode
  priceWeight := 35 / 100
  feeWeight := 20 / 100
  latencyWeight := 10 / 100
  fillProbabilityWeight := 15 / 100
  liquidityWeight := 5 / 100
  reliabilityWeight := 10 / 100
  marketImpactWeight := 5 / 100
  status := "ACTIVE"
  policyVersion := "best-execution-technical-v2"
  effectiveFrom := now

def applicable (now : Timestamp) (assetClass : String) (mode : ExecutionMode) (row : BestExecutionPolicy) : Bool :=
  row.assetClass = assetClass && row.mode = mode && row.status = "ACTIVE" && row.effectiveFrom ≤ now &&
    row.effectiveTo.isNone

-- The latest policy in force, or the one made there and then
def active (now : Timestamp) (assetClass : String) (mode : ExecutionMode) (rows : List BestExecutionPolicy) :
    BestExecutionPolicy :=
  ((sortedBy (fun row => -row.effectiveFrom) (rows.filter (applicable now assetClass mode))).head?).getD
    (fixture now assetClass mode)

def score (policy : BestExecutionPolicy) (economics : RouteEconomics) : Option ℚ := do
  let c := defaultContext
  let price ← c.mul economics.priceScore policy.priceWeight
  let total ← c.add price (← c.mul economics.feeScore policy.feeWeight)
  let total ← c.add total (← c.mul economics.latencyScore policy.latencyWeight)
  let total ← c.add total (← c.mul economics.fillScore policy.fillProbabilityWeight)
  let total ← c.add total (← c.mul economics.liquidityScore policy.liquidityWeight)
  let total ← c.add total (← c.mul economics.reliabilityScore policy.reliabilityWeight)
  let total ← c.add total (← c.mul economics.impactScore policy.marketImpactWeight)
  c.quantize halfEven (-8) total

end BestExecutionPolicyAuthority

namespace SmartOrderRouter

structure ProviderTerms where
  adjustment : ℚ
  feeRate : ℚ
  latency : Nat
  fill : ℚ

def providerTerms : List (String × ProviderTerms) :=
  [("simulation", ⟨0, 1 / 1000, 1, 1⟩), ("paper-a", ⟨-2 / 10000, 15 / 10000, 10, 92 / 100⟩),
    ("paper-b", ⟨1 / 10000, 5 / 10000, 25, 98 / 100⟩)]

def sign : OrderSide → ℚ
  | .buy => 1
  | .sell => -1

def economicsOf (terms : ProviderTerms) (request : RouteRequest) : Option RouteEconomics := do
  let c := defaultContext
  let expected ← c.mul request.referencePrice (← c.add 1 (← c.mul (sign request.side) terms.adjustment))
  let fee ← c.mul (← c.mul expected request.quantity) terms.feeRate
  let slippage := |← c.sub expected request.referencePrice|
  let priceScore ← c.sub 1 (← c.div slippage request.referencePrice)
  let feeScore ← c.sub 1 (min (← c.div fee (← c.mul request.referencePrice request.quantity)) 1)
  let latencyScore ← c.sub 1 (← c.div terms.latency 1000)
  pure {
    expectedPrice := expected
    expectedFee := fee
    expectedSlippage := slippage
    availableQuantity := request.quantity
    fillProbability := terms.fill
    latencyMs := terms.latency
    priceScore := priceScore
    feeScore := feeScore
    latencyScore := latencyScore
    fillScore := terms.fill
    liquidityScore := 1
    reliabilityScore := terms.fill
    impactScore := 1 }

def candidateReasons (settings : ExecutionSettings) (now : Timestamp) (t : RoutingTables) (request : RouteRequest)
    (p : RoutedProvider) (venueReasons : List String) : List String :=
  let supported := BrokerCapabilityAuthority.supports now t p.providerId request.assetClass
  reasons settings p.provider request.mode ++
    listed (supported (request.orderType ++ "_ORDER") = false) "PROVIDER_ORDER_TYPE_UNSUPPORTED" ++
    listed (supported request.timeInForce = false) "PROVIDER_TIF_UNSUPPORTED" ++ venueReasons ++
    listed (isRoutable now p.provider p.healthRecord = false) "PROVIDER_UNHEALTHY"

def candidate (settings : ExecutionSettings) (now : Timestamp) (t : RoutingTables) (request : RouteRequest)
    (p : RoutedProvider) : Except String RouteCandidate := do
  let terms ← demand (providerTerms.lookup p.providerId) "KeyError"
  let economics ← demand (economicsOf terms request) "ArithmeticError"
  let venueReasons ← demand (VenueCapabilityAuthority.validate now t request) "ArithmeticError"
  pure ⟨p, t.venue, economics, sortedBy id (candidateReasons settings now t request p venueReasons).dedup⟩

def generateCandidates (settings : ExecutionSettings) (now : Timestamp) (t : RoutingTables) (request : RouteRequest) :
    Except String (List RouteCandidate) :=
  (t.providers.filter fun p => p.provider.mode = request.mode).mapM (candidate settings now t request)

def scoreCandidate (policy : BestExecutionPolicy) (x : RouteCandidate) : Except String ScoredCandidate := do
  if x.reasons = [] then
    pure ⟨x, ← demand (BestExecutionPolicyAuthority.score policy x.economics) "ArithmeticError"⟩
  else pure ⟨x, -1⟩

def filterCandidates (candidates : List ScoredCandidate) : List ScoredCandidate :=
  candidates.filter fun x => x.reasons = []

-- Highest score, then lowest fee, then priority, then code
def rank (x : ScoredCandidate) : ℚ ×ₗ ℚ ×ₗ ℕ ×ₗ String :=
  toLex (-x.score, toLex (x.economics.expectedFee, toLex (x.provider.priority, x.provider.providerId)))

def selectRoute (candidates : List ScoredCandidate) : Option ScoredCandidate :=
  (sortedBy rank (filterCandidates candidates)).head?

structure RouteResult where
  policy : BestExecutionPolicy
  candidates : List ScoredCandidate
  selected : Option ScoredCandidate
  eligibleRouteCount : Nat
  reasonCodes : List String
  exclusions : List (String × List String)

def route (settings : ExecutionSettings) (now : Timestamp) (t : RoutingTables) (request : RouteRequest) :
    Except String RouteResult := do
  require (request.mode ≠ .live) "FEATURE_DISABLED"
  let policy := BestExecutionPolicyAuthority.active now request.assetClass request.mode t.policies
  let candidates ← (← generateCandidates settings now t request).mapM (scoreCandidate policy)
  let selected := selectRoute candidates
  pure {
    policy := policy
    candidates := candidates
    selected := selected
    eligibleRouteCount := (filterCandidates candidates).length
    reasonCodes := if selected.isSome then [] else ["ORDER_NOT_ROUTABLE"]
    exclusions := (candidates.filter fun x => x.reasons ≠ []).map fun x => (x.provider.providerId, x.reasons) }

-- What a provider must meet to be routed to
structure Cleared (settings : ExecutionSettings) (now : Timestamp) (t : RoutingTables) (request : RouteRequest)
    (p : RoutedProvider) : Prop where
  usable : Usable settings p.provider p.healthRecord
  quiet : ∀ reopens, p.provider.circuitOpenUntil = some reopens → reopens ≤ now
  environment : request.mode = p.provider.environment
  capabilities : ∀ capability ∈ [request.orderType ++ "_ORDER", request.timeInForce],
    BrokerCapabilityAuthority.supports now t p.providerId request.assetClass capability = true
  venue : t.venue.routingEnabled = true ∧ t.venue.status = "ACTIVE"
  increments : ∃ cap, VenueCapabilityAuthority.capability now t request = some cap ∧
    cap.minimumQuantity ≤ request.quantity ∧ defaultContext.rem request.quantity cap.quantityIncrement = some 0 ∧
    ∀ price, request.limitPrice = some price → defaultContext.rem price cap.priceIncrement = some 0

variable {settings : ExecutionSettings} {now : Timestamp} {t : RoutingTables} {request : RouteRequest}
  {p : RoutedProvider} {x : RouteCandidate}

theorem invalidQuantity_eq_false {cap : VenueCapability} {quantity : ℚ} :
    VenueCapabilityAuthority.invalidQuantity cap quantity = some false ↔
      cap.minimumQuantity ≤ quantity ∧ defaultContext.rem quantity cap.quantityIncrement = some 0 := by
  unfold VenueCapabilityAuthority.invalidQuantity
  split_ifs with hlow
  · simp [hlow]
  · simp [not_lt.mp hlow]

theorem invalidPrice_eq_false {cap : VenueCapability} {limitPrice : Option ℚ} :
    VenueCapabilityAuthority.invalidPrice cap limitPrice = some false ↔
      ∀ price, limitPrice = some price → defaultContext.rem price cap.priceIncrement = some 0 := by
  cases limitPrice <;> simp [VenueCapabilityAuthority.invalidPrice]

theorem validate_eq_nil : VenueCapabilityAuthority.validate now t request = some [] ↔
    (t.venue.routingEnabled = true ∧ t.venue.status = "ACTIVE") ∧
      ∃ cap, VenueCapabilityAuthority.capability now t request = some cap ∧
        cap.minimumQuantity ≤ request.quantity ∧ defaultContext.rem request.quantity cap.quantityIncrement = some 0 ∧
        ∀ price, request.limitPrice = some price → defaultContext.rem price cap.priceIncrement = some 0 := by
  have hlisted (cap : VenueCapability) : (do
      let badQuantity ← VenueCapabilityAuthority.invalidQuantity cap request.quantity
      let badPrice ← VenueCapabilityAuthority.invalidPrice cap request.limitPrice
      pure (listed badQuantity "INVALID_QUANTITY_INCREMENT" ++ listed badPrice "INVALID_PRICE_INCREMENT")) = some [] ↔
      VenueCapabilityAuthority.invalidQuantity cap request.quantity = some false ∧
        VenueCapabilityAuthority.invalidPrice cap request.limitPrice = some false := by
    simp [Option.bind_eq_some_iff, listed_eq_nil]
  unfold VenueCapabilityAuthority.validate
  split_ifs with hvenue
  · refine iff_of_false (by simp) fun h => ?_
    simp [h.1] at hvenue
  · have hactive : t.venue.routingEnabled = true ∧ t.venue.status = "ACTIVE" := by simpa using hvenue
    cases VenueCapabilityAuthority.capability now t request with
    | none => simp
    | some cap =>
      refine (hlisted cap).trans ?_
      rw [invalidQuantity_eq_false, invalidPrice_eq_false, and_assoc]
      simp [hactive]

theorem candidateReasons_eq_nil {venueReasons : List String} :
    candidateReasons settings now t request p venueReasons = [] ↔
      Usable settings p.provider p.healthRecord ∧ (∀ reopens, p.provider.circuitOpenUntil = some reopens → reopens ≤ now) ∧
        request.mode = p.provider.environment ∧ (∀ capability ∈ [request.orderType ++ "_ORDER", request.timeInForce],
          BrokerCapabilityAuthority.supports now t p.providerId request.assetClass capability = true) ∧
        venueReasons = [] := by
  have hreasons : reasons settings p.provider request.mode = [] ↔ eligible settings p.provider request.mode = true :=
    List.isEmpty_iff.symm
  unfold candidateReasons
  simp only [List.append_eq_nil_iff, listed_eq_nil, hreasons, eligible_iff, Bool.not_eq_false, List.forall_mem_cons,
    List.not_mem_nil, false_imp_iff, implies_true, and_true]
  constructor
  · rintro ⟨⟨⟨⟨⟨henabled, hhealth, hadmissible, hmode⟩, horder⟩, htif⟩, hvenue⟩, hroutable⟩
    obtain ⟨hquiet, hrates, hcircuit⟩ := (isRoutable_iff henabled hhealth).mp hroutable
    exact ⟨⟨henabled, hhealth, hadmissible, hrates, hcircuit⟩, hquiet, hmode, ⟨horder, htif⟩, hvenue⟩
  · rintro ⟨husable, hquiet, hmode, ⟨horder, htif⟩, hvenue⟩
    have hroutable := (isRoutable_iff husable.enabled husable.healthy).mpr ⟨hquiet, husable.rates, husable.circuit⟩
    exact ⟨⟨⟨⟨⟨husable.enabled, husable.healthy, husable.admissible, hmode⟩, horder⟩, htif⟩, hvenue⟩, hroutable⟩

theorem sortedBy_dedup_eq_nil {found : List String} : sortedBy id found.dedup = [] ↔ found = [] := by
  rw [← List.length_eq_zero_iff, perm_sortedBy.length_eq, List.length_eq_zero_iff, List.dedup_eq_nil]

theorem candidate_ok (h : candidate settings now t request p = .ok x) :
    x.provider = p ∧ (x.reasons = [] ↔ Cleared settings now t request p) := by
  unfold candidate at h
  simp only [bind_eq_ok, demand_eq_ok, pure_eq_ok] at h
  obtain ⟨_, -, _, -, venueReasons, hvenue, rfl⟩ := h
  refine ⟨rfl, sortedBy_dedup_eq_nil.trans (candidateReasons_eq_nil.trans ?_)⟩
  constructor
  · rintro ⟨husable, hquiet, hmode, hcapabilities, rfl⟩
    obtain ⟨hactive, hincrements⟩ := validate_eq_nil.mp hvenue
    exact ⟨husable, hquiet, hmode, hcapabilities, hactive, hincrements⟩
  · intro hcleared
    have hnil := validate_eq_nil.mpr ⟨hcleared.venue, hcleared.increments⟩
    exact ⟨hcleared.usable, hcleared.quiet, hcleared.environment, hcleared.capabilities,
      Option.some.inj (hvenue.symm.trans hnil)⟩

def scored (settings : ExecutionSettings) (now : Timestamp) (t : RoutingTables) (request : RouteRequest)
    (p : RoutedProvider) : Except String ScoredCandidate := do
  scoreCandidate (BestExecutionPolicyAuthority.active now request.assetClass request.mode t.policies)
    (← candidate settings now t request p)

variable {policy : BestExecutionPolicy} {s s' : ScoredCandidate} {result result' : RouteResult}

theorem scoreCandidate_ok (h : scoreCandidate policy x = .ok s) : s.toRouteCandidate = x := by
  unfold scoreCandidate at h
  split at h
  · simp only [bind_eq_ok, pure_eq_ok] at h
    obtain ⟨_, -, rfl⟩ := h
    rfl
  · rw [← pure_eq_ok.mp h]

theorem scored_ok (h : scored settings now t request p = .ok s) :
    s.provider = p ∧ (s.reasons = [] ↔ Cleared settings now t request p) := by
  obtain ⟨x, hx, hs⟩ := bind_eq_ok.mp h
  rw [scoreCandidate_ok hs]
  exact candidate_ok hx

theorem scored_of_mapM {ps : List RoutedProvider} {xs : List RouteCandidate} {scoredCandidates : List ScoredCandidate}
    (hxs : List.Forall₂ (fun p x => candidate settings now t request p = .ok x) ps xs)
    (hscored : List.Forall₂ (fun x s =>
      scoreCandidate (BestExecutionPolicyAuthority.active now request.assetClass request.mode t.policies) x = .ok s)
      xs scoredCandidates) :
    List.Forall₂ (fun p s => scored settings now t request p = .ok s) ps scoredCandidates := by
  induction hxs generalizing scoredCandidates with
  | nil =>
    cases hscored
    exact .nil
  | cons hx hrest ih =>
    cases hscored with
    | cons hs hlater => exact .cons (bind_eq_ok.mpr ⟨_, hx, hs⟩) (ih hlater)

theorem route_ok (h : route settings now t request = .ok result) :
    (t.providers.filter fun p => p.provider.mode = request.mode).mapM (scored settings now t request) =
        .ok result.candidates ∧
      result.selected = selectRoute result.candidates ∧
      result.exclusions = (result.candidates.filter fun x => x.reasons ≠ []).map fun x =>
        (x.provider.providerId, x.reasons) := by
  unfold route generateCandidates at h
  simp only [bind_eq_ok, mapM_eq_ok, pure_eq_ok] at h
  obtain ⟨_, -, candidates, hcandidates, scoredCandidates, hscored, rfl⟩ := h
  exact ⟨mapM_eq_ok.mpr (scored_of_mapM hcandidates hscored), rfl, rfl⟩

theorem mem_filterCandidates {candidates : List ScoredCandidate} :
    s ∈ filterCandidates candidates ↔ s ∈ candidates ∧ s.reasons = [] := by
  simp [filterCandidates]

theorem id_eq_of_rank (h : rank s = rank s') : s.provider.providerId = s'.provider.providerId := by
  simp only [rank, EmbeddingLike.apply_eq_iff_eq, Prod.mk.injEq] at h
  exact h.2.2.2

theorem selectRoute_least {candidates : List ScoredCandidate} (h : selectRoute candidates = some s) :
    s ∈ filterCandidates candidates ∧ ∀ y ∈ filterCandidates candidates, rank s ≤ rank y := by
  obtain ⟨rest, hsorted⟩ := List.head?_eq_some_iff.mp h
  have hmem : s ∈ sortedBy rank (filterCandidates candidates) := hsorted ▸ List.mem_cons_self
  exact ⟨perm_sortedBy.mem_iff.mp hmem, sortedBy_head hsorted⟩

theorem selectRoute_eq_none {candidates : List ScoredCandidate} :
    selectRoute candidates = none ↔ filterCandidates candidates = [] := by
  rw [selectRoute, List.head?_eq_none_iff, ← List.length_eq_zero_iff, perm_sortedBy.length_eq,
    List.length_eq_zero_iff]

-- Of the routable candidates the one that comes first, where no two have one provider
theorem selectRoute_eq_some {candidates : List ScoredCandidate}
    (hdistinct : (candidates.map fun s => s.provider.providerId).Nodup) :
    selectRoute candidates = some s ↔
      s ∈ filterCandidates candidates ∧ ∀ y ∈ filterCandidates candidates, rank s ≤ rank y := by
  refine ⟨selectRoute_least, fun ⟨hmem, hleast⟩ => ?_⟩
  cases hselected : selectRoute candidates with
  | none =>
    rw [selectRoute_eq_none.mp hselected] at hmem
    cases hmem
  | some s' =>
    obtain ⟨hmem', hleast'⟩ := selectRoute_least hselected
    have hrank : rank s' = rank s := le_antisymm (hleast' s hmem) (hleast s' hmem')
    exact congrArg some (List.inj_on_of_nodup_map hdistinct (mem_filterCandidates.mp hmem').1
      (mem_filterCandidates.mp hmem).1 (id_eq_of_rank hrank))

structure RouteLaw (settings : ExecutionSettings) (now : Timestamp) (t : RoutingTables) (request : RouteRequest)
    (result : RouteResult) : Prop where
  considered : result.candidates.map (·.provider) = t.providers.filter fun p => p.provider.mode = request.mode
  selected : ∀ s, result.selected = some s ↔ s ∈ result.candidates ∧ Cleared settings now t request s.provider ∧
    ∀ y ∈ result.candidates, Cleared settings now t request y.provider → rank s ≤ rank y
  denied : result.selected = none ↔
    ∀ p ∈ t.providers, p.provider.mode = request.mode → ¬Cleared settings now t request p
  excluded : ∀ id found, (id, found) ∈ result.exclusions ↔ ∃ x ∈ result.candidates,
    ¬Cleared settings now t request x.provider ∧ id = x.provider.providerId ∧ found = x.reasons
  onGrid : ∀ s, result.selected = some s → ∀ e, defaultContext.emin - defaultContext.prec + 1 ≤ e →
    IsMultiple (10 ^ e) request.quantity → (∀ cap ∈ t.venueCapabilities, IsMultiple (10 ^ e) cap.quantityIncrement) →
    ∃ cap ∈ t.venueCapabilities, cap.minimumQuantity ≤ request.quantity ∧
      IsMultiple cap.quantityIncrement request.quantity
  -- Providers that are not cleared, and the order of those that are, have no say.
  stable : ∀ (providers : List RoutedProvider) (distinct : (providers.map (·.providerId)).Nodup) (result' : RouteResult),
    route settings now { t with providers, distinct } request = .ok result' →
    (∀ p, Cleared settings now t request p → p.provider.mode = request.mode → (p ∈ providers ↔ p ∈ t.providers)) →
    result'.selected = result.selected

theorem considered_of_route (h : route settings now t request = .ok result) :
    result.candidates.map (·.provider) = t.providers.filter fun p => p.provider.mode = request.mode := by
  have hprovider (ps : List RoutedProvider) (ss : List ScoredCandidate)
      (hss : List.Forall₂ (fun p s => scored settings now t request p = .ok s) ps ss) : ss.map (·.provider) = ps := by
    induction hss with
    | nil => rfl
    | cons hs hrest ih => rw [List.map_cons, (scored_ok hs).1, ih]
  exact hprovider _ _ (mapM_eq_ok.mp (route_ok h).1)

theorem distinct_of_route (h : route settings now t request = .ok result) :
    (result.candidates.map fun s => s.provider.providerId).Nodup := by
  have hsub : ((t.providers.filter fun p => p.provider.mode = request.mode).map (·.providerId)).Nodup :=
    t.distinct.sublist ((List.filter_sublist).map _)
  rwa [← considered_of_route h, List.map_map] at hsub

-- What a candidate is depends on its provider and not on the others.
theorem mem_candidates (h : route settings now t request = .ok result) :
    s ∈ result.candidates ↔ ∃ p ∈ t.providers, p.provider.mode = request.mode ∧ scored settings now t request p = .ok s := by
  have hscored := (route_ok h).1
  constructor
  · intro hs
    obtain ⟨p, hp, hps⟩ := mem_of_mapM hscored hs
    obtain ⟨hmem, hmode⟩ := List.mem_filter.mp hp
    exact ⟨p, hmem, of_decide_eq_true hmode, hps⟩
  · rintro ⟨p, hmem, hmode, hps⟩
    obtain ⟨s', hs', hps'⟩ := ok_of_mapM hscored p (List.mem_filter.mpr ⟨hmem, decide_eq_true hmode⟩)
    rwa [Except.ok.inj (hps.symm.trans hps')]

theorem reasons_of_mem (h : route settings now t request = .ok result) (hs : s ∈ result.candidates) :
    s.reasons = [] ↔ Cleared settings now t request s.provider := by
  obtain ⟨p, -, -, hp⟩ := (mem_candidates h).mp hs
  obtain ⟨rfl, hreasons⟩ := scored_ok hp
  exact hreasons

theorem mem_eligible (h : route settings now t request = .ok result) : s ∈ filterCandidates result.candidates ↔
    s ∈ result.candidates ∧ Cleared settings now t request s.provider :=
  mem_filterCandidates.trans (and_congr_right fun hs => reasons_of_mem h hs)

theorem selected_eq_some (h : route settings now t request = .ok result) : result.selected = some s ↔
    s ∈ filterCandidates result.candidates ∧ ∀ y ∈ filterCandidates result.candidates, rank s ≤ rank y := by
  rw [(route_ok h).2.1]
  exact selectRoute_eq_some (distinct_of_route h)

theorem selected_eq_none (h : route settings now t request = .ok result) :
    result.selected = none ↔ filterCandidates result.candidates = [] := by
  rw [(route_ok h).2.1]
  exact selectRoute_eq_none

theorem eligible_eq_nil (h : route settings now t request = .ok result) : filterCandidates result.candidates = [] ↔
    ∀ p ∈ t.providers, p.provider.mode = request.mode → ¬Cleared settings now t request p := by
  rw [List.eq_nil_iff_forall_not_mem]
  constructor
  · intro hnone p hp hmode hcleared
    obtain ⟨s, hs, hps⟩ := ok_of_mapM (route_ok h).1 p (List.mem_filter.mpr ⟨hp, decide_eq_true hmode⟩)
    obtain ⟨rfl, -⟩ := scored_ok hps
    exact hnone s ((mem_eligible h).mpr ⟨hs, hcleared⟩)
  · intro hnone s hs
    obtain ⟨hmem, hcleared⟩ := (mem_eligible h).mp hs
    obtain ⟨p, hp, hmode, hps⟩ := (mem_candidates h).mp hmem
    obtain ⟨rfl, -⟩ := scored_ok hps
    exact hnone _ hp hmode hcleared

theorem mem_eligible_iff (h : route settings now t request = .ok result) :
    s ∈ filterCandidates result.candidates ↔ ∃ p ∈ t.providers, p.provider.mode = request.mode ∧
      Cleared settings now t request p ∧ scored settings now t request p = .ok s := by
  rw [mem_eligible h, mem_candidates h]
  constructor
  · rintro ⟨⟨p, hp, hmode, hps⟩, hcleared⟩
    rw [(scored_ok hps).1] at hcleared
    exact ⟨p, hp, hmode, hcleared, hps⟩
  · rintro ⟨p, hp, hmode, hcleared, hps⟩
    rw [(scored_ok hps).1]
    exact ⟨⟨p, hp, hmode, hps⟩, hcleared⟩

theorem eligible_of_same {providers : List RoutedProvider} {distinct : (providers.map (·.providerId)).Nodup}
    (h : route settings now t request = .ok result)
    (h' : route settings now { t with providers, distinct } request = .ok result')
    (hsame : ∀ p, Cleared settings now t request p → p.provider.mode = request.mode → (p ∈ providers ↔ p ∈ t.providers)) :
    s ∈ filterCandidates result'.candidates ↔ s ∈ filterCandidates result.candidates := by
  rw [mem_eligible_iff h, mem_eligible_iff h']
  constructor
  · rintro ⟨p, hp, hmode, hcleared, hps⟩
    have hcleared : Cleared settings now t request p := ⟨hcleared.usable, hcleared.quiet, hcleared.environment,
      hcleared.capabilities, hcleared.venue, hcleared.increments⟩
    exact ⟨p, (hsame p hcleared hmode).mp hp, hmode, hcleared, hps⟩
  · rintro ⟨p, hp, hmode, hcleared, hps⟩
    exact ⟨p, (hsame p hcleared hmode).mpr hp, hmode, ⟨hcleared.usable, hcleared.quiet, hcleared.environment,
      hcleared.capabilities, hcleared.venue, hcleared.increments⟩, hps⟩

theorem route_law (h : route settings now t request = .ok result) : RouteLaw settings now t request result where
  considered := considered_of_route h
  selected s := by
    rw [selected_eq_some h, mem_eligible h, and_assoc]
    refine and_congr_right fun _ => and_congr_right fun _ => ?_
    exact ⟨fun hleast y hy hcleared => hleast y ((mem_eligible h).mpr ⟨hy, hcleared⟩),
      fun hleast y hy => hleast y ((mem_eligible h).mp hy).1 ((mem_eligible h).mp hy).2⟩
  denied := (selected_eq_none h).trans (eligible_eq_nil h)
  excluded id found := by
    rw [(route_ok h).2.2]
    simp only [List.mem_map, List.mem_filter, decide_eq_true_eq, Prod.mk.injEq]
    constructor
    · rintro ⟨x, ⟨hx, hreasons⟩, rfl, rfl⟩
      exact ⟨x, hx, mt (reasons_of_mem h hx).mpr hreasons, rfl, rfl⟩
    · rintro ⟨x, hx, hcleared, rfl, rfl⟩
      exact ⟨x, ⟨hx, mt (reasons_of_mem h hx).mp hcleared⟩, rfl, rfl⟩
  onGrid s hs e he hquantity hincrements := by
    obtain ⟨-, hcleared⟩ := (mem_eligible h).mp ((selected_eq_some h).mp hs).1
    obtain ⟨cap, hcap, hminimum, hrem, -⟩ := hcleared.increments
    have hmem := List.mem_of_find?_eq_some hcap
    exact ⟨cap, hmem, hminimum, Context.isMultiple_of_rem he (by decide) hquantity (hincrements cap hmem) hrem⟩
  stable providers distinct result' h' hsame := by
    refine Option.ext fun s => ?_
    rw [selected_eq_some h, selected_eq_some h', eligible_of_same h h' hsame]
    exact and_congr_right fun _ => forall_congr' fun y => by rw [eligible_of_same h h' hsame]

def paperProvider (code : String) (priority : Nat) : RoutedProvider where
  providerId := code
  priority := priority
  provider := { environment := .paper, mode := .paper, governanceState := .paperApproved, enabled := true
                health := .healthy, updatedAt := 0 }

def seededTables : RoutingTables where
  providers := [⟨"simulation", 10, { mode := .simulation, updatedAt := 0 }, none⟩, paperProvider "paper-a" 20,
    paperProvider "paper-b" 30]
  venue := ⟨"BEYVRA-SIM", "ACTIVE", true⟩
  capabilities := ["paper-a", "paper-b"].flatMap fun code => ["MARKET_ORDER", "DAY"].map fun capability =>
    { providerId := code, assetClass := "CRYPTO", venueId := some "BEYVRA-SIM", capabilityType := capability
      enabled := true, effectiveFrom := 0, verifiedAt := 0 }
  venueCapabilities := [⟨"BEYVRA-SIM", "CRYPTO", "MARKET", "DAY", 1 / 10000, 1 / 10000, 1 / 100, 0, none⟩]

def paperRequest : RouteRequest := { mode := .paper, side := .buy, quantity := 2, referencePrice := 100 }

theorem paper_routed : ∃ result, route {} 0 seededTables paperRequest = .ok result := by
  have hok : (route {} 0 seededTables paperRequest).isOk = true := by decide +kernel
  cases hroute : route {} 0 seededTables paperRequest with
  | error e =>
    rw [hroute] at hok
    cases hok
  | ok result => exact ⟨result, rfl⟩

theorem route_law_paper : ∃ result, route {} 0 seededTables paperRequest = .ok result ∧
    RouteLaw {} 0 seededTables paperRequest result := by
  obtain ⟨result, hroute⟩ := paper_routed
  exact ⟨result, hroute, route_law hroute⟩

end SmartOrderRouter

structure RouteRequest.Sized (request : RouteRequest) : Prop where
  referencePrice : 1 / 10 ^ 18 ≤ request.referencePrice
  quantity : 1 / 10 ^ 18 ≤ request.quantity

namespace SmartOrderRouter

section Rounding

variable {x r : ℚ}

theorem rounded_nonneg (h : defaultContext.finalize x = some r) (hx : 0 ≤ x) : 0 ≤ r :=
  Context.eq_nearest_of_finalize h ▸ nearest_nonneg (by norm_num) hx

theorem rounded_error (h : defaultContext.finalize x = some r) : |r - x| ≤ |x| / 10 ^ 6 + 1 / 10 ^ 100 := by
  have herror := Context.finalize_error h
  have hscale : (10 : ℚ) ^ (1 - (defaultContext.prec : Int)) ≤ 1 / 10 ^ 6 := by
    have hpow : (10 : ℚ) ^ (1 - (28 : Int)) ≤ 10 ^ (-6 : Int) := zpow_le_zpow_right₀ (by norm_num) (by norm_num)
    exact hpow.trans_eq (by norm_num)
  have hleast : (10 : ℚ) ^ (defaultContext.emin - defaultContext.prec + 1) ≤ 1 / 10 ^ 100 := by
    have hpow : (10 : ℚ) ^ (-999999 - (28 : Int) + 1) ≤ 10 ^ (-100 : Int) :=
      zpow_le_zpow_right₀ (by norm_num) (by norm_num)
    exact hpow.trans_eq (by norm_num)
  have hmul := mul_le_mul_of_nonneg_left hscale (abs_nonneg x)
  linarith

-- Between two numbers with eight places
theorem rounded_between (n m : Int) (hn : -10 ^ 9 ≤ n) (hm : m ≤ 10 ^ 9) (hle : n / 10 ^ 8 ≤ x) (hge : x ≤ m / 10 ^ 8)
    (h : defaultContext.finalize x = some r) : n / 10 ^ 8 ≤ r ∧ r ≤ m / 10 ^ 8 := by
  have hn' : (-10 ^ 9 : ℚ) ≤ n := by exact_mod_cast hn
  have hm' : (m : ℚ) ≤ 10 ^ 9 := by exact_mod_cast hm
  refine Context.finalize_between (e := -8) (by decide) (by decide) ⟨n, by norm_num [div_eq_mul_inv]⟩
    ⟨m, by norm_num [div_eq_mul_inv]⟩ ?_ hle hge h
  have hsize : |x| ≤ 10 := abs_le.mpr ⟨by linarith, by linarith⟩
  exact hsize.trans_lt (by norm_num [defaultContext])

theorem rounded_exact (n : Int) (hn : |n| ≤ 10 ^ 9) (hx : x = n / 10 ^ 8) (h : defaultContext.finalize x = some r) :
    r = n / 10 ^ 8 := by
  obtain ⟨hlow, hhigh⟩ := abs_le.mp hn
  obtain ⟨hle, hge⟩ := rounded_between n n hlow hhigh hx.ge hx.le h
  exact le_antisymm hge hle

theorem div_ok {y : ℚ} (h : defaultContext.div x y = some r) : defaultContext.finalize (x / y) = some r := by
  unfold Context.div at h
  split_ifs at h
  exact h

end Rounding

-- Fees and adjustments as small as those of every provider
structure ProviderTerms.Small (terms : ProviderTerms) (k : Int) : Prop where
  adjustment : terms.adjustment = k / 10 ^ 8
  size : |k| ≤ 20000
  feeRate : 0 ≤ terms.feeRate ∧ terms.feeRate ≤ 2 / 1000
  latency : terms.latency ≤ 1000

variable {terms : ProviderTerms} {request : RouteRequest} {e : RouteEconomics} {k : Int}

theorem expected_between {signed factor expected R : ℚ} {side : OrderSide} (hsmall : terms.Small k)
    (hR : 1 / 10 ^ 18 ≤ R) (hsigned : defaultContext.mul (sign side) terms.adjustment = some signed)
    (hfactor : defaultContext.add 1 signed = some factor) (hexpected : defaultContext.mul R factor = some expected) :
    |expected - R| ≤ 21 / 10 ^ 5 * R := by
  obtain ⟨hlow, hhigh⟩ := abs_le.mp hsmall.size
  obtain ⟨j, hj, hjsize⟩ : ∃ j : Int, sign side * terms.adjustment = j / 10 ^ 8 ∧ |j| ≤ 20000 := by
    rw [hsmall.adjustment]
    cases side with
    | buy => exact ⟨k, one_mul _, hsmall.size⟩
    | sell => exact ⟨-k, by push_cast [sign]; ring, (abs_neg k).trans_le hsmall.size⟩
  obtain ⟨hjlow, hjhigh⟩ := abs_le.mp hjsize
  obtain rfl := rounded_exact j (by omega) hj hsigned
  have hfactor' : factor = ((10 ^ 8 + j : Int) : ℚ) / 10 ^ 8 :=
    rounded_exact (10 ^ 8 + j) (abs_le.mpr ⟨by omega, by omega⟩) (by push_cast; ring) hfactor
  have hjlow' : (-20000 : ℚ) ≤ j := by exact_mod_cast hjlow
  have hjhigh' : (j : ℚ) ≤ 20000 := by exact_mod_cast hjhigh
  have hfactorlow : 1 - 2 / 10 ^ 4 ≤ factor := by rw [hfactor']; push_cast; linarith
  have hfactorhigh : factor ≤ 1 + 2 / 10 ^ 4 := by rw [hfactor']; push_cast; linarith
  have hRpos : 0 < R := lt_of_lt_of_le (by norm_num) hR
  have hlow' := mul_le_mul_of_nonneg_left hfactorlow hRpos.le
  have hhigh' := mul_le_mul_of_nonneg_left hfactorhigh hRpos.le
  have hproduct : 0 ≤ R * factor := mul_nonneg hRpos.le (by linarith)
  have herror := abs_le.mp (rounded_error hexpected)
  rw [abs_of_nonneg hproduct] at herror
  have htiny : (1 : ℚ) / 10 ^ 100 ≤ R / 10 ^ 6 := by linarith [show (1 : ℚ) / 10 ^ 100 ≤ 1 / 10 ^ 18 / 10 ^ 6 by norm_num]
  exact abs_le.mpr ⟨by linarith [herror.1], by linarith [herror.2]⟩

theorem priceScore_between {expected R slip ratio score : ℚ} (hR : 1 / 10 ^ 18 ≤ R)
    (hexpected : |expected - R| ≤ 21 / 10 ^ 5 * R) (hslip : defaultContext.sub expected R = some slip)
    (hratio : defaultContext.div |slip| R = some ratio) (hscore : defaultContext.sub 1 ratio = some score) :
    999 / 1000 ≤ score ∧ score ≤ 1 := by
  have hRpos : 0 < R := lt_of_lt_of_le (by norm_num) hR
  have hslipsize : |slip| ≤ 1 / 1000 * R := by
    have herror := rounded_error hslip
    have htriangle : |slip| ≤ |slip - (expected - R)| + |expected - R| := by
      simpa using abs_add_le (slip - (expected - R)) (expected - R)
    have htiny : (1 : ℚ) / 10 ^ 100 ≤ R / 10 ^ 6 := by
      linarith [show (1 : ℚ) / 10 ^ 100 ≤ 1 / 10 ^ 18 / 10 ^ 6 by norm_num]
    linarith
  obtain ⟨hlow, hhigh⟩ := rounded_between 0 100000 (by norm_num) (by norm_num)
    (by push_cast; rw [zero_div]; exact div_nonneg (abs_nonneg slip) hRpos.le)
    (by rw [div_le_iff₀ hRpos]; push_cast; linarith) (div_ok hratio)
  push_cast at hlow hhigh
  obtain ⟨hlow', hhigh'⟩ := rounded_between 99900000 100000000 (by norm_num) (by norm_num)
    (by push_cast; linarith) (by push_cast; linarith) hscore
  push_cast at hlow' hhigh'
  exact ⟨by linarith, by linarith⟩

theorem feeScore_between {expected R Q gross fee whole ratio score : ℚ} (hsmall : terms.Small k)
    (hR : 1 / 10 ^ 18 ≤ R) (hQ : 1 / 10 ^ 18 ≤ Q) (hexpected : |expected - R| ≤ 21 / 10 ^ 5 * R)
    (hgross : defaultContext.mul expected Q = some gross) (hfee : defaultContext.mul gross terms.feeRate = some fee)
    (hwhole : defaultContext.mul R Q = some whole) (hratio : defaultContext.div fee whole = some ratio)
    (hscore : defaultContext.sub 1 (min ratio 1) = some score) : 99 / 100 ≤ score ∧ score ≤ 1 := by
  have hRpos : 0 < R := lt_of_lt_of_le (by norm_num) hR
  have hQpos : 0 < Q := lt_of_lt_of_le (by norm_num) hQ
  have hRQ : 0 < R * Q := mul_pos hRpos hQpos
  have hproduct : (1 : ℚ) / 10 ^ 36 ≤ R * Q := calc
    (1 : ℚ) / 10 ^ 36 = 1 / 10 ^ 18 * (1 / 10 ^ 18) := by norm_num
    _ ≤ R * Q := mul_le_mul hR hQ (by norm_num) hRpos.le
  have htiny : (1 : ℚ) / 10 ^ 100 ≤ R * Q / 10 ^ 6 := by
    linarith only [hproduct, show (1 : ℚ) / 10 ^ 100 ≤ 1 / 10 ^ 36 / 10 ^ 6 by norm_num]
  obtain ⟨hlow, hhigh⟩ := abs_le.mp hexpected
  have hgrosslow := mul_le_mul_of_nonneg_right (show 999 / 1000 * R ≤ expected by linarith) hQpos.le
  have hgrosshigh := mul_le_mul_of_nonneg_right (show expected ≤ 1001 / 1000 * R by linarith) hQpos.le
  have hgrosserror := abs_le.mp (rounded_error hgross)
  have hexact : 0 ≤ expected * Q := by linarith only [hgrosslow, hRQ]
  rw [abs_of_nonneg hexact] at hgrosserror
  have hgrosspos : 0 ≤ gross := by linarith only [hgrosserror.1, hgrosslow, htiny, hRQ]
  have hgrosssize : gross ≤ 11 / 10 * (R * Q) := by linarith only [hgrosserror.2, hgrosshigh, htiny, hRQ]
  have hfeeexact : 0 ≤ gross * terms.feeRate := mul_nonneg hgrosspos hsmall.feeRate.1
  have hfeesize := mul_le_mul hgrosssize hsmall.feeRate.2 hsmall.feeRate.1 (by linarith only [hRQ])
  have hfeepos : 0 ≤ fee := rounded_nonneg hfee hfeeexact
  have hfeeerror := abs_le.mp (rounded_error hfee)
  rw [abs_of_nonneg hfeeexact] at hfeeerror
  have hfeehigh : fee ≤ 3 / 1000 * (R * Q) := by linarith only [hfeeerror.2, hfeesize, htiny, hRQ]
  have hwholeerror := abs_le.mp (rounded_error hwhole)
  rw [abs_of_nonneg hRQ.le] at hwholeerror
  have hwholelow : 9 / 10 * (R * Q) ≤ whole := by linarith only [hwholeerror.1, htiny, hRQ]
  have hwholepos : 0 < whole := by linarith only [hwholelow, hRQ]
  obtain ⟨hratiolow, hratiohigh⟩ := rounded_between 0 1000000 (by norm_num) (by norm_num)
    (by push_cast; rw [zero_div]; exact div_nonneg hfeepos hwholepos.le)
    (by rw [div_le_iff₀ hwholepos]; push_cast; linarith only [hfeehigh, hwholelow, hRQ]) (div_ok hratio)
  push_cast at hratiolow hratiohigh
  rw [min_eq_left (by linarith only [hratiohigh])] at hscore
  obtain ⟨hlow', hhigh'⟩ := rounded_between 99000000 100000000 (by norm_num) (by norm_num)
    (by push_cast; linarith only [hratiohigh]) (by push_cast; linarith only [hratiolow]) hscore
  push_cast at hlow' hhigh'
  exact ⟨by linarith only [hlow'], by linarith only [hhigh']⟩

theorem latencyScore_exact {lat score : ℚ} (hsmall : terms.Small k)
    (hlat : defaultContext.div terms.latency 1000 = some lat) (hscore : defaultContext.sub 1 lat = some score) :
    score = 1 - terms.latency / 1000 := by
  have hle := hsmall.latency
  obtain rfl := rounded_exact (terms.latency * 100000) (abs_le.mpr ⟨by omega, by omega⟩) (by push_cast; ring) (div_ok hlat)
  rw [rounded_exact (100000000 - terms.latency * 100000) (abs_le.mpr ⟨by omega, by omega⟩) (by push_cast; ring) hscore]
  push_cast
  ring

structure EconomicsBounds (terms : ProviderTerms) (e : RouteEconomics) : Prop where
  priceScore : 999 / 1000 ≤ e.priceScore ∧ e.priceScore ≤ 1
  feeScore : 99 / 100 ≤ e.feeScore ∧ e.feeScore ≤ 1
  latencyScore : e.latencyScore = 1 - terms.latency / 1000
  fillScore : e.fillScore = terms.fill
  liquidityScore : e.liquidityScore = 1
  reliabilityScore : e.reliabilityScore = terms.fill
  impactScore : e.impactScore = 1

theorem economicsOf_bounds (hsmall : terms.Small k) (hsized : request.Sized) (h : economicsOf terms request = some e) :
    EconomicsBounds terms e := by
  unfold economicsOf at h
  simp only [Option.bind_eq_bind, Option.bind_eq_some_iff, Option.pure_def, Option.some.injEq] at h
  obtain ⟨signed, hsigned, factor, hfactor, expected, hexpected, gross, hgross, fee, hfee, slip, hslip, ratio, hratio,
    price, hprice, whole, hwhole, share, hshare, feeScore, hfeeScore, lat, hlat, latencyScore, hlatency, rfl⟩ := h
  have hbetween := expected_between hsmall hsized.referencePrice hsigned hfactor hexpected
  exact ⟨priceScore_between hsized.referencePrice hbetween hslip hratio hprice,
    feeScore_between hsmall hsized.referencePrice hsized.quantity hbetween hgross hfee hwhole hshare hfeeScore,
    latencyScore_exact hsmall hlat hlatency, rfl, rfl, rfl, rfl⟩

section Score

variable {a b r total v : ℚ}

-- Between two numbers with eight places, given by their digits
def Between (n m : Int) (x : ℚ) : Prop := n / 10 ^ 8 ≤ x ∧ x ≤ m / 10 ^ 8

theorem add_between {n m n' m' : Int} (ha : Between n m a) (hb : Between n' m' b) (hn : -10 ^ 9 ≤ n + n')
    (hm : m + m' ≤ 10 ^ 9) (h : defaultContext.add a b = some r) : Between (n + n') (m + m') r := by
  refine rounded_between (n + n') (m + m') hn hm ?_ ?_ h
  · push_cast
    linarith [ha.1, hb.1]
  · push_cast
    linarith [ha.2, hb.2]

theorem quantize_between {n m : Int} (h : Between n m total)
    (hv : defaultContext.quantize halfEven (-8) total = some v) : Between n m v := by
  unfold Context.quantize at hv
  dsimp only at hv
  split_ifs at hv
  obtain rfl := Option.some.inj hv
  have hpos : (0 : ℚ) < 10 ^ (-8 : Int) := by norm_num
  exact ⟨le_roundTo_halfEven hpos ⟨n, by norm_num [div_eq_mul_inv]⟩ h.1,
    roundTo_halfEven_le hpos ⟨m, by norm_num [div_eq_mul_inv]⟩ h.2⟩

-- What latency and fills alone are worth under the weights of the policy that is made where none is in force
def ProviderTerms.base (terms : ProviderTerms) : ℚ :=
  65 / 100 + 10 / 100 * (1 - terms.latency / 1000) + 25 / 100 * terms.fill

theorem score_between {now : Timestamp} {assetClass : String} {mode : ExecutionMode} (hbounds : EconomicsBounds terms e)
    (hlatency : terms.latency ≤ 1000) (m : Nat) (hfill : terms.fill = m / 1000) (hm : m ≤ 1000)
    (h : BestExecutionPolicyAuthority.score (BestExecutionPolicyAuthority.fixture now assetClass mode) e = some v) :
    terms.base - 235 / 10 ^ 5 ≤ v ∧ v ≤ terms.base := by
  unfold BestExecutionPolicyAuthority.score BestExecutionPolicyAuthority.fixture at h
  simp only [Option.bind_eq_bind, Option.bind_eq_some_iff] at h
  obtain ⟨price, hprice, fee, hfee, t1, ht1, latency, hlat, t2, ht2, fill, hfillScore, t3, ht3, liquidity, hliquidity,
    t4, ht4, reliability, hreliability, t5, ht5, impact, himpact, t6, ht6, hv⟩ := h
  rw [hbounds.latencyScore] at hlat
  rw [hbounds.fillScore, hfill] at hfillScore
  rw [hbounds.liquidityScore] at hliquidity
  rw [hbounds.reliabilityScore, hfill] at hreliability
  rw [hbounds.impactScore] at himpact
  have hprice' : Between 34965000 35000000 price := rounded_between _ _ (by norm_num) (by norm_num)
    (by push_cast; linarith [hbounds.priceScore.1]) (by push_cast; linarith [hbounds.priceScore.2]) hprice
  have hfee' : Between 19800000 20000000 fee := rounded_between _ _ (by norm_num) (by norm_num)
    (by push_cast; linarith [hbounds.feeScore.1]) (by push_cast; linarith [hbounds.feeScore.2]) hfee
  have hlat' : Between (10000000 - terms.latency * 10000) (10000000 - terms.latency * 10000) latency :=
    rounded_between _ _ (by omega) (by omega) (by push_cast; linarith) (by push_cast; linarith) hlat
  have hfill' : Between (m * 15000) (m * 15000) fill :=
    rounded_between _ _ (by omega) (by omega) (by push_cast; linarith) (by push_cast; linarith) hfillScore
  have hliquidity' : Between 5000000 5000000 liquidity :=
    rounded_between _ _ (by norm_num) (by norm_num) (by norm_num) (by norm_num) hliquidity
  have hreliability' : Between (m * 10000) (m * 10000) reliability :=
    rounded_between _ _ (by omega) (by omega) (by push_cast; linarith) (by push_cast; linarith) hreliability
  have himpact' : Between 5000000 5000000 impact :=
    rounded_between _ _ (by norm_num) (by norm_num) (by norm_num) (by norm_num) himpact
  have h1 := add_between hprice' hfee' (by norm_num) (by norm_num) ht1
  have h2 := add_between h1 hlat' (by omega) (by omega) ht2
  have h3 := add_between h2 hfill' (by omega) (by omega) ht3
  have h4 := add_between h3 hliquidity' (by omega) (by omega) ht4
  have h5 := add_between h4 hreliability' (by omega) (by omega) ht5
  have h6 := add_between h5 himpact' (by omega) (by omega) ht6
  obtain ⟨hlow, hhigh⟩ := quantize_between h6 hv
  push_cast at hlow hhigh
  rw [ProviderTerms.base, hfill]
  exact ⟨by linarith, by linarith⟩

end Score

variable {settings : ExecutionSettings} {now : Timestamp} {t : RoutingTables} {result : RouteResult}
  {s s' : ScoredCandidate} {simulation paperA paperB : RoutedProvider}

-- The rows that the seeds make; no command writes their codes or modes.
structure Seeded (t : RoutingTables) (simulation paperA paperB : RoutedProvider) : Prop where
  providers : t.providers = [simulation, paperA, paperB]
  codes : t.providers.map (·.providerId) = ["simulation", "paper-a", "paper-b"]
  modes : t.providers.map (·.provider.mode) = [.simulation, .paper, .paper]

-- The policy in force is one that this code made.
def OwnPolicy (now : Timestamp) (t : RoutingTables) (request : RouteRequest) : Prop :=
  ∃ made, BestExecutionPolicyAuthority.active now request.assetClass request.mode t.policies =
    BestExecutionPolicyAuthority.fixture made request.assetClass request.mode

theorem score_of_eligible (hsized : request.Sized) (hpolicy : OwnPolicy now t request)
    (h : route settings now t request = .ok result) (hs : s ∈ filterCandidates result.candidates)
    (hterms : providerTerms.lookup s.provider.providerId = some terms) (hsmall : terms.Small k) (m : Nat)
    (hfill : terms.fill = m / 1000) (hm : m ≤ 1000) : terms.base - 235 / 10 ^ 5 ≤ s.score ∧ s.score ≤ terms.base := by
  obtain ⟨hmem, hreasons⟩ := mem_filterCandidates.mp hs
  obtain ⟨p, -, -, hp⟩ := (mem_candidates h).mp hmem
  obtain ⟨made, hmade⟩ := hpolicy
  obtain ⟨x, hx, hscore⟩ := bind_eq_ok.mp hp
  obtain rfl := scoreCandidate_ok hscore
  rw [(candidate_ok hx).1] at hterms
  unfold candidate at hx
  simp only [bind_eq_ok, demand_eq_ok, pure_eq_ok, hterms, Option.some.injEq, exists_eq_left'] at hx
  obtain ⟨e, he, _, -, hx⟩ := hx
  unfold scoreCandidate at hscore
  rw [if_pos hreasons, hmade] at hscore
  simp only [bind_eq_ok, demand_eq_ok, pure_eq_ok] at hscore
  obtain ⟨v, hv, hmade'⟩ := hscore
  have heconomics : e = s.economics := congrArg RouteCandidate.economics hx
  rw [← heconomics] at hv
  rw [← show v = s.score from congrArg ScoredCandidate.score hmade']
  exact score_between (economicsOf_bounds hsmall hsized he) hsmall.latency m hfill hm hv

def paperATerms : ProviderTerms := ⟨-2 / 10000, 15 / 10000, 10, 92 / 100⟩

def paperBTerms : ProviderTerms := ⟨1 / 10000, 5 / 10000, 25, 98 / 100⟩

theorem paperATerms_small : paperATerms.Small (-20000) :=
  ⟨by norm_num [paperATerms], by norm_num, by norm_num [paperATerms], by norm_num [paperATerms]⟩

theorem paperBTerms_small : paperBTerms.Small 10000 :=
  ⟨by norm_num [paperBTerms], by norm_num, by norm_num [paperBTerms], by norm_num [paperBTerms]⟩

theorem rank_lt_of_score (hlt : s'.score < s.score) : rank s < rank s' :=
  Prod.Lex.toLex_lt_toLex.mpr (.inl (neg_lt_neg hlt))

theorem paperB_ranks_first (hsized : request.Sized) (hpolicy : OwnPolicy now t request)
    (h : route settings now t request = .ok result) (hs : s ∈ filterCandidates result.candidates)
    (hs' : s' ∈ filterCandidates result.candidates) (hcode : s.provider.providerId = "paper-b")
    (hcode' : s'.provider.providerId = "paper-a") : rank s < rank s' := by
  have hterms : providerTerms.lookup s.provider.providerId = some paperBTerms := by rw [hcode]; rfl
  have hterms' : providerTerms.lookup s'.provider.providerId = some paperATerms := by rw [hcode']; rfl
  have hlow := (score_of_eligible hsized hpolicy h hs hterms paperBTerms_small 980 (by norm_num [paperBTerms])
    (by norm_num)).1
  have hhigh := (score_of_eligible hsized hpolicy h hs' hterms' paperATerms_small 920 (by norm_num [paperATerms])
    (by norm_num)).2
  refine rank_lt_of_score (hhigh.trans_lt (lt_of_lt_of_le ?_ hlow))
  norm_num [ProviderTerms.base, paperATerms, paperBTerms]

structure PaperPreference (settings : ExecutionSettings) (now : Timestamp) (t : RoutingTables) (request : RouteRequest)
    (result : RouteResult) (paperA paperB : RoutedProvider) : Prop where
  first : Cleared settings now t request paperB → ∃ s, result.selected = some s ∧ s.provider = paperB
  second : ¬Cleared settings now t request paperB → Cleared settings now t request paperA →
    ∃ s, result.selected = some s ∧ s.provider = paperA
  neither : ¬Cleared settings now t request paperB → ¬Cleared settings now t request paperA → result.selected = none

theorem paper_preference (hseeded : Seeded t simulation paperA paperB) (hpaper : request.mode = .paper)
    (hsized : request.Sized) (hpolicy : OwnPolicy now t request) (h : route settings now t request = .ok result) :
    PaperPreference settings now t request result paperA paperB := by
  have hcodes := hseeded.codes
  have hmodes := hseeded.modes
  rw [hseeded.providers] at hcodes hmodes
  simp only [List.map_cons, List.map_nil, List.cons.injEq, and_true] at hcodes hmodes
  obtain ⟨-, hcodeA, hcodeB⟩ := hcodes
  obtain ⟨hmodeS, hmodeA, hmodeB⟩ := hmodes
  have heligible (s : ScoredCandidate) (hs : s ∈ filterCandidates result.candidates) :
      Cleared settings now t request s.provider ∧ (s.provider = paperA ∨ s.provider = paperB) := by
    obtain ⟨hmem, hcleared⟩ := (mem_eligible h).mp hs
    obtain ⟨p, hp, hmode, hps⟩ := (mem_candidates h).mp hmem
    obtain ⟨rfl, -⟩ := scored_ok hps
    rw [hseeded.providers] at hp
    rcases List.mem_cons.mp hp with hsimulation | hlater
    · rw [hsimulation, hmodeS, hpaper] at hmode
      cases hmode
    · exact ⟨hcleared, by simpa using hlater⟩
  have hselected (p : RoutedProvider) (hp : p ∈ t.providers) (hmode : p.provider.mode = .paper)
      (hcleared : Cleared settings now t request p) : (∃ s, result.selected = some s) ∧
        ∃ s ∈ filterCandidates result.candidates, s.provider = p := by
    obtain ⟨s, hs, hps⟩ := ok_of_mapM (route_ok h).1 p
      (List.mem_filter.mpr ⟨hp, decide_eq_true (hmode.trans hpaper.symm)⟩)
    obtain ⟨rfl, -⟩ := scored_ok hps
    have hmem := (mem_eligible h).mpr ⟨hs, hcleared⟩
    refine ⟨Option.ne_none_iff_exists'.mp fun hnone => ?_, s, hmem, rfl⟩
    rw [(selected_eq_none h).mp hnone] at hmem
    cases hmem
  refine ⟨fun hB => ?_, fun hB hA => ?_, fun hB hA => ?_⟩
  · obtain ⟨⟨s, hs⟩, s', hs', hprovider⟩ := hselected paperB (by simp [hseeded.providers]) hmodeB hB
    obtain ⟨hmem, hleast⟩ := (selected_eq_some h).mp hs
    rcases (heligible s hmem).2 with hsA | hsB
    · have hlt := paperB_ranks_first hsized hpolicy h hs' hmem (hprovider ▸ hcodeB) (hsA ▸ hcodeA)
      exact absurd (hleast s' hs') (not_le.mpr hlt)
    · exact ⟨s, hs, hsB⟩
  · obtain ⟨⟨s, hs⟩, -⟩ := hselected paperA (by simp [hseeded.providers]) hmodeA hA
    obtain ⟨hcleared, hsA | hsB⟩ := heligible s ((selected_eq_some h).mp hs).1
    · exact ⟨s, hs, hsA⟩
    · exact absurd (hsB ▸ hcleared) hB
  · refine (selected_eq_none h).mpr (List.eq_nil_iff_forall_not_mem.mpr fun s hs => ?_)
    obtain ⟨hcleared, hsA | hsB⟩ := heligible s hs
    · exact hA (hsA ▸ hcleared)
    · exact hB (hsB ▸ hcleared)

theorem paper_preference_seeded : ∃ result, route {} 0 seededTables paperRequest = .ok result ∧
    PaperPreference {} 0 seededTables paperRequest result (paperProvider "paper-a" 20) (paperProvider "paper-b" 30) := by
  obtain ⟨result, hroute⟩ := paper_routed
  exact ⟨result, hroute, paper_preference ⟨rfl, rfl, rfl⟩ rfl ⟨by norm_num [paperRequest], by norm_num [paperRequest]⟩
    ⟨0, rfl⟩ hroute⟩

end SmartOrderRouter

end ExecutionControl

end Beyvra
