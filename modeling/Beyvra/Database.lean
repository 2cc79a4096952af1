import Beyvra.PostTrade.Records

namespace Beyvra

open Relational

inductive Scenario where
  | immediateFullFill | partialThenFill | openThenCancel | reject | expire
  deriving DecidableEq

structure Settings where
  simulatedExecutionPrices : List (String × ℚ)
  simulatedExecutionScenario : Scenario := .immediateFullFill
  simulatedExecutionPriceSource : String := "deterministic_fixture"
  simulatedMarketDataStale : Bool := false
  surveillanceEnabled : Bool := true
  selfTradePreventionEnabled : Bool := true
  realTradingEnabled : Bool := false
  externalExecutionEnabled : Bool := false
  liveBrokerRoutingEnabled : Bool := false
  fixLiveSessionEnabled : Bool := false
  simulationAllowed : Bool := true

def Settings.priceOf (settings : Settings) (instrument : String) : Option ℚ :=
  settings.simulatedExecutionPrices.lookup instrument

def calendarSeedDate : Date := 18262

-- The clock never runs behind the settlement calendar that the migrations seed.
structure Env where
  now : Timestamp
  settings : Settings
  uuid4 : String → Uuid
  routable : Bool := true
  seeded : calendarSeedDate ≤ Timestamp.date now

structure Database where
  foundation : FoundationTables := {}
  compliance : ComplianceTables := {}
  trading : TradingTables := {}
  surveillance : SurveillanceTables := {}
  postTrade : PostTradeTables := {}
  valuation : ValuationTables := {}

end Beyvra
