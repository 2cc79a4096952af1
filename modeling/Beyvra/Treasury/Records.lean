import Beyvra.Foundation.Records
import Beyvra.Numeric.Column

namespace Beyvra

open Relational Numeric

namespace Treasury

inductive AccountType where
  | simulationCash | brokerCashReference | custodyReference | clearingReference | settlementReference
  | omnibusReference | segregatedReference | houseReference | collateralReference
  deriving DecidableEq

inductive SegregationClass where
  | clientSegregated | omnibusClient | house | clearing | custody | unknown
  deriving DecidableEq

structure TreasuryAccount where
  id : Uuid
  tenant : Uuid
  accountType : AccountType
  status : String
  segregationClass : SegregationClass
  deriving DecidableEq

-- max_digits=30, decimal_places=10
def amountColumn : Column := ⟨30, 10⟩

structure TreasuryCashPosition where
  treasuryAccount : TreasuryAccount
  currency : String
  grossAmount : ℚ
  availableAmount : ℚ
  grossHolds : amountColumn.Holds grossAmount
  availableHolds : amountColumn.Holds availableAmount
  nonnegative : 0 ≤ grossAmount ∧ 0 ≤ availableAmount

inductive Raised where
  | valueError (code : String)
  | doesNotExist (model : String)
  | dataError
  | overflow
  deriving DecidableEq

-- CashPositionService.get_positions
def getPositions (upper : String → String) (tenant : Uuid) (currency : String) (positions : List TreasuryCashPosition) :
    List TreasuryCashPosition :=
  positions.filter fun p => p.treasuryAccount.tenant = tenant ∧ (currency = "" ∨ p.currency = upper currency)

theorem amountColumn_holds_zero : amountColumn.Holds 0 := ⟨⟨0, by simp⟩, by norm_num [amountColumn, Column.bound]⟩

end Treasury

end Beyvra
