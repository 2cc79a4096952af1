import Mathlib.Data.String.Basic
import Beyvra.Foundation.Decimals
import Beyvra.Relational.SortedBy
import Beyvra.Treasury.Records

namespace Beyvra

open Relational Numeric

namespace Treasury

structure TreasuryCollateralPosition where
  id : Uuid
  treasuryAccount : TreasuryAccount
  instrumentIdOrAsset : String
  quantity : ℚ
  encumberedQuantity : ℚ
  freeQuantity : ℚ
  qualityState : String
  nonnegative : 0 ≤ quantity ∧ 0 ≤ encumberedQuantity ∧ 0 ≤ freeQuantity

structure AssetEncumbrance where
  treasuryAccount : Uuid
  asset : String
  quantityOrAmount : ℚ
  effectiveFrom : Timestamp
  effectiveTo : Option Timestamp
  state : String

structure CollateralMobilityPolicy where
  tenant : Uuid
  fromAccountType : AccountType
  toAccountType : AccountType
  allowed : Bool
  settlementDelay : Int
  effectiveFrom : Timestamp

structure CollateralTables where
  accounts : List TreasuryAccount
  positions : List TreasuryCollateralPosition
  encumbrances : List AssetEncumbrance
  policies : List CollateralMobilityPolicy

inductive Extended where
  | finite (x : ℚ)
  | infinity (negative : Bool)
  deriving DecidableEq

structure MobilityPreview where
  allowed : Bool
  availableQuantity : ℚ
  encumberedQuantity : ℚ
  postMoveBuffer : Extended
  settlementDelaySeconds : Int
  reasonCodes : List String
  deriving DecidableEq

inductive PreviewRaised where
  | doesNotExist
  | invalidOperation
  | overflow
  deriving DecidableEq

def AssetEncumbrance.isActive (account : Uuid) (asset : String) (now : Timestamp) (e : AssetEncumbrance) : Bool :=
  e.treasuryAccount = account ∧ e.asset = asset ∧ e.state = "ACTIVE" ∧ e.effectiveFrom ≤ now ∧
    (e.effectiveTo = none ∨ ∃ till ∈ e.effectiveTo, now < till)

def activeQuantity (encumbrances : List AssetEncumbrance) (now : Timestamp) (position : TreasuryCollateralPosition) : ℚ :=
  ((encumbrances.filter (·.isActive position.treasuryAccount.id position.instrumentIdOrAsset now)).map
    (·.quantityOrAmount)).sum

def unencumbered (encumbrances : List AssetEncumbrance) (now : Timestamp) (position : TreasuryCollateralPosition) : ℚ :=
  defaultContext.round (position.quantity - activeQuantity encumbrances now position)

def movableQuantity (encumbrances : List AssetEncumbrance) (now : Timestamp) (position : TreasuryCollateralPosition) : ℚ :=
  max 0 (min position.freeQuantity (unencumbered encumbrances now position))

-- `free < quantity`, which a NaN makes an invalid operation
def exceeds (quantity : Decimal) (free : ℚ) : Except PreviewRaised Bool :=
  match quantity with
  | .finite d => .ok (free < d.value)
  | .infinity negative => .ok !negative
  | .nan _ => .error .invalidOperation

-- `max(ZERO, available - quantity)`
def bufferAfter (quantity : Decimal) (available : ℚ) : Except PreviewRaised Extended :=
  match quantity with
  | .finite d => do
    let rest ← demand (defaultContext.sub available d.value) .overflow
    return .finite (max 0 rest)
  | .infinity negative => .ok (if negative then .infinity false else .finite 0)
  | .nan _ => .error .invalidOperation

def accountOf (accounts : List TreasuryAccount) (tenant id : Uuid) : Except PreviewRaised TreasuryAccount :=
  demand (accounts.find? fun a => a.tenant = tenant ∧ a.id = id) .doesNotExist

def inventory (positions : List TreasuryCollateralPosition) (tenant : Uuid) (asset : String) :
    List TreasuryCollateralPosition :=
  positions.filter fun p => p.treasuryAccount.tenant = tenant ∧ (asset = "" ∨ p.instrumentIdOrAsset = asset)

def positionOf (positions : List TreasuryCollateralPosition) (tenant : Uuid) (asset : String) (source : TreasuryAccount) :
    Option TreasuryCollateralPosition :=
  (sortedBy (·.id) ((inventory positions tenant asset).filter fun p => p.treasuryAccount.id = source.id)).head?

def policyOf (policies : List CollateralMobilityPolicy) (tenant : Uuid) (source destination : TreasuryAccount) :
    Option CollateralMobilityPolicy :=
  (sortedBy (fun p => -p.effectiveFrom) (policies.filter fun p => p.tenant = tenant ∧
    p.fromAccountType = source.accountType ∧ p.toAccountType = destination.accountType ∧ p.allowed)).head?

def positionReasons (quantity : Decimal) : Option TreasuryCollateralPosition → Except PreviewRaised (List String)
  | none => .ok ["COLLATERAL_UNAVAILABLE"]
  | some position =>
    if position.qualityState = "STALE" then .ok ["STALE_COLLATERAL"]
    else if position.qualityState ≠ "ELIGIBLE" then .ok ["COLLATERAL_RESTRICTED"]
    else do
      let short ← exceeds quantity position.freeQuantity
      return if short then ["COLLATERAL_UNAVAILABLE"] else []

def segregationReasons (source destination : TreasuryAccount) : List String :=
  if source.segregationClass = .clientSegregated ∧ destination.segregationClass = .house then ["SEGREGATION_CONFLICT"]
  else []

def policyReasons (policy : Option CollateralMobilityPolicy) : List String :=
  if policy.isNone then ["TRANSFER_NOT_ALLOWED"] else []

def preview (tables : CollateralTables) (tenant sourceId destinationId : Uuid) (asset : String) (quantity : Decimal) :
    Except PreviewRaised MobilityPreview := do
  let source ← accountOf tables.accounts tenant sourceId
  let destination ← accountOf tables.accounts tenant destinationId
  let position := positionOf tables.positions tenant asset source
  let policy := policyOf tables.policies tenant source destination
  let found ← positionReasons quantity position
  let reasons := found ++ (segregationReasons source destination ++ policyReasons policy)
  let available := (position.map (·.freeQuantity)).getD 0
  let buffer ← bufferAfter quantity available
  return ⟨reasons.isEmpty, available, (position.map (·.encumberedQuantity)).getD 0, buffer,
    (policy.map fun p => p.settlementDelay.tdiv microsecondsPerSecond).getD 0, sortedBy id reasons.dedup⟩

section Agreement

variable (tables : CollateralTables) (now : Timestamp) (tenant sourceId destinationId : Uuid) (asset : String)
  (quantity : Decimal)

def Movable (position : TreasuryCollateralPosition) : Prop :=
  ∃ d, quantity = .finite d ∧ 0 < d.value ∧ d.value ≤ movableQuantity tables.encumbrances now position

-- What an allowed preview says of the position it looks at
def PreviewAgrees : Prop :=
  ∀ result, preview tables tenant sourceId destinationId asset quantity = .ok result → result.allowed = true →
    ∃ source position, accountOf tables.accounts tenant sourceId = .ok source ∧
      positionOf tables.positions tenant asset source = some position ∧ Movable tables now quantity position

structure Passes (source destination : TreasuryAccount) (position : TreasuryCollateralPosition) : Prop where
  sourceFound : accountOf tables.accounts tenant sourceId = .ok source
  destinationFound : accountOf tables.accounts tenant destinationId = .ok destination
  positionFound : positionOf tables.positions tenant asset source = some position
  quality : position.qualityState = "ELIGIBLE"
  covered : exceeds quantity position.freeQuantity = .ok false
  segregated : ¬(source.segregationClass = .clientSegregated ∧ destination.segregationClass = .house)
  policyFound : (policyOf tables.policies tenant source destination).isSome
  within : ∀ d, quantity = .finite d → (defaultContext.sub position.freeQuantity d.value).isSome

def Unpledged (position : TreasuryCollateralPosition) : Prop :=
  ∃ d, quantity = .finite d ∧ 0 < d.value ∧ d.value ≤ unencumbered tables.encumbrances now position

end Agreement

variable {tables : CollateralTables} {now : Timestamp} {tenant sourceId destinationId : Uuid} {asset : String}
  {quantity : Decimal} {source destination : TreasuryAccount} {position : TreasuryCollateralPosition}

theorem positionReasons_eq_nil {found : Option TreasuryCollateralPosition} : positionReasons quantity found = .ok [] ↔
    ∃ position, found = some position ∧ position.qualityState = "ELIGIBLE" ∧
      exceeds quantity position.freeQuantity = .ok false := by
  cases found with
  | none => simp [positionReasons]
  | some position =>
    simp only [positionReasons, Option.some.injEq, exists_eq_left']
    split_ifs with hstale hquality
    · simp [hstale]
    · simp [hquality]
    · rw [bind_eq_ok]
      simp [pure_eq_ok, not_not.mp hquality]

theorem movable_iff {d : FiniteDecimal} (hpos : 0 < d.value) (hfree : exceeds (.finite d) position.freeQuantity = .ok false) :
    d.value ≤ movableQuantity tables.encumbrances now position ↔ d.value ≤ unencumbered tables.encumbrances now position := by
  have hle : d.value ≤ position.freeQuantity := not_lt.mp (of_decide_eq_false (Except.ok.inj hfree))
  rw [movableQuantity, le_max_iff, le_min_iff]
  constructor
  · rintro (hzero | ⟨-, h⟩)
    · exact absurd hpos (not_lt.mpr hzero)
    · exact h
  · exact fun h => .inr ⟨hle, h⟩

theorem bufferAfter_isOk_iff {free : ℚ} (h : exceeds quantity free = .ok false) :
    (∃ buffer, bufferAfter quantity free = .ok buffer) ↔
      ∀ d, quantity = .finite d → (defaultContext.sub free d.value).isSome := by
  cases quantity with
  | finite d =>
    simp only [bufferAfter, bind_eq_ok, demand_eq_ok, pure_eq_ok, Decimal.finite.injEq, forall_eq', Option.isSome_iff_exists]
    exact ⟨fun ⟨_, rest, hrest, _⟩ => ⟨rest, hrest⟩, fun ⟨rest, hrest⟩ => ⟨_, rest, hrest, rfl⟩⟩
  | infinity negative => exact iff_of_true ⟨_, rfl⟩ fun d hd => nomatch hd
  | nan signaling => cases h

theorem preview_allowed_iff : (∃ result, preview tables tenant sourceId destinationId asset quantity = .ok result ∧
      result.allowed = true) ↔
    ∃ source destination position, Passes tables tenant sourceId destinationId asset quantity source destination position := by
  constructor
  · rintro ⟨result, hresult, hallowed⟩
    obtain ⟨source, hsource, hresult⟩ := bind_eq_ok.mp hresult
    obtain ⟨destination, hdestination, hresult⟩ := bind_eq_ok.mp hresult
    obtain ⟨found, hfound, hresult⟩ := bind_eq_ok.mp hresult
    obtain ⟨buffer, hbuffer, hresult⟩ := bind_eq_ok.mp hresult
    rw [← pure_eq_ok.mp hresult] at hallowed
    have hempty := List.isEmpty_iff.mp hallowed
    obtain ⟨hnone, hrest⟩ := List.append_eq_nil_iff.mp hempty
    obtain ⟨hsegregation, hpolicy⟩ := List.append_eq_nil_iff.mp hrest
    rw [hnone] at hfound
    obtain ⟨position, hposition, hquality, hcovered⟩ := positionReasons_eq_nil.mp hfound
    rw [hposition] at hbuffer
    refine ⟨source, destination, position, hsource, hdestination, hposition, hquality, hcovered, ?_, ?_,
      (bufferAfter_isOk_iff hcovered).mp ⟨buffer, hbuffer⟩⟩
    · intro hconflict
      simp [segregationReasons, hconflict] at hsegregation
    · simpa [policyReasons, Option.isSome_iff_ne_none] using hpolicy
  · rintro ⟨source, destination, position, h⟩
    obtain ⟨buffer, hbuffer⟩ := (bufferAfter_isOk_iff h.covered).mpr h.within
    have hreasons := positionReasons_eq_nil.mpr ⟨position, h.positionFound, h.quality, h.covered⟩
    refine ⟨_, bind_eq_ok.mpr ⟨source, h.sourceFound, bind_eq_ok.mpr ⟨destination, h.destinationFound,
      bind_eq_ok.mpr ⟨[], hreasons, bind_eq_ok.mpr ⟨buffer, ?_, rfl⟩⟩⟩⟩, ?_⟩
    · rw [h.positionFound]
      exact hbuffer
    · simp [segregationReasons, h.segregated, policyReasons, Option.isSome_iff_ne_none.mp h.policyFound]

theorem preview_agrees_iff : PreviewAgrees tables now tenant sourceId destinationId asset quantity ↔
    ∀ source destination position, Passes tables tenant sourceId destinationId asset quantity source destination position →
      Unpledged tables now quantity position := by
  constructor
  · intro h source destination position hpasses
    obtain ⟨result, hresult, hallowed⟩ := preview_allowed_iff.mpr ⟨source, destination, position, hpasses⟩
    obtain ⟨source', position', hsource, hposition, d, rfl, hpos, hle⟩ := h result hresult hallowed
    obtain rfl : source = source' := Except.ok.inj (hpasses.sourceFound.symm.trans hsource)
    obtain rfl : position = position' := Option.some.inj (hpasses.positionFound.symm.trans hposition)
    exact ⟨d, rfl, hpos, (movable_iff hpos hpasses.covered).mp hle⟩
  · intro h result hresult hallowed
    obtain ⟨source, destination, position, hpasses⟩ := preview_allowed_iff.mp ⟨result, hresult, hallowed⟩
    obtain ⟨d, rfl, hpos, hle⟩ := h source destination position hpasses
    exact ⟨source, position, hpasses.sourceFound, hpasses.positionFound, d, rfl, hpos,
      (movable_iff hpos hpasses.covered).mpr hle⟩

def custodyAccount : TreasuryAccount := ⟨"custody", "tenant", .custodyReference, "ACTIVE", .custody⟩

def clearingAccount : TreasuryAccount := ⟨"clearing", "tenant", .clearingReference, "ACTIVE", .clearing⟩

def bondPosition : TreasuryCollateralPosition := ⟨"position", custodyAccount, "BOND", 1000, 0, 1000, "ELIGIBLE", by norm_num⟩

-- 800 of the 1000 are pledged, which the stored free quantity does not say yet.
def pledgedTables : CollateralTables where
  accounts := [custodyAccount, clearingAccount]
  positions := [bondPosition]
  encumbrances := [⟨"custody", "BOND", 800, 0, none, "ACTIVE"⟩]
  policies := [⟨"tenant", .custodyReference, .clearingReference, true, 0, 0⟩]

theorem pledged_allowed : (preview pledgedTables "tenant" "custody" "clearing" "BOND" (.finite ⟨false, 500, 0⟩)).map
      (·.allowed) = .ok true ∧ movableQuantity pledgedTables.encumbrances 1 bondPosition = 200 ∧
    ¬PreviewAgrees pledgedTables 1 "tenant" "custody" "clearing" "BOND" (.finite ⟨false, 500, 0⟩) := by
  refine ⟨by decide +kernel, by decide +kernel, fun h => ?_⟩
  have hpasses : Passes pledgedTables "tenant" "custody" "clearing" "BOND" (.finite ⟨false, 500, 0⟩) custodyAccount
      clearingAccount bondPosition :=
    ⟨rfl, rfl, rfl, rfl, by decide +kernel, by decide, by decide +kernel, fun d hd => by cases hd; decide +kernel⟩
  obtain ⟨d, hd, -, hle⟩ := preview_agrees_iff.mp h _ _ _ hpasses
  obtain rfl : (⟨false, 500, 0⟩ : FiniteDecimal) = d := Decimal.finite.inj hd
  exact absurd hle (by decide +kernel)

end Treasury

end Beyvra
