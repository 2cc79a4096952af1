import Mathlib.Data.Prod.Lex
import Beyvra.Numeric.CountedSteps
import Beyvra.Relational.SortedBy
import Beyvra.Text.IsoDate

namespace Beyvra

open Relational Numeric IsoDate

namespace SettlementCalendars

-- A date of Python, which ends with 9999-12-31
@[ext] structure CalendarDate where
  ordinal : Nat
  valid : 1 ≤ ordinal ∧ ordinal ≤ maxOrdinal
  deriving DecidableEq

theorem ordinal_injective : Function.Injective CalendarDate.ordinal := fun _ _ h => CalendarDate.ext h

instance : LinearOrder CalendarDate := LinearOrder.lift' CalendarDate.ordinal ordinal_injective

inductive SettlementConvention where
  | tPlus0 | tPlus1 | tPlus2 | instant | blockchainFinality | custom
  deriving DecidableEq

structure SettlementCalendar where
  assetClass : String
  settlementConvention : SettlementConvention
  holidays : List String
  effectiveFrom : CalendarDate
  effectiveTo : Option CalendarDate
  deriving DecidableEq

inductive Raised where
  | valueError (code : String)
  | overflowError
  deriving DecidableEq

def SettlementConvention.days : SettlementConvention → Option Nat
  | .instant | .tPlus0 | .blockchainFinality => some 0
  | .tPlus1 => some 1
  | .tPlus2 => some 2
  | .custom => none

-- Monday is 0
def weekday (ordinal : Nat) : Nat := (ordinal + 6) % 7

def isBusinessDay (holidays : List String) (ordinal : Nat) : Bool := weekday ordinal < 5 ∧ isoformat ordinal ∉ holidays

-- The day after 9999-12-31 raises
def advanceDate (holidays : List String) (days : Nat) (result : CalendarDate) (advanced : Nat) :
    Except Raised CalendarDate :=
  if advanced < days then
    if h : result.ordinal < maxOrdinal then
      advanceDate holidays days ⟨result.ordinal + 1, by omega, h⟩
        (if isBusinessDay holidays (result.ordinal + 1) then advanced + 1 else advanced)
    else .error .overflowError
  else .ok result
termination_by maxOrdinal - result.ordinal

def effectivePolicy (calendars : List SettlementCalendar) (tradeDate : CalendarDate) (assetClass : String) :
    Option SettlementCalendar :=
  (sortedBy (fun c => OrderDual.toDual c.effectiveFrom) (calendars.filter fun c => c.assetClass = assetClass ∧
    c.effectiveFrom ≤ tradeDate ∧ ∀ last ∈ c.effectiveTo, tradeDate ≤ last)).head?

def calculateSettlementDate (calendars : List SettlementCalendar) (tradeDate : CalendarDate) (assetClass : String) :
    Except Raised (CalendarDate × SettlementCalendar) := do
  let policy ← demand (effectivePolicy calendars tradeDate assetClass) (.valueError "SETTLEMENT_CALENDAR_UNAVAILABLE")
  let days ← demand policy.settlementConvention.days (.valueError "CUSTOM_SETTLEMENT_POLICY_REQUIRED")
  let result ← advanceDate policy.holidays days tradeDate 0
  return (result, policy)

-- The weekdays after `start` and up to `stop` that are no holidays
def businessDays (holidays : List String) (start stop : CalendarDate) : Nat :=
  countBetween (isBusinessDay holidays) start.ordinal stop.ordinal

def settlementDates (holidays : List String) (tradeDate : CalendarDate) (days : Nat) : Set CalendarDate :=
  {d | tradeDate ≤ d ∧ businessDays holidays tradeDate d = days}

variable {holidays : List String} {days advanced : Nat} {tradeDate d : CalendarDate}

theorem map_advanceDate (holidays : List String) (days : Nat) (result : CalendarDate) (advanced : Nat) :
    (advanceDate holidays days result advanced).map (·.ordinal) =
      demand (advance (isBusinessDay holidays) (maxOrdinal - result.ordinal) result.ordinal (days - advanced))
        .overflowError := by
  induction result, advanced using advanceDate.induct holidays days with
  | case1 result advanced hdays hmax ih =>
    obtain ⟨left, hleft⟩ : ∃ left, maxOrdinal - result.ordinal = left + 1 := ⟨maxOrdinal - result.ordinal - 1, by omega⟩
    obtain ⟨n, hn⟩ : ∃ n, days - advanced = n + 1 := ⟨days - advanced - 1, by omega⟩
    have hnext : maxOrdinal - (result.ordinal + 1) = left := by omega
    have hcount : days - (if isBusinessDay holidays (result.ordinal + 1) then advanced + 1 else advanced) =
        if isBusinessDay holidays (result.ordinal + 1) then n else n + 1 := by split_ifs <;> omega
    simp only [dite_eq_ite] at ih
    rw [advanceDate, if_pos hdays, dif_pos hmax, ih, hleft, hn, advance, hnext, hcount]
  | case2 result advanced hdays hmax =>
    obtain ⟨n, hn⟩ : ∃ n, days - advanced = n + 1 := ⟨days - advanced - 1, by omega⟩
    rw [advanceDate, if_pos hdays, dif_neg hmax, Nat.sub_eq_zero_of_le (not_lt.mp hmax), hn, advance]
    rfl
  | case3 result advanced hdays =>
    have hdone : days - advanced = 0 := Nat.sub_eq_zero_of_le (not_lt.mp hdays)
    rw [advanceDate, if_neg hdays, hdone, advance]
    rfl

theorem isLeast_image_ordinal {dates : Set CalendarDate} :
    IsLeast (CalendarDate.ordinal '' dates) d.ordinal ↔ IsLeast dates d := by
  refine and_congr ordinal_injective.mem_set_image ?_
  rw [mem_lowerBounds, mem_lowerBounds, Set.forall_mem_image]
  rfl

theorem reached_eq_image (holidays : List String) (tradeDate : CalendarDate) (days : Nat) :
    reached (isBusinessDay holidays) (maxOrdinal - tradeDate.ordinal) tradeDate.ordinal days =
      CalendarDate.ordinal '' settlementDates holidays tradeDate days := by
  ext n
  obtain ⟨hfirst, hlast⟩ := tradeDate.valid
  constructor
  · rintro ⟨hlow, hhigh, hcount⟩
    exact ⟨⟨n, by omega, by omega⟩, ⟨hlow, hcount⟩, rfl⟩
  · rintro ⟨d, ⟨hlow, hcount⟩, rfl⟩
    have hmax : d.ordinal ≤ maxOrdinal := d.valid.2
    exact ⟨hlow, by omega, hcount⟩

theorem advanceDate_eq_ok :
    advanceDate holidays days tradeDate 0 = .ok d ↔ IsLeast (settlementDates holidays tradeDate days) d := by
  have hmap := map_advanceDate holidays days tradeDate 0
  rw [← isLeast_image_ordinal, ← reached_eq_image, ← advance_eq_some, ← demand_eq_ok (e := Raised.overflowError)]
  rw [Nat.sub_zero] at hmap
  rw [← hmap]
  cases advanceDate holidays days tradeDate 0 with
  | error e => exact iff_of_false nofun nofun
  | ok d' =>
    show Except.ok d' = .ok d ↔ Except.ok d'.ordinal = .ok d.ordinal
    rw [Except.ok.injEq, Except.ok.injEq, ordinal_injective.eq_iff]

theorem advanceDate_eq_error {e : Raised} : advanceDate holidays days tradeDate 0 = .error e ↔
    settlementDates holidays tradeDate days = ∅ ∧ e = .overflowError := by
  have hmap := map_advanceDate holidays days tradeDate 0
  rw [← Set.image_eq_empty (f := CalendarDate.ordinal), ← reached_eq_image, ← advance_eq_none]
  rw [Nat.sub_zero] at hmap
  cases hdate : advanceDate holidays days tradeDate 0 with
  | error e' =>
    rw [hdate] at hmap
    obtain ⟨hnone, rfl⟩ := demand_eq_error.mp hmap.symm
    rw [Except.error.injEq]
    exact ⟨fun h => ⟨hnone, h.symm⟩, fun h => h.2.symm⟩
  | ok d' =>
    rw [hdate] at hmap
    rw [demand_eq_ok.mp hmap.symm]
    exact iff_of_false nofun fun h => nomatch h.1

theorem exists_advanceDate (h : (settlementDates holidays tradeDate days).Nonempty) :
    ∃ d, advanceDate holidays days tradeDate 0 = .ok d := by
  cases hdate : advanceDate holidays days tradeDate 0 with
  | ok d => exact ⟨d, rfl⟩
  | error e => exact absurd (advanceDate_eq_error.mp hdate).1 h.ne_empty

-- The number of business days is reached before it is passed.
theorem exists_settlementDates (hd : tradeDate ≤ d) (h : days ≤ businessDays holidays tradeDate d) :
    ∃ d' ≤ d, d' ∈ settlementDates holidays tradeDate days := by
  obtain ⟨n, hlow, hhigh, hcount⟩ := exists_countBetween hd h
  have hvalid : 1 ≤ n ∧ n ≤ maxOrdinal := ⟨tradeDate.valid.1.trans hlow, hhigh.trans d.valid.2⟩
  exact ⟨⟨n, hvalid⟩, hhigh, hlow, hcount⟩

theorem businessDays_weeks (holidays : List String) (tradeDate : CalendarDate) {weeks : Nat} (h : d.ordinal = tradeDate.ordinal + 7 * weeks) :
    5 * weeks ≤ businessDays holidays tradeDate d + holidays.length := by
  have hweekdays : countBetween (fun n => weekday n < 5) tradeDate.ordinal d.ordinal = 5 * weeks := by
    have hweek (n : Nat) : weekday (n + 7) = weekday n := by
      unfold weekday
      omega
    rw [h, countBetween_periods (fun n => by rw [hweek])]
    rfl
  have hholidays : countBetween (fun n => isoformat n ∈ holidays) tradeDate.ordinal d.ordinal ≤ holidays.length := by
    obtain ⟨hfirst, hlast⟩ := tradeDate.valid
    obtain ⟨-, hmax⟩ := d.valid
    exact countBetween_le_length fun m hm hm' n hn hn' heq =>
      isoformat_injective ⟨by omega, by omega⟩ ⟨by omega, by omega⟩ heq
  rw [← hweekdays]
  refine (countBetween_le_add (fun n hn => ?_) _ _).trans (Nat.add_le_add_left hholidays _)
  by_cases hmem : isoformat n ∈ holidays
  · exact Or.inr (decide_eq_true hmem)
  · exact Or.inl (decide_eq_true ⟨of_decide_eq_true hn, hmem⟩)

theorem businessDays_antitone {later : CalendarDate} (h : tradeDate ≤ later) (h' : later ≤ d) :
    businessDays holidays later d ≤ businessDays holidays tradeDate d := by
  have hadd : businessDays holidays tradeDate later + businessDays holidays later d =
      businessDays holidays tradeDate d := countBetween_add _ h h'
  omega

structure SettlesOn (calendars : List SettlementCalendar) (tradeDate : CalendarDate) (assetClass : String)
    (policy : SettlementCalendar) (days : Nat) : Prop where
  least : (settlementDates policy.holidays tradeDate days).Nonempty →
    ∃ d, calculateSettlementDate calendars tradeDate assetClass = .ok (d, policy) ∧
      IsLeast (settlementDates policy.holidays tradeDate days) d
  overflow : settlementDates policy.holidays tradeDate days = ∅ →
    calculateSettlementDate calendars tradeDate assetClass = .error .overflowError
  reachable : tradeDate.ordinal + 7 * (days + policy.holidays.length) ≤ maxOrdinal →
    (settlementDates policy.holidays tradeDate days).Nonempty
  monotone : ∀ later d', tradeDate ≤ later → calculateSettlementDate calendars later assetClass = .ok (d', policy) →
    ∃ d ≤ d', calculateSettlementDate calendars tradeDate assetClass = .ok (d, policy)

section Policy

variable {calendars : List SettlementCalendar} {assetClass : String} {policy : SettlementCalendar}

theorem calculateSettlementDate_of_policy (hpolicy : effectivePolicy calendars tradeDate assetClass = some policy)
    (hdays : policy.settlementConvention.days = some days) :
    calculateSettlementDate calendars tradeDate assetClass =
      (advanceDate policy.holidays days tradeDate 0 >>= fun result => .ok (result, policy)) := by
  rw [calculateSettlementDate, bind_of_ok (demand_eq_ok.mpr hpolicy), bind_of_ok (demand_eq_ok.mpr hdays)]
  rfl

theorem calculateSettlementDate_eq_ok {result : CalendarDate}
    (h : calculateSettlementDate calendars tradeDate assetClass = .ok (result, policy))
    (hdays : policy.settlementConvention.days = some days) :
    IsLeast (settlementDates policy.holidays tradeDate days) result := by
  obtain ⟨policy', -, h⟩ := bind_eq_ok.mp h
  obtain ⟨days', hdays', h⟩ := bind_eq_ok.mp h
  obtain ⟨result', hresult, h⟩ := bind_eq_ok.mp h
  obtain ⟨rfl, rfl⟩ := Prod.mk.inj (pure_eq_ok.mp h)
  obtain rfl : days' = days := Option.some.inj ((demand_eq_ok.mp hdays').symm.trans hdays)
  exact advanceDate_eq_ok.mp hresult

theorem settlement_date_sound (hpolicy : effectivePolicy calendars tradeDate assetClass = some policy)
    (hdays : policy.settlementConvention.days = some days) : SettlesOn calendars tradeDate assetClass policy days := by
  have hcall := calculateSettlementDate_of_policy hpolicy hdays
  constructor
  · intro hsome
    obtain ⟨d, hd⟩ := exists_advanceDate hsome
    exact ⟨d, by rw [hcall, hd]; rfl, advanceDate_eq_ok.mp hd⟩
  · intro hnone
    rw [hcall, advanceDate_eq_error.mpr ⟨hnone, rfl⟩]
    rfl
  · intro hroom
    obtain ⟨last, hlast⟩ : ∃ last : CalendarDate,
        last.ordinal = tradeDate.ordinal + 7 * (days + policy.holidays.length) :=
      ⟨⟨_, tradeDate.valid.1.trans (Nat.le_add_right _ _), hroom⟩, rfl⟩
    have hweeks := businessDays_weeks policy.holidays tradeDate hlast
    have hlate : tradeDate.ordinal ≤ last.ordinal := hlast.symm ▸ Nat.le_add_right _ _
    have hmore : days ≤ businessDays policy.holidays tradeDate last := by omega
    obtain ⟨d, -, hd⟩ := exists_settlementDates hlate hmore
    exact ⟨d, hd⟩
  · intro later d' hlater hd'
    obtain ⟨hstart, hcount⟩ := (calculateSettlementDate_eq_ok hd' hdays).1
    have hmore : days ≤ businessDays policy.holidays tradeDate d' := hcount ▸ businessDays_antitone hlater hstart
    obtain ⟨first, hfirst, hmem⟩ := exists_settlementDates (hlater.trans hstart) hmore
    obtain ⟨d, hd⟩ := exists_advanceDate ⟨first, hmem⟩
    exact ⟨d, ((advanceDate_eq_ok.mp hd).2 hmem).trans hfirst, by rw [hcall, hd]; rfl⟩

end Policy

-- From 2020-01-01 on
def cryptoCalendar (settlementConvention : SettlementConvention) (holidays : List String) : SettlementCalendar :=
  ⟨"CRYPTO", settlementConvention, holidays, ⟨737425, by decide⟩, none⟩

-- 2024-04-30, a Tuesday
theorem may_day_settles : SettlesOn [cryptoCalendar .tPlus2 ["2024-05-01"]] ⟨739006, by decide⟩ "CRYPTO"
    (cryptoCalendar .tPlus2 ["2024-05-01"]) 2 := settlement_date_sound (by decide) rfl

-- No day follows 9999-12-31.
theorem last_date_unsettled : calculateSettlementDate [cryptoCalendar .tPlus1 []] ⟨maxOrdinal, by decide⟩ "CRYPTO" =
    .error .overflowError := by
  have hpolicy : effectivePolicy [cryptoCalendar .tPlus1 []] ⟨maxOrdinal, by decide⟩ "CRYPTO" =
      some (cryptoCalendar .tPlus1 []) := by decide
  rw [calculateSettlementDate_of_policy hpolicy rfl, advanceDate]
  rfl

end SettlementCalendars

end Beyvra
