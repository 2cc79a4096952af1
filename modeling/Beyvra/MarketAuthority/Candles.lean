import Mathlib.Data.List.Sort
import Mathlib.Data.Prod.Lex
import Mathlib.Data.String.Basic
import Beyvra.Foundation.Records
import Beyvra.Numeric.Decimal

namespace Beyvra

open Numeric Relational

namespace MarketAuthority

inductive SourceType where
  | rest | websocket | serverAggregate | certifiedInternal
  deriving DecidableEq, Repr

structure Provenance where
  providerId : String
  providerMessageType : String
  providerTimestamp : Timestamp
  receivedAt : Timestamp
  sourceType : SourceType
  normalizerVersion : String := "1.0.0"
  rawMessageHash : Option String := none
  deriving DecidableEq

structure TradeTick where
  instrumentId : String
  price : FiniteDecimal
  size : FiniteDecimal
  tradeId : Option String
  providerTimestamp : Timestamp
  receivedAt : Timestamp
  providerId : String
  venue : String
  sequence : Option String
  conditions : List String
  provenance : Provenance
  timestamps : providerTimestamp = provenance.providerTimestamp ∧ receivedAt = provenance.receivedAt
  price_pos : 0 < price.value
  size_nonneg : 0 ≤ size.value
  deriving DecidableEq

structure Candle where
  instrumentId : String
  timeframe : String
  openTime : Timestamp
  closeTime : Timestamp
  openPrice : ℚ
  high : ℚ
  low : ℚ
  closePrice : ℚ
  volume : ℚ
  tradeCount : Nat
  providerId : String
  providerTimestamp : Timestamp
  receivedAt : Timestamp
  complete : Bool
  provenance : Provenance
  deriving DecidableEq

-- What the constructor is given, and `raw_hash` of a timestamp, a price and a size
structure CandleSettings where
  seconds : Int
  seconds_pos : 0 < seconds
  late : Int
  rawHash : Timestamp → FiniteDecimal → FiniteDecimal → String

-- A `datetime` is in one of the years 1 to 9999.
def datetime (t : Timestamp) : Option Timestamp :=
  if -62135596800000000 ≤ t ∧ t ≤ 253402300799999999 then some t else none

def fromtimestamp (seconds : Int) : Option Timestamp := datetime (seconds * microsecondsPerSecond)

-- `int(value.timestamp())`: the seconds are rounded to a double, whose whole part is taken.
def epochSecond (t : Timestamp) : Int := towardZero (binary64 (t / microsecondsPerSecond))

abbrev BucketKey := String ×ₗ Int

def nonempty (text : Option String) : Option String := text.filter (· ≠ "")

namespace TradeTick

variable (c : CandleSettings)

def identity (t : TradeTick) : String × String × String :=
  (t.providerId, t.instrumentId,
    ((nonempty t.tradeId).or (nonempty t.sequence)).getD (c.rawHash t.providerTimestamp t.price t.size))

def start (t : TradeTick) : Int := epochSecond t.providerTimestamp - epochSecond t.providerTimestamp % c.seconds

def key (t : TradeTick) : BucketKey := toLex (t.instrumentId, t.start c)

def sortKey (t : TradeTick) : Timestamp ×ₗ String ×ₗ String :=
  toLex (t.providerTimestamp, toLex (t.tradeId.getD "", t.sequence.getD ""))

end TradeTick

-- The dictionary `_ticks` is the list of the ticks in its values, in the order of their additions.
structure CandleAggregator where
  ticks : List TradeTick := []
  finalized : List BucketKey := []
  ids : List (String × String × String) := []

def ordered (ticks : List TradeTick) : List TradeTick := ticks.insertionSort fun t u => t.sortKey ≤ u.sortKey

def volume (ticks : List TradeTick) : Option ℚ := (ticks.map (·.size.value)).foldlM defaultContext.add 0

namespace CandleAggregator

variable (c : CandleSettings)

def add (t : TradeTick) (s : CandleAggregator) : Option BucketKey × CandleAggregator :=
  if t.identity c ∈ s.ids then (none, s)
  else
    let s := { s with ids := s.ids ++ [t.identity c] }
    if t.key c ∈ s.finalized then (none, s) else (some (t.key c), { s with ticks := s.ticks ++ [t] })

def bucket (s : CandleAggregator) (k : BucketKey) : List TradeTick := s.ticks.filter fun t => t.key c = k

def keys (s : CandleAggregator) : List BucketKey := ((s.ticks.map (·.key c)).dedup).insertionSort (· ≤ ·)

-- The candle of a bucket whose end is a datetime, from its ticks in order
def candle (k : BucketKey) (endTime : Timestamp) : List TradeTick → Option Candle
  | [] => none
  | first :: rest => do
    let last := (first :: rest).getLast (List.cons_ne_nil first rest)
    let openTime ← fromtimestamp (ofLex k).2
    let volume ← volume (first :: rest)
    return {
      instrumentId := (ofLex k).1
      timeframe := toString c.seconds ++ "s"
      openTime
      closeTime := endTime
      openPrice := first.price.value
      high := (rest.map (·.price.value)).foldl max first.price.value
      low := (rest.map (·.price.value)).foldl min first.price.value
      closePrice := last.price.value
      volume
      tradeCount := (first :: rest).length
      providerId := last.providerId
      providerTimestamp := last.providerTimestamp
      receivedAt := last.receivedAt
      complete := true
      provenance := { last.provenance with sourceType := .serverAggregate } }

def finalize (k : BucketKey) (s : CandleAggregator) : CandleAggregator :=
  { s with finalized := s.finalized ++ [k], ticks := s.ticks.filter fun t => t.key c ≠ k }

-- No candles where one of the buckets raises; the buckets before it are finalized all the same.
def closeKeys (watermark : Timestamp) : List BucketKey → CandleAggregator → Option (List Candle) × CandleAggregator
  | [], s => (some [], s)
  | k :: ks, s =>
    match fromtimestamp ((ofLex k).2 + c.seconds) with
    | none => (none, s)
    | some endTime =>
      if watermark < endTime then closeKeys watermark ks s
      else
        match candle c k endTime (ordered (s.bucket c k)) with
        | none => (none, s)
        | some closed =>
          let rest := closeKeys watermark ks (s.finalize c k)
          (rest.1.map (closed :: ·), rest.2)

def closeThrough (watermark : Timestamp) (s : CandleAggregator) : Option (List Candle) × CandleAggregator :=
  match datetime (watermark - c.late) with
  | none => (none, s)
  | some watermark => closeKeys c watermark (s.keys c) s

end CandleAggregator

variable (c : CandleSettings)

def opensAt (k : BucketKey) : Timestamp := (ofLex k).2 * microsecondsPerSecond

def closesAt (k : BucketKey) : Timestamp := ((ofLex k).2 + c.seconds) * microsecondsPerSecond

def Candle.key (candle : Candle) : BucketKey := toLex (candle.instrumentId, candle.openTime / microsecondsPerSecond)

structure Candle.IsOf (k : BucketKey) (candle : Candle) : Prop where
  instrument : candle.instrumentId = (ofLex k).1
  openTime : candle.openTime = opensAt k
  closeTime : candle.closeTime = closesAt c k

inductive CandleCall where
  | add (tick : TradeTick)
  | closeThrough (watermark : Timestamp)

-- A candle that a call returned, with the ticks counted in it and the watermarks that calls before had closed
structure Emission where
  candle : Candle
  counted : List TradeTick
  closedBefore : List Timestamp

structure CandleRun where
  state : CandleAggregator := {}
  closed : List Timestamp := []
  emitted : List Emission := []

def CandleRun.step (r : CandleRun) : CandleCall → CandleRun
  | .add tick => { r with state := (r.state.add c tick).2 }
  | .closeThrough watermark =>
    let closing := r.state.closeThrough c watermark
    match closing.1 with
    | none => { r with state := closing.2 }
    | some candles =>
      { state := closing.2
        closed := r.closed ++ [watermark - c.late]
        emitted := r.emitted ++ candles.map fun candle => ⟨candle, r.state.bucket c candle.key, r.closed⟩ }

structure EmissionDiscipline (r : CandleRun) : Prop where
  once : (r.emitted.map fun e => (e.candle.instrumentId, e.candle.openTime)).Nodup
  increasing : r.emitted.Pairwise fun e f =>
    e.candle.instrumentId = f.candle.instrumentId → e.candle.openTime < f.candle.openTime
  contained : ∀ e ∈ r.emitted, ∀ t ∈ e.counted,
    e.candle.openTime ≤ t.providerTimestamp ∧ t.providerTimestamp < e.candle.closeTime
  keptOut : ∀ e ∈ r.emitted, ∀ t ∈ e.counted, ∀ w ∈ e.closedBefore, w < closesAt c (t.key c)

-- The tick lies in the bucket that the whole part of its `timestamp()` falls in.
def Contained (t : TradeTick) : Prop :=
  opensAt (t.key c) ≤ t.providerTimestamp ∧ t.providerTimestamp < closesAt c (t.key c)

-- A tick that is neither a duplicate nor of an emitted bucket comes before its bucket is closed.
def Timely (r : CandleRun) : CandleCall → Prop
  | .add t => t.identity c ∉ r.state.ids → t.key c ∉ r.state.finalized →
      Contained c t ∧ ∀ w ∈ r.closed, w < closesAt c (t.key c)
  | .closeThrough _ => True

variable {c} {k : BucketKey} {ks : List BucketKey} {s : CandleAggregator} {candle : Candle} {candles : List Candle}
  {w : Timestamp} {t : TradeTick} {r : CandleRun} {call : CandleCall}

theorem fromtimestamp_eq_some {seconds : Int} (h : fromtimestamp seconds = some w) :
    w = seconds * microsecondsPerSecond := by
  unfold fromtimestamp datetime at h
  split_ifs at h
  exact (Option.some.inj h).symm

theorem Candle.IsOf.key (h : candle.IsOf c k) : candle.key = k := by
  have hdiv : candle.openTime / microsecondsPerSecond = (ofLex k).2 := by
    rw [h.openTime, opensAt]
    exact Int.mul_ediv_cancel _ (by decide)
  rw [Candle.key, h.instrument, hdiv]
  rfl

namespace CandleAggregator

theorem candle_isOf {endTime : Timestamp} {ticks : List TradeTick} (hend : endTime = closesAt c k)
    (h : CandleAggregator.candle c k endTime ticks = some candle) : candle.IsOf c k := by
  cases ticks with
  | nil => cases h
  | cons first rest =>
    obtain ⟨openTime, hopen, h⟩ := Option.bind_eq_some_iff.mp h
    obtain ⟨volume, -, h⟩ := Option.bind_eq_some_iff.mp h
    obtain rfl := Option.some.inj h
    exact ⟨rfl, fromtimestamp_eq_some hopen, hend⟩

theorem mem_keys : k ∈ s.keys c ↔ ∃ t ∈ s.ticks, t.key c = k := by
  simp [keys]

theorem pairwise_keys : (s.keys c).Pairwise (· < ·) := by
  have hsorted : (s.keys c).Pairwise (· ≤ ·) := List.pairwise_insertionSort _ _
  have hnodup : (s.keys c).Nodup := (List.perm_insertionSort _ _).nodup_iff.mpr (List.nodup_dedup _)
  exact hsorted.imp₂ (fun _ _ hle hne => lt_of_le_of_ne hle hne) hnodup

theorem mem_of_closeKeys (h : t ∈ (closeKeys c w ks s).2.ticks) : t ∈ s.ticks := by
  induction ks generalizing s with
  | nil => exact h
  | cons k ks ih =>
    unfold closeKeys at h
    split at h
    · exact h
    · split_ifs at h
      · exact ih h
      · split at h
        · exact h
        · exact (List.mem_filter.mp (ih h)).1

-- What a call that returns has emitted and what it leaves
theorem closeKeys_eq_some (h : (closeKeys c w ks s).1 = some candles) :
    candles.map Candle.key = (ks.filter fun k => closesAt c k ≤ w) ∧
      (∀ candle ∈ candles, candle.IsOf c candle.key) ∧
      ∀ t ∈ (closeKeys c w ks s).2.ticks, t.key c ∈ ks → w < closesAt c (t.key c) := by
  induction ks generalizing s candles with
  | nil =>
    obtain rfl := Option.some.inj h
    exact ⟨rfl, fun candle hmem => (nomatch hmem), fun t _ hmem => (nomatch hmem)⟩
  | cons k ks ih =>
    unfold closeKeys at h ⊢
    split at h
    · cases h
    · rename_i endTime hend
      have hcloses : endTime = closesAt c k := fromtimestamp_eq_some hend
      split_ifs at h ⊢ with hopen
      · obtain ⟨hkeys, hcandles, hticks⟩ := ih h
        have hskip : ¬closesAt c k ≤ w := not_le.mpr (hcloses ▸ hopen)
        rw [List.filter_cons_of_neg (by simpa using hskip)]
        refine ⟨hkeys, hcandles, fun t ht hmem => ?_⟩
        rcases List.mem_cons.mp hmem with heq | hrest
        · rw [heq]
          exact not_le.mp hskip
        · exact hticks t ht hrest
      · split at h
        · cases h
        · rename_i closed hclosed
          obtain ⟨rest, hrest, rfl⟩ := Option.map_eq_some_iff.mp h
          obtain ⟨hkeys, hcandles, hticks⟩ := ih hrest
          have hof := candle_isOf hcloses hclosed
          have htake : closesAt c k ≤ w := hcloses ▸ not_lt.mp hopen
          rw [List.filter_cons_of_pos (by simpa using htake), List.map_cons, hof.key, hkeys]
          refine ⟨rfl, fun candle hmem => ?_, fun t ht hmem => ?_⟩
          · rcases List.mem_cons.mp hmem with rfl | hlater
            · rwa [hof.key]
            · exact hcandles candle hlater
          · have hkey := (List.mem_filter.mp (mem_of_closeKeys ht)).2
            rcases List.mem_cons.mp hmem with heq | hlater
            · exact absurd heq (by simpa using hkey)
            · exact hticks t ht hlater

theorem closeThrough_eq_some (h : (s.closeThrough c w).1 = some candles) :
    candles.map Candle.key = ((s.keys c).filter fun k => closesAt c k ≤ w - c.late) ∧
      (∀ candle ∈ candles, candle.IsOf c candle.key) ∧
      ∀ t ∈ (s.closeThrough c w).2.ticks, t ∈ s.ticks ∧ w - c.late < closesAt c (t.key c) := by
  unfold closeThrough at h ⊢
  split at h
  · cases h
  · rename_i watermark hwatermark
    unfold datetime at hwatermark
    split_ifs at hwatermark
    obtain rfl := Option.some.inj hwatermark
    obtain ⟨hkeys, hcandles, hticks⟩ := closeKeys_eq_some h
    refine ⟨hkeys, hcandles, fun t ht => ?_⟩
    have hmem := mem_of_closeKeys ht
    exact ⟨hmem, hticks t ht (mem_keys.mpr ⟨t, hmem, rfl⟩)⟩

theorem mem_of_closeThrough (h : t ∈ (s.closeThrough c w).2.ticks) : t ∈ s.ticks := by
  unfold closeThrough at h
  split at h
  · exact h
  · exact mem_of_closeKeys h

theorem mem_of_add {u : TradeTick} (h : u ∈ (s.add c t).2.ticks) :
    u ∈ s.ticks ∨ u = t ∧ t.identity c ∉ s.ids ∧ t.key c ∉ s.finalized := by
  unfold add at h
  split_ifs at h with hid
  · exact .inl h
  · dsimp only at h
    split_ifs at h with hfinal
    · exact .inl h
    · rcases List.mem_append.mp h with hold | hnew
      · exact .inl hold
      · exact .inr ⟨List.mem_singleton.mp hnew, hid, hfinal⟩

end CandleAggregator

open CandleAggregator

-- What stays true as long as the ticks come in time
structure Scheduled (c : CandleSettings) (r : CandleRun) : Prop where
  pending : ∀ t ∈ r.state.ticks, Contained c t ∧ ∀ w ∈ r.closed, w < closesAt c (t.key c)
  past : ∀ e ∈ r.emitted, e.candle.IsOf c e.candle.key ∧ ∃ w ∈ r.closed, e.candle.closeTime ≤ w
  increasing : r.emitted.Pairwise fun e f =>
    e.candle.instrumentId = f.candle.instrumentId → e.candle.openTime < f.candle.openTime
  contained : ∀ e ∈ r.emitted, ∀ t ∈ e.counted,
    e.candle.openTime ≤ t.providerTimestamp ∧ t.providerTimestamp < e.candle.closeTime
  keptOut : ∀ e ∈ r.emitted, ∀ t ∈ e.counted, ∀ w ∈ e.closedBefore, w < closesAt c (t.key c)

theorem Scheduled.discipline (h : Scheduled c r) : EmissionDiscipline c r where
  once := List.pairwise_map.mpr (h.increasing.imp fun hlt heq => by
    obtain ⟨hinstrument, htime⟩ := Prod.mk.inj heq
    exact (hlt hinstrument).ne htime)
  increasing := h.increasing
  contained := h.contained
  keptOut := h.keptOut

theorem Scheduled.add (h : Scheduled c r) (htimely : Timely c r (.add t)) : Scheduled c (r.step c (.add t)) where
  pending u hu := by
    rcases mem_of_add hu with hold | ⟨rfl, hid, hfinal⟩
    · exact h.pending u hold
    · exact htimely hid hfinal
  past := h.past
  increasing := h.increasing
  contained := h.contained
  keptOut := h.keptOut

-- A candle of a call that returns comes after every candle of its instrument that was emitted before.
theorem Scheduled.later (h : Scheduled c r) (hcandle : candle.IsOf c candle.key) (hkey : candle.key ∈ r.state.keys c)
    {e : Emission} (he : e ∈ r.emitted) : e.candle.openTime < candle.openTime := by
  obtain ⟨hof, w, hw, hle⟩ := h.past e he
  obtain ⟨t, ht, hkey⟩ := mem_keys.mp hkey
  have hlt := (h.pending t ht).2 w hw
  rw [hof.closeTime] at hle
  rw [hof.openTime, hcandle.openTime]
  rw [hkey] at hlt
  unfold closesAt at hle hlt
  unfold opensAt
  have hsecond : (0 : Int) < microsecondsPerSecond := by decide
  nlinarith

theorem Scheduled.closeThrough (h : Scheduled c r) : Scheduled c (r.step c (.closeThrough w)) := by
  unfold CandleRun.step
  dsimp only
  split
  · exact { h with pending := fun t ht => h.pending t (mem_of_closeThrough ht) }
  · rename_i candles hcandles
    obtain ⟨hkeys, hof, hticks⟩ := closeThrough_eq_some hcandles
    have hmem {candle : Candle} (hcandle : candle ∈ candles) :
        candle.key ∈ r.state.keys c ∧ closesAt c candle.key ≤ w - c.late := by
      have hfilter : candle.key ∈ (r.state.keys c).filter fun k => closesAt c k ≤ w - c.late := by
        rw [← hkeys]
        exact List.mem_map_of_mem hcandle
      obtain ⟨hkey, hle⟩ := List.mem_filter.mp hfilter
      exact ⟨hkey, of_decide_eq_true hle⟩
    have hcounted {candle : Candle} {t : TradeTick} (ht : t ∈ r.state.bucket c candle.key) :
        t ∈ r.state.ticks ∧ t.key c = candle.key := by
      obtain ⟨hold, hkey⟩ := List.mem_filter.mp ht
      exact ⟨hold, of_decide_eq_true hkey⟩
    refine ⟨fun t ht => ?_, fun e he => ?_, ?_, fun e he t ht => ?_, fun e he t ht => ?_⟩
    · obtain ⟨hold, hlt⟩ := hticks t ht
      refine ⟨(h.pending t hold).1, fun w' hw' => ?_⟩
      rcases List.mem_append.mp hw' with hbefore | hnow
      · exact (h.pending t hold).2 w' hbefore
      · rwa [List.mem_singleton.mp hnow]
    · rcases List.mem_append.mp he with hold | hnew
      · obtain ⟨hisOf, w', hw', hle⟩ := h.past e hold
        exact ⟨hisOf, w', List.mem_append_left _ hw', hle⟩
      · obtain ⟨candle, hcandle, rfl⟩ := List.mem_map.mp hnew
        refine ⟨hof candle hcandle, w - c.late, List.mem_append_right _ (List.mem_singleton_self _), ?_⟩
        rw [(hof candle hcandle).closeTime]
        exact (hmem hcandle).2
    · refine List.pairwise_append.mpr ⟨h.increasing, List.pairwise_map.mpr ?_, fun e he f hf _ => ?_⟩
      · have hsorted : (candles.map Candle.key).Pairwise (· < ·) := by
          rw [hkeys]
          exact pairwise_keys.filter _
        refine (List.pairwise_map.mp hsorted).imp_of_mem fun {first second} hfirst hsecond hlt hsame => ?_
        have hstart : (ofLex first.key).2 < (ofLex second.key).2 := by
          rcases Prod.Lex.lt_iff.mp hlt with hinstrument | ⟨-, hstart⟩
          · exact absurd hsame (ne_of_lt hinstrument)
          · exact hstart
        rw [(hof first hfirst).openTime, (hof second hsecond).openTime]
        exact Int.mul_lt_mul_of_pos_right hstart (by decide)
      · obtain ⟨candle, hcandle, rfl⟩ := List.mem_map.mp hf
        exact h.later (hof candle hcandle) (hmem hcandle).1 he
    · rcases List.mem_append.mp he with hold | hnew
      · exact h.contained e hold t ht
      · obtain ⟨candle, hcandle, rfl⟩ := List.mem_map.mp hnew
        obtain ⟨hold, hkey⟩ := hcounted ht
        have hcontained := (h.pending t hold).1
        rw [Contained, hkey] at hcontained
        rw [(hof candle hcandle).openTime, (hof candle hcandle).closeTime]
        exact hcontained
    · rcases List.mem_append.mp he with hold | hnew
      · exact h.keptOut e hold t ht
      · obtain ⟨candle, hcandle, rfl⟩ := List.mem_map.mp hnew
        exact (h.pending t (hcounted ht).1).2

-- From 1970 until the doubles are too far apart for microseconds, the whole part is the second.
theorem epochSecond_eq (h0 : 0 ≤ w) (hlt : w < 2 ^ 34 * microsecondsPerSecond) :
    epochSecond w = w / microsecondsPerSecond := by
  have hfloor : ⌊(w : ℚ) / microsecondsPerSecond⌋ = w / microsecondsPerSecond :=
    Rat.floor_intCast_div_natCast w 1000000
  have hnonneg : (0 : ℚ) ≤ w / microsecondsPerSecond :=
    div_nonneg (by exact_mod_cast h0) (by norm_num [microsecondsPerSecond])
  have hmax : |(w : ℚ) / microsecondsPerSecond| < (2 : ℕ) ^ ((-19 : Int) + (53 : ℕ)) := by
    rw [abs_of_nonneg hnonneg, div_lt_iff₀ (by norm_num [microsecondsPerSecond])]
    have hcast : (w : ℚ) < 2 ^ 34 * microsecondsPerSecond := by exact_mod_cast hlt
    norm_num at hcast ⊢
    exact hcast
  have hunit : lastExponent 2 53 (-1074) (w / microsecondsPerSecond) ≤ -19 :=
    lastExponent_le_of_lt (by norm_num) hmax (by norm_num) (by norm_num)
  have hpow : ((2 : ℕ) : ℚ) ^ lastExponent 2 53 (-1074) (w / microsecondsPerSecond) ≤
      ((2 : ℕ) : ℚ) ^ (-19 : Int) :=
    zpow_le_zpow_right₀ (by norm_num) hunit
  have hroom : (w : ℚ) / microsecondsPerSecond + 1 / 1000000 ≤ ((w / microsecondsPerSecond : Int) : ℚ) + 1 := by
    have hnext : w + 1 ≤ (w / microsecondsPerSecond + 1) * microsecondsPerSecond :=
      Int.add_one_le_of_lt (Int.lt_ediv_add_one_mul_self w (by decide))
    have hcast : (w : ℚ) + 1 ≤ (((w / microsecondsPerSecond : Int) : ℚ) + 1) * microsecondsPerSecond := by
      exact_mod_cast hnext
    have hsplit : (w : ℚ) / microsecondsPerSecond + 1 / 1000000 = (w + 1) / microsecondsPerSecond := by
      rw [add_div]
      norm_num [microsecondsPerSecond]
    rw [hsplit]
    exact (div_le_iff₀ (by norm_num [microsecondsPerSecond])).mpr hcast
  have hsmall : ((2 : ℕ) : ℚ) ^ (-19 : Int) / 2 < 1 / 1000000 := by norm_num
  rw [epochSecond, binary64, towardZero_nearest (by norm_num) hnonneg (hunit.trans (by norm_num)), hfloor]
  rw [hfloor]
  linarith

theorem contained_of_epochSecond (h : epochSecond t.providerTimestamp = t.providerTimestamp / microsecondsPerSecond) :
    Contained c t := by
  have hmod := Int.emod_nonneg (epochSecond t.providerTimestamp) c.seconds_pos.ne'
  have hlt := Int.emod_lt_of_pos (epochSecond t.providerTimestamp) c.seconds_pos
  have hkey : (ofLex (t.key c)).2 = t.start c := rfl
  rw [Contained, opensAt, closesAt, hkey, TradeTick.start]
  have hsecond : t.providerTimestamp / 1000000 = epochSecond t.providerTimestamp := h.symm
  have hbelow : epochSecond t.providerTimestamp * 1000000 ≤ t.providerTimestamp := by
    rw [← hsecond]
    exact Int.ediv_mul_le _ (by decide)
  have habove : t.providerTimestamp < (epochSecond t.providerTimestamp + 1) * 1000000 := by
    rw [← hsecond]
    exact Int.lt_ediv_add_one_mul_self _ (by decide)
  have hlow : epochSecond t.providerTimestamp - epochSecond t.providerTimestamp % c.seconds ≤
      epochSecond t.providerTimestamp := sub_le_self _ hmod
  have hhigh : epochSecond t.providerTimestamp + 1 ≤
      epochSecond t.providerTimestamp - epochSecond t.providerTimestamp % c.seconds + c.seconds := by linarith
  exact ⟨(mul_le_mul_of_nonneg_right hlow (by decide)).trans hbelow,
    habove.trans_le (mul_le_mul_of_nonneg_right hhigh (by decide))⟩

-- So a tick with such a timestamp lies in its bucket.
theorem contained_of_range (h0 : 0 ≤ t.providerTimestamp)
    (hlt : t.providerTimestamp < 2 ^ 34 * microsecondsPerSecond) : Contained c t :=
  contained_of_epochSecond (epochSecond_eq h0 hlt)

instance : Decidable (Timely c r call) :=
  match call with
  | .add t =>
    inferInstanceAs (Decidable (t.identity c ∉ r.state.ids → t.key c ∉ r.state.finalized →
      (opensAt (t.key c) ≤ t.providerTimestamp ∧ t.providerTimestamp < closesAt c (t.key c)) ∧
        ∀ w ∈ r.closed, w < closesAt c (t.key c)))
  | .closeThrough _ => .isTrue trivial

theorem emission_disciplined (c : CandleSettings) (calls : List CandleCall)
    (h : Throughout (CandleRun.step c) (Timely c) calls {}) :
    EmissionDiscipline c (calls.foldl (CandleRun.step c) {}) := by
  have hstart : Scheduled c {} := ⟨by simp, by simp, .nil, by simp, by simp⟩
  refine (h.reaches.invariant hstart fun r call hr hcall => ?_).discipline
  cases call with
  | add t => exact hr.add hcall
  | closeThrough w => exact hr.closeThrough

def fiveSeconds : CandleSettings where
  seconds := 5
  seconds_pos := by decide
  late := 0
  rawHash := fun t price size => toString t ++ toString price.coefficient ++ toString size.coefficient

def tickAt (tradeId : String) (second : Int) : TradeTick where
  instrumentId := "BTC-USD"
  price := { coefficient := 10, exponent := 0 }
  size := { coefficient := 1, exponent := 0 }
  tradeId := some tradeId
  providerTimestamp := second * microsecondsPerSecond
  receivedAt := second * microsecondsPerSecond
  providerId := "fixture"
  venue := "TEST"
  sequence := none
  conditions := []
  provenance :=
    { providerId := "fixture", providerMessageType := "trade", providerTimestamp := second * microsecondsPerSecond
      receivedAt := second * microsecondsPerSecond, sourceType := .websocket }
  timestamps := ⟨rfl, rfl⟩
  price_pos := by norm_num [FiniteDecimal.value]
  size_nonneg := by norm_num [FiniteDecimal.value]

def inTime : List CandleCall :=
  [.add (tickAt "1" 7), .add (tickAt "2" 12), .closeThrough 15000000, .closeThrough 20000000]

theorem in_time_disciplined : EmissionDiscipline fiveSeconds (inTime.foldl (CandleRun.step fiveSeconds) {}) :=
  emission_disciplined fiveSeconds inTime (by decide +kernel)

-- The bucket of the second tick was closed while it was empty, and is emitted after the next one.
def lateTick : List CandleCall :=
  [.add (tickAt "1" 12), .closeThrough 15000000, .add (tickAt "2" 7), .closeThrough 20000000]

theorem late_tick_emitted : ¬EmissionDiscipline fiveSeconds (lateTick.foldl (CandleRun.step fiveSeconds) {}) := by
  intro h
  have hsame : ∀ e ∈ (lateTick.foldl (CandleRun.step fiveSeconds) {}).emitted,
      e.candle.instrumentId = "BTC-USD" := by decide +kernel
  have hincreasing : (lateTick.foldl (CandleRun.step fiveSeconds) {}).emitted.Pairwise fun e f =>
      e.candle.openTime < f.candle.openTime :=
    h.increasing.imp_of_mem fun {e f} he hf hlt => hlt (by rw [hsame e he, hsame f hf])
  exact absurd (List.pairwise_map.mpr hincreasing) (by decide +kernel :
    ¬((lateTick.foldl (CandleRun.step fiveSeconds) {}).emitted.map fun e => e.candle.openTime).Pairwise (· < ·))

end MarketAuthority

end Beyvra
