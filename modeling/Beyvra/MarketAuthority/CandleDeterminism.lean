import Beyvra.MarketAuthority.Candles
import Beyvra.Relational.SortedBy

namespace Beyvra

open Numeric Relational

namespace MarketAuthority

variable (c : CandleSettings)

-- What a candle is made of
structure Reading where
  key : BucketKey
  sortKey : Timestamp ×ₗ String ×ₗ String
  price : ℚ
  size : ℚ
  providerId : String
  providerTimestamp : Timestamp
  receivedAt : Timestamp
  provenance : Provenance
  deriving DecidableEq

def TradeTick.reading (t : TradeTick) : Reading where
  key := t.key c
  sortKey := t.sortKey
  price := t.price.value
  size := t.size.value
  providerId := t.providerId
  providerTimestamp := t.providerTimestamp
  receivedAt := t.receivedAt
  provenance := t.provenance

-- What the last tick gives its candle
def TradeTick.closing (t : TradeTick) : ℚ × String × Timestamp × Timestamp × Provenance :=
  (t.price.value, t.providerId, t.providerTimestamp, t.receivedAt, t.provenance)

def adds (ticks : List TradeTick) : CandleAggregator := ticks.foldl (fun s t => (s.add c t).2) {}

def Tied (t u : TradeTick) : Prop := t.key c = u.key c ∧ t.sortKey = u.sortKey

-- The sizes are multiples of one power of ten and come to less than 28 of its digits.
def AddsExactly (sizes : List ℚ) : Prop :=
  ∃ e : Int, -1000026 ≤ e ∧ e ≤ 999972 ∧ (∀ x ∈ sizes, IsMultiple (10 ^ e) x) ∧ sizes.sum < 10 ^ (e + 28)

def keptSizes (ticks : List TradeTick) (k : BucketKey) : List ℚ :=
  ((firstOccurrences (·.identity c) ticks).filter fun t => t.key c = k).map (·.size.value)

-- Nothing is left for the order of arrival to decide.
structure Settled (ticks : List TradeTick) : Prop where
  alike : ∀ t ∈ ticks, ∀ u ∈ ticks, t.identity c = u.identity c → t.reading c = u.reading c
  first : ∀ t ∈ ticks, ∀ u ∈ ticks, Tied c t u → (∀ v ∈ ticks, v.key c = t.key c → t.sortKey ≤ v.sortKey) →
    t.price.value = u.price.value
  last : ∀ t ∈ ticks, ∀ u ∈ ticks, Tied c t u → (∀ v ∈ ticks, v.key c = t.key c → v.sortKey ≤ t.sortKey) →
    t.closing = u.closing
  volume : ∀ k, AddsExactly (keptSizes c ticks k) ∨
    ∀ t ∈ ticks, ∀ u ∈ ticks, t.key c = k → Tied c t u → t.size.value = u.size.value

variable {c} {ticks ticks' : List TradeTick} {k : BucketKey} {w endTime : Timestamp} {s s' : CandleAggregator}

theorem perm_map_of_reading {V : Type} {f : TradeTick → V} (g : Reading → V) (hf : ∀ t, f t = g (t.reading c))
    (h : (ticks.map (·.reading c)).Perm (ticks'.map (·.reading c))) : (ticks.map f).Perm (ticks'.map f) := by
  have hg : f = g ∘ (·.reading c) := funext hf
  rw [hg, ← List.map_map, ← List.map_map]
  exact h.map g

theorem add_eq (t : TradeTick) (hfinal : s.finalized = []) : (s.add c t).2 =
    if t.identity c ∈ s.ids then s else { s with ids := s.ids ++ [t.identity c], ticks := s.ticks ++ [t] } := by
  unfold CandleAggregator.add
  split_ifs with hid
  · rfl
  · simp [hfinal]

theorem ticks_foldl_add {seen : List (String × String × String)} (hfinal : s.finalized = [])
    (hseen : ∀ i, i ∈ seen ↔ i ∈ s.ids) : (ticks.foldl (fun s t => (s.add c t).2) s).ticks =
      s.ticks ++ firsts (·.identity c) seen ticks := by
  induction ticks generalizing s seen with
  | nil => simp [firsts]
  | cons t ticks ih =>
    rw [List.foldl_cons, add_eq t hfinal, firsts]
    by_cases hid : t.identity c ∈ s.ids
    · rw [if_pos hid, if_pos ((hseen _).mpr hid)]
      exact ih hfinal hseen
    · rw [if_neg hid, if_neg fun hold => hid ((hseen _).mp hold)]
      have hnext : ∀ i, i ∈ t.identity c :: seen ↔ i ∈ s.ids ++ [t.identity c] := by simp [hseen, or_comm]
      exact (ih (s := { s with ids := s.ids ++ [t.identity c], ticks := s.ticks ++ [t] }) hfinal hnext).trans
        (List.append_assoc _ _ _)

theorem adds_ticks (ticks : List TradeTick) : (adds c ticks).ticks = firstOccurrences (·.identity c) ticks :=
  (ticks_foldl_add rfl fun _ => Iff.rfl).trans (List.nil_append _)

theorem mem_of_adds {t : TradeTick} (h : t ∈ (adds c ticks).ticks) : t ∈ ticks := by
  rw [adds_ticks] at h
  exact (mem_of_firsts h).1

-- One tick for each identity: which one does not matter where they are alike.
theorem Settled.perm_readings (h : Settled c ticks) (hsame : ∀ t, t ∈ ticks' ↔ t ∈ ticks) :
    ((adds c ticks').ticks.map (·.reading c)).Perm ((adds c ticks).ticks.map (·.reading c)) := by
  let find (i : String × String × String) : Option Reading :=
    (ticks.find? fun t => t.identity c = i).map (·.reading c)
  have hfind {t : TradeTick} (ht : t ∈ ticks) : find (t.identity c) = some (t.reading c) := by
    cases hu : ticks.find? fun u => u.identity c = t.identity c with
    | none => exact absurd (List.find?_eq_none.mp hu t ht) (by simp)
    | some u =>
      have hidentity : u.identity c = t.identity c := by simpa using List.find?_some hu
      simp only [find, hu, Option.map_some]
      rw [h.alike u (List.mem_of_find?_eq_some hu) t ht hidentity]
  have hlookup (xs : List TradeTick) (hxs : ∀ t ∈ xs, t ∈ ticks) :
      (xs.map fun t => t.identity c).map find = (xs.map fun t => t.reading c).map some := by
    rw [List.map_map, List.map_map]
    exact List.map_congr_left fun t ht => hfind (hxs t ht)
  have hkept : ∀ t ∈ (adds c ticks).ticks, t ∈ ticks := fun t ht => mem_of_adds ht
  have hkept' : ∀ t ∈ (adds c ticks').ticks, t ∈ ticks := fun t ht => (hsame t).mp (mem_of_adds ht)
  have hperm := (perm_firstOccurrences (fun t => t.identity c) hsame).map find
  rw [← adds_ticks, ← adds_ticks, hlookup _ hkept, hlookup _ hkept'] at hperm
  exact (List.map_perm_map_iff (Option.some_injective Reading)).mp hperm

section Bucket

variable {B B' : List TradeTick}

theorem perm_bucket (h : (s.ticks.map (·.reading c)).Perm (s'.ticks.map (·.reading c))) (k : BucketKey) :
    ((s.bucket c k).map (·.reading c)).Perm ((s'.bucket c k).map (·.reading c)) := by
  have hfilter (s : CandleAggregator) : (s.bucket c k).map (·.reading c) =
      (s.ticks.map (·.reading c)).filter fun r => r.key = k := by
    rw [List.filter_map]
    rfl
  rw [hfilter, hfilter]
  exact h.filter _

theorem keys_congr (h : (s.ticks.map (·.reading c)).Perm (s'.ticks.map (·.reading c))) : s.keys c = s'.keys c := by
  have hkeys : (s.ticks.map (·.key c)).Perm (s'.ticks.map (·.key c)) := perm_map_of_reading (·.key) (fun _ => rfl) h
  have hsorted (s : CandleAggregator) : (s.keys c).Pairwise (· ≤ ·) := List.pairwise_insertionSort _ _
  refine List.Perm.eq_of_pairwise' (hsorted s) (hsorted s') ?_
  exact (List.perm_insertionSort _ _).trans (hkeys.dedup.trans (List.perm_insertionSort _ _).symm)

theorem keys_nodup : (s.keys c).Nodup := (List.perm_insertionSort _ _).nodup_iff.mpr (List.nodup_dedup _)

-- The ticks of a bucket that come first or last under either order, with the same price and the same closing data
structure Agreeing (B : List TradeTick) : Prop where
  first : ∀ t ∈ B, ∀ u ∈ B, t.sortKey = u.sortKey → (∀ v ∈ B, t.sortKey ≤ v.sortKey) → t.price.value = u.price.value
  last : ∀ t ∈ B, ∀ u ∈ B, t.sortKey = u.sortKey → (∀ v ∈ B, v.sortKey ≤ t.sortKey) → t.closing = u.closing
  volume : AddsExactly (B.map (·.size.value)) ∨ ∀ t ∈ B, ∀ u ∈ B, t.sortKey = u.sortKey → t.size.value = u.size.value

theorem exists_alike (h : (B.map (·.reading c)).Perm (B'.map (·.reading c))) {t : TradeTick} (ht : t ∈ B') :
    ∃ u ∈ B, u.reading c = t.reading c :=
  List.mem_map.mp (h.mem_iff.mpr (List.mem_map_of_mem ht))

theorem sortKey_of_reading {t u : TradeTick} (h : t.reading c = u.reading c) : t.sortKey = u.sortKey :=
  congrArg Reading.sortKey h

theorem closing_of_reading {t u : TradeTick} (h : t.reading c = u.reading c) : t.closing = u.closing := by
  have hreading (t : TradeTick) : t.closing = (fun r : Reading =>
    (r.price, r.providerId, r.providerTimestamp, r.receivedAt, r.provenance)) (t.reading c) := rfl
  rw [hreading, hreading, h]

theorem perm_ordered : (ordered B).Perm B := perm_sortedBy

theorem volume_ordered (hB : AddsExactly (B.map (·.size.value))) :
    volume (ordered B) = some (B.map (·.size.value)).sum := by
  obtain ⟨e, hlow, hhigh, hmultiple, hsum⟩ := hB
  have hperm : ((ordered B).map (·.size.value)).Perm (B.map (·.size.value)) := perm_ordered.map _
  have hterms : ∀ x ∈ (ordered B).map (·.size.value), 0 ≤ x ∧ IsMultiple (10 ^ e) x := fun x hx => by
    obtain ⟨t, ht, rfl⟩ := List.mem_map.mp (hperm.mem_iff.mp hx)
    exact ⟨t.size_nonneg, hmultiple _ (List.mem_map_of_mem ht)⟩
  have htotal : 0 + ((ordered B).map (·.size.value)).sum < 10 ^ (e + defaultContext.prec) := by
    rw [zero_add, hperm.sum_eq]
    exact hsum
  have hlow' : defaultContext.emin - defaultContext.prec + 1 ≤ e := hlow
  have hhigh' : e + defaultContext.prec ≤ defaultContext.emax + 1 := by
    have hsides : e + 28 ≤ 999999 + 1 := by omega
    exact hsides
  rw [volume, Context.foldlM_add_of_isMultiple hlow' hhigh' hterms le_rfl ⟨0, by simp⟩ htotal, zero_add, hperm.sum_eq]

theorem volume_congr (h : (B.map (·.reading c)).Perm (B'.map (·.reading c))) (hB : Agreeing B) :
    volume (ordered B) = volume (ordered B') := by
  have hsizes : (B.map (·.size.value)).Perm (B'.map (·.size.value)) := perm_map_of_reading (·.size) (fun _ => rfl) h
  rcases hB.volume with hexact | htied
  · have hexact' : AddsExactly (B'.map (·.size.value)) := by
      obtain ⟨e, hlow, hhigh, hmultiple, hsum⟩ := hexact
      exact ⟨e, hlow, hhigh, fun x hx => hmultiple x (hsizes.mem_iff.mpr hx), hsizes.sum_eq ▸ hsum⟩
    rw [volume_ordered hexact, volume_ordered hexact', hsizes.sum_eq]
  · have hkeys : (B.map (·.sortKey)).Perm (B'.map (·.sortKey)) := perm_map_of_reading (·.sortKey) (fun _ => rfl) h
    refine congrArg (fun sizes => List.foldlM defaultContext.add 0 sizes) (map_sortedBy hkeys fun t ht u hu heq => ?_)
    obtain ⟨v, hv, hreading⟩ := exists_alike h hu
    rw [htied t ht v hv (heq.trans (sortKey_of_reading hreading).symm)]
    exact congrArg Reading.size hreading

theorem candle_congr (h : (B.map (·.reading c)).Perm (B'.map (·.reading c))) (hB : Agreeing B) :
    CandleAggregator.candle c k endTime (ordered B) = CandleAggregator.candle c k endTime (ordered B') := by
  have hvolume := volume_congr h hB
  have hlength : (ordered B).length = (ordered B').length := by
    rw [perm_ordered.length_eq, perm_ordered.length_eq]
    simpa using h.length_eq
  have hkeys : (ordered B).map (·.sortKey) = (ordered B').map (·.sortKey) :=
    map_key_sortedBy (perm_map_of_reading (·.sortKey) (fun _ => rfl) h)
  have hprices : ((ordered B).map (·.price.value)).Perm ((ordered B').map (·.price.value)) :=
    (perm_ordered.map _).trans ((perm_map_of_reading (·.price) (fun _ => rfl) h).trans (perm_ordered.map _).symm)
  cases hsorted : ordered B with
  | nil =>
    rw [hsorted] at hlength
    rw [List.length_eq_zero_iff.mp hlength.symm]
  | cons x rest =>
    cases hsorted' : ordered B' with
    | nil =>
      rw [hsorted, hsorted'] at hlength
      cases hlength
    | cons x' rest' =>
      have hne : ordered B ≠ [] := by simp [hsorted]
      have hne' : ordered B' ≠ [] := by simp [hsorted']
      have hfirst : x.price.value = x'.price.value := by
        have hx : x ∈ B := perm_ordered.mem_iff.mp (hsorted ▸ List.mem_cons_self)
        have hx' : x' ∈ B' := perm_ordered.mem_iff.mp (hsorted' ▸ List.mem_cons_self)
        obtain ⟨u, hu, hreading⟩ := exists_alike h hx'
        have hkey : x.sortKey = x'.sortKey := by
          rw [hsorted, hsorted'] at hkeys
          exact (List.cons.inj hkeys).1
        rw [hB.first x hx u hu (hkey.trans (sortKey_of_reading hreading).symm) (sortedBy_head hsorted)]
        exact congrArg Reading.price hreading
      have hlast : ((ordered B).getLast hne).closing = ((ordered B').getLast hne').closing := by
        have hmem : (ordered B).getLast hne ∈ B := perm_ordered.mem_iff.mp (List.getLast_mem hne)
        have hmem' : (ordered B').getLast hne' ∈ B' := perm_ordered.mem_iff.mp (List.getLast_mem hne')
        obtain ⟨u, hu, hreading⟩ := exists_alike h hmem'
        have hkey : ((ordered B).getLast hne).sortKey = ((ordered B').getLast hne').sortKey := by
          have hmapped := List.getLast_congr (by simpa using hne) (by simpa using hne') hkeys
          rwa [List.getLast_map, List.getLast_map] at hmapped
        rw [hB.last _ hmem u hu (hkey.trans (sortKey_of_reading hreading).symm) (sortedBy_getLast hne)]
        exact closing_of_reading hreading
      have hothers : (rest.map (·.price.value)).Perm (rest'.map (·.price.value)) := by
        rw [hsorted, hsorted', List.map_cons, List.map_cons, hfirst] at hprices
        exact (List.perm_cons _).mp hprices
      have hmax : (rest.map (·.price.value)).foldl max x'.price.value =
          (rest'.map (·.price.value)).foldl max x'.price.value := hothers.foldl_eq _
      have hmin : (rest.map (·.price.value)).foldl min x'.price.value =
          (rest'.map (·.price.value)).foldl min x'.price.value := hothers.foldl_eq _
      simp only [TradeTick.closing, Prod.mk.injEq, hsorted, hsorted'] at hlast
      rw [hsorted, hsorted'] at hvolume hlength
      obtain ⟨hclose, hprovider, htimestamp, hreceived, hprovenance⟩ := hlast
      simp only [CandleAggregator.candle, hvolume, hlength, hfirst, hmax, hmin, hclose, hprovider, htimestamp, hreceived,
        hprovenance]

end Bucket

theorem bucket_finalize {k' : BucketKey} (h : k ≠ k') : (s.finalize c k').bucket c k = s.bucket c k := by
  rw [CandleAggregator.bucket, CandleAggregator.finalize, List.filter_filter, CandleAggregator.bucket]
  refine List.filter_congr fun t _ => ?_
  by_cases hkey : t.key c = k <;> simp [hkey, h]

theorem closeKeys_congr {ks : List BucketKey} (hks : ks.Nodup) (h : ∀ k ∈ ks, ∀ endTime,
    CandleAggregator.candle c k endTime (ordered (s.bucket c k)) =
      CandleAggregator.candle c k endTime (ordered (s'.bucket c k))) :
    (CandleAggregator.closeKeys c w ks s).1 = (CandleAggregator.closeKeys c w ks s').1 := by
  induction ks generalizing s s' with
  | nil => rfl
  | cons k ks ih =>
    obtain ⟨hk, hks⟩ := List.nodup_cons.mp hks
    unfold CandleAggregator.closeKeys
    cases hend : fromtimestamp ((ofLex k).2 + c.seconds) with
    | none => rfl
    | some endTime =>
      dsimp only
      split_ifs
      · exact ih hks fun k' hk' => h k' (List.mem_cons_of_mem _ hk')
      · rw [h k List.mem_cons_self endTime]
        cases CandleAggregator.candle c k endTime (ordered (s'.bucket c k)) with
        | none => rfl
        | some candle =>
          refine congrArg (Option.map (candle :: ·)) (ih hks fun k' hk' endTime' => ?_)
          have hne : k' ≠ k := fun heq => hk (heq ▸ hk')
          rw [bucket_finalize hne, bucket_finalize hne]
          exact h k' (List.mem_cons_of_mem _ hk') endTime'

theorem Settled.agreeing (h : Settled c ticks) (k : BucketKey) : Agreeing ((adds c ticks).bucket c k) := by
  have hmem {t : TradeTick} (ht : t ∈ (adds c ticks).bucket c k) : t ∈ ticks ∧ t.key c = k := by
    obtain ⟨hkept, hkey⟩ := List.mem_filter.mp ht
    exact ⟨mem_of_adds hkept, of_decide_eq_true hkey⟩
  have halike {v : TradeTick} (hv : v ∈ ticks) (hkey : v.key c = k) :
      ∃ u ∈ (adds c ticks).bucket c k, u.reading c = v.reading c := by
    have hidentity : v.identity c ∈ ((adds c ticks).ticks).map (·.identity c) := by
      rw [adds_ticks]
      exact key_mem_firsts (fun t => t.identity c) hv List.not_mem_nil
    obtain ⟨u, hu, hsame⟩ := List.mem_map.mp hidentity
    have hreading := h.alike u (mem_of_adds hu) v hv hsame
    have hukey : u.key c = k := (congrArg Reading.key hreading).trans hkey
    exact ⟨u, List.mem_filter.mpr ⟨hu, decide_eq_true hukey⟩, hreading⟩
  refine ⟨fun t ht u hu heq hmin => ?_, fun t ht u hu heq hmax => ?_, ?_⟩
  · obtain ⟨htick, htkey⟩ := hmem ht
    obtain ⟨hutick, hukey⟩ := hmem hu
    refine h.first t htick u hutick ⟨htkey.trans hukey.symm, heq⟩ fun v hv hvkey => ?_
    obtain ⟨v', hv', hreading⟩ := halike hv (hvkey.trans htkey)
    exact (hmin v' hv').trans_eq (sortKey_of_reading hreading)
  · obtain ⟨htick, htkey⟩ := hmem ht
    obtain ⟨hutick, hukey⟩ := hmem hu
    refine h.last t htick u hutick ⟨htkey.trans hukey.symm, heq⟩ fun v hv hvkey => ?_
    obtain ⟨v', hv', hreading⟩ := halike hv (hvkey.trans htkey)
    exact (sortKey_of_reading hreading).symm.trans_le (hmax v' hv')
  · have hsizes : ((adds c ticks).bucket c k).map (·.size.value) = keptSizes c ticks k := by
      rw [CandleAggregator.bucket, adds_ticks, keptSizes]
    rcases h.volume k with hexact | htied
    · exact .inl (hsizes ▸ hexact)
    · refine .inr fun t ht u hu heq => ?_
      obtain ⟨htick, htkey⟩ := hmem ht
      obtain ⟨hutick, hukey⟩ := hmem hu
      exact htied t htick u hutick htkey ⟨htkey.trans hukey.symm, heq⟩

theorem candles_settled (c : CandleSettings) (ticks : List TradeTick) (h : Settled c ticks) (ticks' : List TradeTick)
    (hsame : ∀ t, t ∈ ticks' ↔ t ∈ ticks) (watermark : Timestamp) :
    ((adds c ticks').closeThrough c watermark).1 = ((adds c ticks).closeThrough c watermark).1 := by
  have hreadings := (h.perm_readings hsame).symm
  unfold CandleAggregator.closeThrough
  cases datetime (watermark - c.late) with
  | none => rfl
  | some watermark =>
    dsimp only
    rw [← keys_congr hreadings]
    exact (closeKeys_congr keys_nodup fun k _ endTime => candle_congr (perm_bucket hreadings k) (h.agreeing k)).symm

theorem separate_ticks_settled :
    ((adds fiveSeconds [tickAt "2" 8, tickAt "1" 7, tickAt "2" 8]).closeThrough fiveSeconds 10000000).1 =
      ((adds fiveSeconds [tickAt "1" 7, tickAt "2" 8]).closeThrough fiveSeconds 10000000).1 := by
  have hsizes : ∀ t ∈ [tickAt "1" 7, tickAt "2" 8], t.size.value = 1 := by decide +kernel
  refine candles_settled fiveSeconds [tickAt "1" 7, tickAt "2" 8] ⟨?_, ?_, ?_, fun k => .inr ?_⟩ _ ?_ 10000000
  · decide +kernel
  · intro t ht u hu htied _
    rw [(by decide +kernel : ∀ t ∈ [tickAt "1" 7, tickAt "2" 8], t.price.value = 10) t ht,
      (by decide +kernel : ∀ t ∈ [tickAt "1" 7, tickAt "2" 8], t.price.value = 10) u hu]
  · intro t ht u hu htied _
    refine congrArg TradeTick.closing ?_
    exact (by decide +kernel : ∀ t ∈ [tickAt "1" 7, tickAt "2" 8], ∀ u ∈ [tickAt "1" 7, tickAt "2" 8],
      t.sortKey = u.sortKey → t = u) t ht u hu htied.2
  · intro t ht u hu _ _
    rw [hsizes t ht, hsizes u hu]
  · intro t
    simp only [List.mem_cons, List.not_mem_nil, or_false]
    tauto

-- Two ticks of one microsecond without an id: the candle opens with the one that came first.
def untaggedTick (price : Nat) (hprice : 0 < price) : TradeTick :=
  { tickAt "" 7 with
    price := { coefficient := price, exponent := 0 }
    price_pos := by simpa [FiniteDecimal.value] using hprice }

theorem arrival_decides :
    ((adds fiveSeconds [untaggedTick 11 (by decide), untaggedTick 10 (by decide)]).closeThrough fiveSeconds 10000000).1 ≠
      ((adds fiveSeconds [untaggedTick 10 (by decide), untaggedTick 11 (by decide)]).closeThrough
        fiveSeconds 10000000).1 := by
  decide +kernel

end MarketAuthority

end Beyvra
