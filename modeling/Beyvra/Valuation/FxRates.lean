import Mathlib.Algebra.Order.Field.Rat
import Beyvra.Foundation.Records
import Beyvra.Relational.SortedBy

namespace Beyvra

open Relational

namespace FxRates

structure FxValuationRate where
  baseCurrency : String
  quoteCurrency : String
  rate : ℚ
  rateTime : Timestamp
  qualityState : String
  deriving DecidableEq

structure Resolution where
  rate : ℚ
  refs : List FxValuationRate
  chain : String
  deriving DecidableEq

def pivots : List String := ["USD", "EUR"]

def usableRows (rates : List FxValuationRate) (time : Timestamp) : List FxValuationRate :=
  rates.filter fun r => r.rateTime ≤ time ∧ r.qualityState ∈ ["FRESH", "CORRECTED"]

-- filter(base_currency=base, quote_currency=quote).order_by("-rate_time").first()
def latestRow (rows : List FxValuationRate) (base quote : String) : Option FxValuationRate :=
  (sortedBy (fun r => -r.rateTime) (rows.filter fun r => r.baseCurrency = base ∧ r.quoteCurrency = quote)).head?

-- Nothing where the source raises FX_RATE_UNAVAILABLE
def oneLeg (rows : List FxValuationRate) (base quote : String) : Option (ℚ × FxValuationRate) :=
  match latestRow rows base quote with
  | some direct => some (direct.rate, direct)
  | none =>
    match latestRow rows quote base with
    | some inverse => if 0 < inverse.rate then some (1 / inverse.rate, inverse) else none
    | none => none

def singleLeg (rows : List FxValuationRate) (base quote : String) : Option Resolution :=
  (oneLeg rows base quote).map fun leg =>
    ⟨leg.1, [leg.2], if leg.2.baseCurrency = base then "DIRECT" else "INVERSE"⟩

def throughPivot (rows : List FxValuationRate) (base quote pivot : String) : Option Resolution :=
  if pivot = base ∨ pivot = quote then none
  else do
    let left ← oneLeg rows base pivot
    let right ← oneLeg rows pivot quote
    return ⟨left.1 * right.1, [left.2, right.2], "TRIANGULATED_" ++ pivot⟩

def resolveRows (rows : List FxValuationRate) (base quote : String) : Option Resolution :=
  (singleLeg rows base quote).or (pivots.findSome? (throughPivot rows base quote))

def resolveRate (upper : String → String) (rates : List FxValuationRate) (base quote : String) (time : Timestamp) :
    Beyvra.Outcome Resolution :=
  if upper base = upper quote then .ok ⟨1, [], "IDENTITY"⟩
  else demand (resolveRows (usableRows rates time) (upper base) (upper quote)) (.valueError "FX_RATE_UNAVAILABLE")

-- No two different currencies are quoted in both directions.
def OneDirection (rates : List FxValuationRate) : Prop :=
  ∀ r ∈ rates, ∀ r' ∈ rates, r.baseCurrency ≠ r.quoteCurrency →
    ¬(r.baseCurrency = r'.quoteCurrency ∧ r.quoteCurrency = r'.baseCurrency)

instance (rates : List FxValuationRate) : Decidable (OneDirection rates) :=
  inferInstanceAs (Decidable (∀ r ∈ rates, ∀ r' ∈ rates, r.baseCurrency ≠ r.quoteCurrency →
    ¬(r.baseCurrency = r'.quoteCurrency ∧ r.quoteCurrency = r'.baseCurrency)))

def Reversible (upper : String → String) (rates : List FxValuationRate) (base quote : String) (time : Timestamp) : Prop :=
  ∀ resolution, resolveRate upper rates base quote time = .ok resolution →
    0 < resolution.rate ∧ ∃ back, resolveRate upper rates quote base time = .ok back ∧ resolution.rate * back.rate = 1

def LatestPositive (upper : String → String) (rates : List FxValuationRate) : Prop :=
  ∀ base quote time, upper base ≠ upper quote →
    ∀ row ∈ latestRow (usableRows rates time) (upper base) (upper quote), 0 < row.rate

section Rel

variable {α β α' β' : Type} {r : α → β → Prop} {q : α' → β' → Prop} {a a' : Option α} {b b' : Option β}

theorem rel_map {f : α → α'} {g : β → β'} (h : Option.Rel r a b) (hmap : ∀ x y, r x y → q (f x) (g y)) :
    Option.Rel q (a.map f) (b.map g) := by
  cases h with
  | some h => exact .some (hmap _ _ h)
  | none => exact .none

theorem rel_or (h : Option.Rel r a b) (h' : Option.Rel r a' b') : Option.Rel r (a.or a') (b.or b') := by
  cases h with
  | some h => exact .some h
  | none => simpa using h'

theorem rel_findSome {γ : Type} {f : γ → Option α} {g : γ → Option β} {l : List γ}
    (h : ∀ x ∈ l, Option.Rel r (f x) (g x)) : Option.Rel r (l.findSome? f) (l.findSome? g) := by
  induction l with
  | nil => exact .none
  | cons x l ih =>
    obtain ⟨hx, hl⟩ := List.forall_mem_cons.mp h
    rw [List.findSome?_cons, List.findSome?_cons]
    generalize f x = a at hx
    generalize g x = b at hx
    cases hx with
    | some hab => exact .some hab
    | none => exact ih hl

end Rel

section Mirror

variable {rows : List FxValuationRate} {x y pivot : String}

theorem mem_of_latestRow {row : FxValuationRate} (h : latestRow rows x y = some row) :
    row ∈ rows ∧ row.baseCurrency = x ∧ row.quoteCurrency = y := by
  have hmem := perm_sortedBy.mem_iff.mp (List.mem_of_mem_head? h)
  obtain ⟨hrow, hpair⟩ := List.mem_filter.mp hmem
  exact ⟨hrow, of_decide_eq_true hpair⟩

def PairPositive (rows : List FxValuationRate) (x y : String) : Prop := ∀ row ∈ latestRow rows x y, 0 < row.rate

def Reciprocal (a b : ℚ) : Prop := 0 < a ∧ a * b = 1

theorem reciprocal_mul {a b a' b' : ℚ} (h : Reciprocal a b) (h' : Reciprocal a' b') : Reciprocal (a * a') (b' * b) := by
  refine ⟨mul_pos h.1 h'.1, ?_⟩
  calc a * a' * (b' * b) = a * b * (a' * b') := by ring
    _ = 1 := by rw [h.2, h'.2, one_mul]

variable (hone : OneDirection rows)
include hone

theorem latestRow_back {row : FxValuationRate} (hne : x ≠ y) (h : latestRow rows x y = some row) : latestRow rows y x = none := by
  cases hback : latestRow rows y x with
  | none => rfl
  | some row' =>
    obtain ⟨hrow, rfl, rfl⟩ := mem_of_latestRow h
    obtain ⟨hrow', hbase, hquote⟩ := mem_of_latestRow hback
    exact absurd ⟨hquote.symm, hbase.symm⟩ (hone row hrow row' hrow' hne)

theorem oneLeg_mirror (hne : x ≠ y) (hxy : PairPositive rows x y) (hyx : PairPositive rows y x) :
    Option.Rel (fun a b => Reciprocal a.1 b.1) (oneLeg rows x y) (oneLeg rows y x) := by
  unfold oneLeg
  cases hdirect : latestRow rows x y with
  | some row =>
    have hpos : 0 < row.rate := hxy row hdirect
    rw [latestRow_back hone hne hdirect]
    simp only [hpos, if_true]
    exact .some ⟨hpos, mul_one_div_cancel hpos.ne'⟩
  | none =>
    cases hinverse : latestRow rows y x with
    | some row =>
      have hpos : 0 < row.rate := hyx row hinverse
      simp only [hpos, if_true]
      exact .some ⟨one_div_pos.mpr hpos, one_div_mul_cancel hpos.ne'⟩
    | none => exact .none

def Mirrored (a b : Resolution) : Prop := Reciprocal a.rate b.rate

theorem singleLeg_mirror (hne : x ≠ y) (hxy : PairPositive rows x y) (hyx : PairPositive rows y x) :
    Option.Rel Mirrored (singleLeg rows x y) (singleLeg rows y x) :=
  rel_map (oneLeg_mirror hone hne hxy hyx) fun _ _ h => h

theorem throughPivot_mirror (hx : pivot ≠ x → PairPositive rows x pivot ∧ PairPositive rows pivot x)
    (hy : pivot ≠ y → PairPositive rows y pivot ∧ PairPositive rows pivot y) :
    Option.Rel Mirrored (throughPivot rows x y pivot) (throughPivot rows y x pivot) := by
  unfold throughPivot
  by_cases hskip : pivot = x ∨ pivot = y
  · rw [if_pos hskip, if_pos hskip.symm]
    exact .none
  · obtain ⟨hpx, hpy⟩ := not_or.mp hskip
    rw [if_neg hskip, if_neg fun h => hskip h.symm]
    have hleft := oneLeg_mirror hone (Ne.symm hpx) (hx hpx).1 (hx hpx).2
    have hright := oneLeg_mirror hone hpy (hy hpy).2 (hy hpy).1
    generalize oneLeg rows x pivot = left at hleft
    generalize oneLeg rows pivot x = leftBack at hleft
    generalize oneLeg rows pivot y = right at hright
    generalize oneLeg rows y pivot = rightBack at hright
    cases hleft with
    | none => cases hright <;> exact .none
    | some hl =>
      cases hright with
      | none => exact .none
      | some hr => exact .some (reciprocal_mul hl hr)

theorem resolveRows_mirror (hne : x ≠ y) (hxy : PairPositive rows x y) (hyx : PairPositive rows y x)
    (hx : ∀ pivot ∈ pivots, pivot ≠ x → PairPositive rows x pivot ∧ PairPositive rows pivot x)
    (hy : ∀ pivot ∈ pivots, pivot ≠ y → PairPositive rows y pivot ∧ PairPositive rows pivot y) :
    Option.Rel Mirrored (resolveRows rows x y) (resolveRows rows y x) :=
  rel_or (singleLeg_mirror hone hne hxy hyx)
    (rel_findSome fun pivot hpivot => throughPivot_mirror hone (hx pivot hpivot) (hy pivot hpivot))

end Mirror

variable {upper : String → String} {rates : List FxValuationRate} {base quote : String} {time : Timestamp}

theorem oneDirection_usable (h : OneDirection rates) : OneDirection (usableRows rates time) :=
  fun r hr r' hr' => h r (List.mem_of_mem_filter hr) r' (List.mem_of_mem_filter hr')

theorem reversible_of_latestPositive (hone : OneDirection rates) (hpivots : ∀ pivot ∈ pivots, upper pivot = pivot)
    (h : LatestPositive upper rates) : Reversible upper rates base quote time := by
  intro resolution hresolution
  unfold resolveRate at hresolution ⊢
  by_cases hsame : upper base = upper quote
  · rw [if_pos hsame] at hresolution
    obtain rfl := Except.ok.inj hresolution
    exact ⟨one_pos, _, if_pos hsame.symm, one_mul 1⟩
  · rw [if_neg hsame, demand_eq_ok] at hresolution
    have hpair : ∀ a b, upper a ≠ upper b → PairPositive (usableRows rates time) (upper a) (upper b) :=
      fun a b hne => h a b time hne
    have hpivot : ∀ a, ∀ pivot ∈ pivots, pivot ≠ upper a →
        PairPositive (usableRows rates time) (upper a) pivot ∧ PairPositive (usableRows rates time) pivot (upper a) := by
      intro a pivot hmem hne
      rw [← hpivots pivot hmem] at hne ⊢
      exact ⟨hpair a pivot hne.symm, hpair pivot a hne⟩
    have hmirror := resolveRows_mirror (oneDirection_usable hone) hsame (hpair base quote hsame)
      (hpair quote base (Ne.symm hsame)) (hpivot base) (hpivot quote)
    rw [hresolution] at hmirror
    cases hback : resolveRows (usableRows rates time) (upper quote) (upper base) with
    | none =>
      rw [hback] at hmirror
      cases hmirror
    | some back =>
      rw [hback] at hmirror
      cases hmirror with
      | some hrates => exact ⟨hrates.1, back, (if_neg (Ne.symm hsame)).trans rfl, hrates.2⟩

theorem latestPositive_of_reversible (h : ∀ base quote time, Reversible upper rates base quote time) :
    LatestPositive upper rates := by
  intro base quote time hne row hrow
  have hresolve : resolveRate upper rates base quote time =
      .ok ⟨row.rate, [row], if row.baseCurrency = upper base then "DIRECT" else "INVERSE"⟩ := by
    rw [resolveRate, if_neg hne, resolveRows, singleLeg, oneLeg, hrow]
    rfl
  exact (h base quote time _ hresolve).1

theorem resolution_reversible_iff (hone : OneDirection rates) (hpivots : ∀ pivot ∈ pivots, upper pivot = pivot) :
    (∀ base quote time, Reversible upper rates base quote time) ↔ LatestPositive upper rates :=
  ⟨latestPositive_of_reversible, fun h _ _ _ => reversible_of_latestPositive hone hpivots h⟩

def dollarsTo (quote : String) (rate : ℚ) : FxValuationRate := ⟨"USD", quote, rate, 0, "FRESH"⟩

theorem upper_pivots : ∀ pivot ∈ pivots, String.toUpper pivot = pivot := by decide +kernel

theorem quoted_reversible : Reversible String.toUpper [dollarsTo "EUR" (4 / 5), dollarsTo "GBP" (3 / 4)] "EUR" "GBP" 1 := by
  refine (resolution_reversible_iff (by decide +kernel) upper_pivots).mpr ?_ "EUR" "GBP" 1
  intro base quote time _ row hrow
  have hmem := List.mem_of_mem_filter (mem_of_latestRow hrow).1
  rcases List.mem_pair.mp hmem with rfl | rfl
  · decide +kernel
  · decide +kernel

-- A rate of zero is handed out as it stands, and has no inverse.
theorem zero_rate_resolves : OneDirection [dollarsTo "EUR" 0] ∧
    resolveRate String.toUpper [dollarsTo "EUR" 0] "USD" "EUR" 1 = .ok ⟨0, [dollarsTo "EUR" 0], "DIRECT"⟩ ∧
    ¬∀ base quote time, Reversible String.toUpper [dollarsTo "EUR" 0] base quote time := by
  refine ⟨by decide +kernel, by decide +kernel, fun h => ?_⟩
  have hzero := h "USD" "EUR" 1 ⟨0, [dollarsTo "EUR" 0], "DIRECT"⟩ (by decide +kernel)
  exact absurd hzero.1 (lt_irrefl 0)

end FxRates

end Beyvra
