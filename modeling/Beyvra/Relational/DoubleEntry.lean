import Beyvra.Relational.Table

namespace Relational

inductive Direction where
  | debit | credit
  deriving DecidableEq

structure Posting (A C : Type) where
  account : A
  asset : C
  direction : Direction
  amount : ℤ
  deriving DecidableEq

variable {A C K R : Type}

def sideTotal (select : Posting A C → Bool) (d : Direction) (ps : List (Posting A C)) : ℤ :=
  ((ps.filter fun p => select p && p.direction = d).map Posting.amount).sum

def net (select : Posting A C → Bool) (ps : List (Posting A C)) : ℤ :=
  sideTotal select .credit ps - sideTotal select .debit ps

structure Balanced (ps : List (Posting A C)) : Prop where
  asset : ∀ p ∈ ps, ∀ q ∈ ps, p.asset = q.asset
  totals : sideTotal (fun _ => true) .debit ps = sideTotal (fun _ => true) .credit ps

-- The two postings that move an amount from one account to another
def moved (source target : A) (asset : C) (amount : ℤ) : List (Posting A C) :=
  [⟨source, asset, .debit, amount⟩, ⟨target, asset, .credit, amount⟩]

theorem moved_balanced (source target : A) (asset : C) (amount : ℤ) : Balanced (moved source target asset amount) where
  asset := by simp [moved]
  totals := by simp [sideTotal, moved]

theorem net_moved (select : Posting A C → Bool) (source target : A) (asset : C) (amount : ℤ) :
    net select (moved source target asset amount) =
      (if select ⟨target, asset, .credit, amount⟩ then amount else 0) -
        if select ⟨source, asset, .debit, amount⟩ then amount else 0 := by
  unfold net sideTotal moved
  by_cases hs : select ⟨source, asset, .debit, amount⟩ <;> by_cases ht : select ⟨target, asset, .credit, amount⟩ <;>
    simp [hs, ht]

theorem sideTotal_congr {select select' : Posting A C → Bool} {ps : List (Posting A C)} (d : Direction)
    (h : ∀ p ∈ ps, select p = select' p) : sideTotal select d ps = sideTotal select' d ps := by
  unfold sideTotal
  rw [List.filter_congr fun p hp => by rw [h p hp]]

-- Postings of one asset that balance, balance for each asset.
theorem Balanced.sideTotal_eq [DecidableEq C] {ps : List (Posting A C)} (h : Balanced ps) (asset : C) :
    sideTotal (fun p => p.asset = asset) .debit ps = sideTotal (fun p => p.asset = asset) .credit ps := by
  by_cases hasset : ∃ p ∈ ps, p.asset = asset
  · obtain ⟨p, hp, rfl⟩ := hasset
    have hall : ∀ q ∈ ps, decide (q.asset = p.asset) = true := fun q hq => decide_eq_true (h.asset q hq p hp)
    rw [sideTotal_congr .debit hall, sideTotal_congr .credit hall]
    exact h.totals
  · have hnone : ∀ q ∈ ps, decide (q.asset = asset) = false := fun q hq => decide_eq_false fun heq => hasset ⟨q, hq, heq⟩
    rw [sideTotal_congr .debit hnone, sideTotal_congr .credit hnone]
    simp [sideTotal]

section Ledger

variable (entries : R → List (Posting A C))

def turnover (select : Posting A C → Bool) (d : Direction) (t : Table K R) : ℤ :=
  t.sum fun _ r => sideTotal select d (entries r)

-- Credits less debits
def creditBalance (select : Posting A C → Bool) (t : Table K R) : ℤ :=
  turnover entries select .credit t - turnover entries select .debit t

variable {entries} [DecidableEq K] {t : Table K R}

theorem creditBalance_put {k : K} (h : t.find k = none) (r : R) (select : Posting A C → Bool) :
    creditBalance entries select (t.put k r) = creditBalance entries select t + net select (entries r) := by
  unfold creditBalance turnover net
  rw [Table.sum_put_of_none h, Table.sum_put_of_none h]
  ring

theorem turnover_eq [DecidableEq C] (h : ∀ k r, t.find k = some r → Balanced (entries r)) (asset : C) :
    turnover entries (fun p => p.asset = asset) .debit t = turnover entries (fun p => p.asset = asset) .credit t :=
  Table.sum_congr fun k r hr => (h k r hr).sideTotal_eq asset

end Ledger

end Relational
