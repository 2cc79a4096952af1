import Beyvra.RealWallet.ServiceEffects

namespace Beyvra

open Relational

namespace RealWallet

def BalanceHold.activeOn (hold : BalanceHold) (key : BalanceKey) : ℤ :=
  if hold.state = .active ∧ hold.balance = key then hold.amountAtomic else 0

-- The sum of the holds of a balance that are active
def activeHeld (holds : Table ScopedKey BalanceHold) (key : BalanceKey) : ℤ := holds.sum fun _ hold => hold.activeOn key

structure HoldsAccounted (balances : Table BalanceKey AssetBalance) (holds : Table ScopedKey BalanceHold) : Prop where
  held : ∀ key b, balances.find key = some b → b.heldAtomic = activeHeld holds key
  covered : ∀ key b, balances.find key = some b →
    b.heldAtomic ≤ b.postedAtomic ∧ b.postedAtomic ≤ roomAtomic ∧ b.reservedAtomic = 0
  positive : ∀ id hold, holds.find id = some hold → 0 < hold.amountAtomic
  backed : ∀ id hold, holds.find id = some hold → balances.find hold.balance ≠ none

section Sums

variable {holds : Table ScopedKey BalanceHold} {id : ScopedKey} {hold : BalanceHold} {key : BalanceKey} {target : HoldState}

theorem activeOn_of_active (hactive : hold.state = .active) :
    hold.activeOn key = if hold.balance = key then hold.amountAtomic else 0 := by
  by_cases hkey : hold.balance = key <;> simp [BalanceHold.activeOn, hactive, hkey]

theorem activeOn_of_ended (hended : hold.state ≠ .active) : hold.activeOn key = 0 := if_neg fun h => hended h.1

theorem activeHeld_created (hfree : holds.find id = none) :
    activeHeld (holds.put id { hold with state := .active }) key =
      activeHeld holds key + if hold.balance = key then hold.amountAtomic else 0 := by
  unfold activeHeld
  rw [Table.sum_put_of_none hfree, activeOn_of_active rfl]
  rfl

theorem activeHeld_settled (hfound : holds.find id = some hold) (hactive : hold.state = .active) (htarget : target ≠ .active) :
    activeHeld (holds.put id { hold with state := target }) key =
      activeHeld holds key - if hold.balance = key then hold.amountAtomic else 0 := by
  unfold activeHeld
  rw [Table.sum_put_of_some hfound, activeOn_of_active hactive, activeOn_of_ended htarget, add_zero]

end Sums

namespace HoldsAccounted

variable {balances : Table BalanceKey AssetBalance} {holds : Table ScopedKey BalanceHold} {id : ScopedKey}
  {hold : BalanceHold} {key : BalanceKey} {b : AssetBalance} {target : HoldState}

theorem empty : HoldsAccounted Table.empty Table.empty where
  held _ _ h := by cases h
  covered _ _ h := by cases h
  positive _ _ h := by cases h
  backed _ _ h := by cases h

theorem active_nonneg (h : HoldsAccounted balances holds) (key : BalanceKey) (id : ScopedKey) (hold : BalanceHold)
    (hfound : holds.find id = some hold) : 0 ≤ hold.activeOn key := by
  have hpositive := h.positive id hold hfound
  unfold BalanceHold.activeOn
  split_ifs <;> omega

theorem held_nonneg (h : HoldsAccounted balances holds) : 0 ≤ activeHeld holds key := Table.sum_nonneg (h.active_nonneg key)

theorem amount_le (h : HoldsAccounted balances holds) (hfound : holds.find id = some hold) (hactive : hold.state = .active) :
    hold.amountAtomic ≤ activeHeld holds hold.balance := by
  have hle := Table.le_sum (h.active_nonneg hold.balance) hfound
  rwa [activeOn_of_active hactive, if_pos rfl] at hle

-- A hold needs a balance, so that a balance that is new has none.
theorem activeHeld_of_none (h : HoldsAccounted balances holds) (hnone : balances.find key = none) : activeHeld holds key = 0 := by
  refine Table.sum_eq_zero fun id hold hfound => if_neg ?_
  rintro ⟨-, rfl⟩
  exact h.backed id hold hfound hnone

-- A balance is written with what it holds, and with no less posted than that.
theorem post (h : HoldsAccounted balances holds) (hheld : b.heldAtomic = activeHeld holds key)
    (hcovered : b.heldAtomic ≤ b.postedAtomic) (hposted : b.postedAtomic ≤ roomAtomic) (hreserved : b.reservedAtomic = 0) :
    HoldsAccounted (balances.put key b) holds where
  held k b' hfound := by
    rcases Table.find_put_cases hfound with ⟨rfl, rfl⟩ | ⟨-, hold⟩
    · exact hheld
    · exact h.held k b' hold
  covered k b' hfound := by
    rcases Table.find_put_cases hfound with ⟨rfl, rfl⟩ | ⟨-, hold⟩
    · exact ⟨hcovered, hposted, hreserved⟩
    · exact h.covered k b' hold
  positive := h.positive
  backed id hold hfound := fun hnone => h.backed id hold hfound (Table.find_put_none hnone).2

-- The balance of a hold that appears or ends is written with the hold.
theorem move {r : BalanceHold} {d : ℤ} (h : HoldsAccounted balances holds)
    (hsum : ∀ key, activeHeld (holds.put id r) key = activeHeld holds key + if r.balance = key then d else 0)
    (hpositive : 0 < r.amountAtomic) (hheld : b.heldAtomic = activeHeld holds r.balance + d)
    (hcovered : b.heldAtomic ≤ b.postedAtomic) (hposted : b.postedAtomic ≤ roomAtomic) (hreserved : b.reservedAtomic = 0) :
    HoldsAccounted (balances.put r.balance b) (holds.put id r) where
  held k b' hfound := by
    rw [hsum]
    rcases Table.find_put_cases hfound with ⟨rfl, rfl⟩ | ⟨hne, hold⟩
    · rw [if_pos rfl]
      exact hheld
    · rw [if_neg (Ne.symm hne), add_zero]
      exact h.held k b' hold
  covered k b' hfound := by
    rcases Table.find_put_cases hfound with ⟨rfl, rfl⟩ | ⟨-, hold⟩
    · exact ⟨hcovered, hposted, hreserved⟩
    · exact h.covered k b' hold
  positive id' row' hfound := by
    rcases Table.find_put_cases hfound with ⟨rfl, rfl⟩ | ⟨-, hold⟩
    · exact hpositive
    · exact h.positive id' row' hold
  backed id' row' hfound hnone := by
    obtain ⟨hne, hnone⟩ := Table.find_put_none hnone
    rcases Table.find_put_cases hfound with ⟨rfl, rfl⟩ | ⟨-, hold⟩
    · exact hne rfl
    · exact h.backed id' row' hold hnone

theorem room (h : HoldsAccounted balances holds) : Room balances holds where
  balance key b hbalance := by
    obtain ⟨hcovered, hposted, hreserved⟩ := h.covered key b hbalance
    exact ⟨h.held key b hbalance ▸ h.held_nonneg, hcovered, hposted, hreserved⟩
  hold id hold b hfound hactive hbalance := by
    refine ⟨h.positive id hold hfound, ?_⟩
    rw [h.held _ b hbalance]
    exact h.amount_le hfound hactive

theorem created {s s' : Books} (h : HoldsAccounted s.balances s.holds) (hcreated : HoldCreated id hold s s') :
    HoldsAccounted s'.balances s'.holds := by
  cases hcreated with
  | existing row hrow => exact h
  | created balance hfree hpositive hbalance havailable =>
    obtain ⟨hcovered, hposted, hreserved⟩ := h.covered _ _ hbalance
    have hheld := h.held _ _ hbalance
    refine h.move (r := { hold with state := .active }) (d := hold.amountAtomic) (fun key => activeHeld_created hfree) hpositive
      ?_ ?_ hposted hreserved
    · exact congrArg (· + hold.amountAtomic) hheld
    · show balance.heldAtomic + hold.amountAtomic ≤ balance.postedAtomic
      omega

theorem settled {s s' : Books} (h : HoldsAccounted s.balances s.holds) (hsettled : HoldSettled id target s s')
    (htarget : target ≠ .active) : HoldsAccounted s'.balances s'.holds := by
  obtain ⟨row, balance, hrow, hactive, hbalance⟩ := hsettled
  obtain ⟨hcovered, hposted, hreserved⟩ := h.covered _ _ hbalance
  have hheld := h.held _ _ hbalance
  have hpositive := h.positive _ _ hrow
  refine h.move (r := { row with state := target }) (d := -row.amountAtomic) (fun key => ?_) hpositive ?_ ?_ ?_ ?_
  · rw [activeHeld_settled hrow hactive htarget, sub_eq_add_neg]
    simp only [apply_ite Neg.neg, neg_zero]
    rfl
  · rw [← sub_eq_add_neg]
    exact (congrArg (· - row.amountAtomic) hheld) ▸ by unfold AssetBalance.less; split_ifs <;> rfl
  · unfold AssetBalance.less
    split_ifs
    · exact sub_le_sub_right hcovered _
    · exact (sub_le_self _ hpositive.le).trans hcovered
  · unfold AssetBalance.less
    split_ifs
    · exact (sub_le_self _ hpositive.le).trans hposted
    · exact hposted
  · unfold AssetBalance.less
    split_ifs <;> exact hreserved

theorem credited {amount : ℤ} (h : HoldsAccounted balances holds) (hbalance : b = (balances.find key).getD {})
    (hpositive : 0 < amount) (hroom : b.postedAtomic + amount ≤ roomAtomic) :
    HoldsAccounted (balances.put key { b with postedAtomic := b.postedAtomic + amount }) holds := by
  cases hfound : balances.find key with
  | none =>
    rw [hfound] at hbalance
    subst hbalance
    exact h.post (h.activeHeld_of_none hfound).symm (by simpa using hpositive.le) hroom rfl
  | some old =>
    rw [hfound] at hbalance
    subst hbalance
    obtain ⟨hcovered, -, hreserved⟩ := h.covered _ _ hfound
    have hheld := h.held _ _ hfound
    exact h.post hheld (hcovered.trans (le_add_of_nonneg_right hpositive.le)) hroom hreserved

theorem transferred {r : TransferRequest} {source destination : AssetBalance} (h : HoldsAccounted balances holds)
    (hpositive : 0 < r.amountAtomic) (hsource : balances.find r.source = some source)
    (hdestination : balances.find r.destination = some destination)
    (havailable : r.amountAtomic ≤ source.postedAtomic - source.heldAtomic)
    (hroom : destination.postedAtomic + r.amountAtomic ≤ roomAtomic) :
    HoldsAccounted ((balances.put r.source { source with postedAtomic := source.postedAtomic - r.amountAtomic }).put
      r.destination { destination with postedAtomic := destination.postedAtomic + r.amountAtomic }) holds := by
  obtain ⟨hcovered, hposted, hreserved⟩ := h.covered _ _ hsource
  obtain ⟨hcovered', -, hreserved'⟩ := h.covered _ _ hdestination
  have hheld := h.held _ _ hsource
  have hheld' := h.held _ _ hdestination
  have hfirst : HoldsAccounted (balances.put r.source { source with postedAtomic := source.postedAtomic - r.amountAtomic }) holds :=
    h.post hheld (by show source.heldAtomic ≤ source.postedAtomic - r.amountAtomic; omega)
      ((sub_le_self _ hpositive.le).trans hposted) hreserved
  exact hfirst.post hheld' (hcovered'.trans (le_add_of_nonneg_right hpositive.le)) hroom hreserved'

-- A hold that is active can always be settled.
theorem exists_settled {s : Books} (h : HoldsAccounted s.balances s.holds) (hrow : s.holds.find id = some hold)
    (hactive : hold.state = .active) (target : HoldState) : ∃ s', transitionHold id target s = .ok s' := by
  obtain ⟨balance, hbalance⟩ := Option.ne_none_iff_exists'.mp (h.backed id hold hrow)
  obtain ⟨hheld, hcovered, hposted, hreserved⟩ := h.room.balance _ balance hbalance
  obtain ⟨hpositive, hle⟩ := h.room.hold _ _ _ hrow hactive hbalance
  have hvalid : (balance.less target hold.amountAtomic).valid = true := by
    unfold AssetBalance.less AssetBalance.valid
    split_ifs <;> simp only [decide_eq_true_eq] <;> omega
  have hfits : fits (balance.less target hold.amountAtomic).postedAtomic ∧
      fits (balance.less target hold.amountAtomic).heldAtomic := by
    unfold AssetBalance.less
    split_ifs <;> exact ⟨fits_of_room (by dsimp only; omega) (by dsimp only; omega),
      fits_of_room (by dsimp only; omega) (by dsimp only; omega)⟩
  unfold transitionHold
  rw [bind_of_ok (fetch_of_some hrow), bind_of_ok (require_of hactive), bind_of_ok (fetch_of_some hbalance),
    h.room.settle_eq hrow hactive hbalance, bind_of_ok (saveBalance_eq_ok.mpr ⟨⟨hfits, hvalid⟩, rfl⟩)]
  exact ⟨_, rfl⟩

theorem exists_ended {s : Books} (withdrawal : Withdrawal) (h : HoldsAccounted s.balances s.holds) (target : HoldState) :
    ∃ s', transitionIfActive (s.holdOf withdrawal) withdrawal.hold target s = .ok s' := by
  unfold transitionIfActive
  split
  · next row holdId hrow hhold =>
    split_ifs with hactive
    · rw [Books.holdOf, hhold] at hrow
      exact h.exists_settled hrow hactive target
    · exact ⟨s, rfl⟩
  · exact ⟨s, rfl⟩

end HoldsAccounted

end RealWallet

end Beyvra
