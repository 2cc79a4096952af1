import Beyvra.Foundation.Decimals

namespace Beyvra

open Numeric

namespace FinancialBoundary

-- What `canonical_amount` is given; other stands for a value that is not a string.
inductive AmountInput where
  | str (text : String)
  | other

abbrev ContractOutcome := Except String

def canonicalAmount (precision : Int) (allowZero : Bool) : AmountInput → ContractOutcome String
  | .other => .error "amount must be a decimal string"
  | .str text =>
    match decimalOf text with
    | none => .error "amount is not a decimal"
    | some (.finite amount) =>
      if amount.value < 0 ∨ (allowZero = false ∧ amount.value = 0) then .error "amount must be finite and positive"
      else if precision < amount.decimals then .error "amount exceeds supported precision"
      else .ok (String.ofList amount.format)
    | some _ => .error "amount must be finite and positive"

-- `[A-Z][A-Z0-9]{1,11}`
def isAsset (asset : String) : Bool :=
  match asset.toList with
  | [] => false
  | c :: rest => 'A' ≤ c && c ≤ 'Z' && 1 ≤ rest.length && rest.length ≤ 11 &&
      rest.all fun c => ('A' ≤ c && c ≤ 'Z') || c.isDigit

def canonicalAsset (asset : String) : ContractOutcome String :=
  if isAsset asset then .ok asset else .error "unsupported asset code"

structure WalletSnapshot where
  walletId : String
  accountRef : String
  asset : String
  total : String
  available : String
  reserved : String
  pending : String
  asOf : String
  version : Int
  deriving DecidableEq

def WalletSnapshot.create (s : WalletSnapshot) : ContractOutcome WalletSnapshot := do
  let asset ← canonicalAsset s.asset
  let total ← canonicalAmount 8 true (.str s.total)
  let available ← canonicalAmount 8 true (.str s.available)
  let reserved ← canonicalAmount 8 true (.str s.reserved)
  let pending ← canonicalAmount 8 true (.str s.pending)
  if s.version < 0 then .error "wallet version must be non-negative"
  else return { s with asset, total, available, reserved, pending }

-- The value, the decimals written and the sign, which a zero may have as well
structure SameAmount (d e : FiniteDecimal) : Prop where
  value : d.value = e.value
  decimals : d.decimals = e.decimals
  sign : d.negative = e.negative

def Accepted (precision : Int) (allowZero : Bool) (d : FiniteDecimal) : Prop :=
  ¬(d.value < 0 ∨ (allowZero = false ∧ d.value = 0)) ∧ (d.decimals : Int) ≤ precision

variable {precision : Int} {allowZero : Bool} {a b x y : String} {d e : FiniteDecimal} {s s' w w' : WalletSnapshot}

theorem inRange_of_decimalOf (h : decimalOf a = some (.finite d)) : d.InRange := inRange_of_parse h

theorem canonicalAmount_eq_ok : canonicalAmount precision allowZero (.str a) = .ok x ↔
    ∃ d, decimalOf a = some (.finite d) ∧ Accepted precision allowZero d ∧ String.ofList d.format = x := by
  cases hparse : decimalOf a with
  | none => simp [canonicalAmount, hparse]
  | some amount =>
    cases amount with
    | finite d =>
      simp only [canonicalAmount, hparse, Option.some.injEq, Decimal.finite.injEq, exists_eq_left', Accepted]
      split_ifs with hsign hdecimals
      · simp only [hsign, not_true, false_and]
      · simp only [not_le.mpr hdecimals, and_false, false_and]
      · simp only [hsign, not_false_eq_true, not_lt.mp hdecimals, true_and, Except.ok.injEq]
    | infinity negative => simp [canonicalAmount, hparse]
    | nan signaling => simp [canonicalAmount, hparse]

theorem Accepted.normal (h : Accepted precision allowZero d) : Accepted precision allowZero d.normal := by
  rw [Accepted, FiniteDecimal.normal_value, FiniteDecimal.normal_decimals]
  exact h

theorem canonicalAmount_eq_iff (ha : canonicalAmount precision allowZero (.str a) = .ok x)
    (hb : canonicalAmount precision allowZero (.str b) = .ok y) : ∃ d e, decimalOf a = some (.finite d) ∧
      decimalOf b = some (.finite e) ∧ (x = y ↔ SameAmount d e) := by
  obtain ⟨d, hd, -, rfl⟩ := canonicalAmount_eq_ok.mp ha
  obtain ⟨e, he, -, rfl⟩ := canonicalAmount_eq_ok.mp hb
  refine ⟨d, e, hd, he, ?_⟩
  rw [String.ofList_inj, FiniteDecimal.format_eq_iff (inRange_of_decimalOf hd) (inRange_of_decimalOf he)]
  exact ⟨fun ⟨hvalue, hdecimals, hsign⟩ => ⟨hvalue, hdecimals, hsign⟩, fun h => ⟨h.value, h.decimals, h.sign⟩⟩

theorem canonicalAmount_idem (ha : canonicalAmount precision allowZero (.str a) = .ok x) :
    canonicalAmount precision allowZero (.str x) = .ok x := by
  obtain ⟨d, hd, haccepted, rfl⟩ := canonicalAmount_eq_ok.mp ha
  refine canonicalAmount_eq_ok.mpr ⟨d.normal, decimalOf_format (inRange_of_decimalOf hd), haccepted.normal, ?_⟩
  rw [FiniteDecimal.normal_format]

def amountFields : List (WalletSnapshot → String) := [(·.total), (·.available), (·.reserved), (·.pending)]

theorem create_amounts (h : s.create = .ok w) :
    ∀ field ∈ amountFields, canonicalAmount 8 true (.str (field s)) = .ok (field w) := by
  obtain ⟨asset, -, h⟩ := Relational.bind_eq_ok.mp h
  obtain ⟨total, htotal, h⟩ := Relational.bind_eq_ok.mp h
  obtain ⟨available, havailable, h⟩ := Relational.bind_eq_ok.mp h
  obtain ⟨reserved, hreserved, h⟩ := Relational.bind_eq_ok.mp h
  obtain ⟨pending, hpending, h⟩ := Relational.bind_eq_ok.mp h
  split_ifs at h
  obtain rfl := Except.ok.inj h
  simp only [amountFields, List.forall_mem_cons, List.not_mem_nil, false_implies, implies_true, and_true]
  exact ⟨htotal, havailable, hreserved, hpending⟩

theorem canonical_amounts : (∀ precision allowZero a b x y, canonicalAmount precision allowZero (.str a) = .ok x →
      canonicalAmount precision allowZero (.str b) = .ok y → (∃ d e, decimalOf a = some (.finite d) ∧
        decimalOf b = some (.finite e) ∧ (x = y ↔ SameAmount d e)) ∧ canonicalAmount precision allowZero (.str x) = .ok x) ∧
    ∀ s s' w w', WalletSnapshot.create s = .ok w → WalletSnapshot.create s' = .ok w' → ∀ field ∈ amountFields,
      ∃ d e, decimalOf (field s) = some (.finite d) ∧ decimalOf (field s') = some (.finite e) ∧
        (field w = field w' ↔ SameAmount d e) := by
  refine ⟨fun precision allowZero a b x y ha hb => ?_, fun s s' w w' hs hs' field hfield => ?_⟩
  · exact ⟨canonicalAmount_eq_iff ha hb, canonicalAmount_idem ha⟩
  · exact canonicalAmount_eq_iff (create_amounts hs field hfield) (create_amounts hs' field hfield)

def snapshotOf (total : String) : WalletSnapshot where
  walletId := "w"
  accountRef := "a"
  asset := "USD"
  total := total
  available := "1"
  reserved := "0"
  pending := "0"
  asOf := "2026-01-01T00:00:00Z"
  version := 1

theorem written_amounts : ((∃ d e, decimalOf "1.50" = some (.finite d) ∧ decimalOf " 01.5_0" = some (.finite e) ∧
      ("1.50" = "1.50" ↔ SameAmount d e)) ∧ canonicalAmount 8 false (.str "1.50") = .ok "1.50") ∧
    ∃ d e, decimalOf "100" = some (.finite d) ∧ decimalOf "1e2" = some (.finite e) ∧ ("100" = "100" ↔ SameAmount d e) :=
  ⟨canonical_amounts.1 8 false "1.50" " 01.5_0" "1.50" "1.50" (by decide +kernel) (by decide +kernel),
    canonical_amounts.2 (snapshotOf "100") (snapshotOf "1e2") (snapshotOf "100") (snapshotOf "100") (by decide +kernel)
      (by decide +kernel) (·.total) List.mem_cons_self⟩

-- One amount has two texts, and two snapshots of it differ.
theorem trailing_zero_kept : canonicalAmount 8 false (.str "1.5") = .ok "1.5" ∧
    canonicalAmount 8 false (.str "1.50") = .ok "1.50" ∧
    (∃ d e, decimalOf "1.5" = some (.finite d) ∧ decimalOf "1.50" = some (.finite e) ∧ d.value = e.value) ∧
    (snapshotOf "1.5").create = .ok (snapshotOf "1.5") ∧ (snapshotOf "1.50").create = .ok (snapshotOf "1.50") ∧
    (snapshotOf "1.5").total ≠ (snapshotOf "1.50").total := by
  refine ⟨by decide +kernel, by decide +kernel, ?_, by decide +kernel, by decide +kernel, by decide +kernel⟩
  refine ⟨⟨false, 15, -1⟩, ⟨false, 150, -2⟩, by decide +kernel, by decide +kernel, ?_⟩
  norm_num [FiniteDecimal.value]

end FinancialBoundary

end Beyvra
