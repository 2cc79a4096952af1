import Beyvra.FinancialBoundary.Canonical

namespace Beyvra

def Json.item (key : String) : Json → Option Json
  | .obj fields => fields.lookup key
  | _ => none

def Json.truthy : Json → Bool
  | .null => false
  | .bool b => b
  | .int n => n ≠ 0
  | .float repr => repr ≠ "0.0" ∧ repr ≠ "-0.0"
  | .str s => s ≠ ""
  | .arr items => !items.isEmpty
  | .obj fields => !fields.isEmpty
  | .other => true

end Beyvra
