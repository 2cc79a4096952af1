import Beyvra.Foundation.JsonValues
import Beyvra.Relational.Overwriting

namespace Beyvra

open Relational

namespace DashboardFilters

inductive FieldType where
  | integer | decimal | char | text | datetime | bool
  deriving DecidableEq

namespace FieldType

def name : FieldType → String
  | .integer => "integer"
  | .decimal => "decimal"
  | .char => "char"
  | .text => "text"
  | .datetime => "datetime"
  | .bool => "bool"

def operators : FieldType → List String
  | .integer | .decimal | .datetime => ["=", ">", "<", "<=", ">="]
  | .char | .text => ["=", "like"]
  | .bool => ["="]

def typeName : FieldType → String
  | .integer => "int"
  | .decimal => "decimal"
  | .char | .text => "str"
  | .datetime => "datetime(%Y-%m-%d %H:%M:%S)"
  | .bool => "bool"

def accepts (isDatetime : String → Bool) : FieldType → Json → Bool
  | .integer, .int _ => true
  | .decimal, .float _ => true
  | .decimal, .int _ => true
  | .char, .str _ => true
  | .text, .str _ => true
  | .datetime, .str s => isDatetime s
  | .bool, .bool _ => true
  | _, _ => false

end FieldType

def cfiltersConf : List (String × List (String × FieldType)) :=
  [("transactions",
      [("user", .integer), ("amount", .decimal), ("date", .datetime), ("transaction_type", .char), ("category", .char)]),
    ("revenues", [("date", .datetime), ("amount", .decimal)]),
    ("users_activities", [("user", .integer), ("last_active", .datetime), ("is_active", .bool)]),
    ("trades", [("user", .integer), ("asset", .char), ("trade_volume", .decimal), ("trade_date", .datetime)])]

inductive FilterError where
  | notObject | noCategories | emptyCategories | categoryShape
  | unknownCategory (category : String)
  | emptyFilters (category : String)
  | filterShape
  | fieldNotAllowed (field category : String)
  | operatorNotAllowed (operator : String) (type : FieldType)
  | wrongType (value : Json) (type : FieldType)

def FilterError.message (str : Json → String) : FilterError → String
  | .notObject => "Value must be JSON object"
  | .noCategories => "JSON object must have property \"categories\"(type \"Array\")."
  | .emptyCategories => "\"categories\" Array is empty. It must contain at least 1 category."
  | .categoryShape =>
    "Each category must be object with properties \"name\"(type \"String\"), \"filters\"(type \"Array\")"
  | .unknownCategory category => "There is no category with name \"" ++ category ++ "\""
  | .emptyFilters category =>
    "\"filters\" Array for category \"" ++ category ++ "\" is empty. It must contain at least 1 filter."
  | .filterShape =>
    "Each filter must be object with properties \"field\"(type \"string\"), \"operator\"(type \"string\"), \"value\""
  | .fieldNotAllowed field category =>
    "Field \"" ++ field ++ "\" is not allowed for filtering category \"" ++ category ++ "\""
  | .operatorNotAllowed operator type =>
    "Filter operator \"" ++ operator ++ "\" is not allowed for \"" ++ type.name ++ "\" field"
  | .wrongType value type =>
    "Type of value " ++ str value ++ " doesn't match with \"" ++ type.typeName ++ "\""

section Validation

variable (isDatetime : String → Bool)

def validateFilter (category : String) (allowed : List (String × FieldType)) (filter : Json) : Except FilterError Unit :=
  match filter.item "field", filter.item "operator", filter.item "value" with
  | some (.str field), some (.str operator), some value => do
    let type ← demand (allowed.lookup field) (.fieldNotAllowed field category)
    require (operator ∈ type.operators) (.operatorNotAllowed operator type)
    require (type.accepts isDatetime value = true) (.wrongType value type)
  | _, _, _ => .error .filterShape

def validateCategory (category : Json) : Except FilterError Unit :=
  match category.item "name", category.item "filters" with
  | some (.str name), some (.arr filters) => do
    let allowed ← demand (cfiltersConf.lookup name) (.unknownCategory name)
    require (filters ≠ []) (.emptyFilters name)
    filters.forM (validateFilter isDatetime name allowed)
  | _, _ => .error .categoryShape

def validateFiltersForCategories (data : Json) : Except FilterError Unit :=
  match data with
  | .obj _ =>
    match data.item "categories" with
    | some (.arr categories) => do
      require (categories ≠ []) .emptyCategories
      categories.forM (validateCategory isDatetime)
    | _ => .error .noCategories
  | _ => .error .notObject

end Validation

-- What stands in the dictionaries of keyword arguments
inductive FilterValue where
  | json (value : Json)
  | datetime (t : Timestamp)

structure Item where
  category : String
  key : String
  value : FilterValue

abbrev PreparedFilters := Table String (Table String FilterValue)

def initialFilters : PreparedFilters :=
  (((Table.empty.put "transactions" Table.empty).put "revenues" Table.empty).put "users_activities"
    (Table.empty.put "is_active" (.json (.bool true)))).put "trades" Table.empty

-- `prepared_filters[category][key] = value`; nothing where it raises KeyError
def setFilter (prepared : PreparedFilters) (item : Item) : Option PreparedFilters :=
  (prepared.find item.category).map fun filters => prepared.put item.category (filters.put item.key item.value)

def dateField (category : String) : String := if category = "trades" then "trade_date" else "date"

def datedCategories : List String := ["transactions", "revenues", "trades"]

def startOfDay (d : Date) : Timestamp := d * microsecondsPerDay

def endOfDay (d : Date) : Timestamp := d * microsecondsPerDay + (microsecondsPerDay - 1)

def windowItems (startDate endDate : Option Date) : List Item :=
  (startDate.toList.flatMap fun d =>
    datedCategories.map fun category => ⟨category, dateField category ++ "__gte", .datetime (startOfDay d)⟩) ++
  endDate.toList.flatMap fun d =>
    datedCategories.map fun category => ⟨category, dateField category ++ "__lte", .datetime (endOfDay d)⟩

def operatorsHelpers : List (String × String) :=
  [("=", ""), (">", "__gt"), ("<", "__lt"), ("<=", "__lte"), (">=", "__gte"), ("like", "__icontains")]

def Json.text : Json → Option String
  | .str s => some s
  | _ => none

def Json.items : Json → Option (List Json)
  | .arr items => some items
  | _ => none

-- One assignment of the loop; nothing where reading the filter raises
def filterItem (category : String) (filter : Json) : Option Item := do
  let operator ← (filter.item "operator").bind Json.text
  let field ← (filter.item "field").bind Json.text
  let helper ← operatorsHelpers.lookup operator
  let value ← filter.item "value"
  return ⟨category, field ++ helper, .json value⟩

def categoryItems (category : Json) : Option (List Item) := do
  let name ← (category.item "name").bind Json.text
  let filters ← (category.item "filters").bind Json.items
  filters.mapM (filterItem name)

def filterItems (data : Json) : Option (List Item) := do
  let categories ← (data.item "categories").bind Json.items
  List.flatten <$> categories.mapM categoryItems

def prepareFiltersForDashboardMetrics (startDate endDate : Option Date) (categoriesFilters : Option Json) :
    Option PreparedFilters := do
  let window ← (windowItems startDate endDate).foldlM setFilter initialFilters
  match categoriesFilters with
  | none => return window
  | some data =>
    if data.truthy then
      let items ← filterItems data
      items.foldlM setFilter window
    else return window

-- Where a keyword of a query set ends its field and begins its lookup
def splitKey : List Char → List Char × List Char
  | [] => ([], [])
  | '_' :: '_' :: rest => ([], rest)
  | c :: rest => (c :: (splitKey rest).1, (splitKey rest).2)

def fieldOf (key : String) : String := String.ofList (splitKey key.toList).1

def lookupOf (key : String) : String :=
  if (splitKey key.toList).2 = [] then "exact" else String.ofList (splitKey key.toList).2

-- The values that the fields of a row can have, and which of them a lookup of the database accepts
structure Lookups (C : Type) where
  domain : String → C → Prop
  holds : String → String → FilterValue → C → Prop

def comparisons : List (String × String) :=
  [("=", "exact"), (">", "gt"), ("<", "lt"), ("<=", "lte"), (">=", "gte"), ("like", "icontains")]

def comparison (operator : String) : String := (comparisons.lookup operator).getD ""

-- A filter of the JSON
def Lists (data : Json) (category field operator : String) (value : Json) : Prop :=
  ∃ categories entry filters filter, data.item "categories" = some (.arr categories) ∧ entry ∈ categories ∧
    entry.item "name" = some (.str category) ∧ entry.item "filters" = some (.arr filters) ∧ filter ∈ filters ∧
      filter.item "field" = some (.str field) ∧ filter.item "operator" = some (.str operator) ∧
        filter.item "value" = some value

namespace Lookups

variable {C : Type} (lib : Lookups C)

def conditions : Conditions String FilterValue String C where
  field := fieldOf
  domain := lib.domain
  holds p := lib.holds (fieldOf p.1) (lookupOf p.1) p.2

-- `filter(**prepared[category])`
def Selected (prepared : PreparedFilters) (category : String) (row : String → C) : Prop :=
  ∀ filters, prepared.find category = some filters → ∀ key value, filters.find key = some value →
    lib.holds (fieldOf key) (lookupOf key) value (row (fieldOf key))

structure Wanted (startDate endDate : Option Date) (data : Json) (category : String) (row : String → C) : Prop where
  starts : ∀ d ∈ startDate, lib.holds (dateField category) "gte" (.datetime (startOfDay d)) (row (dateField category))
  ends : ∀ d ∈ endDate, lib.holds (dateField category) "lte" (.datetime (endOfDay d)) (row (dateField category))
  filters : ∀ field operator value, Lists data category field operator value →
    lib.holds field (comparison operator) (.json value) (row field)

end Lookups

def conditionsOf (category : String) (items : List Item) : List (String × FilterValue) :=
  (items.filter fun i => i.category = category).map fun i => (i.key, i.value)

section Preparation

variable {prepared : PreparedFilters} {items : List Item} {category : String}

theorem foldlM_setFilter (prepared : PreparedFilters) (items : List Item)
    (hknown : ∀ i ∈ items, (prepared.find i.category).isSome) :
    ∃ result, items.foldlM setFilter prepared = some result ∧ ∀ category,
      result.find category = (prepared.find category).map (·.putAll (conditionsOf category items)) := by
  induction items generalizing prepared with
  | nil => exact ⟨prepared, rfl, fun category => by cases prepared.find category <;> rfl⟩
  | cons i items ih =>
    obtain ⟨filters, hfilters⟩ := Option.isSome_iff_exists.mp (hknown i List.mem_cons_self)
    have hset : setFilter prepared i = some (prepared.put i.category (filters.put i.key i.value)) := by
      rw [setFilter, hfilters]
      rfl
    have hfind (category : String) : (prepared.put i.category (filters.put i.key i.value)).find category =
        if category = i.category then some (filters.put i.key i.value) else prepared.find category :=
      Table.find_put _ _ _ _
    obtain ⟨result, hresult, hfinds⟩ :=
      ih (prepared.put i.category (filters.put i.key i.value)) fun j hj => by
        rw [hfind]
        split_ifs
        · rfl
        · exact hknown j (List.mem_cons_of_mem _ hj)
    refine ⟨result, ?_, fun category => ?_⟩
    · rw [List.foldlM_cons, hset]
      exact hresult
    · rw [hfinds, hfind]
      by_cases hcategory : category = i.category
      · subst hcategory
        rw [if_pos rfl, hfilters]
        simp [conditionsOf, Table.putAll]
      · rw [if_neg hcategory]
        have hskip : conditionsOf category (i :: items) = conditionsOf category items := by
          simp [conditionsOf, Ne.symm hcategory]
        rw [hskip]

theorem mapM_isSome {A B : Type} {f : A → Option B} {l : List A} (h : ∀ a ∈ l, (f a).isSome) :
    ∃ bs, l.mapM f = some bs ∧ ∀ b, b ∈ bs ↔ ∃ a ∈ l, f a = some b := by
  induction l with
  | nil => exact ⟨[], rfl, by simp⟩
  | cons a l ih =>
    obtain ⟨b, hb⟩ := Option.isSome_iff_exists.mp (h a List.mem_cons_self)
    obtain ⟨bs, hbs, hmem⟩ := ih fun a' ha' => h a' (List.mem_cons_of_mem _ ha')
    refine ⟨b :: bs, by rw [List.mapM_cons, hb, hbs]; rfl, fun b' => ?_⟩
    rw [List.mem_cons, hmem, List.exists_mem_cons_iff, hb, Option.some.injEq, eq_comm]

end Preparation

section Keys

theorem splitKey_parts : ∀ c ∈ cfiltersConf, ∀ f ∈ c.2, ∀ o ∈ operatorsHelpers,
    splitKey (f.1.toList ++ o.2.toList) = (f.1.toList, o.2.toList.drop 2) := by decide +kernel

theorem lookup_parts : ∀ o ∈ operatorsHelpers,
    (if o.2.toList.drop 2 = [] then "exact" else String.ofList (o.2.toList.drop 2)) = comparison o.1 := by
  decide +kernel

theorem key_parts {c : String × List (String × FieldType)} (hc : c ∈ cfiltersConf) {f : String × FieldType} (hf : f ∈ c.2)
    {o : String × String} (ho : o ∈ operatorsHelpers) :
    fieldOf (f.1 ++ o.2) = f.1 ∧ lookupOf (f.1 ++ o.2) = comparison o.1 := by
  rw [fieldOf, lookupOf, String.toList_append, splitKey_parts c hc f hf o ho]
  exact ⟨String.ofList_toList, lookup_parts o ho⟩

theorem operators_known {type : FieldType} {operator : String} (h : operator ∈ type.operators) :
    ∃ helper, operatorsHelpers.lookup operator = some helper := by
  have hall : ∀ operator ∈ type.operators, (operatorsHelpers.lookup operator).isSome := by
    cases type <;> decide
  exact Option.isSome_iff_exists.mp (hall operator h)

theorem date_keys {category : String} (h : category ∈ datedCategories) :
    (fieldOf (dateField category ++ "__gte") = dateField category ∧ lookupOf (dateField category ++ "__gte") = "gte") ∧
      fieldOf (dateField category ++ "__lte") = dateField category ∧
        lookupOf (dateField category ++ "__lte") = "lte" := by
  have hallowed : ∀ category ∈ datedCategories, ∃ c ∈ cfiltersConf, (dateField category, FieldType.datetime) ∈ c.2 := by
    decide
  obtain ⟨c, hc, hf⟩ := hallowed category h
  exact ⟨key_parts (o := (">=", "__gte")) hc hf (by decide), key_parts (o := ("<=", "__lte")) hc hf (by decide)⟩

end Keys

section Valid

variable {isDatetime : String → Bool} {data entry filter : Json} {category field operator : String} {value : Json}
  {allowed : List (String × FieldType)}

theorem forM_eq_ok {f : Json → Except FilterError Unit} {l : List Json} (h : l.forM f = .ok ()) :
    ∀ a ∈ l, f a = .ok () := by
  induction l with
  | nil => exact fun a ha => absurd ha List.not_mem_nil
  | cons b l ih =>
    obtain ⟨⟨⟩, hhead, htail⟩ := bind_eq_ok.mp h
    intro a ha
    rcases List.mem_cons.mp ha with rfl | hrest
    · exact hhead
    · exact ih htail a hrest

-- What a filter that passes the check assigns
structure Assigns (category : String) (allowed : List (String × FieldType)) (filter : Json)
    (field operator helper : String) (value : Json) : Prop where
  readsField : filter.item "field" = some (.str field)
  readsOperator : filter.item "operator" = some (.str operator)
  readsValue : filter.item "value" = some value
  known : ∃ type, allowed.lookup field = some type
  translated : operatorsHelpers.lookup operator = some helper

theorem validateFilter_assigns (h : validateFilter isDatetime category allowed filter = .ok ()) :
    ∃ field operator helper value, Assigns category allowed filter field operator helper value := by
  unfold validateFilter at h
  split at h
  · rename_i field operator value hfield hoperator hvalue
    obtain ⟨type, htype, h⟩ := bind_eq_ok.mp h
    obtain ⟨⟨⟩, hrequire, -⟩ := bind_eq_ok.mp h
    obtain ⟨helper, hhelper⟩ := operators_known (require_eq_ok.mp hrequire)
    exact ⟨field, operator, helper, value, hfield, hoperator, hvalue, ⟨type, demand_eq_ok.mp htype⟩, hhelper⟩
  · exact nomatch h

theorem Assigns.item {helper : String} (h : Assigns category allowed filter field operator helper value) :
    filterItem category filter = some ⟨category, field ++ helper, .json value⟩ := by
  rw [filterItem, h.readsOperator, h.readsField, h.readsValue]
  change ((operatorsHelpers.lookup operator).bind fun helper => some _) = _
  rw [h.translated]
  rfl

theorem validateCategory_reads (h : validateCategory isDatetime entry = .ok ()) :
    ∃ name filters allowed, entry.item "name" = some (.str name) ∧ entry.item "filters" = some (.arr filters) ∧
      cfiltersConf.lookup name = some allowed ∧
        ∀ filter ∈ filters, validateFilter isDatetime name allowed filter = .ok () := by
  unfold validateCategory at h
  split at h
  · rename_i name filters hname hfilters
    obtain ⟨allowed, hallowed, h⟩ := bind_eq_ok.mp h
    obtain ⟨⟨⟩, -, h⟩ := bind_eq_ok.mp h
    exact ⟨name, filters, allowed, hname, hfilters, demand_eq_ok.mp hallowed, forM_eq_ok h⟩
  · exact nomatch h

theorem validate_reads (h : validateFiltersForCategories isDatetime data = .ok ()) :
    data.truthy = true ∧ ∃ categories, data.item "categories" = some (.arr categories) ∧
      ∀ entry ∈ categories, validateCategory isDatetime entry = .ok () := by
  unfold validateFiltersForCategories at h
  split at h
  · rename_i fields
    split at h
    · rename_i categories hcategories
      obtain ⟨⟨⟩, -, h⟩ := bind_eq_ok.mp h
      refine ⟨?_, categories, hcategories, forM_eq_ok h⟩
      cases fields with
      | nil => exact nomatch hcategories
      | cons _ _ => rfl
    · exact nomatch h
  · exact nomatch h

theorem categoryItems_of_valid (h : validateCategory isDatetime entry = .ok ()) :
    ∃ name filters allowed items, entry.item "name" = some (.str name) ∧ entry.item "filters" = some (.arr filters) ∧
      cfiltersConf.lookup name = some allowed ∧ categoryItems entry = some items ∧
        (∀ filter ∈ filters, ∃ field operator helper value, Assigns name allowed filter field operator helper value) ∧
          ∀ i, i ∈ items ↔ ∃ filter ∈ filters, filterItem name filter = some i := by
  obtain ⟨name, filters, allowed, hname, hfilters, hallowed, hvalid⟩ := validateCategory_reads h
  have hassigns (filter : Json) (hfilter : filter ∈ filters) := validateFilter_assigns (hvalid filter hfilter)
  obtain ⟨items, hitems, hmem⟩ := mapM_isSome (f := filterItem name) (l := filters) fun filter hfilter => by
    obtain ⟨field, operator, helper, value, hassign⟩ := hassigns filter hfilter
    rw [hassign.item]
    rfl
  refine ⟨name, filters, allowed, items, hname, hfilters, hallowed, ?_, hassigns, hmem⟩
  rw [categoryItems, hname, hfilters]
  exact hitems

theorem mem_of_lookup {A B : Type} [BEq A] [LawfulBEq A] {l : List (A × B)} {a : A} {b : B}
    (h : l.lookup a = some b) : (a, b) ∈ l := by
  obtain ⟨before, after, heq, -⟩ := List.lookup_eq_some_iff.mp h
  simp [heq]

theorem lists_assigns (h : validateFiltersForCategories isDatetime data = .ok ())
    (hlists : Lists data category field operator value) : ∃ categories entry items allowed helper,
      data.item "categories" = some (.arr categories) ∧ entry ∈ categories ∧ categoryItems entry = some items ∧
        cfiltersConf.lookup category = some allowed ∧ (∃ type, allowed.lookup field = some type) ∧
          operatorsHelpers.lookup operator = some helper ∧ ⟨category, field ++ helper, .json value⟩ ∈ items := by
  obtain ⟨-, categories, hcategories, hvalid⟩ := validate_reads h
  obtain ⟨categories', entry, filters', filter, hcategories', hentry, hname', hfilters', hfilter, hfield, hoperator,
    hvalue⟩ := hlists
  obtain rfl : categories = categories' := Json.arr.inj (Option.some.inj (hcategories.symm.trans hcategories'))
  obtain ⟨name, filters, allowed, items, hname, hfilters, hallowed, hitems, hassigns, hmem⟩ :=
    categoryItems_of_valid (hvalid entry hentry)
  obtain rfl : name = category := Json.str.inj (Option.some.inj (hname.symm.trans hname'))
  obtain rfl : filters = filters' := Json.arr.inj (Option.some.inj (hfilters.symm.trans hfilters'))
  obtain ⟨field', operator', helper, value', hassign⟩ := hassigns filter hfilter
  obtain rfl : field' = field := Json.str.inj (Option.some.inj (hassign.readsField.symm.trans hfield))
  obtain rfl : operator' = operator := Json.str.inj (Option.some.inj (hassign.readsOperator.symm.trans hoperator))
  obtain rfl : value' = value := Option.some.inj (hassign.readsValue.symm.trans hvalue)
  exact ⟨categories, entry, items, allowed, helper, hcategories, hentry, hitems, hallowed, hassign.known,
    hassign.translated, (hmem _).mpr ⟨filter, hfilter, hassign.item⟩⟩

-- The filters of accepted data have fields of the configuration, whose keys are read back as written.
theorem lists_known (h : validateFiltersForCategories isDatetime data = .ok ())
    (hlists : Lists data category field operator value) : ∃ helper, operatorsHelpers.lookup operator = some helper ∧
      fieldOf (field ++ helper) = field ∧ lookupOf (field ++ helper) = comparison operator := by
  obtain ⟨categories, entry, items, allowed, helper, -, -, -, hallowed, ⟨type, htype⟩, hhelper, -⟩ :=
    lists_assigns h hlists
  exact ⟨helper, hhelper, key_parts (o := (operator, helper)) (mem_of_lookup hallowed) (mem_of_lookup htype)
    (mem_of_lookup hhelper)⟩

theorem items_listed {categories : List Json} {read : List Item}
    (hcategories : data.item "categories" = some (.arr categories)) (hentry : entry ∈ categories)
    (hvalid : validateCategory isDatetime entry = .ok ()) (hread : categoryItems entry = some read) {i : Item}
    (hi : i ∈ read) : (∃ allowed, cfiltersConf.lookup i.category = some allowed) ∧ ∃ field operator helper value,
      Lists data i.category field operator value ∧ operatorsHelpers.lookup operator = some helper ∧
        i = ⟨i.category, field ++ helper, .json value⟩ := by
  obtain ⟨name, filters, allowed, read', hname, hfilters, hallowed, hread', hassigns, hmem⟩ :=
    categoryItems_of_valid hvalid
  obtain rfl : read' = read := Option.some.inj (hread'.symm.trans hread)
  obtain ⟨filter, hfilter, hitem⟩ := (hmem i).mp hi
  obtain ⟨field, operator, helper, value, hassign⟩ := hassigns filter hfilter
  have heq : i = ⟨name, field ++ helper, .json value⟩ := Option.some.inj (hitem.symm.trans hassign.item)
  have hcategory : i.category = name := by rw [heq]
  rw [hcategory]
  exact ⟨⟨allowed, hallowed⟩, field, operator, helper, value, ⟨categories, entry, filters, filter, hcategories, hentry,
    hname, hfilters, hfilter, hassign.readsField, hassign.readsOperator, hassign.readsValue⟩, hassign.translated, heq⟩

theorem filterItems_of_valid (h : validateFiltersForCategories isDatetime data = .ok ()) :
    ∃ items, filterItems data = some items ∧
      (∀ i ∈ items, ∃ allowed, cfiltersConf.lookup i.category = some allowed) ∧
        ∀ i, i ∈ items ↔ ∃ field operator helper value, Lists data i.category field operator value ∧
          operatorsHelpers.lookup operator = some helper ∧ i = ⟨i.category, field ++ helper, .json value⟩ := by
  obtain ⟨-, categories, hcategories, hvalid⟩ := validate_reads h
  obtain ⟨lists, hlists, hmem⟩ := mapM_isSome (f := categoryItems) (l := categories) fun entry hentry => by
    obtain ⟨-, -, -, items, -, -, -, hitems, -⟩ := categoryItems_of_valid (hvalid entry hentry)
    rw [hitems]
    rfl
  have hread : filterItems data = some lists.flatten := by
    rw [filterItems, hcategories]
    change (List.flatten <$> categories.mapM categoryItems) = _
    rw [hlists]
    rfl
  have hlisted (i : Item) (hi : i ∈ lists.flatten) : (∃ allowed, cfiltersConf.lookup i.category = some allowed) ∧
      ∃ field operator helper value, Lists data i.category field operator value ∧
        operatorsHelpers.lookup operator = some helper ∧ i = ⟨i.category, field ++ helper, .json value⟩ := by
    obtain ⟨items, hitems, hi⟩ := List.mem_flatten.mp hi
    obtain ⟨entry, hentry, hread⟩ := (hmem items).mp hitems
    exact items_listed hcategories hentry (hvalid entry hentry) hread hi
  refine ⟨lists.flatten, hread, fun i hi => (hlisted i hi).1, fun i => ⟨fun hi => (hlisted i hi).2, ?_⟩⟩
  rintro ⟨field, operator, helper, value, hlist, hhelper, heq⟩
  obtain ⟨categories', entry, items, allowed, helper', hcategories', hentry, hitems, -, -, hhelper', hi⟩ :=
    lists_assigns h hlist
  obtain rfl : categories = categories' := Json.arr.inj (Option.some.inj (hcategories.symm.trans hcategories'))
  obtain rfl : helper' = helper := Option.some.inj (hhelper'.symm.trans hhelper)
  rw [← heq] at hi
  exact List.mem_flatten.mpr ⟨items, (hmem items).mpr ⟨entry, hentry, hitems⟩, hi⟩

theorem windowItems_mem {startDate endDate : Option Date} {i : Item} : i ∈ windowItems startDate endDate ↔
    i.category ∈ datedCategories ∧
      ((∃ d ∈ startDate, i.key = dateField i.category ++ "__gte" ∧ i.value = .datetime (startOfDay d)) ∨
        ∃ d ∈ endDate, i.key = dateField i.category ++ "__lte" ∧ i.value = .datetime (endOfDay d)) := by
  rw [windowItems, List.mem_append, and_or_left]
  refine or_congr ?_ ?_
  · simp only [List.mem_flatMap, Option.mem_toList, List.mem_map]
    constructor
    · rintro ⟨d, hd, category, hcategory, rfl⟩
      exact ⟨hcategory, d, hd, rfl, rfl⟩
    · rintro ⟨hcategory, d, hd, hkey, hvalue⟩
      exact ⟨d, hd, i.category, hcategory, by rw [← hkey, ← hvalue]⟩
  · simp only [List.mem_flatMap, Option.mem_toList, List.mem_map]
    constructor
    · rintro ⟨d, hd, category, hcategory, rfl⟩
      exact ⟨hcategory, d, hd, rfl, rfl⟩
    · rintro ⟨hcategory, d, hd, hkey, hvalue⟩
      exact ⟨d, hd, i.category, hcategory, by rw [← hkey, ← hvalue]⟩

end Valid

section Rows

variable {C : Type} {lib : Lookups C} {isDatetime : String → Bool} {startDate endDate : Option Date} {data : Json}
  {category : String} {items : List Item} {row : String → C}

theorem mem_conditionsOf {key : String} {value : FilterValue} :
    (key, value) ∈ conditionsOf category items ↔ ⟨category, key, value⟩ ∈ items := by
  simp only [conditionsOf, List.mem_map, List.mem_filter, decide_eq_true_eq, Prod.mk.injEq]
  constructor
  · rintro ⟨i, ⟨hi, rfl⟩, rfl, rfl⟩
    exact hi
  · exact fun h => ⟨_, ⟨h, rfl⟩, rfl, rfl⟩

theorem initialFilters_dated (h : category ∈ datedCategories) : initialFilters.find category = some Table.empty := by
  simp only [datedCategories, List.mem_cons, List.not_mem_nil, or_false] at h
  rcases h with rfl | rfl | rfl <;> rfl

theorem initialFilters_known {allowed : List (String × FieldType)} (h : cfiltersConf.lookup category = some allowed) :
    (initialFilters.find category).isSome := by
  have hall : ∀ c ∈ cfiltersConf, (initialFilters.find c.1).isSome := by decide
  exact hall _ (mem_of_lookup h)

theorem prepare_eq (h : validateFiltersForCategories isDatetime data = .ok ()) (hitems : filterItems data = some items) :
    prepareFiltersForDashboardMetrics startDate endDate (some data) =
      (windowItems startDate endDate ++ items).foldlM setFilter initialFilters := by
  rw [prepareFiltersForDashboardMetrics, List.foldlM_append]
  simp only [(validate_reads h).1, if_true, hitems]
  rfl

theorem wanted_iff (h : validateFiltersForCategories isDatetime data = .ok ()) (hcategory : category ∈ datedCategories)
    (hitems : ∀ i, i ∈ items ↔ ∃ field operator helper value, Lists data i.category field operator value ∧
      operatorsHelpers.lookup operator = some helper ∧ i = ⟨i.category, field ++ helper, .json value⟩) :
    lib.Wanted startDate endDate data category row ↔
      lib.conditions.Selects (conditionsOf category (windowItems startDate endDate ++ items)) row := by
  obtain ⟨⟨hgte, hgte'⟩, hlte, hlte'⟩ := date_keys hcategory
  constructor
  · rintro ⟨hstarts, hends, hfilters⟩ ⟨key, value⟩ hmem
    change lib.holds (fieldOf key) (lookupOf key) value (row (fieldOf key))
    rcases List.mem_append.mp (mem_conditionsOf.mp hmem) with hwindow | hitem
    · obtain ⟨-, ⟨d, hd, hkey, hvalue⟩ | ⟨d, hd, hkey, hvalue⟩⟩ := windowItems_mem.mp hwindow
      · obtain rfl : key = dateField category ++ "__gte" := hkey
        obtain rfl : value = .datetime (startOfDay d) := hvalue
        rw [hgte, hgte']
        exact hstarts d hd
      · obtain rfl : key = dateField category ++ "__lte" := hkey
        obtain rfl : value = .datetime (endOfDay d) := hvalue
        rw [hlte, hlte']
        exact hends d hd
    · obtain ⟨field, operator, helper, json, hlists, hhelper, heq⟩ := (hitems _).mp hitem
      obtain ⟨rfl, rfl⟩ : key = field ++ helper ∧ value = .json json := by simpa using heq
      obtain ⟨helper', hhelper', hfield, hlookup⟩ := lists_known h hlists
      obtain rfl : helper' = helper := Option.some.inj (hhelper'.symm.trans hhelper)
      rw [hfield, hlookup]
      exact hfilters field operator json hlists
  · intro hselects
    have hmeets (key : String) (value : FilterValue)
        (hmem : ⟨category, key, value⟩ ∈ windowItems startDate endDate ++ items) :
        lib.holds (fieldOf key) (lookupOf key) value (row (fieldOf key)) :=
      hselects (key, value) (mem_conditionsOf.mpr hmem)
    refine ⟨fun d hd => ?_, fun d hd => ?_, fun field operator value hlists => ?_⟩
    · have hrow := hmeets (dateField category ++ "__gte") _
        (List.mem_append_left _ (windowItems_mem.mpr ⟨hcategory, .inl ⟨d, hd, rfl, rfl⟩⟩))
      rwa [hgte, hgte'] at hrow
    · have hrow := hmeets (dateField category ++ "__lte") _
        (List.mem_append_left _ (windowItems_mem.mpr ⟨hcategory, .inr ⟨d, hd, rfl, rfl⟩⟩))
      rwa [hlte, hlte'] at hrow
    · obtain ⟨helper, hhelper, hfield, hlookup⟩ := lists_known h hlists
      have hrow := hmeets _ _ (List.mem_append_right _
        ((hitems ⟨category, field ++ helper, .json value⟩).mpr ⟨field, operator, helper, value, hlists, hhelper, rfl⟩))
      rwa [hfield, hlookup] at hrow

end Rows

theorem dashboard_filters_conjunction_iff {C : Type} (lib : Lookups C) (isDatetime : String → Bool)
    (startDate endDate : Option Date) (data : Json) (h : validateFiltersForCategories isDatetime data = .ok ())
    (category : String) (hcategory : category ∈ datedCategories) :
    ∃ items prepared, filterItems data = some items ∧
      prepareFiltersForDashboardMetrics startDate endDate (some data) = some prepared ∧
        ((∀ row, lib.conditions.IsRow row →
            (lib.Selected prepared category row ↔ lib.Wanted startDate endDate data category row)) ↔
          lib.conditions.Harmless (conditionsOf category (windowItems startDate endDate ++ items))) := by
  obtain ⟨items, hread, hknown, hitems⟩ := filterItems_of_valid h
  obtain ⟨prepared, hprepared, hfinds⟩ := foldlM_setFilter initialFilters
      (windowItems startDate endDate ++ items) fun i hi => by
    rcases List.mem_append.mp hi with hwindow | hitem
    · rw [initialFilters_dated (windowItems_mem.mp hwindow).1]
      rfl
    · obtain ⟨allowed, hallowed⟩ := hknown i hitem
      exact initialFilters_known hallowed
  refine ⟨items, prepared, hread, (prepare_eq h hread).trans hprepared, ?_⟩
  have hfind := hfinds category
  rw [initialFilters_dated hcategory, Option.map_some] at hfind
  rw [← Conditions.conjunction_iff_harmless]
  refine forall_congr' fun row => imp_congr_right fun _ => iff_congr ?_ (wanted_iff h hcategory hitems)
  constructor
  · intro hselected p hp
    exact hselected _ hfind p.1 p.2 (find_putAll_empty.mpr hp)
  · intro hselects filters hfilters key value hvalue
    obtain rfl := Option.some.inj (hfind.symm.trans hfilters)
    exact hselects (key, value) (find_putAll_empty.mp hvalue)

-- Rows of integers under the comparisons, as far as the two runs below need them
def integerRows : Lookups Int where
  domain _ _ := True
  holds
    | _, "gt", .json (.int n), cell => n < cell
    | _, _, _, _ => False

def amountAbove (n : Int) : Json := .obj [("field", .str "amount"), ("operator", .str ">"), ("value", .int n)]

def transactionFilters (filters : List Json) : Json :=
  .obj [("categories", .arr [.obj [("name", .str "transactions"), ("filters", .arr filters)]])]

def narrowing : Json := transactionFilters [amountAbove 1, amountAbove 5]

-- The second filter on the field takes the place of the first one, which it implies.
theorem two_filters_conjunction : ∃ prepared,
    prepareFiltersForDashboardMetrics none none (some narrowing) = some prepared ∧
      ∀ row, integerRows.Selected prepared "transactions" row ↔
        integerRows.Wanted none none narrowing "transactions" row := by
  obtain ⟨items, prepared, hitems, hprepared, hconjunction⟩ :=
    dashboard_filters_conjunction_iff integerRows (fun _ => true) none none narrowing rfl "transactions" (by decide)
  have hread : filterItems narrowing = some [⟨"transactions", "amount__gt", .json (.int 1)⟩,
      ⟨"transactions", "amount__gt", .json (.int 5)⟩] := rfl
  obtain rfl := Option.some.inj (hread.symm.trans hitems)
  refine ⟨prepared, hprepared, fun row => hconjunction.mpr (.inr ?_) row fun _ => trivial⟩
  intro p hp c _ hremaining
  have hlookup : lookupOf "amount__gt" = "gt" := by decide +kernel
  rcases List.mem_cons.mp hp with rfl | hp
  · have hfive := hremaining ("amount__gt", .json (.int 5)) List.mem_cons_self rfl
    change integerRows.holds (fieldOf "amount__gt") (lookupOf "amount__gt") (.json (.int 5)) c at hfive
    change integerRows.holds (fieldOf "amount__gt") (lookupOf "amount__gt") (.json (.int 1)) c
    rw [hlookup] at hfive ⊢
    have hlt : (5 : Int) < c := hfive
    exact lt_trans (by decide : (1 : Int) < 5) hlt
  · obtain rfl := List.mem_singleton.mp hp
    exact hremaining _ List.mem_cons_self rfl

-- The second filter takes the place of the first one, which is stricter.
theorem stricter_filter_dropped :
    validateFiltersForCategories (fun _ => true) (transactionFilters [amountAbove 5, amountAbove 1]) = .ok () ∧
      ∃ prepared, prepareFiltersForDashboardMetrics none none
        (some (transactionFilters [amountAbove 5, amountAbove 1])) = some prepared ∧
        integerRows.Selected prepared "transactions" (fun _ => 3) ∧
          ¬integerRows.Wanted none none (transactionFilters [amountAbove 5, amountAbove 1]) "transactions"
            (fun _ => 3) := by
  refine ⟨rfl, _, rfl, ?_, fun h => ?_⟩
  · intro filters hfilters key value hvalue
    obtain rfl : (Table.empty.put "amount__gt" (.json (.int 5))).put "amount__gt" (.json (.int 1)) = filters :=
      Option.some.inj hfilters
    rw [Table.put_put, Table.find_put] at hvalue
    split_ifs at hvalue with hkey
    · obtain rfl := Option.some.inj hvalue
      subst hkey
      have hlookup : lookupOf "amount__gt" = "gt" := by decide +kernel
      rw [hlookup]
      change (1 : Int) < 3
      decide
    · cases hvalue
  · have hlists : Lists (transactionFilters [amountAbove 5, amountAbove 1]) "transactions" "amount" ">" (.int 5) :=
      ⟨_, _, _, amountAbove 5, rfl, List.mem_cons_self, rfl, rfl, List.mem_cons_self, rfl, rfl, rfl⟩
    have hholds := h.filters "amount" ">" (.int 5) hlists
    change (5 : Int) < 3 at hholds
    exact absurd hholds (by decide)

end DashboardFilters

end Beyvra
