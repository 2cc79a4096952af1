import Mathlib.Data.List.Basic

namespace Files

structure PurePath where
  anchor : String := ""
  names : List String
  deriving DecidableEq

-- Exactly two slashes are an anchor of their own.
def anchorOf : List Char → String
  | '/' :: '/' :: '/' :: _ => "/"
  | '/' :: '/' :: _ => "//"
  | '/' :: _ => "/"
  | _ => ""

namespace PurePath

def parse (text : String) : PurePath where
  anchor := anchorOf text.toList
  names := ((text.toList.splitOn '/').map String.ofList).filter fun name => name ≠ "" && name ≠ "."

-- `p / q`: an anchored path replaces what stands before it.
def div (p q : PurePath) : PurePath := if q.anchor = "" then ⟨p.anchor, p.names ++ q.names⟩ else q

-- Each part as a path of its own, the anchor first
def parts (p : PurePath) : List PurePath :=
  (if p.anchor = "" then [] else [⟨p.anchor, []⟩]) ++ p.names.map fun name => ⟨"", [name]⟩

end PurePath

inductive Kind where
  | regular
  | directory
  | link (target : PurePath)
  | other
  deriving DecidableEq

def Kind.isLink : Kind → Bool
  | .link _ => true
  | _ => false

structure Entry where
  kind : Kind
  uid : Int
  mode : Nat
  acl : Bool := false
  readable : Bool := true
  deriving DecidableEq

-- A place is the list of names from the top, none of which is a link.
abbrev Place := List String

structure FileSystem where
  entry : Place → Option Entry
  parent : ∀ place name e, entry (place ++ [name]) = some e → ∃ d, entry place = some d ∧ d.kind = .directory

namespace FileSystem

variable (fs : FileSystem)

-- Follows names from a place; a link is handed over with the names after it.
def walkFrom (follow : Place → List String → Option Place) : Place → List String → Option Place
  | place, [] => some place
  | place, name :: rest =>
    if name = ".." then walkFrom follow place.dropLast rest
    else
      match fs.entry (place ++ [name]) with
      | none => none
      | some e =>
        match e.kind with
        | .link target => follow (if target.anchor = "" then place else []) (target.names ++ rest)
        | .directory => walkFrom follow (place ++ [name]) rest
        | _ => if rest = [] then some (place ++ [name]) else none

-- With a number of links that may be followed
def walk : Nat → Place → List String → Option Place
  | 0 => fs.walkFrom fun _ _ => none
  | links + 1 => fs.walkFrom (walk links)

def maxLinks : Nat := 40

def resolve (names : List String) : Option Place := fs.walk maxLinks [] names

def isDirectory (place : Place) : Bool := (fs.entry place).any fun e => e.kind = .directory

-- The entry of a path, whose last name is not followed
def lstat (names : List String) : Option Entry :=
  match names.getLast? with
  | none => fs.entry []
  | some name =>
    (fs.resolve names.dropLast).bind fun place =>
      if fs.isDirectory place then fs.entry (if name = ".." then place.dropLast else place ++ [name]) else none

-- The entries of the names below a place, one after another
def Way (P : Entry → Prop) : Place → List String → Prop
  | _, [] => True
  | place, name :: rest => (∃ e, fs.entry (place ++ [name]) = some e ∧ P e) ∧ Way P (place ++ [name]) rest

variable {fs} {follow : Place → List String → Option Place} {place base : Place} {names rest : List String} {e : Entry}
  {P : Entry → Prop}

theorem way_append : fs.Way P place (names ++ rest) ↔ fs.Way P place names ∧ fs.Way P (place ++ names) rest := by
  induction names generalizing place with
  | nil => simp [Way]
  | cons name names ih =>
    rw [List.cons_append, Way, Way, ih, and_assoc, List.append_assoc]
    rfl

theorem isDirectory_of_entry {name : String} (h : fs.entry (place ++ [name]) = some e) : fs.isDirectory place = true := by
  obtain ⟨d, hd, hkind⟩ := fs.parent place name e h
  simp [isDirectory, hd, hkind]

-- Only directories have names below them.
theorem nil_of_way (h : fs.Way P place rest) (hentry : fs.entry place = some e) (hkind : e.kind ≠ .directory) :
    rest = [] := by
  cases rest with
  | nil => rfl
  | cons name rest =>
    obtain ⟨⟨below, hbelow, -⟩, -⟩ := h
    obtain ⟨d, hd, hdirectory⟩ := fs.parent place name below hbelow
    obtain rfl := Option.some.inj (hentry.symm.trans hd)
    exact absurd hdirectory hkind

-- Names without a link among them are followed to where they say.
theorem walkFrom_way (hnames : ".." ∉ names) (h : fs.Way (fun e => e.kind.isLink = false) place names) :
    fs.walkFrom follow place names = some (place ++ names) := by
  induction names generalizing place with
  | nil => rw [walkFrom, List.append_nil]
  | cons name rest ih =>
    obtain ⟨⟨e, he, hkind⟩, hrest⟩ := h
    have hname : name ≠ ".." := fun heq => hnames (heq ▸ List.mem_cons_self)
    have htail := ih (fun hmem => hnames (List.mem_cons_of_mem _ hmem)) hrest
    have hlast (hk : e.kind ≠ .directory) : (if rest = [] then some (place ++ [name]) else none) =
        some (place ++ name :: rest) := by
      rw [nil_of_way hrest he hk]
      exact if_pos rfl
    rw [List.append_assoc, List.singleton_append] at htail
    rw [walkFrom, if_neg hname, he]
    dsimp only
    cases hk : e.kind with
    | link target =>
      rw [hk] at hkind
      cases hkind
    | directory => exact htail
    | regular => exact hlast (by simp [hk])
    | other => exact hlast (by simp [hk])

section Append

variable {target : Place} (hbase : fs.isDirectory base = true)
  (hrest : ∀ follow, fs.walkFrom follow base rest = some target)

include hbase hrest

theorem walkFrom_append (hfollow : ∀ place names, follow place names = some base →
      follow place (names ++ rest) = some target) (h : fs.walkFrom follow place names = some base) :
    fs.walkFrom follow place (names ++ rest) = some target := by
  induction names generalizing place with
  | nil =>
    rw [walkFrom, Option.some.injEq] at h
    rw [h, List.nil_append]
    exact hrest follow
  | cons name names ih =>
    rw [walkFrom] at h
    rw [List.cons_append, walkFrom]
    by_cases hname : name = ".."
    · rw [if_pos hname] at h ⊢
      exact ih h
    · rw [if_neg hname] at h ⊢
      cases he : fs.entry (place ++ [name]) with
      | none =>
        rw [he] at h
        cases h
      | some e =>
        have hfile (hk : e.kind ≠ .directory) : (if names = [] then some (place ++ [name]) else none) ≠ some base := by
          intro heq
          split_ifs at heq
          rw [← Option.some.inj heq, isDirectory, he] at hbase
          exact hk (of_decide_eq_true hbase)
        rw [he] at h
        dsimp only at h ⊢
        cases hk : e.kind with
        | link path =>
          rw [hk] at h
          dsimp only at h ⊢
          rw [← List.append_assoc]
          exact hfollow _ _ h
        | directory =>
          rw [hk] at h
          exact ih h
        | regular =>
          rw [hk] at h
          exact absurd h (hfile (by simp [hk]))
        | other =>
          rw [hk] at h
          exact absurd h (hfile (by simp [hk]))

-- A walk that has come to a directory goes on from there.
theorem walk_append {links : Nat} (h : fs.walk links place names = some base) :
    fs.walk links place (names ++ rest) = some target := by
  induction links generalizing place names with
  | zero =>
    refine walkFrom_append hbase hrest (fun place names hnone => ?_) h
    cases hnone
  | succ links ih => exact walkFrom_append hbase hrest (fun _ _ hmore => ih hmore) h

end Append

theorem resolve_append_way (h : fs.resolve names = some base) (hbase : fs.isDirectory base = true) (hrest : ".." ∉ rest)
    (hway : fs.Way (fun e => e.kind.isLink = false) base rest) : fs.resolve (names ++ rest) = some (base ++ rest) :=
  walk_append hbase (fun _ => walkFrom_way hrest hway) h

theorem entry_of_lstat {name : String} (hplace : fs.resolve names = some base) (hname : name ≠ "..")
    (h : fs.lstat (names ++ [name]) = some e) : fs.entry (base ++ [name]) = some e := by
  rw [lstat, List.getLast?_concat] at h
  dsimp only at h
  rw [List.dropLast_concat, hplace, Option.bind_some, if_neg hname] at h
  split_ifs at h
  exact h

-- What is no link is found where its path leads.
theorem resolve_of_lstat (h : fs.lstat names = some e) (hlink : e.kind.isLink = false) :
    ∃ place, fs.resolve names = some place ∧ fs.entry place = some e := by
  rcases names.eq_nil_or_concat' with rfl | ⟨before, name, rfl⟩
  · exact ⟨[], rfl, h⟩
  · rw [lstat, List.getLast?_concat] at h
    dsimp only at h
    rw [List.dropLast_concat] at h
    obtain ⟨place, hplace, h⟩ := Option.bind_eq_some_iff.mp h
    split_ifs at h with hdirectory hname
    · refine ⟨place.dropLast, walk_append hdirectory (fun follow => ?_) hplace, h⟩
      rw [walkFrom, if_pos hname, walkFrom]
    · refine ⟨place ++ [name], resolve_append_way hplace hdirectory ?_ ⟨⟨e, h, hlink⟩, trivial⟩, h⟩
      exact fun hmem => hname (List.mem_singleton.mp hmem).symm

-- A table of entries in which every entry but the top has a directory above it
def ofTable (table : List (Place × Entry)) (h : ∀ row ∈ table, row.1 = [] ∨
    ((table.find? (·.1 = row.1.dropLast)).map (·.2)).any fun d => d.kind = .directory) : FileSystem where
  entry place := (table.find? (·.1 = place)).map (·.2)
  parent place name e he := by
    obtain ⟨row, hrow, rfl⟩ := Option.map_eq_some_iff.mp he
    have hplace : row.1 = place ++ [name] := by simpa using List.find?_some hrow
    rcases h row (List.mem_of_find?_eq_some hrow) with htop | hparent
    · rw [hplace] at htop
      exact absurd htop (List.append_ne_nil_of_right_ne_nil _ (List.cons_ne_nil _ _))
    · rw [hplace, List.dropLast_concat] at hparent
      obtain ⟨d, hd, hkind⟩ := (Option.any_eq_true _ _).mp hparent
      exact ⟨d, hd, of_decide_eq_true hkind⟩

end FileSystem

end Files
