import Beyvra.Files.FileSystem

namespace Beyvra

open Files

namespace ProviderGovernance

-- `v[1-9][0-9]*`
def versionName : List Char → Bool
  | 'v' :: c :: cs => '1' ≤ c && c ≤ '9' && cs.all Char.isDigit
  | _ => false

-- The end of the pattern also stands before a newline that ends the reference.
def versioned (reference : String) : Bool :=
  let segments := reference.toList.splitOn '/'
  segments.any versionName || segments.getLast?.any fun last => last.getLast? = some '\n' && versionName last.dropLast

section Source

variable (fs : FileSystem) (allowedUids : List Int)

def checkParts (candidate : PurePath) : PurePath → List PurePath → Bool
  | _, [] => true
  | current, part :: rest =>
    if part.names ∈ [[""], ["."], [".."]] then false
    else
      match fs.lstat (current.div part).names with
      | none => false
      | some item =>
        !(item.kind.isLink || item.uid ∉ allowedUids || item.acl) &&
          !(current.div part ≠ candidate && item.mode &&& 0o022 ≠ 0) && checkParts candidate (current.div part) rest

def readable (names : List String) : Bool := ((fs.resolve names).bind fs.entry).any (·.readable)

-- root is the setting, made absolute.
def credentialPath (root : PurePath) (reference : String) : Option PurePath :=
  if versioned reference then do
    let rootEntry ← fs.lstat root.names
    let candidate := root.div (PurePath.parse reference)
    if rootEntry.kind.isLink || !checkParts fs allowedUids candidate root (PurePath.parse reference).parts then none
    else
      let file ← fs.lstat candidate.names
      if file.kind ≠ .regular || file.mode &&& 0o077 ≠ 0 || !readable fs candidate.names then none
      else some candidate
  else none

end Source

section Confinement

variable (fs : FileSystem) (allowedUids : List Int) (root : PurePath)

def Vetted (item : Entry) : Prop := item.kind.isLink = false ∧ item.uid ∈ allowedUids

-- A regular file strictly below the root, by a way without links whose entries have allowed owners
def Below (path : PurePath) : Prop :=
  ∃ base names file, fs.resolve root.names = some base ∧ (∃ e, fs.lstat root.names = some e ∧ e.kind.isLink = false) ∧
    names ≠ [] ∧ fs.resolve path.names = some (base ++ names) ∧ fs.Way (Vetted allowedUids) base names ∧
    fs.entry (base ++ names) = some file ∧ file.kind = .regular

def RootOwned : Prop := ∃ base e, fs.resolve root.names = some base ∧ fs.entry base = some e ∧ e.uid ∈ allowedUids

-- The same with the directory of the root itself
def Confined (path : PurePath) : Prop := Below fs allowedUids root path ∧ RootOwned fs allowedUids root

def Inside (reference : PurePath) : Prop :=
  reference.anchor = "" ∨
    ∃ base names, fs.resolve root.names = some base ∧ names ≠ [] ∧ reference.names = base ++ names

end Confinement

variable {fs : FileSystem} {allowedUids : List Int} {root candidate current path : PurePath} {names : List String}
  {place : Place} {reference : String}

theorem checkParts_cons {part : PurePath} {rest : List PurePath}
    (h : checkParts fs allowedUids candidate current (part :: rest) = true) : part.names ≠ [".."] ∧
      ∃ item, fs.lstat (current.div part).names = some item ∧ Vetted allowedUids item ∧
        checkParts fs allowedUids candidate (current.div part) rest = true := by
  rw [checkParts] at h
  split_ifs at h with hdots
  refine ⟨fun heq => hdots (by simp [heq]), ?_⟩
  cases hlstat : fs.lstat (current.div part).names with
  | none =>
    rw [hlstat] at h
    cases h
  | some item =>
    rw [hlstat] at h
    simp only [Bool.and_eq_true, Bool.not_eq_true', Bool.or_eq_false_iff, decide_eq_false_iff_not, not_not] at h
    exact ⟨item, rfl, h.1.1.1, h.2⟩

theorem way_of_checkParts (hplace : fs.resolve current.names = some place)
    (h : checkParts fs allowedUids candidate current (names.map fun name => ⟨"", [name]⟩) = true) :
    ".." ∉ names ∧ fs.Way (Vetted allowedUids) place names ∧
      fs.resolve (current.names ++ names) = some (place ++ names) := by
  induction names generalizing current place with
  | nil => exact ⟨List.not_mem_nil, trivial, by simpa using hplace⟩
  | cons name rest ih =>
    obtain ⟨hdots, item, hlstat, hvetted, hrest⟩ := checkParts_cons h
    have hname : name ≠ ".." := fun heq => hdots (by rw [heq])
    have hentry : fs.entry (place ++ [name]) = some item := FileSystem.entry_of_lstat hplace hname hlstat
    have hnext : fs.resolve (current.names ++ [name]) = some (place ++ [name]) :=
      FileSystem.resolve_append_way hplace (FileSystem.isDirectory_of_entry hentry)
        (fun hmem => hname (List.mem_singleton.mp hmem).symm) ⟨⟨item, hentry, hvetted.1⟩, trivial⟩
    obtain ⟨hfree, hway, hresolve⟩ := @ih (current.div ⟨"", [name]⟩) _ hnext hrest
    refine ⟨fun hmem => ?_, ⟨⟨item, hentry, hvetted⟩, hway⟩, ?_⟩
    · rcases List.mem_cons.mp hmem with heq | hmem
      · exact hname heq.symm
      · exact hfree hmem
    · have happend : current.names ++ name :: rest = (current.div ⟨"", [name]⟩).names ++ rest := by
        show _ = current.names ++ [name] ++ rest
        rw [List.append_assoc, List.singleton_append]
      rw [happend, hresolve, List.append_assoc, List.singleton_append]

theorem credentialPath_eq_some (h : credentialPath fs allowedUids root reference = some path) :
    versioned reference = true ∧ path = root.div (PurePath.parse reference) ∧
      (∃ e, fs.lstat root.names = some e ∧ e.kind.isLink = false) ∧
      checkParts fs allowedUids path root (PurePath.parse reference).parts = true ∧
      ∃ file, fs.lstat path.names = some file ∧ file.kind = .regular := by
  unfold credentialPath at h
  split_ifs at h with hversioned
  obtain ⟨rootEntry, hroot, h⟩ := Option.bind_eq_some_iff.mp h
  dsimp only at h
  split_ifs at h with hcheck
  obtain ⟨file, hfile, h⟩ := Option.bind_eq_some_iff.mp h
  split_ifs at h with hmode
  obtain rfl := Option.some.inj h
  simp only [Bool.or_eq_true, Bool.not_eq_true', not_or, Bool.not_eq_true, Bool.not_eq_false] at hcheck
  simp only [Bool.or_eq_true, decide_eq_true_eq, not_or, not_not] at hmode
  exact ⟨hversioned, rfl, ⟨rootEntry, hroot, hcheck.1⟩, hcheck.2, file, hfile, hmode.1.1⟩

theorem head_of_versionName {segment : List Char} (h : versionName segment = true) : ∃ rest, segment = 'v' :: rest := by
  unfold versionName at h
  split at h
  · exact ⟨_, rfl⟩
  · cases h

theorem names_of_versioned (h : versioned reference = true) : (PurePath.parse reference).names ≠ [] := by
  have hsegment : ∃ segment ∈ reference.toList.splitOn '/', ∃ rest, segment = 'v' :: rest := by
    rcases Bool.or_eq_true_iff.mp h with hany | hlast
    · obtain ⟨segment, hmem, hv⟩ := List.any_eq_true.mp hany
      exact ⟨segment, hmem, head_of_versionName hv⟩
    · obtain ⟨segment, hmem, hv⟩ := (Option.any_eq_true _ _).mp hlast
      obtain ⟨rest, hrest⟩ := head_of_versionName (Bool.and_eq_true_iff.mp hv).2
      refine ⟨segment, List.mem_of_getLast? hmem, ?_⟩
      cases segment with
      | nil => cases hrest
      | cons c cs =>
        cases cs with
        | nil => cases hrest
        | cons d ds => exact ⟨d :: ds, congrArg (· :: d :: ds) (List.cons.inj hrest).1⟩
  obtain ⟨segment, hmem, rest, rfl⟩ := hsegment
  refine List.ne_nil_of_mem (List.mem_filter.mpr ⟨List.mem_map_of_mem hmem, ?_⟩)
  have hempty : String.ofList ('v' :: rest) ≠ "" := fun heq => by simpa using congrArg String.toList heq
  have hdot : String.ofList ('v' :: rest) ≠ "." := fun heq => by simpa using congrArg String.toList heq
  exact Bool.and_eq_true_iff.mpr ⟨decide_eq_true hempty, decide_eq_true hdot⟩

-- Where the way of a path leads, and by which entries
theorem way_of_credentialPath (h : credentialPath fs allowedUids root reference = some path) :
    ∃ base place, fs.resolve root.names = some base ∧
      place = (if (PurePath.parse reference).anchor = "" then base else []) ∧
      fs.Way (Vetted allowedUids) place (PurePath.parse reference).names ∧
      fs.resolve path.names = some (place ++ (PurePath.parse reference).names) := by
  obtain ⟨-, rfl, ⟨e, hroot, hlink⟩, hparts, -⟩ := credentialPath_eq_some h
  obtain ⟨base, hbase, -⟩ := FileSystem.resolve_of_lstat hroot hlink
  refine ⟨base, _, hbase, rfl, ?_⟩
  unfold PurePath.parts at hparts
  split_ifs at hparts with hanchor
  · rw [List.nil_append] at hparts
    obtain ⟨-, hway, hresolve⟩ := way_of_checkParts hbase hparts
    rw [if_pos hanchor, PurePath.div, if_pos hanchor]
    exact ⟨hway, hresolve⟩
  · obtain ⟨-, item, -, -, hrest⟩ := checkParts_cons hparts
    have htop : root.div ⟨(PurePath.parse reference).anchor, []⟩ = ⟨(PurePath.parse reference).anchor, []⟩ := if_neg hanchor
    rw [htop] at hrest
    have htopPlace : fs.resolve (PurePath.mk (PurePath.parse reference).anchor []).names = some [] := rfl
    obtain ⟨-, hway, hresolve⟩ := way_of_checkParts htopPlace hrest
    rw [if_neg hanchor, PurePath.div, if_neg hanchor]
    exact ⟨hway, hresolve⟩

theorem below_iff (h : credentialPath fs allowedUids root reference = some path) :
    Below fs allowedUids root path ↔ Inside fs root (PurePath.parse reference) := by
  obtain ⟨hversioned, -, hroot, -, file, hfile, hregular⟩ := credentialPath_eq_some h
  obtain ⟨base, place, hbase, hplace, hway, hresolve⟩ := way_of_credentialPath h
  obtain ⟨there, hthere, hentry⟩ := FileSystem.resolve_of_lstat hfile (by rw [hregular]; rfl)
  obtain rfl := Option.some.inj (hresolve.symm.trans hthere)
  constructor
  · rintro ⟨base', names, file', hbase', -, hne, hpath, -, -, -⟩
    by_cases hanchor : (PurePath.parse reference).anchor = ""
    · exact .inl hanchor
    · rw [if_neg hanchor] at hplace
      rw [hplace, List.nil_append] at hresolve
      exact .inr ⟨base', names, hbase', hne, Option.some.inj (hresolve.symm.trans hpath)⟩
  · rintro (hanchor | ⟨base', names, hbase', hne, hnames⟩)
    · rw [if_pos hanchor] at hplace
      subst hplace
      exact ⟨place, _, file, hbase, hroot, names_of_versioned hversioned, hresolve, hway, hentry, hregular⟩
    · obtain rfl := Option.some.inj (hbase.symm.trans hbase')
      by_cases hanchor : (PurePath.parse reference).anchor = ""
      · rw [if_pos hanchor] at hplace
        subst hplace
        exact ⟨place, _, file, hbase, hroot, names_of_versioned hversioned, hresolve, hway, hentry, hregular⟩
      · rw [if_neg hanchor] at hplace
        subst hplace
        rw [hnames] at hway hresolve hentry
        rw [List.nil_append] at hresolve hentry
        exact ⟨base, names, file, hbase, hroot, hne, hresolve, (FileSystem.way_append.mp hway).2, hentry, hregular⟩

theorem credential_confined (fs : FileSystem) (allowedUids : List Int) (root path : PurePath) (reference : String)
    (h : credentialPath fs allowedUids root reference = some path) :
    (Below fs allowedUids root path ↔ Inside fs root (PurePath.parse reference)) ∧
      (Confined fs allowedUids root path ↔
        Inside fs root (PurePath.parse reference) ∧ RootOwned fs allowedUids root) :=
  ⟨below_iff h, and_congr_left fun _ => below_iff h⟩

def directory : Entry where
  kind := .directory
  uid := 0
  mode := 0o755

def secretFile : Entry where
  kind := .regular
  uid := 0
  mode := 0o600

def credentialFiles : FileSystem := FileSystem.ofTable
  [([], directory), (["etc"], directory), (["etc", "providers"], directory), (["etc", "providers", "v1"], secretFile),
    (["srv"], directory), (["srv", "v1"], secretFile)] (by decide)

def credentialRoot : PurePath := ⟨"/", ["etc", "providers"]⟩

theorem relative_confined : (Below credentialFiles [0] credentialRoot ⟨"/", ["etc", "providers", "v1"]⟩ ↔
      Inside credentialFiles credentialRoot (PurePath.parse "v1")) ∧
    (Confined credentialFiles [0] credentialRoot ⟨"/", ["etc", "providers", "v1"]⟩ ↔
      Inside credentialFiles credentialRoot (PurePath.parse "v1") ∧ RootOwned credentialFiles [0] credentialRoot) :=
  credential_confined credentialFiles [0] credentialRoot ⟨"/", ["etc", "providers", "v1"]⟩ "v1" (by decide +kernel)

-- An absolute reference replaces the root.
theorem absolute_escapes : credentialPath credentialFiles [0] credentialRoot "/srv/v1" = some ⟨"/", ["srv", "v1"]⟩ ∧
    ¬Below credentialFiles [0] credentialRoot ⟨"/", ["srv", "v1"]⟩ := by
  refine ⟨by decide +kernel, ?_⟩
  rintro ⟨base, names, file, hbase, -, -, hpath, -⟩
  have hroot : credentialFiles.resolve credentialRoot.names = some ["etc", "providers"] := by decide +kernel
  have hsrv : credentialFiles.resolve ["srv", "v1"] = some ["srv", "v1"] := by decide +kernel
  obtain rfl := Option.some.inj (hbase.symm.trans hroot)
  have heq := Option.some.inj (hpath.symm.trans hsrv)
  exact absurd (List.cons.inj heq).1 (by decide)

end ProviderGovernance

end Beyvra
