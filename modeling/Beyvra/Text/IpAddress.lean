import Mathlib.Data.List.Basic
import Beyvra.Text.Hex
import Beyvra.Text.UrlSplit

namespace Text

-- The module `ipaddress`

structure Ipv4Address where
  first : Fin 256
  second : Fin 256
  third : Fin 256
  fourth : Fin 256
  deriving DecidableEq

-- No leading zeros
def octet (text : List Char) : Option (Fin 256) := (List.finRange 256).find? fun n => Nat.toDigits 10 n = text

def ipv4 (text : List Char) : Option Ipv4Address :=
  match text.splitOn '.' with
  | [a, b, c, d] =>
    (octet a).bind fun a => (octet b).bind fun b => (octet c).bind fun c => (octet d).map fun d => ⟨a, b, c, d⟩
  | _ => none

def Ipv4Address.text (a : Ipv4Address) : List Char :=
  ['.'].intercalate ([a.first, a.second, a.third, a.fourth].map fun n => Nat.toDigits 10 n)

structure Hextets where
  groups : List (Fin 65536)
  length_eq : groups.length = 8
  deriving DecidableEq

structure Ipv6Address where
  hextets : Hextets
  scope : Option (List Char)
  deriving DecidableEq

def hextet (text : List Char) : Option (Fin 65536) :=
  if text ≠ [] ∧ text.length ≤ 4 then
    (text.mapM hexValue).map fun digits => Fin.ofNat 65536 (digits.foldl (fun n digit => 16 * n + digit) 0)
  else none

def decimalDigits : List Char := ['0', '1', '2', '3', '4', '5', '6', '7', '8', '9']

def lowerHexDigits : List Char := decimalDigits ++ ['a', 'b', 'c', 'd', 'e', 'f']

def hextetText (n : Fin 65536) : List Char := Nat.toDigits 16 n

-- An IPv4 address at the end counts for two groups.
def ipv4Suffix (parts : List (List Char)) : Option (List (List Char)) :=
  if parts.getLast?.any ('.' ∈ ·) then
    (ipv4 (parts.getLast?.getD [])).map fun a =>
      parts.dropLast ++ [Nat.toDigits 16 (256 * a.first + a.second), Nat.toDigits 16 (256 * a.third + a.fourth)]
  else some parts

-- The places of the empty parts, without the last part
def emptyPlaces : Nat → List (List Char) → List Nat
  | place, part :: next :: rest =>
    if part = [] then place :: emptyPlaces (place + 1) (next :: rest) else emptyPlaces (place + 1) (next :: rest)
  | _, _ => []

theorem filled_length {high low : List (Fin 65536)} (h : high.length + low.length < 8) :
    (high ++ List.replicate (8 - (high.length + low.length)) 0 ++ low).length = 8 := by
  simp only [List.length_append, List.length_replicate]
  omega

def fillZeros (high low : List (Fin 65536)) : Option Hextets :=
  if h : high.length + low.length < 8 then
    some ⟨high ++ List.replicate (8 - (high.length + low.length)) 0 ++ low, filled_length h⟩
  else none

-- An empty part at an end belongs to the colons beside it.
def expandSkip (parts : List (List Char)) (skip : Nat) : Option Hextets :=
  let high := if parts.head? = some [] then skip - 1 else skip
  let low := if parts.getLast? = some [] then parts.length - skip - 2 else parts.length - skip - 1
  if parts.head? = some [] ∧ high ≠ 0 ∨ parts.getLast? = some [] ∧ low ≠ 0 then none
  else
    ((parts.take high).mapM hextet).bind fun first =>
      ((parts.drop (parts.length - low)).mapM hextet).bind fun last => fillZeros first last

def hextetsOf (parts : List (List Char)) : Option Hextets :=
  match emptyPlaces 1 parts.tail with
  | [] => (parts.mapM hextet).bind fun groups => if h : groups.length = 8 then some ⟨groups, h⟩ else none
  | [skip] => expandSkip parts skip
  | _ => none

def ipv6 (text : List Char) : Option Ipv6Address :=
  let (body, zone) := partitionAt '%' text
  if '/' ∈ text ∨ '%' ∈ text ∧ zone = [] ∨ '%' ∈ zone then none
  else
    let parts := body.splitOn ':'
    if parts.length < 3 then none
    else
      (ipv4Suffix parts).bind fun parts =>
        if 9 < parts.length then none
        else (hextetsOf parts).map fun hextets => ⟨hextets, if '%' ∈ text then some zone else none⟩

-- The start and the length of the first longest run of zeros; `run` zeros stand just before the place.
def longestZeros : Nat → Nat → Nat × Nat → List (Fin 65536) → Nat × Nat
  | _, _, best, [] => best
  | place, run, best, group :: rest =>
    if group = 0 then
      longestZeros (place + 1) (run + 1) (if best.2 < run + 1 then (place - run, run + 1) else best) rest
    else longestZeros (place + 1) 0 best rest

def compressHextets (groups : List (Fin 65536)) : List (List Char) :=
  let (start, length) := longestZeros 0 0 (0, 0) groups
  if 1 < length then
    (if start = 0 then [[]] else []) ++ (groups.take start).map hextetText ++ [[]] ++
      (groups.drop (start + length)).map hextetText ++ if start + length = groups.length then [[]] else []
  else groups.map hextetText

def Ipv6Address.compressed (a : Ipv6Address) : List Char :=
  [':'].intercalate (compressHextets a.hextets.groups) ++ a.scope.elim [] ('%' :: ·)

inductive IpAddress where
  | v4 (a : Ipv4Address)
  | v6 (a : Ipv6Address)
  deriving DecidableEq

-- `ipaddress.ip_address`; nothing where it raises ValueError
def ipAddress (text : List Char) : Option IpAddress := ((ipv4 text).map .v4).or ((ipv6 text).map .v6)

section Groups

variable {groups high low : List (Fin 65536)} {part : List Char} {parts first last : List (List Char)} {c : Char}

theorem hexDigits_read (n : Nat) :
    ∃ digits, (Nat.toDigits 16 n).mapM hexValue = some digits ∧ digits.foldl (fun n digit => 16 * n + digit) 0 = n := by
  induction n using Nat.strong_induction_on with
  | _ n ih =>
    have hdigit : ∀ d < 16, hexValue d.digitChar = some d := by decide
    by_cases hn : n < 16
    · refine ⟨[n], ?_, by simp⟩
      rw [Nat.toDigits_of_lt_base hn, List.mapM_cons, hdigit n hn]
      rfl
    · obtain ⟨digits, hdigits, hvalue⟩ := ih (n / 16) (by omega)
      refine ⟨digits ++ [n % 16], ?_, ?_⟩
      · rw [Nat.toDigits_of_base_le (by decide) (by omega), List.mapM_append, hdigits, List.mapM_cons,
          hdigit (n % 16) (Nat.mod_lt n (by decide))]
        rfl
      · rw [List.foldl_append, hvalue, List.foldl_cons, List.foldl_nil]
        omega

theorem hexDigits_chars (n : Nat) : ∀ c ∈ Nat.toDigits 16 n, c ∈ lowerHexDigits := by
  induction n using Nat.strong_induction_on with
  | _ n ih =>
    have hdigit : ∀ d < 16, d.digitChar ∈ lowerHexDigits := by decide
    intro c hc
    by_cases hn : n < 16
    · rw [Nat.toDigits_of_lt_base hn, List.mem_singleton] at hc
      exact hc ▸ hdigit n hn
    · rw [Nat.toDigits_of_base_le (by decide) (by omega), List.mem_append, List.mem_singleton] at hc
      rcases hc with hc | rfl
      · exact ih (n / 16) (by omega) c hc
      · exact hdigit (n % 16) (Nat.mod_lt n (by decide))

theorem hextet_hextetText (n : Fin 65536) : hextet (hextetText n) = some n := by
  have hlength : (Nat.toDigits 16 n).length ≤ 4 := (Nat.length_toDigits_le_iff (by decide) (by decide)).mpr n.isLt
  obtain ⟨digits, hdigits, hvalue⟩ := hexDigits_read n
  rw [hextet, if_pos ⟨Nat.toDigits_ne_nil, hlength⟩, hextetText, hdigits, Option.map_some, hvalue]
  exact congrArg some (Fin.ofNat_val_eq_self n)

theorem hextets_read (groups : List (Fin 65536)) : (groups.map hextetText).mapM hextet = some groups := by
  induction groups with
  | nil => rfl
  | cons group groups ih =>
    rw [List.map_cons, List.mapM_cons, hextet_hextetText, ih]
    rfl

theorem hextetText_ne_nil (n : Fin 65536) : hextetText n ≠ [] := Nat.toDigits_ne_nil

theorem emptyPlaces_none (place : Nat) (h : ∀ part ∈ parts.dropLast, part ≠ []) : emptyPlaces place parts = [] := by
  induction parts generalizing place with
  | nil => rfl
  | cons part parts ih =>
    cases parts with
    | nil => rfl
    | cons next rest =>
      rw [List.dropLast_cons_cons, List.forall_mem_cons] at h
      rw [emptyPlaces, if_neg h.1]
      exact ih (place + 1) h.2

-- The only empty part between the ends is found.
theorem emptyPlaces_single (place : Nat) (hfirst : ∀ part ∈ first, part ≠ []) (hne : last ≠ [])
    (hlast : ∀ part ∈ last.dropLast, part ≠ []) : emptyPlaces place (first ++ [] :: last) = [place + first.length] := by
  induction first generalizing place with
  | nil =>
    obtain ⟨next, rest, rfl⟩ := List.exists_cons_of_ne_nil hne
    rw [List.nil_append, emptyPlaces, if_pos rfl, emptyPlaces_none (place + 1) hlast]
    rfl
  | cons part first ih =>
    obtain ⟨hpart, hfirst⟩ := List.forall_mem_cons.mp hfirst
    obtain ⟨next, rest, hrest⟩ := List.exists_cons_of_ne_nil (List.append_ne_nil_of_right_ne_nil first (List.cons_ne_nil [] last))
    rw [List.cons_append, hrest, emptyPlaces, if_neg hpart, ← hrest, ih (place + 1) hfirst, List.length_cons]
    congr 1
    omega

-- The parts on one side of a skip
def sideParts (groups : List (Fin 65536)) : List (List Char) := if groups = [] then [[]] else groups.map hextetText

theorem sideParts_nonempty (groups : List (Fin 65536)) : ∃ head rest, sideParts groups = head :: rest ∧
    (∀ part ∈ rest, part ≠ []) ∧ ∀ part ∈ (head :: rest).dropLast, part ≠ [] := by
  cases groups with
  | nil => exact ⟨[], [], rfl, nofun, nofun⟩
  | cons group groups =>
    have hall : ∀ part ∈ (group :: groups).map hextetText, part ≠ [] := by
      intro part hpart
      obtain ⟨n, -, rfl⟩ := List.mem_map.mp hpart
      exact hextetText_ne_nil n
    refine ⟨hextetText group, groups.map hextetText, rfl, ?_, ?_⟩
    · exact (List.forall_mem_cons.mp hall).2
    · exact fun part hpart => hall part (List.dropLast_subset _ hpart)

theorem sideParts_head (groups : List (Fin 65536)) : (sideParts groups).head? = some [] ↔ groups = [] := by
  cases groups with
  | nil => exact iff_of_true rfl rfl
  | cons group groups =>
    refine iff_of_false (fun h => hextetText_ne_nil group ?_) (List.cons_ne_nil group groups)
    exact Option.some.inj h

theorem sideParts_getLast (groups : List (Fin 65536)) : (sideParts groups).getLast? = some [] ↔ groups = [] := by
  induction groups using List.reverseRecOn with
  | nil => exact iff_of_true rfl rfl
  | append_singleton groups group =>
    have hne : groups ++ [group] ≠ [] := List.append_ne_nil_of_right_ne_nil groups (List.cons_ne_nil group [])
    refine iff_of_false (fun h => hextetText_ne_nil group ?_) hne
    rw [sideParts, if_neg hne, List.map_append, List.map_singleton, List.getLast?_concat] at h
    exact Option.some.inj h

-- Reading the parts on both sides of a skip gives back the groups.
theorem expandSkip_sides (high low : List (Fin 65536)) :
    expandSkip (sideParts high ++ [] :: sideParts low) (sideParts high).length = fillZeros high low := by
  obtain ⟨lowHead, lowRest, hlowParts, -⟩ := sideParts_nonempty low
  have hlast : (sideParts high ++ [] :: sideParts low).getLast? = (sideParts low).getLast? := by
    rw [hlowParts, List.getLast?_append_cons, List.getLast?_cons_cons]
  have hhead : (sideParts high ++ [] :: sideParts low).head? = (sideParts high).head? := by
    obtain ⟨head, rest, hparts, -⟩ := sideParts_nonempty high
    rw [hparts]
    rfl
  have hhigh : (if high = [] then (sideParts high).length - 1 else (sideParts high).length) = high.length := by
    by_cases h : high = [] <;> simp [sideParts, h]
  have hlow : (if low = [] then (sideParts high ++ [] :: sideParts low).length - (sideParts high).length - 2
      else (sideParts high ++ [] :: sideParts low).length - (sideParts high).length - 1) = low.length := by
    by_cases h : low = [] <;> simp [sideParts, h]
  have htake : (sideParts high ++ [] :: sideParts low).take high.length = high.map hextetText := by
    by_cases h : high = []
    · simp [h]
    · simp [sideParts, h]
  have hdrop : (sideParts high ++ [] :: sideParts low).drop
      ((sideParts high ++ [] :: sideParts low).length - low.length) = low.map hextetText := by
    by_cases h : low = []
    · simp [h]
    · have hcount : (sideParts high ++ [] :: sideParts low).length - low.length = (sideParts high ++ [[]]).length := by
        simp [sideParts, h]
        omega
      rw [hcount, List.append_cons (sideParts high) [] (sideParts low), List.drop_left, sideParts, if_neg h]
  have hcheck : ¬(high = [] ∧ high.length ≠ 0 ∨ low = [] ∧ low.length ≠ 0) := by
    rintro (⟨rfl, h⟩ | ⟨rfl, h⟩) <;> exact h rfl
  rw [expandSkip]
  simp only [hlast, hhead, sideParts_head, sideParts_getLast, hhigh, hlow]
  rw [if_neg hcheck, htake, hdrop, hextets_read, hextets_read]
  rfl

-- Every place of the run holds a zero.
def ZeroRun (groups : List (Fin 65536)) (run : Nat × Nat) : Prop :=
  ∀ place, run.1 ≤ place → place < run.1 + run.2 → groups[place]? = some 0

theorem longestZeros_zero (done rest : List (Fin 65536)) (run : Nat) (best : Nat × Nat) (hrun : run ≤ done.length)
    (hzeros : ZeroRun (done ++ rest) (done.length - run, run)) (hbest : ZeroRun (done ++ rest) best) :
    ZeroRun (done ++ rest) (longestZeros done.length run best rest) := by
  induction rest generalizing done run best with
  | nil => exact hbest
  | cons group rest ih =>
    have hsplit : done ++ group :: rest = (done ++ [group]) ++ rest := List.append_cons ..
    have hlength : done.length + 1 = (done ++ [group]).length := by simp
    rw [longestZeros]
    by_cases hgroup : group = 0
    · have hlonger : ZeroRun (done ++ group :: rest) (done.length - run, run + 1) := by
        intro place hstart hend
        by_cases hplace : place = done.length
        · simp [hplace, hgroup]
        · exact hzeros place hstart (by dsimp only at hend ⊢; omega)
      rw [if_pos hgroup, hlength, hsplit]
      rw [hsplit] at hlonger hbest
      refine ih (done ++ [group]) (run + 1) _ (by omega) ?_ ?_
      · have hstart : (done ++ [group]).length - (run + 1) = done.length - run := by omega
        rwa [hstart]
      · by_cases hlength' : best.2 < run + 1
        · rwa [if_pos hlength']
        · rwa [if_neg hlength']
    · rw [if_neg hgroup, hlength, hsplit]
      rw [hsplit] at hbest
      exact ih (done ++ [group]) 0 best (Nat.zero_le _) (fun place hstart hend => by dsimp only at hstart hend; omega) hbest

theorem ZeroRun.end_le {run : Nat × Nat} (h : ZeroRun groups run) (hpos : 0 < run.2) : run.1 + run.2 ≤ groups.length := by
  have hlast := h (run.1 + run.2 - 1) (by omega) (by omega)
  obtain ⟨hlt, -⟩ := List.getElem?_eq_some_iff.mp hlast
  omega

theorem ZeroRun.split {run : Nat × Nat} (h : ZeroRun groups run) (hend : run.1 + run.2 ≤ groups.length) :
    groups = groups.take run.1 ++ List.replicate run.2 0 ++ groups.drop (run.1 + run.2) := by
  have hzeros : (groups.drop run.1).take run.2 = List.replicate run.2 0 := by
    refine List.eq_replicate_iff.mpr ⟨by simp; omega, fun group hgroup => ?_⟩
    obtain ⟨place, hplace, rfl⟩ := List.getElem_of_mem hgroup
    have hlt : place < run.2 := by
      rw [List.length_take] at hplace
      omega
    have hzero := h (run.1 + place) (by omega) (by omega)
    rw [List.getElem_take, List.getElem_drop]
    exact Option.some.inj ((List.getElem?_eq_getElem _).symm.trans hzero)
  rw [← hzeros, ← List.drop_drop, List.append_assoc, List.take_append_drop, List.take_append_drop]

theorem sideParts_take {start : Nat} (hstart : start < groups.length) :
    sideParts (groups.take start) = (if start = 0 then [[]] else []) ++ (groups.take start).map hextetText := by
  by_cases h : start = 0
  · simp [sideParts, h]
  · have hne : groups.take start ≠ [] := by
      rw [← List.length_pos_iff, List.length_take]
      omega
    rw [sideParts, if_neg hne, if_neg h, List.nil_append]

theorem sideParts_drop {stop : Nat} (hstop : stop ≤ groups.length) :
    sideParts (groups.drop stop) = (groups.drop stop).map hextetText ++ if stop = groups.length then [[]] else [] := by
  by_cases h : stop = groups.length
  · simp [sideParts, h]
  · have hne : groups.drop stop ≠ [] := by
      rw [← List.length_pos_iff, List.length_drop]
      omega
    rw [sideParts, if_neg hne, if_neg h, List.append_nil]

-- Either every group is written, or a run of zeros is left out.
theorem compressHextets_cases (groups : List (Fin 65536)) :
    compressHextets groups = groups.map hextetText ∨
      ∃ high low count, 1 < count ∧ groups = high ++ List.replicate count 0 ++ low ∧
        compressHextets groups = sideParts high ++ [] :: sideParts low := by
  generalize hrun : longestZeros 0 0 (0, 0) groups = run
  have hzeros : ZeroRun groups run :=
    hrun ▸ longestZeros_zero [] groups 0 (0, 0) le_rfl (fun _ _ h => absurd h (Nat.not_lt_zero _))
      fun _ _ h => absurd h (Nat.not_lt_zero _)
  by_cases hlong : 1 < run.2
  · have hend := hzeros.end_le (by omega)
    refine .inr ⟨groups.take run.1, groups.drop (run.1 + run.2), run.2, hlong, hzeros.split hend, ?_⟩
    rw [compressHextets, hrun, sideParts_take (by omega), sideParts_drop hend]
    dsimp only
    rw [if_pos hlong]
    simp only [List.append_assoc, List.cons_append, List.nil_append]
  · refine .inl ?_
    rw [compressHextets, hrun]
    exact if_neg hlong

theorem hextetsOf_compress (a : Hextets) : hextetsOf (compressHextets a.groups) = some a := by
  obtain ⟨groups, hlength⟩ := a
  dsimp only
  rcases compressHextets_cases groups with hall | ⟨high, low, count, hcount, hgroups, hparts⟩
  · have hnone : emptyPlaces 1 (groups.map hextetText).tail = [] := by
      refine emptyPlaces_none 1 fun part hpart => ?_
      obtain ⟨n, -, rfl⟩ := List.mem_map.mp (List.tail_subset _ (List.dropLast_subset _ hpart))
      exact hextetText_ne_nil n
    rw [hall, hextetsOf, hnone]
    dsimp only
    rw [hextets_read, Option.bind_some, dif_pos hlength]
  · obtain ⟨head, rest, hhigh, hrest, -⟩ := sideParts_nonempty high
    obtain ⟨lowHead, lowRest, hlow, -, hlowParts⟩ := sideParts_nonempty low
    have hskip : emptyPlaces 1 (sideParts high ++ [] :: sideParts low).tail = [(sideParts high).length] := by
      rw [hhigh, List.cons_append, List.tail_cons, emptyPlaces_single 1 hrest (hlow ▸ List.cons_ne_nil _ _) (hlow ▸ hlowParts),
        List.length_cons, Nat.add_comm]
    have hfill : 8 - (high.length + low.length) = count := by
      rw [hgroups, List.length_append, List.length_append, List.length_replicate] at hlength
      omega
    rw [hparts, hextetsOf, hskip]
    dsimp only
    rw [expandSkip_sides, fillZeros, dif_pos (by omega)]
    simp only [hfill, hgroups]

theorem sideParts_chars (hgroup : part ∈ sideParts groups) : ∀ c ∈ part, c ∈ lowerHexDigits := by
  by_cases h : groups = []
  · rw [sideParts, if_pos h, List.mem_singleton] at hgroup
    rw [hgroup]
    exact nofun
  · rw [sideParts, if_neg h, List.mem_map] at hgroup
    obtain ⟨n, -, rfl⟩ := hgroup
    exact hexDigits_chars n

theorem sideParts_length (groups : List (Fin 65536)) :
    0 < (sideParts groups).length ∧ (sideParts groups).length ≤ max 1 groups.length := by
  cases groups <;> simp [sideParts]

theorem compressHextets_chars (hpart : part ∈ compressHextets groups) : ∀ c ∈ part, c ∈ lowerHexDigits := by
  rcases compressHextets_cases groups with hall | ⟨high, low, count, -, -, hparts⟩
  · rw [hall, List.mem_map] at hpart
    obtain ⟨n, -, rfl⟩ := hpart
    exact hexDigits_chars n
  · rw [hparts, List.mem_append, List.mem_cons] at hpart
    rcases hpart with hhigh | rfl | hlow
    · exact sideParts_chars hhigh
    · exact nofun
    · exact sideParts_chars hlow

theorem compressHextets_length (a : Hextets) :
    3 ≤ (compressHextets a.groups).length ∧ (compressHextets a.groups).length ≤ 9 := by
  have hlength := a.length_eq
  rcases compressHextets_cases a.groups with hall | ⟨high, low, count, hcount, hgroups, hparts⟩
  · rw [hall, List.length_map]
    omega
  · have hhigh := sideParts_length high
    have hlow := sideParts_length low
    rw [hgroups, List.length_append, List.length_append, List.length_replicate] at hlength
    rw [hparts, List.length_append, List.length_cons]
    omega

end Groups

section Texts

variable {text : List Char} {ls : List (List Char)} {c x : Char}

theorem mem_intercalate (h : c ∈ [x].intercalate ls) : c = x ∨ ∃ l ∈ ls, c ∈ l := by
  induction ls with
  | nil => exact nomatch h
  | cons l ls ih =>
    cases ls with
    | nil =>
      rw [List.intercalate_singleton] at h
      exact .inr ⟨l, List.mem_cons_self, h⟩
    | cons next rest =>
      rw [List.intercalate_cons_cons, List.mem_append, List.mem_append, List.mem_singleton] at h
      rcases h with (hl | hx) | hrest
      · exact .inr ⟨l, List.mem_cons_self, hl⟩
      · exact .inl hx
      · exact (ih hrest).imp_right fun ⟨l', hl', hc⟩ => ⟨l', List.mem_cons_of_mem l hl', hc⟩

-- A text that ends with the separator has an empty last part.
theorem getLast?_of_parts (h : ∀ part ∈ text.splitOn x, part ≠ []) : text ≠ [] ∧ text.getLast? ≠ some x := by
  constructor
  · rintro rfl
    rw [List.splitOn_nil] at h
    exact h [] List.mem_cons_self rfl
  · intro hlast
    obtain ⟨front, rfl⟩ := List.getLast?_eq_some_iff.mp hlast
    refine h [] ?_ rfl
    rw [List.splitOn_append_cons_self, List.splitOn_nil]
    exact List.mem_append_right _ (List.mem_singleton.mpr rfl)

end Texts

section Addresses

variable {text : List Char} {c : Char}

theorem octet_eq_some {n : Fin 256} (h : octet text = some n) : Nat.toDigits 10 n = text := by
  have hfound := List.find?_some h
  exact of_decide_eq_true hfound

theorem ipv4_parts {a : Ipv4Address} (h : ipv4 text = some a) :
    text.splitOn '.' = [a.first, a.second, a.third, a.fourth].map fun n => Nat.toDigits 10 n := by
  rw [ipv4] at h
  split at h
  · rename_i first second third fourth hparts
    simp only [Option.bind_eq_some_iff, Option.map_eq_some_iff] at h
    obtain ⟨a, ha, b, hb, c, hc, d, hd, rfl⟩ := h
    rw [hparts, ← octet_eq_some ha, ← octet_eq_some hb, ← octet_eq_some hc, ← octet_eq_some hd]
    rfl
  · exact nomatch h

-- There is one notation of an IPv4 address.
theorem ipv4_text {a : Ipv4Address} (h : ipv4 text = some a) : a.text = text := by
  rw [Ipv4Address.text, ← ipv4_parts h, List.intercalate_splitOn]

theorem ipv4_chars {a : Ipv4Address} (h : ipv4 text = some a) : ∀ c ∈ text, c.isDigit = true ∨ c = '.' := by
  intro c hc
  rw [← ipv4_text h] at hc
  rcases mem_intercalate hc with rfl | ⟨part, hpart, hc⟩
  · exact .inr rfl
  · obtain ⟨n, -, rfl⟩ := List.mem_map.mp hpart
    exact .inl (Nat.isDigit_of_mem_toDigits (by decide) (by decide) hc)

theorem ipv4_getLast? {a : Ipv4Address} (h : ipv4 text = some a) : text ≠ [] ∧ text.getLast? ≠ some '.' := by
  refine getLast?_of_parts fun part hpart => ?_
  rw [ipv4_parts h] at hpart
  obtain ⟨n, -, rfl⟩ := List.mem_map.mp hpart
  exact Nat.toDigits_ne_nil

theorem ipv6_colon {a : Ipv6Address} (h : ipv6 text = some a) : ':' ∈ text := by
  by_contra hcolon
  have hbody : ':' ∉ (partitionAt '%' text).1 := fun hmem => hcolon (List.takeWhile_subset _ hmem)
  have hparts : ((partitionAt '%' text).1.splitOn ':').length = 1 := by rw [List.splitOn_eq_singleton hbody]; rfl
  rw [ipv6] at h
  dsimp only at h
  rw [hparts] at h
  split at h <;> exact nomatch h

theorem ipAddress_v4_iff {a : Ipv4Address} : ipAddress text = some (.v4 a) ↔ ipv4 text = some a := by
  rw [ipAddress]
  cases ipv4 text <;> simp

-- No text is read as an address of both versions.
theorem ipAddress_v6_iff {a : Ipv6Address} : ipAddress text = some (.v6 a) ↔ ipv6 text = some a := by
  rw [ipAddress]
  cases hv4 : ipv4 text with
  | none => simp
  | some address =>
    refine iff_of_false (fun h => nomatch h) fun hv6 => ?_
    rcases ipv4_chars hv4 ':' (ipv6_colon hv6) with hdigit | hdot
    · exact absurd hdigit (by decide)
    · exact absurd hdot (by decide)

theorem ipv6_scope {a : Ipv6Address} (h : ipv6 text = some a) (hscope : '%' ∉ text) : a.scope = none := by
  rw [ipv6] at h
  dsimp only at h
  rw [if_neg hscope] at h
  split at h
  · exact nomatch h
  split at h
  · exact nomatch h
  obtain ⟨parts, -, h⟩ := Option.bind_eq_some_iff.mp h
  split at h
  · exact nomatch h
  obtain ⟨hextets, -, rfl⟩ := Option.map_eq_some_iff.mp h
  rfl

theorem compressed_chars {a : Ipv6Address} (hscope : a.scope = none) :
    ∀ c ∈ a.compressed, c = ':' ∨ c ∈ lowerHexDigits := by
  intro c hc
  rw [Ipv6Address.compressed, hscope] at hc
  rcases mem_intercalate ((List.append_nil _).subst hc) with rfl | ⟨part, hpart, hc⟩
  · exact .inl rfl
  · exact .inr (compressHextets_chars hpart c hc)

theorem ipv6_compressed {a : Ipv6Address} (hscope : a.scope = none) : ipv6 a.compressed = some a := by
  have hchars := compressed_chars hscope
  have hpercent : '%' ∉ a.compressed := fun h => absurd (hchars '%' h) (by decide)
  have hslash : '/' ∉ a.compressed := fun h => absurd (hchars '/' h) (by decide)
  obtain ⟨hmin, hmax⟩ := compressHextets_length a.hextets
  have hparts : a.compressed.splitOn ':' = compressHextets a.hextets.groups := by
    rw [Ipv6Address.compressed, hscope, Option.elim_none, List.append_nil]
    refine List.splitOn_intercalate ':' (fun part hpart hmem => ?_) (List.ne_nil_of_length_pos (by omega))
    exact absurd (compressHextets_chars hpart ':' hmem) (by decide)
  have hsuffix : ipv4Suffix (compressHextets a.hextets.groups) = some (compressHextets a.hextets.groups) := by
    refine if_neg fun hany => ?_
    obtain ⟨part, hpart, hdot⟩ := (Option.any_eq_true _ _).mp hany
    exact absurd (compressHextets_chars (List.mem_of_getLast? hpart) '.' (of_decide_eq_true hdot)) (by decide)
  have hcheck : ¬('/' ∈ a.compressed ∨ '%' ∈ a.compressed ∧ ([] : List Char) = [] ∨ '%' ∈ ([] : List Char)) := by
    simp [hpercent, hslash]
  rw [ipv6, partitionAt_not_mem hpercent]
  dsimp only
  rw [if_neg hcheck, hparts, if_neg (by omega), hsuffix, Option.bind_some, if_neg (by omega), hextetsOf_compress,
    Option.map_some, if_neg hpercent, ← hscope]

end Addresses

example : (ipv6 "2001:DB8:0:0:1:0:0:1".toList).map Ipv6Address.compressed = some "2001:db8::1:0:0:1".toList := by decide

end Text
