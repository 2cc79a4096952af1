import Mathlib.Data.List.Basic

namespace Text

namespace Csv

-- The writer of the excel dialect: fields are quoted where they must be, lines end in CR LF.

def special (c : Char) : Bool := c ∈ [',', '"', '\r', '\n']

def escaped (c : Char) : List Char := if c = '"' then ['"', '"'] else [c]

def writeField (field : List Char) : List Char :=
  if field.any special then '"' :: (field.flatMap escaped ++ ['"']) else field

-- A row of one empty field is told from an empty row by its quotes.
def writeRow (row : List (List Char)) : List Char :=
  (if row = [[]] then ['"', '"'] else List.intercalate [','] (row.map writeField)) ++ ['\r', '\n']

def write (rows : List (List (List Char))) : List Char := rows.flatMap writeRow

-- The reader, one character at a time

inductive Mode where
  | startRow | afterReturn | startField | inField | inQuotes | afterQuote
  deriving DecidableEq

structure Reader where
  mode : Mode := .startRow
  field : List Char := []
  row : List (List Char) := []
  rows : List (List (List Char)) := []
  deriving DecidableEq

namespace Reader

def endField (r : Reader) : Reader := { r with mode := .startField, field := [], row := r.row ++ [r.field] }

def endRow (r : Reader) (c : Char) : Reader :=
  ⟨if c = '\r' then .afterReturn else .startRow, [], [], r.rows ++ [r.row ++ [r.field]]⟩

def add (r : Reader) (c : Char) : Reader := { r with mode := .inField, field := r.field ++ [c] }

def bare (r : Reader) (c : Char) : Reader :=
  if c = ',' then r.endField else if c = '\r' ∨ c = '\n' then r.endRow c else r.add c

def opening (r : Reader) (c : Char) : Reader := if c = '"' then { r with mode := .inQuotes } else r.bare c

def starting (r : Reader) (c : Char) : Reader :=
  if c = '\r' ∨ c = '\n' then ⟨if c = '\r' then .afterReturn else .startRow, [], [], r.rows ++ [[]]⟩ else r.opening c

def step (r : Reader) (c : Char) : Reader :=
  match r.mode with
  | .startRow => r.starting c
  | .afterReturn => if c = '\n' then { r with mode := .startRow } else r.starting c
  | .startField => r.opening c
  | .inField => r.bare c
  | .inQuotes => if c = '"' then { r with mode := .afterQuote } else { r with field := r.field ++ [c] }
  | .afterQuote => if c = '"' then { r with mode := .inQuotes, field := r.field ++ ['"'] } else r.bare c

def run (r : Reader) (text : List Char) : Reader := text.foldl step r

-- What is left open at the end of the text is a row too.
def finish (r : Reader) : List (List (List Char)) :=
  match r.mode with
  | .startRow | .afterReturn => r.rows
  | _ => r.rows ++ [r.row ++ [r.field]]

end Reader

def read (text : List Char) : List (List (List Char)) := (Reader.run {} text).finish

variable {row : List (List Char)} {rows : List (List (List Char))} {field text : List Char} {c : Char}

theorem run_append (r : Reader) (text text' : List Char) : r.run (text ++ text') = (r.run text).run text' :=
  List.foldl_append

theorem run_cons (r : Reader) (c : Char) (text : List Char) : r.run (c :: text) = (r.step c).run text := rfl

theorem special_eq_false (h : special c = false) : c ≠ ',' ∧ c ≠ '"' ∧ c ≠ '\r' ∧ c ≠ '\n' := by
  simpa [special] using h

-- The reader has the whole field and waits for what ends it.
structure Complete (r : Reader) (field : List Char) (row : List (List Char)) (rows : List (List (List Char))) : Prop where
  mode : r.mode = .inField ∨ r.mode = .afterQuote ∨ r.mode = .startField ∧ field = []
  field_eq : r.field = field
  row_eq : r.row = row
  rows_eq : r.rows = rows

theorem run_bare (h : ∀ c ∈ text, special c = false) (field : List Char) :
    Reader.run ⟨.inField, field, row, rows⟩ text = ⟨.inField, field ++ text, row, rows⟩ := by
  induction text generalizing field with
  | nil => simp [Reader.run]
  | cons c text ih =>
    obtain ⟨hcomma, -, hreturn, hline⟩ := special_eq_false (h c List.mem_cons_self)
    have hstep : Reader.step ⟨.inField, field, row, rows⟩ c = ⟨.inField, field ++ [c], row, rows⟩ := by
      simp [Reader.step, Reader.bare, Reader.add, hcomma, hreturn, hline]
    rw [run_cons, hstep, ih fun d hd => h d (List.mem_cons_of_mem _ hd)]
    simp

theorem run_escaped (field text : List Char) :
    Reader.run ⟨.inQuotes, field, row, rows⟩ (text.flatMap escaped) = ⟨.inQuotes, field ++ text, row, rows⟩ := by
  induction text generalizing field with
  | nil => simp [Reader.run]
  | cons c text ih =>
    have hstep : Reader.run ⟨.inQuotes, field, row, rows⟩ (escaped c) = ⟨.inQuotes, field ++ [c], row, rows⟩ := by
      unfold escaped
      split_ifs with hquote
      · simp [Reader.run, Reader.step, hquote]
      · simp [Reader.run, Reader.step, hquote]
    rw [List.flatMap_cons, run_append, hstep, ih]
    simp

theorem complete_writeField (field : List Char) (row : List (List Char)) (rows : List (List (List Char))) :
    Complete (Reader.run ⟨.startField, [], row, rows⟩ (writeField field)) field row rows := by
  unfold writeField
  split_ifs with hspecial
  · have hopen : Reader.step ⟨.startField, [], row, rows⟩ '"' = ⟨.inQuotes, [], row, rows⟩ := rfl
    have hclose : Reader.run ⟨.inQuotes, field, row, rows⟩ ['"'] = ⟨.afterQuote, field, row, rows⟩ := rfl
    rw [run_cons, hopen, run_append, run_escaped, List.nil_append, hclose]
    exact ⟨.inr (.inl rfl), rfl, rfl, rfl⟩
  · have hplain : ∀ c ∈ field, special c = false := by simpa using hspecial
    cases field with
    | nil => exact ⟨.inr (.inr ⟨rfl, rfl⟩), rfl, rfl, rfl⟩
    | cons c text =>
      obtain ⟨hcomma, hquote, hreturn, hline⟩ := special_eq_false (hplain c List.mem_cons_self)
      have hstep : Reader.step ⟨.startField, [], row, rows⟩ c = ⟨.inField, [c], row, rows⟩ := by
        simp [Reader.step, Reader.opening, Reader.bare, Reader.add, hcomma, hquote, hreturn, hline]
      rw [run_cons, hstep, run_bare fun d hd => hplain d (List.mem_cons_of_mem _ hd)]
      exact ⟨.inl rfl, rfl, rfl, rfl⟩

theorem Complete.bare {r : Reader} (h : Complete r field row rows) (hquote : c ≠ '"') : r.step c = r.bare c := by
  unfold Reader.step
  rcases h.mode with hmode | hmode | ⟨hmode, -⟩
  · rw [hmode]
  · rw [hmode]
    exact if_neg hquote
  · rw [hmode]
    exact if_neg hquote

theorem Complete.comma {r : Reader} (h : Complete r field row rows) :
    r.step ',' = ⟨.startField, [], row ++ [field], rows⟩ := by
  rw [h.bare (by decide)]
  simp [Reader.bare, Reader.endField, h.field_eq, h.row_eq, h.rows_eq]

theorem Complete.line {r : Reader} (h : Complete r field row rows) :
    r.run ['\r', '\n'] = ⟨.startRow, [], [], rows ++ [row ++ [field]]⟩ := by
  have hreturn : r.step '\r' = ⟨.afterReturn, [], [], rows ++ [row ++ [field]]⟩ := by
    rw [h.bare (by decide)]
    simp [Reader.bare, Reader.endRow, h.field_eq, h.row_eq, h.rows_eq]
  rw [run_cons, hreturn]
  rfl

theorem run_fields (field : List Char) (fields : List (List Char)) (row : List (List Char)) :
    Reader.run ⟨.startField, [], row, rows⟩ (List.intercalate [','] ((field :: fields).map writeField) ++ ['\r', '\n']) =
      ⟨.startRow, [], [], rows ++ [row ++ field :: fields]⟩ := by
  induction fields generalizing field row with
  | nil =>
    have hcomplete := complete_writeField field row rows
    rw [List.map_singleton, List.intercalate_singleton, run_append, hcomplete.line]
  | cons next fields ih =>
    have hcomplete := complete_writeField field row rows
    rw [List.map_cons, List.map_cons, List.intercalate_cons_cons, List.append_assoc, List.append_assoc, run_append,
      List.singleton_append, run_cons, hcomplete.comma, ← List.map_cons, ih]
    simp

theorem writeField_head (hc : (writeField field).head? = some c) : c ≠ '\r' ∧ c ≠ '\n' := by
  unfold writeField at hc
  split_ifs at hc with hspecial
  · obtain rfl := Option.some.inj hc
    decide
  · have hplain : ∀ c ∈ field, special c = false := by simpa using hspecial
    exact (special_eq_false (hplain c (List.mem_of_mem_head? hc))).2.2

theorem step_startRow (hreturn : c ≠ '\r') (hline : c ≠ '\n') :
    Reader.step ⟨.startRow, [], [], rows⟩ c = Reader.step ⟨.startField, [], [], rows⟩ c := by
  simp [Reader.step, Reader.starting, Reader.opening, Reader.bare, Reader.endField, Reader.add, hreturn, hline]

-- A row that is not written as an empty line is read the same from its first field on.
theorem run_startRow (field : List Char) (fields : List (List Char)) (hrow : field :: fields ≠ [[]]) :
    Reader.run ⟨.startRow, [], [], rows⟩
        (List.intercalate [','] ((field :: fields).map writeField) ++ ['\r', '\n']) =
      Reader.run ⟨.startField, [], [], rows⟩
        (List.intercalate [','] ((field :: fields).map writeField) ++ ['\r', '\n']) := by
  cases hfield : writeField field with
  | cons c text =>
    have hstart : (writeField field).head? = some c := by
      rw [hfield]
      rfl
    obtain ⟨hreturn, hline⟩ := writeField_head hstart
    have hhead : ∃ rest, List.intercalate [','] ((field :: fields).map writeField) ++ ['\r', '\n'] = c :: rest := by
      cases fields with
      | nil => exact ⟨text ++ ['\r', '\n'], by rw [List.map_singleton, List.intercalate_singleton, hfield]; rfl⟩
      | cons next fields =>
        rw [List.map_cons, List.map_cons, List.intercalate_cons_cons, hfield]
        exact ⟨_, rfl⟩
    obtain ⟨rest, hrest⟩ := hhead
    rw [hrest, run_cons, run_cons, step_startRow hreturn hline]
  | nil =>
    have hempty : field = [] := by
      unfold writeField at hfield
      split_ifs at hfield
      exact hfield
    cases fields with
    | nil => exact absurd (by rw [hempty]) hrow
    | cons next fields =>
      rw [List.map_cons, List.map_cons, List.intercalate_cons_cons, hfield]
      rfl

theorem run_writeRow (row : List (List Char)) (rows : List (List (List Char))) :
    Reader.run ⟨.startRow, [], [], rows⟩ (writeRow row) = ⟨.startRow, [], [], rows ++ [row]⟩ := by
  unfold writeRow
  split_ifs with hempty
  · rw [hempty]
    rfl
  · cases row with
    | nil => rfl
    | cons field fields => rw [run_startRow field fields hempty, run_fields, List.nil_append]

-- What is written is read back, whatever the fields hold.
theorem read_write (rows : List (List (List Char))) : read (write rows) = rows := by
  have hrun (before : List (List (List Char))) :
      Reader.run ⟨.startRow, [], [], before⟩ (write rows) = ⟨.startRow, [], [], before ++ rows⟩ := by
    induction rows generalizing before with
    | nil => simp [write, Reader.run]
    | cons row rows ih =>
      rw [write, List.flatMap_cons, run_append, run_writeRow]
      exact (ih (before ++ [row])).trans (by simp)
  rw [read, hrun]
  rfl

end Csv

end Text
