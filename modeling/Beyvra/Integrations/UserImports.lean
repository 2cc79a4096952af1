import Mathlib.Data.List.Sort
import Beyvra.Foundation.Records

namespace Beyvra

open Relational

namespace UserImports

inductive ImportStatus where
  | uploaded | committed | processing | completed | cancelled | failed
  deriving DecidableEq

inductive RowStatus where
  | valid | invalid | created | error
  deriving DecidableEq

structure RowData where
  email : String
  phone : String
  externalUserId : String
  deriving DecidableEq

structure ImportRow where
  data : RowData
  errors : List String := []
  status : RowStatus := .valid
  user : Option String := none
  deriving DecidableEq

structure User where
  email : String
  phoneNumber : Option String
  -- the row of the import that it was created for
  row : Option Nat := none

-- Where a worker stands in process_user_import: the rows still ahead of it, and the row whose transaction raised
inductive Phase where
  | started
  | read
  | processing
  | iterating (rows : List Nat)
  | failing (row : Nat) (rows : List Nat)
  | done
  deriving DecidableEq

structure ImportSystem where
  jobId : Uuid
  status : ImportStatus := .uploaded
  rows : Table Nat ImportRow
  users : List User
  externalIds : List String
  references : List String
  workers : Table Nat Phase := Table.empty
  -- a cancellation was answered with success
  cancelled : Bool := false

inductive ImportAction where
  | commit
  | cancel

inductive ImportReply where
  | accepted
  | concurrencyLimit
  | alreadyQueued
  | invalidState
  deriving DecidableEq

-- othersActive: another import of the organization is committed or processing; lockHeld: cache.add found the lock
def post (action : ImportAction) (othersActive lockHeld : Bool) (s : ImportSystem) : ImportReply × ImportSystem :=
  match action with
  | .commit =>
    if s.status ≠ .uploaded then (.invalidState, s)
    else if othersActive then (.concurrencyLimit, s)
    else if lockHeld then (.alreadyQueued, s)
    else (.accepted, { s with status := .committed })
  | .cancel =>
    if s.status = .uploaded ∨ s.status = .committed then
      (.accepted, { s with status := .cancelled, cancelled := true })
    else (.invalidState, s)

def phoneNumber (phone : String) : Option String := if phone = "" then none else some phone

def reference (jobId : Uuid) (n : Nat) : String := String.ofList ("import:".toList ++ jobId.toList ++ ':' :: (toString n).toList)

namespace ImportSystem

def move (s : ImportSystem) (i : Nat) (phase : Phase) : ImportSystem := { s with workers := s.workers.put i phase }

def pending (s : ImportSystem) : List Nat :=
  ((s.rows.rows.filter fun p => p.2.status = .valid).map Prod.fst).insertionSort (· ≤ ·)

-- The unique columns of users
def free (s : ImportSystem) (email : String) (phone : Option String) : Bool :=
  s.users.all fun user => user.email ≠ email ∧ (phone = none ∨ user.phoneNumber ≠ phone)

def created (s : ImportSystem) (n : Nat) (row : ImportRow) (email : String) : ImportSystem :=
  { s with
    rows := s.rows.put n { row with status := .created, user := some email }
    users := { email, phoneNumber := phoneNumber row.data.phone, row := some n } :: s.users
    externalIds := row.data.externalUserId :: s.externalIds
    references := reference s.jobId n :: s.references }

end ImportSystem

-- Every insert of a row's transaction meets its unique constraint, and nothing else in it raises.
def commits (email : String) (ok : Bool) (s : ImportSystem) (n : Nat) (row : ImportRow) : Bool :=
  ok && row.data.email ≠ "" && s.free email (phoneNumber row.data.phone) &&
    !(s.externalIds.contains row.data.externalUserId) && !(s.references.contains (reference s.jobId n))

def importRow (normalizeEmail : String → String) (ok : Bool) (s : ImportSystem) (i n : Nat) (rest : List Nat) :
    ImportSystem :=
  match s.rows.find n with
  | none => s.move i (.failing n rest)
  | some row =>
    let email := normalizeEmail row.data.email
    if commits email ok s n row then (s.created n row email).move i (.iterating rest)
    else s.move i (.failing n rest)

def markError (s : ImportSystem) (n : Nat) : ImportSystem :=
  match s.rows.find n with
  | none => s
  | some row => { s with rows := s.rows.put n { row with status := .error, errors := ["row could not be imported"] } }

def advance (normalizeEmail : String → String) (ok : Bool) (s : ImportSystem) (i : Nat) : Phase → ImportSystem
  | .started => s.move i (if s.status = .committed then .read else .done)
  | .read => { s with status := .processing }.move i .processing
  | .processing => s.move i (.iterating s.pending)
  | .iterating [] => { s with status := .completed }.move i .done
  | .iterating (n :: rest) => importRow normalizeEmail ok s i n rest
  | .failing n rest => (markError s n).move i (.iterating rest)
  | .done => s

inductive ImportStep where
  | post (action : ImportAction) (othersActive lockHeld : Bool)
  -- an account made elsewhere, with the external identity it may get
  | register (email : String) (phoneNumber : Option String) (externalId : Option String)
  | deliver (i : Nat)
  | advance (i : Nat) (ok : Bool)
  | die (i : Nat)

def importStep (normalizeEmail : String → String) (s : ImportSystem) : ImportStep → ImportSystem
  | .post action othersActive lockHeld => (post action othersActive lockHeld s).2
  | .register email phoneNumber externalId =>
    if s.free email phoneNumber then
      { s with users := { email, phoneNumber } :: s.users, externalIds := externalId.toList ++ s.externalIds }
    else s
  | .deliver i => if s.workers.find i = none then s.move i .started else s
  | .advance i ok =>
    match s.workers.find i with
    | none => s
    | some phase => advance normalizeEmail ok s i phase
  | .die i => if s.workers.find i = none then s else s.move i .done

-- An import as its upload leaves it.
def uploaded (jobId : Uuid) (rows : Table Nat ImportRow) (users : List User) (externalIds references : List String) :
    ImportSystem where
  jobId
  rows := rows.mapRows fun _ row => { row with status := if row.errors = [] then .valid else .invalid, user := none }
  users := users.map fun user => { user with row := none }
  externalIds
  references

variable {normalizeEmail : String → String} {start s s' : ImportSystem} {i j n : Nat} {p q : Phase} {row row' : ImportRow}
  {rows : Table Nat ImportRow} {rest : List Nat} {op : ImportStep} {ops : List ImportStep}

-- The phases past the write of PROCESSING
def Phase.working : Phase → Bool
  | .processing | .iterating _ | .failing _ _ => true
  | _ => false

def Phase.ahead : Phase → Option (List Nat)
  | .iterating rows => some rows
  | .failing n rows => some (n :: rows)
  | _ => none

def ValidRow (rows : Table Nat ImportRow) (n : Nat) : Prop := ∃ row, rows.find n = some row ∧ row.status = .valid

-- The rows ahead of a worker are the valid ones, each once.
def Ahead (rows : Table Nat ImportRow) (ahead : List Nat) : Prop := ahead.Nodup ∧ ∀ n, n ∈ ahead ↔ ValidRow rows n

-- A worker's write of PROCESSING finds the status that it read.
def Owned (s : ImportSystem) : ImportStep → Prop
  | .advance i _ => s.workers.find i = some .read → s.status = .committed
  | _ => True

instance (s : ImportSystem) : (op : ImportStep) → Decidable (Owned s op)
  | .advance i _ => inferInstanceAs (Decidable (s.workers.find i = some .read → s.status = .committed))
  | .post .. | .register .. | .deliver _ | .die _ => .isTrue trivial

theorem validRow_put (h : row'.status ≠ .valid) {m : Nat} : ValidRow (rows.put n row') m ↔ m ≠ n ∧ ValidRow rows m := by
  constructor
  · rintro ⟨row, hrow, hvalid⟩
    rcases Table.find_put_cases hrow with ⟨-, rfl⟩ | ⟨hne, hold⟩
    · exact absurd hvalid h
    · exact ⟨hne, row, hold, hvalid⟩
  · rintro ⟨hne, row, hrow, hvalid⟩
    exact ⟨row, (Table.find_put_of_ne rows row' hne).trans hrow, hvalid⟩

theorem Ahead.tail (h : Ahead rows (n :: rest)) (hstatus : row'.status ≠ .valid) : Ahead (rows.put n row') rest := by
  obtain ⟨hnodup, hmem⟩ := h
  obtain ⟨hn, hrest⟩ := List.nodup_cons.mp hnodup
  refine ⟨hrest, fun m => ?_⟩
  rw [validRow_put hstatus, ← hmem m, List.mem_cons]
  constructor
  · intro hm
    exact ⟨fun heq => hn (heq ▸ hm), .inr hm⟩
  · rintro ⟨hne, heq | hm⟩
    · exact absurd heq hne
    · exact hm

theorem mem_pending {m : Nat} : m ∈ s.pending ↔ ValidRow s.rows m := by
  rw [ImportSystem.pending, List.mem_insertionSort, List.mem_map]
  constructor
  · rintro ⟨⟨m', row⟩, hmem, rfl⟩
    obtain ⟨hrow, hvalid⟩ := List.mem_filter.mp hmem
    exact ⟨row, Table.mem_rows_iff.mp hrow, of_decide_eq_true hvalid⟩
  · rintro ⟨row, hrow, hvalid⟩
    exact ⟨(m, row), List.mem_filter.mpr ⟨Table.mem_rows_iff.mpr hrow, decide_eq_true hvalid⟩, rfl⟩

theorem pending_ahead (s : ImportSystem) : Ahead s.rows s.pending := by
  refine ⟨?_, fun m => mem_pending⟩
  rw [ImportSystem.pending, (List.perm_insertionSort _ _).nodup_iff]
  exact (s.rows.nodup).sublist (List.filter_sublist.map Prod.fst)

inductive ImportChange (s : ImportSystem) (op : ImportStep) : ImportSystem → Prop where
  | nothing : ImportChange s op s
  | committed (hstatus : s.status = .uploaded) : ImportChange s op { s with status := .committed }
  | cancelled (hstatus : s.status = .uploaded ∨ s.status = .committed) :
      ImportChange s op { s with status := .cancelled, cancelled := true }
  | registered (email : String) (phoneNumber : Option String) (externalIds : List String) :
      ImportChange s op { s with users := { email, phoneNumber } :: s.users, externalIds }
  | idled {i : Nat} {p : Phase} (hp : p.working = false) : ImportChange s op (s.move i p)
  | claimed {i : Nat} (hstatus : Owned s op → s.status = .committed) :
      ImportChange s op ({ s with status := .processing }.move i .processing)
  | listed {i : Nat} (hi : s.workers.find i = some .processing) :
      ImportChange s op (s.move i (.iterating s.pending))
  | created {i n : Nat} {rest : List Nat} {row : ImportRow} (email : String)
      (hi : s.workers.find i = some (.iterating (n :: rest))) (hrow : s.rows.find n = some row)
      (hreference : reference s.jobId n ∉ s.references) :
      ImportChange s op ((s.created n row email).move i (.iterating rest))
  | refused {i n : Nat} {rest : List Nat} (hi : s.workers.find i = some (.iterating (n :: rest))) :
      ImportChange s op (s.move i (.failing n rest))
  | failed {i n : Nat} {rest : List Nat} (hi : s.workers.find i = some (.failing n rest)) :
      ImportChange s op ((markError s n).move i (.iterating rest))
  | completed {i : Nat} (hi : s.workers.find i = some (.iterating [])) :
      ImportChange s op ({ s with status := .completed }.move i .done)

theorem post_change (action : ImportAction) (othersActive lockHeld : Bool) (s : ImportSystem) :
    ImportChange s op (post action othersActive lockHeld s).2 := by
  cases action with
  | commit =>
    simp only [post]
    split
    · exact .nothing
    · rename_i hstatus
      split
      · exact .nothing
      · split
        · exact .nothing
        · exact .committed (not_not.mp hstatus)
  | cancel =>
    simp only [post]
    split
    · rename_i hstatus
      exact .cancelled hstatus
    · exact .nothing

theorem importRow_change (ok : Bool) (hi : s.workers.find i = some (.iterating (n :: rest))) :
    ImportChange s op (importRow normalizeEmail ok s i n rest) := by
  simp only [importRow]
  split
  · exact .refused hi
  · rename_i row hrow
    split
    · rename_i hcommits
      refine .created _ hi hrow ?_
      simp only [commits, Bool.and_eq_true, Bool.not_eq_true', List.contains_eq_mem, decide_eq_false_iff_not] at hcommits
      exact hcommits.2
    · exact .refused hi

theorem importStep_change (s : ImportSystem) (op : ImportStep) :
    ImportChange s op (importStep normalizeEmail s op) := by
  cases op with
  | post action othersActive lockHeld => exact post_change action othersActive lockHeld s
  | register email phoneNumber externalId =>
    simp only [importStep]
    split
    · exact .registered email phoneNumber _
    · exact .nothing
  | deliver i =>
    simp only [importStep]
    split
    · exact .idled rfl
    · exact .nothing
  | advance i ok =>
    cases hi : s.workers.find i with
    | none =>
      simp only [importStep, hi]
      exact .nothing
    | some p =>
      simp only [importStep, hi]
      cases p with
      | started =>
        refine .idled ?_
        split <;> rfl
      | read => exact .claimed fun howned => howned hi
      | processing => exact .listed hi
      | iterating ahead =>
        cases ahead with
        | nil => exact .completed hi
        | cons n rest => exact importRow_change ok hi
      | failing n rest => exact .failed hi
      | done => exact .nothing
  | die i =>
    simp only [importStep]
    split
    · exact .nothing
    · exact .idled rfl

theorem markError_cases (s : ImportSystem) (n : Nat) : (s.rows.find n = none ∧ markError s n = s) ∨
    ∃ row, s.rows.find n = some row ∧ markError s n =
      { s with rows := s.rows.put n { row with status := .error, errors := ["row could not be imported"] } } := by
  unfold markError
  split
  · rename_i hrow
    exact .inl ⟨hrow, rfl⟩
  · rename_i row hrow
    exact .inr ⟨row, hrow, rfl⟩

-- What a worker past its write of PROCESSING may rely on
structure Holds (s : ImportSystem) (p : Phase) : Prop where
  status : s.status = .processing
  ahead : ∀ ahead, p.ahead = some ahead → Ahead s.rows ahead

structure Sound (s : ImportSystem) : Prop where
  sole : ∀ i j p q, s.workers.find i = some p → s.workers.find j = some q → p.working = true → q.working = true → i = j
  holds : ∀ i p, s.workers.find i = some p → p.working = true → Holds s p
  begun : ∀ u ∈ s.users, u.row ≠ none → s.status = .processing ∨ s.status = .completed
  created : ∀ u ∈ s.users, ∀ n, u.row = some n → ∃ row, s.rows.find n = some row ∧ row.status = .created
  cancelled : s.cancelled = true → s.status = .cancelled
  completed : s.status = .completed → ∀ n, ¬ValidRow s.rows n

theorem Sound.none_working (h : Sound s) (hstatus : s.status ≠ .processing) (hi : s.workers.find i = some p) :
    p.working = false := by
  cases hp : p.working with
  | false => rfl
  | true => exact absurd (h.holds i p hi hp).status hstatus

theorem Sound.unbegun (h : Sound s) (hprocessing : s.status ≠ .processing) (hcompleted : s.status ≠ .completed) {u : User}
    (hu : u ∈ s.users) : u.row = none := by
  cases hrow : u.row with
  | none => rfl
  | some n =>
    rcases h.begun u hu (by simp [hrow]) with hstatus | hstatus
    · exact absurd hstatus hprocessing
    · exact absurd hstatus hcompleted

-- Only the worker that is moved can be working.
structure Mover (s : ImportSystem) (i : Nat) : Prop where
  others : ∀ j q, s.workers.find j = some q → q.working = true → j = i

theorem Sound.mover (h : Sound s) (hi : s.workers.find i = some p) (hp : p.working = true) : Mover s i :=
  ⟨fun j q hj hq => h.sole j i q p hj hi hq hp⟩

theorem Mover.working (h : Mover s i) (hj : (s.workers.put i p).find j = some q) (hq : q.working = true) : j = i ∧ q = p := by
  rcases Table.find_put_cases hj with hmoved | ⟨hne, hold⟩
  · exact hmoved
  · exact absurd (h.others j q hold hq) hne

theorem Mover.sole (h : Mover s i) (a b : Nat) (x y : Phase) (ha : (s.workers.put i p).find a = some x)
    (hb : (s.workers.put i p).find b = some y) (hx : x.working = true) (hy : y.working = true) : a = b :=
  (h.working ha hx).1.trans (h.working hb hy).1.symm

theorem Sound.idled (h : Sound s) (hp : p.working = false) : Sound (s.move i p) where
  sole a b x y ha hb hx hy := by
    rcases Table.find_put_cases ha with ⟨-, rfl⟩ | ⟨-, ha⟩
    · exact absurd hx (by simp [hp])
    · rcases Table.find_put_cases hb with ⟨-, rfl⟩ | ⟨-, hb⟩
      · exact absurd hy (by simp [hp])
      · exact h.sole a b x y ha hb hx hy
  holds a x ha hx := by
    rcases Table.find_put_cases ha with ⟨-, rfl⟩ | ⟨-, ha⟩
    · exact absurd hx (by simp [hp])
    · exact ⟨(h.holds a x ha hx).status, (h.holds a x ha hx).ahead⟩
  begun := h.begun
  created := h.created
  cancelled := h.cancelled
  completed := h.completed

theorem Sound.commanded (h : Sound s) (hstatus : s.status = .uploaded ∨ s.status = .committed) {status : ImportStatus}
    (hprocessing : status ≠ .completed) {cancelled : Bool} (hcancelled : cancelled = true → status = .cancelled) :
    Sound { s with status, cancelled } := by
  have hnot : s.status ≠ .processing ∧ s.status ≠ .completed := by
    rcases hstatus with heq | heq <;> simp [heq]
  constructor
  · exact h.sole
  · intro j q hj hq
    rw [h.none_working hnot.1 hj] at hq
    cases hq
  · intro u hu hrow
    exact absurd (h.unbegun hnot.1 hnot.2 hu) hrow
  · exact h.created
  · exact hcancelled
  · exact fun heq => absurd heq hprocessing

theorem Sound.claimed (h : Sound s) (hstatus : s.status = .committed) :
    Sound ({ s with status := .processing }.move i .processing) where
  sole := by
    have hmover : Mover s i := ⟨fun j q hj hq => by
      rw [h.none_working (by simp [hstatus]) hj] at hq
      cases hq⟩
    exact hmover.sole
  holds j q hj hq := by
    refine ⟨rfl, fun ahead hahead => ?_⟩
    rcases Table.find_put_cases hj with ⟨-, rfl⟩ | ⟨-, hold⟩
    · cases hahead
    · rw [h.none_working (by simp [hstatus]) hold] at hq
      cases hq
  begun u hu hrow := .inl rfl
  created := h.created
  cancelled hcancelled := by
    rw [h.cancelled hcancelled] at hstatus
    cases hstatus
  completed heq := by cases heq

theorem Sound.moved (h : Sound s) (hmover : Mover s i) (hholds : p.working = true → Holds s p) : Sound (s.move i p) where
  sole := hmover.sole
  holds j q hj hq := by
    obtain ⟨-, rfl⟩ := hmover.working hj hq
    exact ⟨(hholds hq).status, (hholds hq).ahead⟩
  begun := h.begun
  created := h.created
  cancelled := h.cancelled
  completed := h.completed

-- A worker writes the first row ahead of it: only that row's status changes, and only it can have a new user.
theorem Sound.written (h : Sound s) (hi : s.workers.find i = some p) (hp : p.working = true)
    (hahead : p.ahead = some (n :: rest)) (hrow' : row'.status ≠ .valid) {users : List User}
    (husers : ∀ u ∈ users, u ∈ s.users ∨ u.row = some n ∧ row'.status = .created) (externalIds references : List String) :
    Sound ({ s with rows := s.rows.put n row', users, externalIds, references }.move i (.iterating rest)) := by
  have hmover := h.mover hi hp
  obtain ⟨hstatus, hrows⟩ := h.holds i p hi hp
  have hrows := hrows _ hahead
  constructor
  · exact hmover.sole
  · intro j q hj hq
    obtain ⟨-, rfl⟩ := hmover.working hj hq
    refine ⟨hstatus, fun ahead heq => ?_⟩
    obtain rfl := Option.some.inj heq
    exact hrows.tail hrow'
  · exact fun u hu hrow => .inl hstatus
  · intro u hu m hm
    rcases husers u hu with hold | ⟨hnew, hcreated⟩
    · obtain ⟨row, hrow, hcreated⟩ := h.created u hold m hm
      have hne : m ≠ n := by
        rintro rfl
        obtain ⟨valid, hvalid, hstatus'⟩ := (hrows.2 m).mp (List.mem_cons_self ..)
        rw [hrow] at hvalid
        obtain rfl := Option.some.inj hvalid
        rw [hcreated] at hstatus'
        cases hstatus'
      exact ⟨row, (Table.find_put_of_ne s.rows row' hne).trans hrow, hcreated⟩
    · obtain rfl : n = m := Option.some.inj (hnew.symm.trans hm)
      exact ⟨row', Table.find_put_self s.rows n row', hcreated⟩
  · intro hcancelled
    exact h.cancelled hcancelled
  · intro heq
    exact absurd (hstatus.symm.trans heq) (by decide)

theorem Sound.finished (h : Sound s) (hi : s.workers.find i = some (.iterating [])) :
    Sound ({ s with status := .completed }.move i .done) := by
  have hmover := h.mover hi rfl
  obtain ⟨hstatus, hrows⟩ := h.holds i _ hi rfl
  constructor
  · exact hmover.sole
  · intro j q hj hq
    obtain ⟨-, rfl⟩ := hmover.working hj hq
    cases hq
  · exact fun u hu hrow => .inr rfl
  · exact h.created
  · intro hcancelled
    exact absurd (hstatus.symm.trans (h.cancelled hcancelled)) (by decide)
  · intro _ n hn
    exact List.not_mem_nil (((hrows [] rfl).2 n).mpr hn)

theorem Sound.change (h : Sound s) (howned : Owned s op) (hchange : ImportChange s op s') : Sound s' := by
  cases hchange with
  | nothing => exact h
  | committed hstatus =>
    refine h.commanded (.inl hstatus) (by decide) fun hcancelled => ?_
    exact absurd (hstatus.symm.trans (h.cancelled hcancelled)) (by decide)
  | cancelled hstatus => exact h.commanded hstatus (by decide) fun _ => rfl
  | registered email phoneNumber externalIds =>
    refine ⟨h.sole, fun j q hj hq => ⟨(h.holds j q hj hq).status, (h.holds j q hj hq).ahead⟩, ?_, ?_, h.cancelled, h.completed⟩
    · intro u hu hrow
      rcases List.mem_cons.mp hu with rfl | hold
      · exact absurd rfl hrow
      · exact h.begun u hold hrow
    · intro u hu n hn
      rcases List.mem_cons.mp hu with rfl | hold
      · cases hn
      · exact h.created u hold n hn
  | idled hp => exact h.idled hp
  | claimed hstatus => exact h.claimed (hstatus howned)
  | listed hi =>
    refine h.moved (h.mover hi rfl) fun _ => ⟨(h.holds _ _ hi rfl).status, fun ahead heq => ?_⟩
    obtain rfl := Option.some.inj heq
    exact pending_ahead s
  | created email hi hrow hreference =>
    refine h.written hi rfl rfl (by simp) (fun u hu => ?_) _ _
    rcases List.mem_cons.mp hu with rfl | hold
    · exact .inr ⟨rfl, rfl⟩
    · exact .inl hold
  | refused hi =>
    exact h.moved (h.mover hi rfl) fun _ => ⟨(h.holds _ _ hi rfl).status, (h.holds _ _ hi rfl).ahead⟩
  | @failed i n rest hi =>
    rcases markError_cases s n with ⟨hnone, -⟩ | ⟨row, -, hmarked⟩
    · obtain ⟨row, hrow, -⟩ := (((h.holds _ _ hi rfl).ahead _ rfl).2 n).mp (List.mem_cons_self ..)
      rw [hnone] at hrow
      cases hrow
    · rw [hmarked]
      exact h.written hi rfl rfl (by simp) (fun u hu => .inl hu) _ _
  | completed hi => exact h.finished hi

-- What holds of the users in every run
structure Numbered (s : ImportSystem) : Prop where
  referenced : ∀ u ∈ s.users, ∀ n, u.row = some n → reference s.jobId n ∈ s.references
  sole : (s.users.filterMap User.row).Nodup

theorem markError_rows (s : ImportSystem) (n : Nat) : markError s n = { s with rows := (markError s n).rows } := by
  rcases markError_cases s n with ⟨-, h⟩ | ⟨row, -, h⟩ <;> rw [h]

theorem Numbered.change (h : Numbered s) (hchange : ImportChange s op s') : Numbered s' := by
  cases hchange with
  | nothing => exact h
  | committed hstatus => exact ⟨h.referenced, h.sole⟩
  | cancelled hstatus => exact ⟨h.referenced, h.sole⟩
  | registered email phoneNumber externalIds =>
    refine ⟨fun u hu n hn => ?_, h.sole⟩
    rcases List.mem_cons.mp hu with rfl | hold
    · cases hn
    · exact h.referenced u hold n hn
  | idled hp => exact ⟨h.referenced, h.sole⟩
  | claimed hstatus => exact ⟨h.referenced, h.sole⟩
  | listed hi => exact ⟨h.referenced, h.sole⟩
  | @created i n rest row email hi hrow hreference =>
    constructor
    · intro u hu m hm
      rcases List.mem_cons.mp hu with rfl | hold
      · obtain rfl : n = m := Option.some.inj hm
        exact List.mem_cons_self ..
      · exact List.mem_cons_of_mem _ (h.referenced u hold m hm)
    · refine List.nodup_cons.mpr ⟨fun hmem => ?_, h.sole⟩
      obtain ⟨u, hu, hn⟩ := List.mem_filterMap.mp hmem
      exact hreference (h.referenced u hu n hn)
  | refused hi => exact ⟨h.referenced, h.sole⟩
  | @failed i n rest hi =>
    rw [markError_rows]
    exact ⟨h.referenced, h.sole⟩
  | completed hi => exact ⟨h.referenced, h.sole⟩

-- The rows of the upload stay, and a valid one never turns invalid.
def Kept (start s : ImportSystem) : Prop :=
  ∀ n row, start.rows.find n = some row → row.status = .valid → ∃ row', s.rows.find n = some row' ∧ row'.status ≠ .invalid

theorem Kept.put (h : Kept start s) (hrow' : row'.status ≠ .invalid) (hrows : s'.rows = s.rows.put n row') : Kept start s' := by
  intro m row hrow hvalid
  rw [hrows]
  by_cases hm : m = n
  · subst hm
    exact ⟨row', Table.find_put_self s.rows m row', hrow'⟩
  · rw [Table.find_put_of_ne s.rows row' hm]
    exact h m row hrow hvalid

theorem Kept.change (h : Kept start s) (hchange : ImportChange s op s') : Kept start s' := by
  cases hchange with
  | nothing => exact h
  | committed hstatus => exact h
  | cancelled hstatus => exact h
  | registered email phoneNumber externalIds => exact h
  | idled hp => exact h
  | claimed hstatus => exact h
  | listed hi => exact h
  | created email hi hrow hreference => exact h.put (by simp) rfl
  | refused hi => exact h
  | @failed i n rest hi =>
    rcases markError_cases s n with ⟨-, hmarked⟩ | ⟨row, -, hmarked⟩
    · rw [hmarked]
      exact h
    · rw [hmarked]
      exact h.put (by simp) rfl
  | completed hi => exact h

structure ImportKept (start s : ImportSystem) : Prop where
  cancelled : s.cancelled = true → ∀ u ∈ s.users, u.row = none
  created : ∀ u ∈ s.users, ∀ n, u.row = some n → ∃ row, s.rows.find n = some row ∧ row.status = .created
  sole : (s.users.filterMap User.row).Nodup
  completed : s.status = .completed → ∀ n row, start.rows.find n = some row → row.status = .valid →
    ∃ row', s.rows.find n = some row' ∧ (row'.status = .created ∨ row'.status = .error)

theorem Sound.import_kept (h : Sound s) (hnumbered : Numbered s) (hkept : Kept start s) : ImportKept start s where
  cancelled hcancelled u hu := by
    have hstatus := h.cancelled hcancelled
    exact h.unbegun (by simp [hstatus]) (by simp [hstatus]) hu
  created := h.created
  sole := hnumbered.sole
  completed hstatus n row hrow hvalid := by
    obtain ⟨row', hrow', hinvalid⟩ := hkept n row hrow hvalid
    have hdone : row'.status ≠ .valid := fun heq => h.completed hstatus n ⟨row', hrow', heq⟩
    refine ⟨row', hrow', ?_⟩
    cases hcase : row'.status with
    | valid => exact absurd hcase hdone
    | invalid => exact absurd hcase hinvalid
    | created => exact .inl rfl
    | error => exact .inr rfl

section Uploaded

variable (jobId : Uuid) (uploads : Table Nat ImportRow) (users : List User) (externalIds references : List String)

theorem uploaded_user_row : ∀ u ∈ (uploaded jobId uploads users externalIds references).users, u.row = none := by
  intro u hu
  obtain ⟨user, -, rfl⟩ := List.mem_map.mp hu
  rfl

theorem Sound.uploaded : Sound (uploaded jobId uploads users externalIds references) where
  sole i j p q hi := by cases hi
  holds i p hi := by cases hi
  begun u hu hrow := absurd (uploaded_user_row jobId uploads users externalIds references u hu) hrow
  created u hu n hn := by
    rw [uploaded_user_row jobId uploads users externalIds references u hu] at hn
    cases hn
  cancelled h := by cases h
  completed h := by cases h

theorem Numbered.uploaded : Numbered (uploaded jobId uploads users externalIds references) where
  referenced u hu n hn := by
    rw [uploaded_user_row jobId uploads users externalIds references u hu] at hn
    cases hn
  sole := by
    have hnone : (UserImports.uploaded jobId uploads users externalIds references).users.filterMap User.row = [] :=
      List.filterMap_eq_nil_iff.mpr (uploaded_user_row jobId uploads users externalIds references)
    rw [hnone]
    exact List.nodup_nil

theorem Kept.refl (start : ImportSystem) : Kept start start := by
  intro n row hrow hvalid
  exact ⟨row, hrow, by simp [hvalid]⟩

end Uploaded

theorem Sound.run (h : Sound s) (howned : Throughout (importStep normalizeEmail) Owned ops s) :
    Sound (ops.foldl (importStep normalizeEmail) s) := by
  induction ops generalizing s with
  | nil => exact h
  | cons op ops ih => exact ih (h.change howned.1 (importStep_change s op)) howned.2

theorem Numbered.run (h : Numbered s) (ops : List ImportStep) :
    Numbered (ops.foldl (importStep normalizeEmail) s) := by
  induction ops generalizing s with
  | nil => exact h
  | cons op ops ih => exact ih (h.change (importStep_change s op))

theorem Kept.run (h : Kept start s) (ops : List ImportStep) : Kept start (ops.foldl (importStep normalizeEmail) s) := by
  induction ops generalizing s with
  | nil => exact h
  | cons op ops ih => exact ih (h.change (importStep_change s op))

theorem imports_kept_of_owned (normalizeEmail : String → String) (jobId : Uuid) (uploads : Table Nat ImportRow)
    (users : List User) (externalIds references : List String) (ops : List ImportStep)
    (howned : Throughout (importStep normalizeEmail) Owned ops (uploaded jobId uploads users externalIds references)) :
    ∀ before after, ops = before ++ after → ImportKept (uploaded jobId uploads users externalIds references)
      (before.foldl (importStep normalizeEmail) (uploaded jobId uploads users externalIds references)) := by
  rintro before after rfl
  have hbefore := (throughout_append.mp howned).1
  have hsound := Sound.uploaded jobId uploads users externalIds references
  have hnumbered := Numbered.uploaded jobId uploads users externalIds references
  exact (hsound.run hbefore).import_kept (hnumbered.run before) ((Kept.refl _).run before)

def annUpload : Table Nat ImportRow :=
  Table.empty.put 2 { data := { email := "ann@example.com", phone := "", externalUserId := "ext-1" } }

-- The message is delivered twice: the second worker finds the status PROCESSING and returns.
def importedOnce : List ImportStep :=
  [.post .commit false false, .deliver 0, .advance 0 true, .advance 0 true, .deliver 1, .advance 1 true,
    .advance 0 true, .advance 0 true, .advance 0 true]

theorem imports_kept_of_owned_ann : ImportKept (uploaded "job" annUpload [] [] [])
    (importedOnce.foldl (importStep id) (uploaded "job" annUpload [] [] [])) :=
  imports_kept_of_owned id "job" annUpload [] [] [] importedOnce (by decide +kernel) importedOnce [] (List.append_nil _).symm

-- The worker has read COMMITTED when the cancellation is accepted; it writes PROCESSING over it.
def cancelledUnderWorker : List ImportStep :=
  [.post .commit false false, .deliver 0, .advance 0 true, .post .cancel false false, .advance 0 true,
    .advance 0 true, .advance 0 true, .advance 0 true]

theorem cancelled_import_creates : ¬∀ (normalizeEmail : String → String) (jobId : Uuid) (uploads : Table Nat ImportRow)
    (users : List User) (externalIds references : List String) (ops before after : List ImportStep),
    ops = before ++ after → ImportKept (uploaded jobId uploads users externalIds references)
      (before.foldl (importStep normalizeEmail) (uploaded jobId uploads users externalIds references)) := by
  intro hclaim
  have hkept := hclaim id "job" annUpload [] [] [] cancelledUnderWorker cancelledUnderWorker [] (List.append_nil _).symm
  have hrun : (cancelledUnderWorker.foldl (importStep id) (uploaded "job" annUpload [] [] [])).cancelled = true ∧
      (cancelledUnderWorker.foldl (importStep id) (uploaded "job" annUpload [] [] [])).users.map User.row = [some 2] := by
    decide +kernel
  have hmem : some 2 ∈ (cancelledUnderWorker.foldl (importStep id) (uploaded "job" annUpload [] [] [])).users.map User.row := by
    rw [hrun.2]
    exact List.mem_cons_self ..
  obtain ⟨u, hu, hrow⟩ := List.mem_map.mp hmem
  rw [hkept.cancelled hrun.1 u hu] at hrow
  cases hrow

-- Two workers that both read COMMITTED: the second marks the row that the first has created.
example : (([.post .commit false false, .deliver 0, .deliver 1, .advance 0 true, .advance 1 true, .advance 0 true,
    .advance 1 true, .advance 0 true, .advance 1 true, .advance 0 true, .advance 0 true, .advance 1 true, .advance 1 true,
    .advance 1 true].foldl (importStep id) (uploaded "job" annUpload [] [] [])).rows.find 2).map ImportRow.status =
      some .error := by
  decide +kernel

end UserImports

end Beyvra
