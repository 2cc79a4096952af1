import Beyvra.Security.CommandRuns
import Mathlib.Data.List.Induction

namespace Beyvra

open Relational

namespace SecurityCommands

open TenantSelection

variable {Id B : Type} [DecidableEq Id] {site : CommandSite Id} {start : Tables Id B} {s s' : Store Id B} {i : Nat}
  {x : Session Id} {target : Target}

-- Every save of a row gives it a later update time; a singleton is never deleted.
def Stamps (targets : Table Target TargetRow) : List (Target × TargetWrite) → Prop
  | [] => True
  | (target, .saved updatedAt) :: writes =>
    (∀ row, targets.find target = some row → row.updatedAt < updatedAt) ∧
      Stamps (writeTarget targets (target, .saved updatedAt)) writes
  | (target, .deleted) :: writes =>
    target.singleton = false ∧ Stamps (writeTarget targets (target, .deleted)) writes

-- The handler of a command that is accepted stamps what it writes, its own target if it is versioned.
def Stamped (s : Store Id B) : CommandStep Id B → Prop
  | .arrive _ _ => True
  | .advance _ .raises => True
  | .advance i (.responds response effect) => ∀ x tenant staging, s.sessions.find i = some x →
      x.phase = .ready tenant staging → response.status < 400 → Stamps s.tables.targets effect.writes ∧
        (x.command.versioned = true → ∃ write ∈ effect.writes, write.1 = x.command.target)

def VersionsDistinct (s : Store Id B) : Prop :=
  ((s.log.filter (·.command.versioned)).map fun e => (e.command.target, e.command.expectedVersion)).Nodup

-- A version that the row has had and will not have again
def Spent (targets : Table Target TargetRow) (target : Target) : Option Timestamp → Prop
  | none => target.singleton = true ∧ ∃ row, targets.find target = some row ∧ row.present = true
  | some updatedAt => ∃ row, targets.find target = some row ∧
      (updatedAt < row.updatedAt ∨ updatedAt = row.updatedAt ∧ row.present = false)

variable {targets : Table Target TargetRow} {old : Option Timestamp} {writes : List (Target × TargetWrite)}

theorem version_of_find {row : TargetRow} (h : targets.find target = some row) :
    version targets target = if row.present then some row.updatedAt else none := by
  cases hpresent : row.present <;> simp [version, h, hpresent]

theorem Spent.ne_version (h : Spent targets target old) : version targets target ≠ old := by
  cases old with
  | none =>
    obtain ⟨-, row, hrow, hpresent⟩ := h
    simp [version_of_find hrow, hpresent]
  | some updatedAt =>
    obtain ⟨row, hrow, hlater | ⟨rfl, habsent⟩⟩ := h
    · rw [version_of_find hrow]
      split
      · exact fun hsame => hlater.ne (Option.some.inj hsame).symm
      · exact nofun
    · simp [version_of_find hrow, habsent]

theorem writeTarget_of_ne {write : Target × TargetWrite} (hne : target ≠ write.1) :
    (writeTarget targets write).find target = targets.find target := by
  obtain ⟨written, write⟩ := write
  cases write with
  | saved updatedAt => exact Table.find_put_of_ne _ _ hne
  | deleted =>
    cases hrow : targets.find written with
    | none => simp only [writeTarget, hrow]
    | some row =>
      simp only [writeTarget, hrow]
      exact Table.find_put_of_ne _ _ hne

theorem Spent.congr {targets' : Table Target TargetRow} (h : Spent targets target old)
    (hsame : targets'.find target = targets.find target) : Spent targets' target old := by
  cases old <;> simpa only [Spent, hsame] using h

theorem Stamps.tail {write : Target × TargetWrite} (h : Stamps targets (write :: writes)) :
    Stamps (writeTarget targets write) writes := by
  obtain ⟨written, write⟩ := write
  cases write <;> exact h.2

theorem Spent.write {write : Target × TargetWrite} (h : Spent targets target old)
    (hstamps : Stamps targets (write :: writes)) : Spent (writeTarget targets write) target old := by
  by_cases hne : target = write.1
  · obtain ⟨written, write⟩ := write
    obtain rfl : target = written := hne
    cases write with
    | saved updatedAt =>
      have hfind : (writeTarget targets (target, .saved updatedAt)).find target = some ⟨updatedAt, true⟩ :=
        Table.find_put_self _ _ _
      cases old with
      | none => exact ⟨h.1, _, hfind, rfl⟩
      | some before =>
        obtain ⟨row, hrow, hspent⟩ := h
        have hlater := hstamps.1 row hrow
        refine ⟨_, hfind, .inl ?_⟩
        rcases hspent with hbefore | ⟨rfl, -⟩
        · exact hbefore.trans hlater
        · exact hlater
    | deleted =>
      cases old with
      | none => exact absurd h.1 (by simp [hstamps.1])
      | some before =>
        obtain ⟨row, hrow, hspent⟩ := h
        refine ⟨{ row with present := false }, ?_, ?_⟩
        · simp [writeTarget, hrow]
        · rcases hspent with hbefore | ⟨rfl, -⟩
          · exact .inl hbefore
          · exact .inr ⟨rfl, rfl⟩
  · exact h.congr (writeTarget_of_ne hne)

theorem Spent.fold (h : Spent targets target old) (hstamps : Stamps targets writes) :
    Spent (writes.foldl writeTarget targets) target old := by
  induction writes generalizing targets with
  | nil => exact h
  | cons write writes ih => exact ih (h.write hstamps) hstamps.tail

-- The write of a row spends the version it had, a missing singleton's included.
theorem spent_of_written {write : Target × TargetWrite} (hversion : version targets target = old)
    (hmissing : old = none → target.singleton = true) (hstamps : Stamps targets (write :: writes))
    (hwrite : write.1 = target) : Spent (writeTarget targets write) target old := by
  obtain ⟨written, write⟩ := write
  obtain rfl : written = target := hwrite
  cases write with
  | saved updatedAt =>
    have hfind : (writeTarget targets (written, .saved updatedAt)).find written = some ⟨updatedAt, true⟩ :=
      Table.find_put_self _ _ _
    cases old with
    | none => exact ⟨hmissing rfl, _, hfind, rfl⟩
    | some before =>
      cases hrow : targets.find written with
      | none => simp [version, hrow] at hversion
      | some row =>
        rw [version_of_find hrow] at hversion
        split at hversion
        · obtain rfl := Option.some.inj hversion
          exact ⟨_, hfind, .inl (hstamps.1 row hrow)⟩
        · cases hversion
  | deleted =>
    cases old with
    | none => exact absurd (hmissing rfl) (by simp [hstamps.1])
    | some before =>
      cases hrow : targets.find written with
      | none => simp [version, hrow] at hversion
      | some row =>
        rw [version_of_find hrow] at hversion
        split at hversion
        · obtain rfl := Option.some.inj hversion
          exact ⟨{ row with present := false }, by simp [writeTarget, hrow], .inr ⟨rfl, rfl⟩⟩
        · cases hversion

theorem spent_of_fold (hversion : version targets target = old) (hmissing : old = none → target.singleton = true)
    (hstamps : Stamps targets writes) (hwritten : ∃ write ∈ writes, write.1 = target) :
    Spent (writes.foldl writeTarget targets) target old := by
  induction writes generalizing targets with
  | nil =>
    obtain ⟨write, hmem, -⟩ := hwritten
    cases hmem
  | cons write writes ih =>
    by_cases hwrite : write.1 = target
    · exact (spent_of_written hversion hmissing hstamps hwrite).fold hstamps.tail
    · have hsame : (writeTarget targets write).find target = targets.find target := writeTarget_of_ne (Ne.symm hwrite)
      refine ih ?_ hstamps.tail ?_
      · rwa [version, hsame]
      · obtain ⟨write', hmem, hwrite'⟩ := hwritten
        rcases List.mem_cons.mp hmem with rfl | hmem
        · exact absurd hwrite' hwrite
        · exact ⟨write', hmem, hwrite'⟩

theorem fold_of_not_written (h : ∀ write ∈ writes, target ≠ write.1) :
    (writes.foldl writeTarget targets).find target = targets.find target := by
  induction writes generalizing targets with
  | nil => rfl
  | cons write writes ih =>
    rw [List.foldl_cons, ih fun write hmem => h write (List.mem_cons_of_mem _ hmem)]
    exact writeTarget_of_ne (h write List.mem_cons_self)

-- What keeps the If-Match values of the log distinct: each is spent, and a session that may go on holds its own.
structure Versioned (site : CommandSite Id) (s : Store Id B) : Prop where
  distinct : VersionsDistinct s
  spent : ∀ e ∈ s.log, e.command.versioned = true →
    ∃ old, versionText site old = e.command.expectedVersion ∧ Spent s.tables.targets e.command.target old
  held : ∀ i x target, s.sessions.find i = some x → x.locks = some target →
    x.command.expectedVersion = versionText site (version s.tables.targets target) ∧
      (version s.tables.targets target = none → target.singleton = true)

omit [DecidableEq Id] in
theorem Versioned.opening (start : Tables Id B) : Versioned site (opening start) where
  distinct := List.nodup_nil
  spent _ he := by cases he
  held := by simp [SecurityCommands.opening]

omit [DecidableEq Id] in
theorem Versioned.put (h : Versioned site s) (x' : Session Id) (tenants : TenantTables Id)
    (hlocks : ∀ target, x'.locks = some target →
      x'.command.expectedVersion = versionText site (version s.tables.targets target) ∧
        (version s.tables.targets target = none → target.singleton = true)) :
    Versioned site { s with tables := { s.tables with tenants }, sessions := s.sessions.put i x' } where
  distinct := h.distinct
  spent := h.spent
  held := by
    intro j y target hy hylocks
    rcases Table.find_put_cases hy with ⟨-, rfl⟩ | ⟨-, hold⟩
    · exact hlocks target hylocks
    · exact h.held j y target hold hylocks

theorem Versioned.committed {tenant : Id} {staging : Bool} {effect : Effect B} {response : Response}
    (h : Versioned site s) (hx : s.sessions.find i = some x) (hphase : x.phase = .ready tenant staging)
    (hunlocked : ∀ write ∈ effect.writes, lockedByOther s i write.1 = false) (hstamps : Stamps s.tables.targets effect.writes)
    (hown : x.command.versioned = true → ∃ write ∈ effect.writes, write.1 = x.command.target) :
    Versioned site (committed site s i x tenant staging effect response) := by
  have hheld : x.command.versioned = true →
      x.command.expectedVersion = versionText site (version s.tables.targets x.command.target) ∧
        (version s.tables.targets x.command.target = none → x.command.target.singleton = true) :=
    fun hversioned => h.held i x _ hx (by simp [Session.locks, hphase, hversioned])
  constructor
  case distinct =>
    unfold VersionsDistinct
    rw [SecurityCommands.committed, List.filter_append, List.map_append, List.nodup_append]
    refine ⟨h.distinct, ?_, ?_⟩
    · cases hversioned : x.command.versioned <;> simp [hversioned]
    · rintro pair hpair _ hnew rfl
      obtain ⟨e, he, rfl⟩ := List.mem_map.mp hpair
      obtain ⟨hmem, hversioned⟩ := List.mem_filter.mp he
      obtain ⟨e', he', heq⟩ := List.mem_map.mp hnew
      obtain ⟨hmem', hxversioned⟩ := List.mem_filter.mp he'
      obtain rfl := List.mem_singleton.mp hmem'
      obtain ⟨htarget, hexpected⟩ : x.command.target = e.command.target ∧
          x.command.expectedVersion = e.command.expectedVersion := Prod.mk.inj heq
      obtain ⟨old, htext, hspent⟩ := h.spent e hmem hversioned
      have hcurrent : version s.tables.targets e.command.target = old := by
        refine versionText_injective site ?_
        rw [htext, ← hexpected, ← htarget, ← (hheld hxversioned).1]
      exact hspent.ne_version hcurrent
  case spent =>
    intro e he hversioned
    rcases List.mem_append.mp he with hold | hnew
    · obtain ⟨old, htext, hspent⟩ := h.spent e hold hversioned
      exact ⟨old, htext, hspent.fold hstamps⟩
    · obtain rfl := List.mem_singleton.mp hnew
      obtain ⟨hexpected, hmissing⟩ := hheld hversioned
      exact ⟨_, hexpected.symm, spent_of_fold rfl hmissing hstamps (hown hversioned)⟩
  case held =>
    intro j y target hy hylocks
    rcases Table.find_put_cases hy with ⟨-, rfl⟩ | ⟨hne, hold⟩
    · cases hylocks
    · have hunwritten : ∀ write ∈ effect.writes, target ≠ write.1 := by
        rintro write hmem rfl
        have hfree := List.any_eq_false.mp (hunlocked write hmem) _ (Table.mem_rows_iff.mpr hold)
        exact hfree (by simp [hne, hylocks])
      have hsame : (effect.targets s.tables.targets).find target = s.tables.targets.find target :=
        fold_of_not_written hunwritten
      have hversion : version (SecurityCommands.committed site s i x tenant staging effect response).tables.targets target =
          version s.tables.targets target := congrArg (fun row => (row.filter (·.present)).map (·.updatedAt)) hsame
      rw [hversion]
      exact h.held j y target hold hylocks

theorem Versioned.step (h : Versioned site s) {op : CommandStep Id B} (hstamped : Stamped s op) :
    Versioned site (commandStep site s op) := by
  have hchange := commandStep_change site s op
  generalize commandStep site s op = s' at hchange
  cases hchange with
  | nothing => exact h
  | @arrived op i command hfree =>
    refine h.put { command } s.tables.tenants fun target hlock => ?_
    cases hlock
  | @moved op i x phase hx hmoves => exact h.put { x with phase } s.tables.tenants hmoves.locks
  | @settled i x tenant staging answer result effect hx hphase hsettles hanswer =>
    refine h.put { x with phase := .answered answer } (tenantsOf site s.tables x.command staging) fun target hlock => ?_
    cases hlock
  | executed hx hphase hresult hstatus hunlocked =>
    obtain ⟨hstamps, hown⟩ := hstamped _ _ _ hx hphase hresult
    exact h.committed hx hphase hunlocked hstamps hown

structure Durable (site : CommandSite Id) (start : Tables Id B) (ops : List (CommandStep Id B)) : Prop where
  promised : ∀ before after, ops = before ++ after →
    Promised start (before.foldl (commandStep site) (opening start))
  unchanged : ∀ before op after, ops = before ++ op :: after → Unchanged (before.foldl (commandStep site) (opening start))
    (commandStep site (before.foldl (commandStep site) (opening start)) op)
  versions : Throughout (commandStep site) Stamped ops (opening start) →
    VersionsDistinct (ops.foldl (commandStep site) (opening start))

theorem sound_run (site : CommandSite Id) (start : Tables Id B) (ops : List (CommandStep Id B)) :
    Sound start (ops.foldl (commandStep site) (opening start)) := by
  induction ops using List.reverseRecOn with
  | nil => exact .opening start
  | append_singleton ops op ih =>
    rw [List.foldl_append]
    exact ih.change (commandStep_change site _ op)

theorem durable_iff (site : CommandSite Id) (start : Tables Id B) (ops : List (CommandStep Id B)) :
    Durable site start ops ↔ Throughout (commandStep site) (Quiet site) ops (opening start) := by
  rw [throughout_iff]
  constructor
  · intro hdurable before op after heq
    exact (step_unchanged_iff (sound_run site start before) op).mp (hdurable.unchanged before op after heq)
  · intro hquiet
    constructor
    case promised =>
      exact fun before after _ => (sound_run site start before).toPromised
    case unchanged =>
      intro before op after heq
      exact (step_unchanged_iff (sound_run site start before) op).mpr (hquiet before op after heq)
    case versions =>
      intro hstamped
      have hreaches := hstamped.reaches
      have hversioned := hreaches.invariant (P := Versioned site) (.opening start) fun _ _ h hop => h.step hop
      exact hversioned.distinct

def stampText (t : Int) : String :=
  String.ofList (if 0 ≤ t then 'a' :: List.replicate t.natAbs 'x' else 'b' :: List.replicate t.natAbs 'x')

theorem stampText_injective : Function.Injective stampText := by
  intro (t : Int) (t' : Int) h
  have hlist := String.ofList_injective h
  by_cases ht : 0 ≤ t <;> by_cases ht' : 0 ≤ t'
  · have hlength := congrArg List.length hlist
    simp only [ht, ht', if_true, List.length_cons, List.length_replicate] at hlength
    omega
  · simp [ht, ht'] at hlist
  · simp [ht, ht'] at hlist
  · have hlength := congrArg List.length hlist
    simp only [ht, ht', if_false, List.length_cons, List.length_replicate] at hlength
    omega

def textCommandSite : CommandSite String where
  toSite := textSite
  isoformat := stampText
  isoformat_injective := stampText_injective
  isoformat_ne t h := by
    have hhead := congrArg (fun text => text.toList.head?) h
    simp only [stampText, String.toList_ofList] at hhead
    split at hhead
    · rw [List.head?_cons] at hhead
      exact absurd hhead (by decide)
    · rw [List.head?_cons] at hhead
      exact absurd hhead (by decide)

-- A staff member of no organization yet
def emptyTables : Tables String Unit where
  tenants := ⟨Table.empty, [], List.nodup_nil⟩
  records := Table.empty
  targets := Table.empty
  audits := []
  business := ()

def unmatchedCommand : Command String where
  idempotencyKey := "k1"
  requestId := "467dc5f9-0274-43de-ab92-f48d907a9011"
  correlationId := ""
  ifMatch := ""
  request := ⟨none, ⟨7, none, true, false⟩, none⟩
  path := "/api/security/set-2fa/"
  method := "POST"
  route := []
  body := "AUTHENTICATOR_APP"
  action := "security.global_2fa.update"
  versioned := true
  target := ⟨"TwoFactorAuth", "7", true⟩

def proceeds : Outcome Unit := .responds ⟨200, .other ""⟩ ⟨id, []⟩

theorem rejected_command_commits : ¬∀ (site : CommandSite String) (start : Tables String Unit)
    (ops : List (CommandStep String Unit)), Durable site start ops := by
  intro hclaim
  have hdurable := hclaim textCommandSite emptyTables
    [.arrive 0 unmatchedCommand, .advance 0 proceeds, .advance 0 proceeds]
  have hunchanged := hdurable.unchanged [.arrive 0 unmatchedCommand, .advance 0 proceeds] (.advance 0 proceeds) [] rfl
  rcases hunchanged with hsame | ⟨e, i, x, hlog, -⟩
  · have hlength := congrArg (fun tables => tables.tenants.memberships.length) hsame
    exact absurd hlength (by decide +kernel)
  · have hunlogged : (commandStep textCommandSite ([.arrive 0 unmatchedCommand, .advance 0 proceeds].foldl
        (commandStep textCommandSite) (opening emptyTables)) (.advance 0 proceeds)).log.length = 0 := by
      decide +kernel
    rw [hlog, List.length_append] at hunlogged
    simp at hunlogged

end SecurityCommands

end Beyvra
