import Beyvra.Security.Commands

namespace Beyvra

open Relational

namespace SecurityCommands

open TenantSelection

variable {Id B : Type} [DecidableEq Id] {site : CommandSite Id} {start : Tables Id B} {s s' : Store Id B} {i j : Nat}
  {x y : Session Id} {scope : Scope Id} {target : Target}

-- A session's move that leaves the tables: what it newly claims is free, what it newly locks has the version it names.
structure Moves (site : CommandSite Id) (s : Store Id B) (i : Nat) (x : Session Id) (phase : Phase Id) : Prop where
  claims : ∀ scope, ({ x with phase } : Session Id).claims = some scope → x.claims = some scope ∨
    (s.tables.records.find scope = none ∧ claimed s i scope = false)
  locks : ∀ target, ({ x with phase } : Session Id).locks = some target →
    x.command.expectedVersion = versionText site (version s.tables.targets target) ∧
      (version s.tables.targets target = none → target.singleton = true)
  answers : ∀ answer, phase = .answered answer → answer = .raised ∨ ∃ response, answer = .rejected response

structure Replays (s : Store Id B) (x : Session Id) (scope : Scope Id) (response : Response) : Prop where
  stored : ∃ record, s.tables.records.find scope = some record ∧ record.requestHash = x.command.payload ∧
    record.response = some response

inductive CommandChange (site : CommandSite Id) (s : Store Id B) : CommandStep Id B → Store Id B → Prop where
  | nothing {op : CommandStep Id B} : CommandChange site s op s
  | arrived {op : CommandStep Id B} {i : Nat} (command : Command Id) (hfree : s.sessions.find i = none) :
      CommandChange site s op (s.save i { command })
  | moved {op : CommandStep Id B} {i : Nat} {x : Session Id} {phase : Phase Id} (hx : s.sessions.find i = some x)
      (hmoves : Moves site s i x phase) : CommandChange site s op (s.save i { x with phase })
  | settled {i : Nat} {x : Session Id} {tenant : Id} {staging : Bool} {answer : Answer Id} (result : Response)
      (effect : Effect B) (hx : s.sessions.find i = some x) (hphase : x.phase = .resolved tenant staging)
      (hsettles : x.command.lacksIfMatch ∨ s.tables.records.find (x.command.scope tenant) ≠ none)
      (hanswer : (∃ response, answer = .rejected response) ∨
        ∃ scope response, answer = .replayed scope response ∧ Replays s x scope response) :
      CommandChange site s (.advance i (.responds result effect)) (settle site s i x staging answer)
  | executed {i : Nat} {x : Session Id} {tenant : Id} {staging : Bool} {result response : Response} {effect : Effect B}
      (hx : s.sessions.find i = some x) (hphase : x.phase = .ready tenant staging) (hresult : result.status < 400)
      (hstatus : response.status = result.status) (hunlocked : ∀ write ∈ effect.writes, lockedByOther s i write.1 = false) :
      CommandChange site s (.advance i (.responds result effect)) (committed site s i x tenant staging effect response)

theorem Moves.idle {phase : Phase Id} (hclaims : ({ x with phase } : Session Id).claims = none)
    (hlocks : ({ x with phase } : Session Id).locks = none)
    (hanswers : ∀ answer, phase = .answered answer → answer = .raised ∨ ∃ response, answer = .rejected response) :
    Moves site s i x phase where
  claims scope h := by
    rw [hclaims] at h
    cases h
  locks target h := by
    rw [hlocks] at h
    cases h
  answers := hanswers

theorem Moves.answered {answer : Answer Id} (h : answer = .raised ∨ ∃ response, answer = .rejected response) :
    Moves site s i x (.answered answer) :=
  .idle rfl rfl fun answer' heq => by
    obtain rfl := Phase.answered.inj heq
    exact h

theorem recorded_cases (x : Session Id) {record : IdempotencyRecord} (h : s.tables.records.find scope = some record) :
    (∃ response, recorded x scope record = .rejected response) ∨
      ∃ scope' response, recorded x scope record = .replayed scope' response ∧ Replays s x scope' response := by
  unfold recorded
  split
  · exact .inl ⟨_, rfl⟩
  · rename_i hpayload
    split
    · exact .inl ⟨_, rfl⟩
    · rename_i response hresponse
      exact .inr ⟨scope, response, rfl, ⟨record, h, not_not.mp hpayload, hresponse⟩⟩

theorem resolve_change {op : CommandStep Id B} (hx : s.sessions.find i = some x) :
    CommandChange site s op (resolve site s i x) := by
  unfold resolve
  split
  · exact .moved hx (.answered (.inr ⟨_, rfl⟩))
  · split
    · exact .moved hx (.answered (.inl rfl))
    · exact .moved hx (.idle rfl rfl fun answer heq => by cases heq)

theorem begin_change {tenant : Id} {staging : Bool} (result : Response) (effect : Effect B)
    (hx : s.sessions.find i = some x) (hphase : x.phase = .resolved tenant staging) :
    CommandChange site s (.advance i (.responds result effect)) (begin site s i x tenant staging) := by
  unfold begin
  split
  · rename_i hlacks
    exact .settled result effect hx hphase (.inl hlacks) (.inl ⟨_, rfl⟩)
  · split
    · exact .nothing
    · rename_i hclaimed
      split
      · rename_i record hrecord
        exact .settled result effect hx hphase (.inr (by simp [hrecord])) (recorded_cases x hrecord)
      · rename_i hnone
        refine .moved hx ⟨fun scope hclaim => ?_, fun target hlock => ?_, fun answer heq => by cases heq⟩
        · obtain rfl := Option.some.inj hclaim
          exact .inr ⟨hnone, by simpa using hclaimed⟩
        · cases hlock

theorem lockTarget_change {op : CommandStep Id B} {tenant : Id} {staging : Bool} (hx : s.sessions.find i = some x)
    (hphase : x.phase = .inserted tenant staging) :
    CommandChange site s op (lockTarget site s i x tenant staging) := by
  have hclaims : ∀ scope, ({ x with phase := .ready tenant staging } : Session Id).claims = some scope →
      x.claims = some scope ∨ (s.tables.records.find scope = none ∧ claimed s i scope = false) := by
    intro scope hclaim
    obtain rfl := Option.some.inj hclaim
    exact .inl (by simp [Session.claims, hphase])
  simp only [lockTarget]
  split
  · rename_i hversioned
    split
    · exact .nothing
    · split
      · exact .moved hx (.answered (.inl rfl))
      · rename_i hfound
        split
        · exact .moved hx (.answered (.inr ⟨_, rfl⟩))
        · rename_i hmatch
          refine .moved hx ⟨hclaims, ?_, fun answer heq => by cases heq⟩
          intro target htarget
          obtain rfl : x.command.target = target := by simpa [Session.locks, hversioned] using htarget
          refine ⟨not_not.mp hmatch, fun hnone => ?_⟩
          by_contra hsingleton
          exact hfound ⟨hnone, by simpa using hsingleton⟩
  · rename_i hversioned
    refine .moved hx ⟨hclaims, ?_, fun answer heq => by cases heq⟩
    intro target htarget
    simp [Session.locks, hversioned] at htarget

theorem handle_change {tenant : Id} {staging : Bool} {response : Response} {effect : Effect B}
    (hx : s.sessions.find i = some x) (hphase : x.phase = .ready tenant staging) :
    CommandChange site s (.advance i (.responds response effect)) (handle site s i x tenant staging response effect) := by
  unfold handle
  split
  · exact .moved hx (.answered (.inr ⟨_, rfl⟩))
  · rename_i hstatus
    split
    · exact .nothing
    · rename_i hblocked
      have hunlocked : ∀ write ∈ effect.writes, lockedByOther s i write.1 = false := by
        simpa using hblocked
      split
      · split
        · exact .moved hx (.answered (.inl rfl))
        · exact .executed hx hphase (by simpa using hstatus) rfl hunlocked
      · exact .executed hx hphase (by simpa using hstatus) rfl hunlocked

theorem commandStep_change (site : CommandSite Id) (s : Store Id B) (op : CommandStep Id B) :
    CommandChange site s op (commandStep site s op) := by
  cases op with
  | arrive i command =>
    simp only [commandStep]
    split
    · rename_i hfree
      exact .arrived command hfree
    · exact .nothing
  | advance i outcome =>
    cases hx : s.sessions.find i with
    | none =>
      simp only [commandStep, hx]
      exact .nothing
    | some x =>
      simp only [commandStep, hx]
      have hraised : CommandChange site s (.advance i outcome) (s.answer i x .raised) := .moved hx (.answered (.inl rfl))
      cases hphase : x.phase with
      | answered answer =>
        simp only [advance, hphase]
        exact .nothing
      | arrived =>
        cases outcome with
        | raises => simpa only [advance, hphase] using hraised
        | responds response effect => simpa only [advance, hphase] using resolve_change hx
      | resolved tenant staging =>
        cases outcome with
        | raises => simpa only [advance, hphase] using hraised
        | responds response effect => simpa only [advance, hphase] using begin_change response effect hx hphase
      | inserted tenant staging =>
        cases outcome with
        | raises => simpa only [advance, hphase] using hraised
        | responds response effect => simpa only [advance, hphase] using lockTarget_change hx hphase
      | ready tenant staging =>
        cases outcome with
        | raises => simpa only [advance, hphase] using hraised
        | responds response effect => simpa only [advance, hphase] using handle_change hx hphase

structure Promised (start : Tables Id B) (s : Store Id B) : Prop where
  once : (s.log.map (·.scope)).Nodup
  business : s.tables.business = s.log.foldl (fun business e => e.effect.business business) start.business
  targets : s.tables.targets = s.log.foldl (fun targets e => e.effect.targets targets) start.targets
  executed : ∀ i x scope response, s.sessions.find i = some x → x.phase = .answered (.executed scope response) →
    ∃ e ∈ s.log, e.scope = scope ∧ e.command = x.command ∧ e.response = response
  replayed : ∀ i x scope response, s.sessions.find i = some x → x.phase = .answered (.replayed scope response) →
    Replays s x scope response
  stored : ∀ e ∈ s.log, s.tables.records.find e.scope = some ⟨e.command.payload, some e.response, e.command.resourceId⟩
  reusable : ∀ scope, start.records.find scope = none → (∀ e ∈ s.log, e.scope ≠ scope) →
    s.tables.records.find scope = none

structure Sound (start : Tables Id B) (s : Store Id B) : Prop extends Promised start s where
  claims : ∀ i x scope, s.sessions.find i = some x → x.claims = some scope → s.tables.records.find scope = none
  sole : ∀ i j x y scope, s.sessions.find i = some x → s.sessions.find j = some y → x.claims = some scope →
    y.claims = some scope → i = j

theorem not_claimed (h : claimed s i scope = false) (hy : s.sessions.find j = some y) (hclaims : y.claims = some scope) :
    j = i := by
  by_contra hne
  have hmem := Table.mem_rows_iff.mpr hy
  simp only [claimed, List.any_eq_false] at h
  exact h _ hmem (by simp [hne, hclaims])

def opening (tables : Tables Id B) : Store Id B := { tables }

theorem Sound.opening (start : Tables Id B) : Sound start (opening start) where
  once := List.nodup_nil
  business := rfl
  targets := rfl
  executed := by simp [SecurityCommands.opening]
  replayed := by simp [SecurityCommands.opening]
  stored _ he := by cases he
  reusable _ hnone _ := hnone
  claims := by simp [SecurityCommands.opening]
  sole := by simp [SecurityCommands.opening]

-- The session of one request is put back, the tables that the promises are about stay.
theorem Sound.put (h : Sound start s) (x' : Session Id) (tenants : TenantTables Id)
    (hclaims : ∀ scope, x'.claims = some scope → s.tables.records.find scope = none ∧
      ∀ j y, s.sessions.find j = some y → y.claims = some scope → j = i)
    (hexecuted : ∀ scope response, x'.phase ≠ .answered (.executed scope response))
    (hreplayed : ∀ scope response, x'.phase = .answered (.replayed scope response) → Replays s x' scope response) :
    Sound start { s with tables := { s.tables with tenants }, sessions := s.sessions.put i x' } where
  once := h.once
  business := h.business
  targets := h.targets
  executed := by
    intro j y scope response hy hphase
    rcases Table.find_put_cases hy with ⟨-, rfl⟩ | ⟨-, hold⟩
    · exact absurd hphase (hexecuted scope response)
    · exact h.executed j y scope response hold hphase
  replayed := by
    intro j y scope response hy hphase
    rcases Table.find_put_cases hy with ⟨-, rfl⟩ | ⟨-, hold⟩
    · exact ⟨(hreplayed scope response hphase).stored⟩
    · exact ⟨(h.replayed j y scope response hold hphase).stored⟩
  stored := h.stored
  reusable := h.reusable
  claims := by
    intro j y scope hy hclaim
    rcases Table.find_put_cases hy with ⟨-, rfl⟩ | ⟨-, hold⟩
    · exact (hclaims scope hclaim).1
    · exact h.claims j y scope hold hclaim
  sole := by
    intro j k y z scope hy hz hyc hzc
    rcases Table.find_put_cases hy with ⟨rfl, rfl⟩ | ⟨-, hyold⟩
    · rcases Table.find_put_cases hz with ⟨rfl, -⟩ | ⟨-, hzold⟩
      · rfl
      · exact ((hclaims scope hyc).2 k z hzold hzc).symm
    · rcases Table.find_put_cases hz with ⟨rfl, rfl⟩ | ⟨-, hzold⟩
      · exact (hclaims scope hzc).2 j y hyold hyc
      · exact h.sole j k y z scope hyold hzold hyc hzc

theorem foldl_snoc {α β : Type} (f : β → α → β) (start : β) (entries : List α) (e : α) :
    (entries ++ [e]).foldl f start = f (entries.foldl f start) e := by
  simp

theorem Sound.committed {tenant : Id} {staging : Bool} {effect : Effect B} {response : Response}
    (h : Sound start s) (hx : s.sessions.find i = some x) (hphase : x.phase = .ready tenant staging) :
    Sound start (committed site s i x tenant staging effect response) := by
  have hclaim : x.claims = some (x.command.scope tenant) := by simp [Session.claims, hphase]
  have hfree := h.claims i x _ hx hclaim
  have hunlogged : ∀ e ∈ s.log, e.scope ≠ x.command.scope tenant := by
    intro e he heq
    have hstored := h.stored e he
    rw [heq, hfree] at hstored
    cases hstored
  have hkept : ∀ {scope record}, s.tables.records.find scope = some record →
      (s.tables.records.put (x.command.scope tenant) ⟨x.command.payload, some response, x.command.resourceId⟩).find
        scope = some record := by
    intro scope record hrecord
    rw [Table.find_put_of_ne, hrecord]
    rintro rfl
    rw [hfree] at hrecord
    cases hrecord
  constructor
  case toPromised =>
    constructor
    case once =>
      rw [SecurityCommands.committed, List.map_append, List.nodup_append]
      refine ⟨h.once, by simp, ?_⟩
      rintro a ha b hb rfl
      obtain ⟨e, he, rfl⟩ := List.mem_map.mp ha
      exact hunlogged e he (by simpa using hb)
    case business => rw [SecurityCommands.committed, foldl_snoc, ← h.business]
    case targets => rw [SecurityCommands.committed, foldl_snoc, ← h.targets]
    case executed =>
      intro j y scope response' hy hanswered
      rcases Table.find_put_cases hy with ⟨-, rfl⟩ | ⟨-, hold⟩
      · obtain ⟨rfl, rfl⟩ : x.command.scope tenant = scope ∧ response = response' := by simpa using hanswered
        exact ⟨_, List.mem_append_right _ (List.mem_singleton_self _), rfl, rfl, rfl⟩
      · obtain ⟨e, he, hentry⟩ := h.executed j y scope response' hold hanswered
        exact ⟨e, List.mem_append_left _ he, hentry⟩
    case replayed =>
      intro j y scope response' hy hanswered
      rcases Table.find_put_cases hy with ⟨-, rfl⟩ | ⟨-, hold⟩
      · cases hanswered
      · obtain ⟨record, hrecord, hresponse⟩ := (h.replayed j y scope response' hold hanswered).stored
        exact ⟨record, hkept hrecord, hresponse⟩
    case stored =>
      intro e he
      rcases List.mem_append.mp he with hold | hnew
      · exact hkept (h.stored e hold)
      · obtain rfl := List.mem_singleton.mp hnew
        exact Table.find_put_self _ _ _
    case reusable =>
      intro scope hnone hlog
      have hne : scope ≠ x.command.scope tenant := by
        rintro rfl
        exact hlog _ (List.mem_append_right _ (List.mem_singleton_self _)) rfl
      refine (Table.find_put_of_ne _ _ hne).trans (h.reusable scope hnone fun e he => ?_)
      exact hlog e (List.mem_append_left _ he)
  case claims =>
    intro j y scope hy hyclaim
    rcases Table.find_put_cases hy with ⟨-, rfl⟩ | ⟨hj, hold⟩
    · cases hyclaim
    · have hne : scope ≠ x.command.scope tenant := by
        rintro rfl
        exact hj (h.sole j i y x _ hold hx hyclaim hclaim)
      exact (Table.find_put_of_ne _ _ hne).trans (h.claims j y scope hold hyclaim)
  case sole =>
    intro j k y z scope hy hz hyc hzc
    rcases Table.find_put_cases hy with ⟨-, rfl⟩ | ⟨-, hyold⟩
    · cases hyc
    · rcases Table.find_put_cases hz with ⟨-, rfl⟩ | ⟨-, hzold⟩
      · cases hzc
      · exact h.sole j k y z scope hyold hzold hyc hzc

theorem Sound.change {op : CommandStep Id B} (h : Sound start s) (hchange : CommandChange site s op s') :
    Sound start s' := by
  cases hchange with
  | nothing => exact h
  | @arrived op i command hfree =>
    refine h.put { command } s.tables.tenants ?_ ?_ ?_
    · intro scope hclaim
      cases hclaim
    · intro scope response hanswered
      cases hanswered
    · intro scope response hanswered
      cases hanswered
  | @moved op i x phase hx hmoves =>
    refine h.put { x with phase } s.tables.tenants ?_ ?_ ?_
    · intro scope hclaim
      rcases hmoves.claims scope hclaim with hold | ⟨hfree, hunclaimed⟩
      · exact ⟨h.claims i x scope hx hold, fun j y hy hyclaim => h.sole j i y x scope hy hx hyclaim hold⟩
      · exact ⟨hfree, fun j y hy hyclaim => not_claimed hunclaimed hy hyclaim⟩
    · intro scope response hanswered
      rcases hmoves.answers _ hanswered with hraised | ⟨response', hrejected⟩
      · cases hraised
      · cases hrejected
    · intro scope response hanswered
      rcases hmoves.answers _ hanswered with hraised | ⟨response', hrejected⟩
      · cases hraised
      · cases hrejected
  | @settled i x tenant staging answer result effect hx hphase hsettles hanswer =>
    refine h.put { x with phase := .answered answer } (tenantsOf site s.tables x.command staging) ?_ ?_ ?_
    · intro scope hclaim
      cases hclaim
    · intro scope response hanswered
      obtain rfl := Phase.answered.inj hanswered
      rcases hanswer with ⟨response', hrejected⟩ | ⟨scope', response', hreplayed, -⟩
      · cases hrejected
      · cases hreplayed
    · intro scope response hanswered
      obtain rfl := Phase.answered.inj hanswered
      rcases hanswer with ⟨response', hrejected⟩ | ⟨scope', response', hreplayed, hreplays⟩
      · cases hrejected
      · cases hreplayed
        exact ⟨hreplays.stored⟩
  | executed hx hphase hresult hstatus hunlocked => exact h.committed hx hphase

def Provisioned (site : CommandSite Id) (tenants : TenantTables Id) (user : User) : Prop :=
  tenants.organizations.find site.stagingTenantId ≠ none ∧
    ∃ m ∈ tenants.memberships, m.key = (user.id, site.stagingTenantId)

-- A request that an answer of the wrapper ends before its handler runs has no tenant rows to commit.
def Quiet (site : CommandSite Id) (s : Store Id B) : CommandStep Id B → Prop
  | .arrive _ _ => True
  | .advance _ .raises => True
  | .advance i (.responds _ _) => ∀ x tenant, s.sessions.find i = some x → x.phase = .resolved tenant true →
      (x.command.lacksIfMatch ∨ s.tables.records.find (x.command.scope tenant) ≠ none) →
      Provisioned site s.tables.tenants x.command.request.user

def Executes (s s' : Store Id B) : Prop :=
  ∃ e i x, s'.log = s.log ++ [e] ∧ e.response.status < 400 ∧ s'.sessions.find i = some x ∧ x.command = e.command ∧
    x.phase = .answered (.executed e.scope e.response)

def Unchanged (s s' : Store Id B) : Prop := s'.tables = s.tables ∨ Executes s s'

theorem getOrCreate_eq_self {tenants : TenantTables Id} {new : TenantSelection.OrganizationMembership Id} :
    (tenants.getOrCreate new).2 = tenants ↔ ∃ m ∈ tenants.memberships, m.key = new.key := by
  unfold TenantTables.getOrCreate
  split
  · rename_i m hfound
    have hkey : m.key = new.key := by simpa using List.find?_some hfound
    exact iff_of_true rfl ⟨m, List.mem_of_find?_eq_some hfound, hkey⟩
  · rename_i hmissing
    refine iff_of_false (fun hsame => ?_) ?_
    · have hlength := congrArg (fun tenants => tenants.memberships.length) hsame
      simp at hlength
    · rintro ⟨m, hm, hkey⟩
      exact List.find?_eq_none.mp hmissing m hm (by simpa using hkey)

theorem getOrCreate_organizations {tenants : TenantTables Id} {new : TenantSelection.OrganizationMembership Id} :
    (tenants.getOrCreate new).2.organizations = tenants.organizations := by
  unfold TenantTables.getOrCreate
  split <;> rfl

theorem stagingOrganization_eq_self {tenants : TenantTables Id}
    (h : tenants.organizations.find site.stagingTenantId ≠ none) :
    stagingOrganization site.toSite tenants = tenants := by
  obtain ⟨organization, hfind⟩ := Option.ne_none_iff_exists'.mp h
  simp only [stagingOrganization, hfind, Option.getD_some, Table.put_self _ hfind]

theorem provisioned_eq_self {tenants : TenantTables Id} {user : User} :
    provisioned site.toSite tenants user = tenants ↔ Provisioned site tenants user := by
  constructor
  · intro hsame
    have horganization : tenants.organizations.find site.stagingTenantId ≠ none := by
      have hput := congrArg (fun tenants => tenants.organizations.find site.stagingTenantId) hsame
      simp only [provisioned, getOrCreate_organizations, stagingOrganization, Table.find_put_self] at hput
      rw [← hput]
      exact Option.some_ne_none _
    rw [provisioned, stagingOrganization_eq_self horganization] at hsame
    exact ⟨horganization, getOrCreate_eq_self.mp hsame⟩
  · rintro ⟨horganization, hmember⟩
    rw [provisioned, stagingOrganization_eq_self horganization]
    exact getOrCreate_eq_self.mpr hmember

theorem tenantsOf_eq_self {c : Command Id} {staging : Bool} :
    tenantsOf site s.tables c staging = s.tables.tenants ↔
      (staging = true → Provisioned site s.tables.tenants c.request.user) := by
  cases staging with
  | false => simp [tenantsOf]
  | true => simpa [tenantsOf] using provisioned_eq_self

theorem settle_unchanged {staging : Bool} {answer : Answer Id} : Unchanged s (settle site s i x staging answer) ↔
    (staging = true → Provisioned site s.tables.tenants x.command.request.user) := by
  rw [← tenantsOf_eq_self (s := s)]
  constructor
  · rintro (hsame | ⟨e, j, y, hlog, -⟩)
    · exact congrArg (·.tenants) hsame
    · have hlength := congrArg List.length hlog
      simp [settle, Store.answer, Store.save] at hlength
  · intro hsame
    refine .inl ?_
    change ({ s.tables with tenants := tenantsOf site s.tables x.command staging } : Tables Id B) = s.tables
    rw [hsame]

theorem begin_settles {tenant : Id} {staging : Bool} (h : Sound start s)
    (hsettles : x.command.lacksIfMatch ∨ s.tables.records.find (x.command.scope tenant) ≠ none) :
    ∃ answer, begin site s i x tenant staging = settle site s i x staging answer := by
  unfold begin
  split
  · exact ⟨_, rfl⟩
  · rename_i hmatch
    obtain ⟨record, hrecord⟩ := Option.ne_none_iff_exists'.mp (hsettles.resolve_left hmatch)
    split
    · rename_i hclaimed
      obtain ⟨row, hmem, hclaim⟩ := List.any_eq_true.mp hclaimed
      have hfree := h.claims row.1 row.2 _ (Table.mem_rows_iff.mp hmem) (by simpa using (Bool.and_eq_true_iff.mp hclaim).2)
      rw [hrecord] at hfree
      cases hfree
    · rw [hrecord]
      exact ⟨_, rfl⟩

theorem step_unchanged_iff (h : Sound start s) (op : CommandStep Id B) :
    Unchanged s (commandStep site s op) ↔ Quiet site s op := by
  constructor
  · intro hunchanged
    cases op with
    | arrive i command => trivial
    | advance i outcome =>
      cases outcome with
      | raises => trivial
      | responds response effect =>
        intro x tenant hx hphase hsettles
        have hstep : commandStep site s (.advance i (.responds response effect)) = begin site s i x tenant true := by
          simp only [commandStep, hx, advance, hphase]
        have hbegins : ∃ answer, begin site s i x tenant true = settle site s i x true answer := begin_settles h hsettles
        obtain ⟨answer, hbegin⟩ := hbegins
        rw [hstep, hbegin] at hunchanged
        exact settle_unchanged.mp hunchanged rfl
  · intro hquiet
    have hchange := commandStep_change site s op
    generalize commandStep site s op = s' at hchange
    cases hchange with
    | nothing => exact .inl rfl
    | arrived command hfree => exact .inl rfl
    | moved hx hmoves => exact .inl rfl
    | @settled i x tenant staging answer result effect hx hphase hsettles hanswer =>
      refine settle_unchanged.mpr ?_
      rintro rfl
      exact hquiet x tenant hx hphase hsettles
    | executed hx hphase hresult hstatus hunlocked =>
      exact .inr ⟨_, _, _, rfl, hstatus ▸ hresult, Table.find_put_self _ _ _, rfl, rfl⟩

end SecurityCommands

end Beyvra
