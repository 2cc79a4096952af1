import Beyvra.Surveillance.Restrictions

namespace Beyvra

open Relational

namespace Surveillance

variable {isoformat : Timestamp → String} {s s' : RestrictionSystem} {op : RestrictionStep} {i : Nat} {x : Request}
  {id newId : Uuid} {row : TradingRestriction} {t : Transition} {now : Timestamp} {preparation : Preparation}

def kinds (s : RestrictionSystem) (id : Uuid) : List Kind := (s.changes.filter fun change => change.id = id).map Change.kind

-- The changes that lead to a status, the latest first
def history : RestrictionStatus → List Kind
  | .pending => [.requested]
  | .active => [.approved, .requested]
  | .removed => [.removed, .approved, .requested]
  | .expired | .rejected => []

-- A removal that its checks let through finds the approver it has read, or another one than its own actor.
def Unraced (isoformat : Timestamp → String) (s : RestrictionSystem) : RestrictionStep → Prop
  | .execute i _ _ => ∀ x id reason expectedVersion approvedBy row, s.requests.find i = some x →
      x.phase = .ready (.approver approvedBy) → x.body = .remove id reason expectedVersion → s.records.find x.scope = none →
      s.restrictions.find id = some row → isoformat row.updatedAt = expectedVersion → row.status = .active →
      row.approvedBy ≠ approvedBy → row.approvedBy ≠ some x.actor
  | _ => True

structure TwoPersonRule (s : RestrictionSystem) : Prop where
  approved : ∀ id row, s.restrictions.find id = some row → row.status ≠ .pending →
    ∃ approver, row.approvedBy = some approver ∧ approver ≠ row.createdBy
  removed : ∀ id row, s.restrictions.find id = some row → row.status = .removed →
    ∃ actor, row.removedBy = some actor ∧ row.approvedBy ≠ some actor
  moves : ∀ id row, s.restrictions.find id = some row → kinds s id = history row.status
  once : (s.changes.map Change.scope).Nodup ∧
    ∀ scope record, s.records.find scope = some record → scope ∈ s.changes.map Change.scope

structure Prepared (x : Request) : Prop where
  approver : ∀ approvedBy, x.phase = .ready (.approver approvedBy) → approvedBy ≠ some x.actor
  built : ∀ row, x.phase = .ready (.built row) → row.status = .pending

-- What every run keeps
structure Sound (s : RestrictionSystem) : Prop where
  prepared : ∀ i x, s.requests.find i = some x → Prepared x
  logged : ∀ scope record, s.records.find scope = some record →
    record.response ≠ none ∧ scope ∈ s.changes.map Change.scope
  recorded : ∀ change ∈ s.changes, s.records.find change.scope ≠ none
  scopes : (s.changes.map Change.scope).Nodup
  moves : ∀ id, kinds s id = ((s.restrictions.find id).map fun row => history row.status).getD []
  approved : ∀ id row, s.restrictions.find id = some row → row.status ≠ .pending →
    ∃ approver, row.approvedBy = some approver ∧ approver ≠ row.createdBy

theorem Prepared.answered (reply : Reply) : Prepared { x with phase := .answered reply } where
  approver approvedBy h := by cases h
  built row h := by cases h

theorem prepareVersioned_phase (headers : CommandHeaders) (reason expectedVersion : String) (preparation : Preparation) :
    (∃ reply, (prepareVersioned headers reason expectedVersion preparation).1 = .answered reply) ∨
      (prepareVersioned headers reason expectedVersion preparation).1 = .ready preparation := by
  unfold prepareVersioned
  split
  · exact .inl ⟨_, rfl⟩
  · split
    · exact .inl ⟨_, rfl⟩
    · exact .inr rfl

theorem prepare_phase (s : RestrictionSystem) (actor : Nat) (headers : CommandHeaders) (now : Timestamp) (body : CommandBody) :
    (∃ reply, (prepare s actor headers now body).1 = .answered reply) ∨
      (∃ row, row.status = .pending ∧ (prepare s actor headers now body).1 = .ready (.built row)) ∨
      (∃ createdBy, (prepare s actor headers now body).1 = .ready (.creator createdBy)) ∨
      ∃ approvedBy, approvedBy ≠ some actor ∧ (prepare s actor headers now body).1 = .ready (.approver approvedBy) := by
  cases body with
  | request scopeType scopeRef restrictionType reason effectiveTo =>
    simp only [prepare]
    split
    · exact .inl ⟨_, rfl⟩
    · split
      · exact .inl ⟨_, rfl⟩
      · split
        · exact .inr (.inl ⟨_, rfl, rfl⟩)
        · exact .inl ⟨_, rfl⟩
  | approve id reason expectedVersion =>
    simp only [prepare]
    split
    · exact .inl ⟨_, rfl⟩
    · split
      · exact .inl ⟨_, rfl⟩
      · rcases prepareVersioned_phase headers reason expectedVersion (.creator _) with hanswered | hready
        · exact .inl hanswered
        · exact .inr (.inr (.inl ⟨_, hready⟩))
  | remove id reason expectedVersion =>
    simp only [prepare]
    split
    · exact .inl ⟨_, rfl⟩
    · split
      · exact .inl ⟨_, rfl⟩
      · rename_i row hrow happrover
        rcases prepareVersioned_phase headers reason expectedVersion (.approver row.approvedBy) with hanswered | hready
        · exact .inl hanswered
        · exact .inr (.inr (.inr ⟨_, happrover, hready⟩))

theorem Prepared.arrived (s : RestrictionSystem) (actor : Nat) (headers : CommandHeaders) (now : Timestamp)
    (body body' : CommandBody) (key : String) : Prepared ⟨actor, key, body', (prepare s actor headers now body).1⟩ := by
  rcases prepare_phase s actor headers now body with ⟨reply, h⟩ | ⟨row, hpending, h⟩ | ⟨createdBy, h⟩ | ⟨approvedBy, hother, h⟩
  · rw [h]
    exact ⟨fun _ hphase => (by cases hphase), fun _ hphase => (by cases hphase)⟩
  · rw [h]
    refine ⟨fun _ hphase => (by cases hphase), fun row' hphase => ?_⟩
    cases hphase
    exact hpending
  · rw [h]
    exact ⟨fun _ hphase => (by cases hphase), fun _ hphase => (by cases hphase)⟩
  · rw [h]
    refine ⟨fun _ hphase => ?_, fun _ hphase => (by cases hphase)⟩
    cases hphase
    exact hother

inductive RestrictionChange (isoformat : Timestamp → String) (s : RestrictionSystem) :
    RestrictionStep → RestrictionSystem → Prop where
  | kept {op : RestrictionStep} {s' : RestrictionSystem} (hrows : s'.restrictions = s.restrictions)
      (hrecords : s'.records = s.records) (hchanges : s'.changes = s.changes)
      (hrequests : ∀ j y, s'.requests.find j = some y → s.requests.find j = some y ∨ Prepared y)
      (hunraced : Unraced isoformat s op) : RestrictionChange isoformat s op s'
  | requested {i : Nat} {x : Request} {row : TradingRestriction} (now : Timestamp) {newId : Uuid}
      (hx : s.requests.find i = some x) (hphase : x.phase = .ready (.built row)) (hscope : s.records.find x.scope = none)
      (hnew : s.restrictions.find newId = none) :
      RestrictionChange isoformat s (.execute i now newId)
        (s.committed i x ⟨newId, { row with updatedAt := now }, .requested, 201⟩)
  | approved {i : Nat} {x : Request} {id : Uuid} {row : TradingRestriction} {createdBy : Nat} (now : Timestamp) (newId : Uuid)
      (hx : s.requests.find i = some x) (hphase : x.phase = .ready (.creator createdBy)) (hscope : s.records.find x.scope = none)
      (hrow : s.restrictions.find id = some row) (hstatus : row.status = .pending) (hother : x.actor ≠ row.createdBy) :
      RestrictionChange isoformat s (.execute i now newId) (s.committed i x
        ⟨id, { row with approvedBy := some x.actor, status := .active, updatedAt := now }, .approved, 200⟩)
  | removed {i : Nat} {x : Request} {id : Uuid} {reason expectedVersion : String} {row : TradingRestriction}
      {approvedBy : Option Nat} (now : Timestamp) (newId : Uuid) (hx : s.requests.find i = some x)
      (hphase : x.phase = .ready (.approver approvedBy)) (hbody : x.body = .remove id reason expectedVersion)
      (hscope : s.records.find x.scope = none) (hrow : s.restrictions.find id = some row)
      (hversion : isoformat row.updatedAt = expectedVersion) (hstatus : row.status = .active) :
      RestrictionChange isoformat s (.execute i now newId) (s.committed i x
        ⟨id, { row with status := .removed, effectiveTo := some now, updatedAt := now, removedBy := some x.actor },
          .removed, 200⟩)

theorem answer_change (reply : Reply) (hunraced : Unraced isoformat s op) :
    RestrictionChange isoformat s op (s.answer i x reply) := by
  refine .kept rfl rfl rfl (fun j y hy => ?_) hunraced
  rcases Table.find_put_cases hy with ⟨-, rfl⟩ | ⟨-, hold⟩
  · exact .inr (.answered reply)
  · exact .inl hold

theorem clean_other (h : row.fullClean = true) {approver : Nat} (happrover : row.approvedBy = some approver) :
    approver ≠ row.createdBy := by
  simp only [TradingRestriction.fullClean, TradingRestriction.clean, decide_eq_true_eq] at h
  rintro rfl
  exact h.2.2.2.2.1 happrover

theorem not_removal_unraced {now : Timestamp} (hx : s.requests.find i = some x) (hphase : x.phase = .ready preparation)
    (hother : ∀ approvedBy, preparation ≠ .approver approvedBy) : Unraced isoformat s (.execute i now newId) := by
  intro x' _ _ _ approvedBy _ hx' hphase'
  obtain rfl := Option.some.inj (hx.symm.trans hx')
  exact absurd (Phase.ready.inj (hphase.symm.trans hphase')) (hother approvedBy)

theorem removal_unraced {now : Timestamp} (hx : s.requests.find i = some x)
    (hrefused : ∀ id reason expectedVersion row, x.body = .remove id reason expectedVersion → s.records.find x.scope = none →
      s.restrictions.find id = some row → isoformat row.updatedAt = expectedVersion → row.status ≠ .active) :
    Unraced isoformat s (.execute i now newId) := by
  intro x' id reason expectedVersion approvedBy row hx' _ hbody hscope hrow hversion hactive
  obtain rfl := Option.some.inj (hx.symm.trans hx')
  exact absurd hactive (hrefused id reason expectedVersion row hbody hscope hrow hversion)

theorem transition_change (hx : s.requests.find i = some x) (hphase : x.phase = .ready preparation)
    (hscope : s.records.find x.scope = none) (now : Timestamp) (newId : Uuid) :
    RestrictionChange isoformat s (.execute i now newId) (match transition isoformat now newId s x preparation with
      | .error reply => s.answer i x reply
      | .ok t => s.committed i x t) := by
  cases preparation with
  | built row =>
    simp only [transition]
    split_ifs with hnew
    · exact .requested now hx hphase hscope hnew
    · exact answer_change _ (not_removal_unraced hx hphase fun _ h => (by cases h))
  | creator createdBy =>
    have hunraced : Unraced isoformat s (.execute i now newId) :=
      not_removal_unraced hx hphase fun _ h => (by cases h)
    cases hbody : x.body with
    | request scopeType scopeRef restrictionType reason effectiveTo =>
      simp only [transition, hbody]
      exact answer_change _ hunraced
    | remove id reason expectedVersion =>
      simp only [transition, hbody]
      exact answer_change _ hunraced
    | approve id reason expectedVersion =>
      cases hrow : s.restrictions.find id with
      | none =>
        simp only [transition, hbody, hrow]
        exact answer_change _ hunraced
      | some row =>
        simp only [transition, hbody, hrow]
        split_ifs with hversion hstatus hclean
        · exact answer_change _ hunraced
        · exact answer_change _ hunraced
        · exact .approved now newId hx hphase hscope hrow (not_not.mp hstatus) (clean_other hclean rfl)
        · exact answer_change _ hunraced
  | approver approvedBy =>
    cases hbody : x.body with
    | request scopeType scopeRef restrictionType reason effectiveTo =>
      simp only [transition, hbody]
      refine answer_change _ (removal_unraced hx fun _ _ _ _ hremove => ?_)
      cases hbody.symm.trans hremove
    | approve id reason expectedVersion =>
      simp only [transition, hbody]
      refine answer_change _ (removal_unraced hx fun _ _ _ _ hremove => ?_)
      cases hbody.symm.trans hremove
    | remove id reason expectedVersion =>
      cases hrow : s.restrictions.find id with
      | none =>
        simp only [transition, hbody, hrow]
        refine answer_change _ (removal_unraced hx fun _ _ _ row hremove _ hfound => ?_)
        cases hbody.symm.trans hremove
        rw [hrow] at hfound
        cases hfound
      | some row =>
        simp only [transition, hbody, hrow]
        split_ifs with hversion hstatus
        · refine answer_change _ (removal_unraced hx fun _ _ _ row' hremove _ hfound hsame => ?_)
          cases hbody.symm.trans hremove
          obtain rfl := Option.some.inj (hrow.symm.trans hfound)
          exact absurd hsame hversion
        · refine answer_change _ (removal_unraced hx fun _ _ _ row' hremove _ hfound _ => ?_)
          cases hbody.symm.trans hremove
          obtain rfl := Option.some.inj (hrow.symm.trans hfound)
          exact hstatus
        · exact .removed now newId hx hphase hbody hscope hrow (not_not.mp hversion) (not_not.mp hstatus)

theorem Sound.step_change (h : Sound s) (op : RestrictionStep) :
    RestrictionChange isoformat s op (restrictionStep isoformat s op) := by
  cases op with
  | arrive i actor headers body now =>
    simp only [restrictionStep]
    split
    · exact .kept rfl rfl rfl (fun _ _ hy => .inl hy) trivial
    · refine .kept rfl rfl rfl (fun j y hy => ?_) trivial
      rcases Table.find_put_cases hy with ⟨-, rfl⟩ | ⟨-, hold⟩
      · exact .inr (.arrived s actor headers now body _ _)
      · exact .inl hold
  | execute i now newId =>
    cases hx : s.requests.find i with
    | none =>
      simp only [restrictionStep, hx]
      refine .kept rfl rfl rfl (fun _ _ hy => .inl hy) fun _ _ _ _ _ _ hx' => ?_
      rw [hx] at hx'
      cases hx'
    | some x =>
      cases hphase : x.phase with
      | answered reply =>
        simp only [restrictionStep, hx, hphase]
        refine .kept rfl rfl rfl (fun _ _ hy => .inl hy) fun x' _ _ _ _ _ hx' hphase' => ?_
        obtain rfl := Option.some.inj (hx.symm.trans hx')
        cases hphase.symm.trans hphase'
      | ready preparation =>
        simp only [restrictionStep, hx, hphase, execute]
        cases hrecord : s.records.find x.scope with
        | none =>
          simp only [beginCommand, hrecord]
          exact transition_change hx hphase hrecord now newId
        | some record =>
          have hunraced : Unraced isoformat s (.execute i now newId) :=
            removal_unraced hx fun _ _ _ _ _ hnone => absurd (hrecord.symm.trans hnone) (Option.some_ne_none _)
          simp only [beginCommand, hrecord]
          split_ifs with hsame
          · cases hresponse : record.response with
            | none => exact absurd hresponse (h.logged _ record hrecord).1
            | some response => exact answer_change _ hunraced
          · exact answer_change _ hunraced

theorem kinds_committed (s : RestrictionSystem) (i : Nat) (x : Request) (t : Transition) (id : Uuid) :
    kinds (s.committed i x t) id = if t.id = id then t.kind :: kinds s id else kinds s id := by
  unfold kinds RestrictionSystem.committed
  by_cases h : t.id = id
  · simp [h]
  · simp [h]

theorem Sound.requests (h : Sound s) (hrows : s'.restrictions = s.restrictions) (hrecords : s'.records = s.records)
    (hchanges : s'.changes = s.changes)
    (hrequests : ∀ j y, s'.requests.find j = some y → s.requests.find j = some y ∨ Prepared y) : Sound s' where
  prepared j y hy := (hrequests j y hy).elim (h.prepared j y) id
  logged := by rw [hrecords, hchanges]; exact h.logged
  recorded := by rw [hrecords, hchanges]; exact h.recorded
  scopes := by rw [hchanges]; exact h.scopes
  moves id := by
    have hkinds : kinds s' id = kinds s id := by rw [kinds, hchanges, kinds]
    rw [hkinds, hrows]
    exact h.moves id
  approved := by rw [hrows]; exact h.approved

-- A commit keeps it when the change leads to the new status, and no active row lacks an approver.
theorem Sound.committed (h : Sound s) (hscope : s.records.find x.scope = none)
    (hmove : t.kind :: kinds s t.id = history t.row.status)
    (happroved : t.row.status ≠ .pending → ∃ approver, t.row.approvedBy = some approver ∧ approver ≠ t.row.createdBy) :
    Sound (s.committed i x t) where
  prepared j y hy := by
    rcases Table.find_put_cases hy with ⟨-, rfl⟩ | ⟨-, hold⟩
    · exact .answered _
    · exact h.prepared j y hold
  logged scope record hrecord := by
    rcases Table.find_put_cases hrecord with ⟨rfl, rfl⟩ | ⟨-, hold⟩
    · exact ⟨Option.some_ne_none _, List.mem_cons_self⟩
    · exact ⟨(h.logged scope record hold).1, List.mem_cons_of_mem _ (h.logged scope record hold).2⟩
  recorded change hchange := by
    show (s.records.put x.scope _).find change.scope ≠ none
    rcases List.mem_cons.mp hchange with rfl | hold
    · rw [Table.find_put_self]
      exact Option.some_ne_none _
    · have hne : change.scope ≠ x.scope := fun heq => h.recorded change hold (by rw [heq]; exact hscope)
      rw [Table.find_put_of_ne _ _ hne]
      exact h.recorded change hold
  scopes := by
    refine List.nodup_cons.mpr ⟨fun hmem => ?_, h.scopes⟩
    obtain ⟨change, hchange, heq⟩ := List.mem_map.mp hmem
    exact h.recorded change hchange (heq ▸ hscope)
  moves id := by
    rw [kinds_committed]
    show _ = (((s.restrictions.put t.id t.row).find id).map _).getD []
    by_cases hid : t.id = id
    · subst hid
      rw [if_pos rfl, Table.find_put_self]
      exact hmove
    · rw [if_neg hid, Table.find_put_of_ne _ _ (Ne.symm hid)]
      exact h.moves id
  approved id row hrow hpending := by
    rcases Table.find_put_cases hrow with ⟨-, rfl⟩ | ⟨-, hold⟩
    · exact happroved hpending
    · exact h.approved id row hold hpending

theorem Sound.kinds_eq (h : Sound s) (hrow : s.restrictions.find id = some row) : kinds s id = history row.status := by
  have hmoves := h.moves id
  rwa [hrow] at hmoves

theorem Sound.change (h : Sound s) (hchange : RestrictionChange isoformat s op s') : Sound s' := by
  cases hchange with
  | kept hrows hrecords hchanges hrequests hunraced => exact h.requests hrows hrecords hchanges hrequests
  | @requested i x row now newId hx hphase hscope hnew =>
    have hpending : row.status = .pending := (h.prepared i x hx).built row hphase
    refine h.committed hscope ?_ fun hother => absurd hpending hother
    have hmoves := h.moves newId
    rw [hnew] at hmoves
    simp only [hmoves, hpending]
    rfl
  | @approved i x id row createdBy now newId hx hphase hscope hrow hstatus hother =>
    refine h.committed hscope ?_ fun _ => ⟨x.actor, rfl, hother⟩
    simp only [h.kinds_eq hrow, hstatus]
    rfl
  | @removed i x id reason expectedVersion row approvedBy now newId hx hphase hbody hscope hrow hversion hstatus =>
    refine h.committed hscope ?_ fun _ => ?_
    · simp only [h.kinds_eq hrow, hstatus]
      rfl
    · exact h.approved id row hrow (by rw [hstatus]; decide)

theorem Sound.rule_iff (h : Sound s) : TwoPersonRule s ↔ ∀ id row, s.restrictions.find id = some row →
    row.status = .removed → ∃ actor, row.removedBy = some actor ∧ row.approvedBy ≠ some actor :=
  ⟨TwoPersonRule.removed, fun hremoved =>
    ⟨h.approved, hremoved, fun _ _ hrow => h.kinds_eq hrow, h.scopes, fun scope record hrecord =>
      (h.logged scope record hrecord).2⟩⟩

-- The checks before the transaction and the locked row can disagree on the approver only.
theorem Sound.unraced_iff (h : Sound s) {reason expectedVersion : String} {approvedBy : Option Nat}
    (hx : s.requests.find i = some x) (hphase : x.phase = .ready (.approver approvedBy))
    (hbody : x.body = .remove id reason expectedVersion) (hscope : s.records.find x.scope = none)
    (hrow : s.restrictions.find id = some row) (hversion : isoformat row.updatedAt = expectedVersion)
    (hstatus : row.status = .active) :
    Unraced isoformat s (.execute i now newId) ↔ row.approvedBy ≠ some x.actor := by
  constructor
  · intro hunraced
    by_cases hread : row.approvedBy = approvedBy
    · rw [hread]
      exact (h.prepared i x hx).approver approvedBy hphase
    · exact hunraced x id reason expectedVersion approvedBy row hx hphase hbody hscope hrow hversion hstatus hread
  · intro hother x' id' _ _ _ row' hx' _ hbody' _ hrow' _ _ _
    obtain rfl := Option.some.inj (hx.symm.trans hx')
    cases hbody.symm.trans hbody'
    obtain rfl := Option.some.inj (hrow.symm.trans hrow')
    exact hother

theorem Sound.change_iff (h : Sound s) (hrule : TwoPersonRule s) (hchange : RestrictionChange isoformat s op s') :
    TwoPersonRule s' ↔ Unraced isoformat s op := by
  have hsound : Sound s' := h.change hchange
  rw [hsound.rule_iff]
  cases hchange with
  | kept hrows hrecords hchanges hrequests hunraced =>
    rw [hrows]
    exact iff_of_true hrule.removed hunraced
  | @requested i x row now newId hx hphase hscope hnew =>
    refine iff_of_true (fun id row' hrow' hremoved => ?_) (not_removal_unraced hx hphase fun _ heq => (by cases heq))
    rcases Table.find_put_cases hrow' with ⟨-, rfl⟩ | ⟨-, hold⟩
    · have hpending : row.status = .pending := (h.prepared i x hx).built row hphase
      exact absurd (hpending.symm.trans hremoved) (by decide)
    · exact hrule.removed id row' hold hremoved
  | @approved i x id row createdBy now newId hx hphase hscope hrow hstatus hother =>
    refine iff_of_true (fun id' row' hrow' hremoved => ?_) (not_removal_unraced hx hphase fun _ heq => (by cases heq))
    rcases Table.find_put_cases hrow' with ⟨-, rfl⟩ | ⟨-, hold⟩
    · have hactive : RestrictionStatus.active = .removed := hremoved
      exact absurd hactive (by decide)
    · exact hrule.removed id' row' hold hremoved
  | @removed i x id reason expectedVersion row approvedBy now newId hx hphase hbody hscope hrow hversion hstatus =>
    rw [h.unraced_iff hx hphase hbody hscope hrow hversion hstatus]
    constructor
    · intro hremoved
      obtain ⟨actor, hactor, hne⟩ := hremoved id _ (Table.find_put_self _ _ _) rfl
      rwa [← Option.some.inj hactor] at hne
    · intro hother id' row' hrow' hremoved
      rcases Table.find_put_cases hrow' with ⟨-, rfl⟩ | ⟨-, hold⟩
      · exact ⟨x.actor, rfl, hother⟩
      · exact hrule.removed id' row' hold hremoved

theorem Sound.initial : Sound {} where
  prepared i x hx := by cases hx
  logged scope record hrecord := by cases hrecord
  recorded change hchange := by cases hchange
  scopes := List.nodup_nil
  moves id := rfl
  approved id row hrow := by cases hrow

-- The rule holds at every point of a run exactly when no removal loses the race with an approval by its own actor.
theorem two_person_iff (isoformat : Timestamp → String) (ops : List RestrictionStep) :
    (∀ before after, ops = before ++ after → TwoPersonRule (before.foldl (restrictionStep isoformat) {})) ↔
      Throughout (restrictionStep isoformat) (Unraced isoformat) ops {} :=
  always_iff_throughout (fun _ op h => h.change (h.step_change op)) (fun _ op h hrule => h.change_iff hrule (h.step_change op))
    Sound.initial (Sound.initial.rule_iff.mpr fun _ _ hrow => (by cases hrow))

-- Manager 2 sends the removal while the restriction is pending, with the version that the approval will give it.
def approvedMeanwhile : List RestrictionStep :=
  [.arrive 0 1 ⟨"request", "r0"⟩ (.request "ACCOUNT" "42" "CLOSE_ONLY" "review" none) 10, .execute 0 10 "restriction",
    .arrive 1 2 ⟨"removal", "r1"⟩ (.remove "restriction" "done" "12") 11,
    .arrive 2 2 ⟨"approval", "r2"⟩ (.approve "restriction" "agreed" "10") 12, .execute 2 12 "", .execute 1 13 ""]

theorem approver_removes : ¬∀ (isoformat : Timestamp → String) (ops : List RestrictionStep), ∀ before after,
    ops = before ++ after → TwoPersonRule (before.foldl (restrictionStep isoformat) {}) := by
  intro hclaim
  have hrule := hclaim (fun version => toString version) approvedMeanwhile approvedMeanwhile [] (List.append_nil _).symm
  have hrow : ((approvedMeanwhile.foldl (restrictionStep fun version => toString version) {}).restrictions.find
      "restriction").map (fun row => (row.status, row.approvedBy, row.removedBy)) = some (.removed, some 2, some 2) := by
    decide +kernel
  obtain ⟨row, hfound, hrow⟩ := Option.map_eq_some_iff.mp hrow
  simp only [Prod.mk.injEq] at hrow
  obtain ⟨actor, hactor, hother⟩ := hrule.removed "restriction" row hfound hrow.1
  exact hother (hrow.2.1.trans (hrow.2.2.symm.trans hactor))

end Surveillance

end Beyvra
