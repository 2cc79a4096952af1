import Beyvra.Relational.Inbox

namespace Relational.Inbox

variable {K D E B : Type} [DecidableEq K]

def Store.drive (i : Nat) (outcome : Except E (B → B)) : Nat → Store K D E B → Store K D E B
  | 0, s => s
  | n + 1, s => drive i outcome n (s.step (.advance i outcome))

theorem Store.drive_save {s : Store K D E B} {i : Nat} {x x' : Session K D E B}
    {outcome : Except E (B → B)} (h : (s.save i x).perform i x outcome = s.save i x') (n : Nat) :
    (s.save i x).drive i outcome (n + 1) = (s.save i x').drive i outcome n := by
  rw [Store.drive, Store.advance_save, h]

theorem Store.drive_done {s : Store K D E B} {i : Nat} {x : Session K D E B} {result : Except E Bool}
    (hx : s.sessions.find i = some x) (hdone : x.phase = .done result) (outcome : Except E (B → B))
    (n : Nat) : s.drive i outcome n = s := by
  have hstep : s.step (.advance i outcome) = s := by
    simp only [Store.step, hx, Store.perform, hdone]
  induction n with
  | zero => rfl
  | succ n ih => rw [Store.drive, hstep, ih]

-- Its own statements bring the delivery to its end, whatever its mutation would do.
def Store.Finishes (s : Store K D E B) (i : Nat) : Prop :=
  ∀ outcome, ∃ n x result, (s.drive i outcome n).sessions.find i = some x ∧ x.phase = .done result

-- A delivery of a key whose row is there does nothing but answer.
structure Session.Silent (x : Session K D E B) (delivery : Delivery K D E) (d : D) : Prop where
  delivery : x.delivery = delivery
  raised : x.raised = false
  inserted : x.inserted = false
  effect : x.effect = none
  quiet : ∀ txn, x.phase = .running txn → txn.Quiet d

structure Late (delivery : Delivery K D E) (d : D) (i : Nat) (s : Store K D E B) : Prop where
  row : s.processed.find delivery.key = some d
  silent : ∃ x, s.sessions.find i = some x ∧ x.Silent delivery d
  unlogged : ∀ c ∈ s.log, c.session ≠ i

section Late

variable {start s s' : Store K D E B} {i : Nat}
  {x x' : Session K D E B} {delivery : Delivery K D E} {d : D} {action : Action K D E B}

omit [DecidableEq K] in
theorem Session.Silent.ends (h : x.Silent delivery d) {phase : Phase D E}
    (hphase : ∀ txn, phase ≠ .running txn) : (x.ends phase).Silent delivery d :=
  ⟨h.delivery, h.raised, rfl, rfl, fun txn hrun => absurd hrun (hphase txn)⟩

omit [DecidableEq K] in
theorem Session.Silent.fail (h : x.Silent delivery d) (e : E) : (x.fail e).Silent delivery d := by
  unfold Session.fail
  cases x.delivery.recover e with
  | some handler => exact h.ends (by simp)
  | none => exact h.ends (by simp)

theorem Session.Silent.visible (h : x.Silent delivery d) (hrow : s.processed.find delivery.key = some d) :
    s.visible x = some d := by
  simp [Store.visible, Store.stored, Session.key, h.inserted, h.delivery, hrow]

omit [DecidableEq K] in
theorem Session.Silent.continues (h : x.Silent delivery d) (txn : Txn D E) (locked : Bool)
    (hquiet : txn.Quiet d) : ({ x with phase := .running txn, locked } : Session K D E B).Silent delivery d :=
  ⟨h.delivery, h.raised, h.inserted, h.effect, fun txn' hrun => by
    obtain rfl : txn = txn' := Phase.running.inj hrun
    exact hquiet⟩

theorem Session.Silent.perform (h : x.Silent delivery d) (hrow : s.processed.find delivery.key = some d)
    (outcome : Except E (B → B)) :
    s.perform i x outcome = s ∨
      ∃ x' : Session K D E B, x'.Silent delivery d ∧ s.perform i x outcome = s.save i x' := by
  unfold Store.perform
  cases hphase : x.phase with
  | running txn =>
    have hquiet := h.quiet txn hphase
    have hvisible := h.visible (s := s) hrow
    cases txn with
    | finish result =>
      cases result with
      | ok b => exact .inr ⟨_, h.ends (by simp), Store.commit_idle h.inserted h.effect b⟩
      | error e => exact .inr ⟨_, h.fail e, rfl⟩
    | select next =>
      refine .inr ⟨_, h.continues (next (some d)) x.locked hquiet, ?_⟩
      simp only [Store.execute, hvisible]
    | selectForUpdate next =>
      simp only [Store.execute, hvisible]
      split
      · exact .inr ⟨_, h.continues (next (some d)) true hquiet, rfl⟩
      · exact .inl rfl
    | mutate next => exact hquiet.elim
    | insert next =>
      refine .inr ⟨_, h.fail x.delivery.duplicate, ?_⟩
      simp [Store.execute, hvisible]
  | recovering handler => exact .inr ⟨_, h.ends (by simp), rfl⟩
  | done result => exact .inl rfl
  | lost => exact .inl rfl

theorem Session.Silent.late (hrow : s.processed.find delivery.key = some d) (h : x.Silent delivery d)
    (hlog : ∀ c ∈ s.log, c.session ≠ i) : Late delivery d i (s.save i x) :=
  ⟨hrow, ⟨x, Table.find_put_self _ _ _, h⟩, hlog⟩

theorem Late.started (h : Consistent start s) (hnew : s.sessions.find i = none)
    (hrow : s.processed.find delivery.key = some d) (hsound : delivery.Sound) :
    Late delivery d i (s.step (.start i delivery)) := by
  have hstep : s.step (.start i delivery) = s.save i { delivery, phase := .running delivery.body } := by
    simp [Store.step, hnew]
  have hlog : ∀ c ∈ s.log, c.session ≠ i := by
    rintro c hc rfl
    obtain ⟨x, hx, -⟩ := h.logged c hc
    simp [hnew] at hx
  rw [hstep]
  refine Session.Silent.late hrow ⟨rfl, rfl, rfl, rfl, ?_⟩ hlog
  intro txn hrun
  obtain rfl : delivery.body = txn := Phase.running.inj hrun
  exact hsound.quiet d

theorem Late.advance (h : Late delivery d i s) (outcome : Except E (B → B)) :
    Late delivery d i (s.step (.advance i outcome)) := by
  obtain ⟨hrow, ⟨x, hx, hsilent⟩, hlog⟩ := h
  simp only [Store.step, hx]
  rcases hsilent.perform hrow outcome with hsame | ⟨x', hsilent', hsave⟩
  · rw [hsame]
    exact ⟨hrow, ⟨x, hx, hsilent⟩, hlog⟩
  · rw [hsave]
    exact Session.Silent.late hrow hsilent' hlog

theorem Late.step (h : Late delivery d i s) (hconsistent : Consistent start s)
    (action : Action K D E B) : Late delivery d i (s.step action) := by
  by_cases hi : i = action.session
  · obtain ⟨hrow, ⟨x, hx, hsilent⟩, hlog⟩ := h
    cases action with
    | start j other =>
      obtain rfl : i = j := hi
      simp only [Store.step, hx, Option.isNone_some]
      exact ⟨hrow, ⟨x, hx, hsilent⟩, hlog⟩
    | advance j outcome =>
      obtain rfl : i = j := hi
      exact Late.advance ⟨hrow, ⟨x, hx, hsilent⟩, hlog⟩ outcome
    | abandon j =>
      obtain rfl : i = j := hi
      simp only [Store.step, hx]
      split
      · exact ⟨hrow, ⟨x, hx, hsilent⟩, hlog⟩
      · exact Session.Silent.late hrow (hsilent.ends (by simp)) hlog
  · obtain ⟨x, hx, hsilent⟩ := h.silent
    refine ⟨hconsistent.step_row action h.row, ⟨x, (s.step_sessions hi).trans hx, hsilent⟩, ?_⟩
    intro c hc
    rcases s.step_log hc with hold | hown
    · exact h.unlogged c hold
    · exact fun heq => hi (heq.symm.trans hown)

theorem Late.run (h : Late delivery d i s) (hconsistent : Consistent start s)
    (hrun : Reaches Store.step (fun _ action => Starts action) s s') :
    Late delivery d i s' := by
  induction hrun with
  | refl => exact h
  | tail hbefore hmove ih =>
    obtain ⟨action, -, rfl⟩ := hmove
    exact ih.step (hconsistent.run hbefore) action

theorem Late.answers (h : Late delivery d i s) (hconsistent : Consistent start s)
    (hx : s.sessions.find i = some x) {result : Except E Bool} (hdone : x.phase = .done result) :
    result = delivery.answer d := by
  obtain ⟨hrow, ⟨y, hy, hsilent⟩, hlog⟩ := h
  obtain rfl : x = y := Option.some.inj (hx.symm.trans hy)
  rcases (hconsistent.fits i x hx).done result hdone with ⟨-, -, f, hf⟩ | ⟨-, hanswer⟩
  · exact absurd rfl (hlog _ hf)
  · obtain ⟨d', hd', hresult⟩ := hanswer hsilent.raised
    have hkey : x.key = delivery.key := congrArg Delivery.key hsilent.delivery
    rw [hkey, hrow] at hd'
    obtain rfl := Option.some.inj hd'
    rw [hresult, hsilent.delivery]

end Late

section Progress

variable {start s s' : Store K D E B} {i : Nat}
  {x : Session K D E B} {delivery : Delivery K D E} {d : D}

theorem Store.Finishes.of_step (h : ∀ outcome, s.step (.advance i outcome) = s')
    (hfinishes : s'.Finishes i) : s.Finishes i := by
  intro outcome
  obtain ⟨n, x, result, hx, hdone⟩ := hfinishes outcome
  refine ⟨n + 1, x, result, ?_, hdone⟩
  rw [Store.drive, h outcome]
  exact hx

theorem Store.Finishes.of_idle (hx : s.sessions.find i = some x)
    (hidle : ∀ txn, x.phase ≠ .running txn) (hlost : x.phase ≠ .lost) : s.Finishes i := by
  cases hphase : x.phase with
  | running txn => exact absurd hphase (hidle txn)
  | recovering handler =>
    have hstep (outcome : Except E (B → B)) : s.step (.advance i outcome) =
        s.save i (x.ends (.done (handler (s.stored x)))) := by
      simp only [Store.step, hx, Store.perform, hphase]
    exact .of_step hstep fun _ => ⟨0, _, _, Table.find_put_self _ _ _, rfl⟩
  | done result => exact fun _ => ⟨0, x, result, hx, hphase⟩
  | lost => exact absurd hphase hlost

theorem Store.free_save {k : K} (h : s.free i k = true) (x : Session K D E B) :
    (s.save i x).free i k = true := by
  rw [Store.free_iff] at h ⊢
  intro j y hy hlocked hkey
  rcases Table.find_put_cases hy with ⟨hj, -⟩ | ⟨-, hold⟩
  · exact hj
  · exact h j y hold hlocked hkey

omit [DecidableEq K] in
theorem Session.fail_idle (x : Session K D E B) (e : E) :
    (∀ txn, (x.fail e).phase ≠ .running txn) ∧ (x.fail e).phase ≠ .lost := by
  unfold Session.fail
  cases x.delivery.recover e <;> simp [Session.ends]

def Txn.onward (d : D) : Txn D E → Option (Txn D E)
  | .select next => some (next (some d))
  | .selectForUpdate next => some (next (some d))
  | _ => none

theorem Late.turn {txn : Txn D E} (h : Late delivery d i s) (hfree : s.free i delivery.key = true)
    (hx : s.sessions.find i = some x) (hphase : x.phase = .running txn) :
    ∃ x', (∀ outcome, s.step (.advance i outcome) = s.save i x') ∧ x'.phase ≠ .lost ∧
      ∀ next, x'.phase = .running next → txn.onward d = some next := by
  obtain ⟨hrow, ⟨y, hy, hsilent⟩, -⟩ := h
  obtain rfl : x = y := Option.some.inj (hx.symm.trans hy)
  have hquiet := hsilent.quiet txn hphase
  have hvisible := hsilent.visible hrow
  have hkey : x.key = delivery.key := congrArg Delivery.key hsilent.delivery
  have hstep (outcome : Except E (B → B)) : s.step (.advance i outcome) = s.execute i x outcome txn := by
    simp only [Store.step, hx, Store.perform, hphase]
  simp only [hstep]
  cases txn with
  | finish result =>
    cases result with
    | ok b =>
      exact ⟨_, fun _ => Store.commit_idle hsilent.inserted hsilent.effect b, by simp [Session.ends],
        by simp [Session.ends]⟩
    | error e =>
      obtain ⟨hidle, hlost⟩ := x.fail_idle e
      exact ⟨_, fun _ => rfl, hlost, fun next hrun => absurd hrun (hidle next)⟩
  | select next =>
    refine ⟨{ x with phase := .running (next (some d)) }, fun _ => ?_, by simp, ?_⟩
    · simp only [Store.execute, hvisible]
    · exact fun next' hrun => congrArg some (Phase.running.inj hrun)
  | selectForUpdate next =>
    refine ⟨{ x with phase := .running (next (some d)), locked := true }, fun _ => ?_, by simp, ?_⟩
    · simp only [Store.execute, hvisible, hkey, hfree, if_true]
    · exact fun next' hrun => congrArg some (Phase.running.inj hrun)
  | mutate next => exact hquiet.elim
  | insert next =>
    obtain ⟨hidle, hlost⟩ := x.fail_idle x.delivery.duplicate
    refine ⟨_, fun _ => ?_, hlost, fun next hrun => absurd hrun (hidle next)⟩
    simp [Store.execute, hvisible]

theorem Late.finishes_onward {txn : Txn D E} (h : Late delivery d i s)
    (hfree : s.free i delivery.key = true) (hx : s.sessions.find i = some x)
    (hphase : x.phase = .running txn)
    (honward : ∀ next, txn.onward d = some next → ∀ (t : Store K D E B) (y : Session K D E B),
      Late delivery d i t → t.free i delivery.key = true → t.sessions.find i = some y →
      y.phase = .running next → t.Finishes i) : s.Finishes i := by
  obtain ⟨x', hstep, hlost, hrest⟩ := h.turn hfree hx hphase
  have hx' : (s.save i x').sessions.find i = some x' := Table.find_put_self _ _ _
  refine .of_step hstep ?_
  by_cases hrun : ∃ next, x'.phase = .running next
  · obtain ⟨next, hrun⟩ := hrun
    have hlate := h.advance (.ok id)
    rw [hstep] at hlate
    exact honward next (hrest next hrun) _ x' hlate (Store.free_save hfree x') hx' hrun
  · exact .of_idle hx' (fun next heq => hrun ⟨next, heq⟩) hlost

-- By induction on the statements left: the row is there, so each of them but a lock goes through at once.
theorem Late.finishes_running {txn : Txn D E} (h : Late delivery d i s)
    (hfree : s.free i delivery.key = true) (hx : s.sessions.find i = some x)
    (hphase : x.phase = .running txn) : s.Finishes i := by
  induction txn generalizing s x with
  | finish result => exact h.finishes_onward hfree hx hphase (by simp [Txn.onward])
  | select next ih =>
    refine h.finishes_onward hfree hx hphase ?_
    rintro _ ⟨⟩ t y hlate hfree' hy hrun
    exact ih (some d) hlate hfree' hy hrun
  | selectForUpdate next ih =>
    refine h.finishes_onward hfree hx hphase ?_
    rintro _ ⟨⟩ t y hlate hfree' hy hrun
    exact ih (some d) hlate hfree' hy hrun
  | mutate next ih => exact h.finishes_onward hfree hx hphase (by simp [Txn.onward])
  | insert next ih => exact h.finishes_onward hfree hx hphase (by simp [Txn.onward])

theorem Late.finishes (h : Late delivery d i s) (hfree : s.free i delivery.key = true)
    (hx : s.sessions.find i = some x) (hlost : x.phase ≠ .lost) : s.Finishes i := by
  by_cases hrun : ∃ txn, x.phase = .running txn
  · obtain ⟨txn, hrun⟩ := hrun
    exact h.finishes_running hfree hx hrun
  · exact .of_idle hx (fun txn heq => hrun ⟨txn, heq⟩) hlost

theorem Store.reaches_drive (s : Store K D E B) (i : Nat) (outcome : Except E (B → B)) (n : Nat) :
    Reaches Store.step (fun _ action => Starts action) s (s.drive i outcome n) := by
  induction n generalizing s with
  | zero => exact .refl
  | succ n ih => exact .head ⟨.advance i outcome, trivial, rfl⟩ (ih _)

end Progress

-- A delivery that starts once the row is there neither writes nor runs its mutation, and replies so.
structure Replies (delivery : Delivery K D E) (result : Except E Bool) (i : Nat) (s : Store K D E B) :
    Prop where
  silent : ∃ x, s.sessions.find i = some x ∧ x.delivery = delivery ∧ x.raised = false ∧
    x.inserted = false ∧ x.effect = none
  unlogged : ∀ c ∈ s.log, c.session ≠ i
  reply : ∀ x result', s.sessions.find i = some x → x.phase = .done result' → result' = result
  returns : ∀ x outcome, s.sessions.find i = some x → x.phase ≠ .lost → s.free i delivery.key = true →
    ∃ n y, (s.drive i outcome n).sessions.find i = some y ∧ y.phase = .done result

theorem Late.replies {start s : Store K D E B} {i : Nat} {delivery : Delivery K D E} {d : D}
    (h : Late delivery d i s) (hconsistent : Consistent start s) :
    Replies delivery (delivery.answer d) i s := by
  obtain ⟨x, hx, hsilent⟩ := h.silent
  refine ⟨⟨x, hx, hsilent.delivery, hsilent.raised, hsilent.inserted, hsilent.effect⟩, h.unlogged,
    fun y result hy hdone => h.answers hconsistent hy hdone, ?_⟩
  intro y outcome hy hlost hfree
  obtain ⟨n, z, result, hz, hdone⟩ := h.finishes hfree hy hlost outcome
  have hreaches := s.reaches_drive i outcome n
  have hreply := (h.run hconsistent hreaches).answers (hconsistent.run hreaches) hz hdone
  exact ⟨n, z, hz, hreply ▸ hdone⟩

section Serve

variable {P : Action K D E B → Prop} {start s s' : Store K D E B} {i : Nat} {delivery : Delivery K D E}
  {d : D}

theorem Consistent.serve (hP : ∀ action, P action → Starts action)
    (hsessions : start.sessions = Table.empty) (hlog : start.log = [])
    (hrun : Reaches Store.step (fun _ action => P action) start s) :
    Consistent start s :=
  (Consistent.of_quiet hsessions hlog).run (hrun.widen fun _ action => hP action)

theorem Consistent.replies (hP : ∀ action, P action → Starts action) (h : Consistent start s)
    (hsound : delivery.Sound) (hnew : s.sessions.find i = none)
    (hrow : s.processed.find delivery.key = some d)
    (hrun : Reaches Store.step (fun _ action => P action) (s.step (.start i delivery)) s') :
    Replies delivery (delivery.answer d) i s' := by
  have hstarted : Consistent start (s.step (.start i delivery)) := h.step hsound
  have hrun' : Reaches Store.step (fun _ action => Starts action) (s.step (.start i delivery)) s' :=
    hrun.widen fun _ action => hP action
  exact ((Late.started h hnew hrow hsound).run hstarted hrun').replies (hstarted.run hrun')

end Serve

end Relational.Inbox
