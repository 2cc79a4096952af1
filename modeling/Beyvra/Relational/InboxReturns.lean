import Beyvra.Relational.Inbox

namespace Relational.Inbox

variable {K D E B : Type} [DecidableEq K]

-- The handler of an error returns only where it finds the row of the delivery.
def Delivery.Demanding (x : Delivery K D E) : Prop :=
  ∀ e handler b, x.recover e = some handler → handler none ≠ .ok b

-- What a run keeps of the errors its sessions handle and of the answers they have returned
structure Returns (s : Store K D E B) : Prop where
  demands : ∀ i x, s.sessions.find i = some x → x.delivery.Demanding
  handles : ∀ i x handler, s.sessions.find i = some x → x.phase = .recovering handler → ∃ e, x.delivery.recover e = some handler
  returned : ∀ i x b, s.sessions.find i = some x → x.phase = .done (.ok b) → (s.processed.find x.key).isSome = true

section Local

variable {s : Store K D E B} {i j : Nat} {x y : Session K D E B} {action : Action K D E B} {k : K} {d : D}

omit [DecidableEq K] in
theorem Session.fail_delivery (x : Session K D E B) (e : E) : (x.fail e).delivery = x.delivery := by
  unfold Session.fail
  cases x.delivery.recover e <;> rfl

omit [DecidableEq K] in
theorem Session.fail_phase (x : Session K D E B) (e : E) :
    (∃ handler, x.delivery.recover e = some handler ∧ (x.fail e).phase = .recovering handler) ∨
      x.delivery.recover e = none ∧ (x.fail e).phase = .done (.error e) := by
  unfold Session.fail
  cases hrecover : x.delivery.recover e with
  | none => exact .inr ⟨rfl, rfl⟩
  | some handler => exact .inl ⟨handler, rfl, rfl⟩

-- What one step leaves in the session it is about; its mutation raises no error but the given ones.
inductive Turn (raised : E → Prop) (s : Store K D E B) (i : Nat) : Store K D E B → Prop
  | idle : Turn raised s i s
  | runs (x x' : Session K D E B) (txn : Txn D E) (hx : s.sessions.find i = some x)
      (hdelivery : x'.delivery = x.delivery) (hphase : x'.phase = .running txn) : Turn raised s i (s.save i x')
  | fails (x y : Session K D E B) (e : E) (hx : s.sessions.find i = some x) (hdelivery : y.delivery = x.delivery)
      (hcause : raised e ∨ e = x.delivery.duplicate ∨ x.phase = .running (.finish (.error e))) :
      Turn raised s i (s.save i (y.fail e))
  | recovers (x : Session K D E B) (handler : Option D → Except E Bool) (hx : s.sessions.find i = some x)
      (hphase : x.phase = .recovering handler) : Turn raised s i (s.save i (x.ends (.done (handler (s.stored x)))))
  | commits (x : Session K D E B) (result : Bool) (hx : s.sessions.find i = some x)
      (hphase : x.phase = .running (.finish (.ok result))) : Turn raised s i (s.commit i x result)
  | leaves (x : Session K D E B) (hx : s.sessions.find i = some x) : Turn raised s i (s.save i (x.ends .lost))

theorem Turn.of_execute (hx : s.sessions.find i = some x) (outcome : Except E (B → B)) {txn : Txn D E}
    (hphase : x.phase = .running txn) : Turn (outcome = .error ·) s i (s.execute i x outcome txn) := by
  cases txn with
  | finish result =>
    cases result with
    | ok b => exact .commits x b hx hphase
    | error e => exact .fails x x e hx rfl (.inr (.inr hphase))
  | select next => exact .runs x _ _ hx rfl rfl
  | selectForUpdate next =>
    simp only [Store.execute]
    cases s.visible x with
    | none => exact .runs x _ _ hx rfl rfl
    | some row =>
      dsimp only
      split
      · exact .runs x _ _ hx rfl rfl
      · exact .idle
  | mutate next =>
    cases outcome with
    | ok f => exact .runs x _ _ hx rfl rfl
    | error e => exact .fails x _ e hx rfl (.inl rfl)
  | insert next =>
    simp only [Store.execute]
    split
    · exact .fails x x _ hx rfl (.inr (.inl rfl))
    · split
      · exact .idle
      · exact .runs x _ _ hx rfl rfl

theorem turn_advance (s : Store K D E B) (i : Nat) (outcome : Except E (B → B)) :
    Turn (outcome = .error ·) s i (s.step (.advance i outcome)) := by
  simp only [Store.step]
  cases hx : s.sessions.find i with
  | none => exact .idle
  | some x =>
    simp only [Store.perform]
    cases hphase : x.phase with
    | running txn => exact .of_execute hx outcome hphase
    | recovering handler => exact .recovers x handler hx hphase
    | done result => exact .idle
    | lost => exact .idle

theorem turn_abandon (s : Store K D E B) (i : Nat) : Turn (fun _ => False) s i (s.step (.abandon i)) := by
  simp only [Store.step]
  cases hx : s.sessions.find i with
  | none => exact .idle
  | some x =>
    dsimp only
    cases x.phase with
    | done result => exact .idle
    | _ => exact .leaves x hx

theorem Store.step_start (hnew : s.sessions.find i = none) (delivery : Delivery K D E) :
    s.step (.start i delivery) = s.save i { delivery, phase := .running delivery.body } := by
  simp only [Store.step, hnew, Option.isNone_none, if_true]

-- A step writes the session it is about; the others and the rows of other keys stay.
structure Turn.Writes (s : Store K D E B) (i : Nat) (s' : Store K D E B) : Prop where
  session : ∀ j y, s'.sessions.find j = some y → ∃ x, s.sessions.find j = some x ∧ y.delivery = x.delivery
  others : ∀ j, j ≠ i → s'.sessions.find j = s.sessions.find j
  row : ∀ k d, s'.processed.find k = some d → s.processed.find k = some d ∨
    ∃ x, s.sessions.find i = some x ∧ k = x.key ∧ d = x.delivery.row

theorem Turn.Writes.of_save (hx : s.sessions.find i = some x) (hdelivery : y.delivery = x.delivery) :
    Turn.Writes s i (s.save i y) where
  session j z hz := by
    rcases Table.find_put_cases hz with ⟨rfl, rfl⟩ | ⟨-, hold⟩
    · exact ⟨x, hx, hdelivery⟩
    · exact ⟨z, hold, rfl⟩
  others j hj := Table.find_put_of_ne _ _ hj
  row k d hd := .inl hd

theorem Turn.writes {raised : E → Prop} {s' : Store K D E B} (h : Turn raised s i s') : Turn.Writes s i s' := by
  cases h with
  | idle => exact ⟨fun j y hy => ⟨y, hy, rfl⟩, fun j _ => rfl, fun k d hd => .inl hd⟩
  | runs x x' txn hx hdelivery hphase => exact .of_save hx hdelivery
  | fails x y e hx hdelivery hcause => exact .of_save hx ((y.fail_delivery e).trans hdelivery)
  | recovers x handler hx hphase => exact .of_save hx rfl
  | leaves x hx => exact .of_save hx rfl
  | commits x result hx hphase =>
    have hwrites := Turn.Writes.of_save hx (show (x.ends (.done (.ok result))).delivery = x.delivery from rfl)
    refine ⟨hwrites.session, hwrites.others, fun k d hd => ?_⟩
    unfold Store.commit at hd
    dsimp only at hd
    split at hd
    · rcases Table.find_put_cases hd with ⟨rfl, rfl⟩ | ⟨-, hold⟩
      · exact .inr ⟨x, hx, rfl, rfl⟩
      · exact .inl hold
    · exact .inl hd

theorem Store.commit_isSome (hfits : Fits s.processed s.log i x) {result : Bool}
    (hphase : x.phase = .running (.finish (.ok result))) :
    ((s.commit i x result).processed.find x.key).isSome = true := by
  obtain ⟨-, hleads⟩ := hfits.running _ hphase
  unfold Store.commit
  dsimp only
  rcases hleads with ⟨-, -, hinserted⟩ | ⟨-, hinserted, d, hd, -⟩
  · rw [if_pos hinserted, Table.find_put_self]
    rfl
  · rw [if_neg (by simp [hinserted]), hd]
    rfl

end Local

section Run

variable {start s s' : Store K D E B} {i : Nat} {delivery : Delivery K D E} {raised : E → Prop} {e : E}

theorem Returns.opens (h : Returns s) (hnew : s.sessions.find i = none) (hdemanding : delivery.Demanding) :
    Returns (s.step (.start i delivery)) := by
  rw [Store.step_start hnew]
  refine ⟨fun j y hy => ?_, fun j y handler hy hphase => ?_, fun j y b hy hphase => ?_⟩
  · rcases Table.find_put_cases hy with ⟨-, rfl⟩ | ⟨-, hold⟩
    · exact hdemanding
    · exact h.demands j y hold
  · rcases Table.find_put_cases hy with ⟨-, rfl⟩ | ⟨-, hold⟩
    · cases hphase
    · exact h.handles j y handler hold hphase
  · rcases Table.find_put_cases hy with ⟨-, rfl⟩ | ⟨-, hold⟩
    · cases hphase
    · exact h.returned j y b hold hphase

-- A session that is put in a phase of its own keeps what the others have returned.
theorem Returns.save {x y : Session K D E B} (h : Returns s) (hx : s.sessions.find i = some x)
    (hdelivery : y.delivery = x.delivery)
    (hhandles : ∀ handler, y.phase = .recovering handler → ∃ e, x.delivery.recover e = some handler)
    (hreturned : ∀ b, y.phase = .done (.ok b) → (s.processed.find x.key).isSome = true) : Returns (s.save i y) := by
  refine ⟨fun j z hz => ?_, fun j z handler hz hphase => ?_, fun j z b hz hphase => ?_⟩
  · rcases Table.find_put_cases hz with ⟨-, rfl⟩ | ⟨-, hold⟩
    · exact hdelivery ▸ h.demands i x hx
    · exact h.demands j z hold
  · rcases Table.find_put_cases hz with ⟨-, rfl⟩ | ⟨-, hold⟩
    · exact hdelivery ▸ hhandles handler hphase
    · exact h.handles j z handler hold hphase
  · rcases Table.find_put_cases hz with ⟨-, rfl⟩ | ⟨-, hold⟩
    · unfold Session.key at *
      rw [hdelivery]
      exact hreturned b hphase
    · exact h.returned j z b hold hphase

theorem Returns.turn (h : Returns s) (hconsistent : Consistent start s) (hturn : Turn raised s i s') : Returns s' := by
  cases hturn with
  | idle => exact h
  | runs x x' txn hx hdelivery hphase =>
    refine h.save hx hdelivery (fun handler hrecovering => ?_) fun b hdone => ?_
    · rw [hphase] at hrecovering
      cases hrecovering
    · rw [hphase] at hdone
      cases hdone
  | fails x y e hx hdelivery hcause =>
    refine h.save hx ((y.fail_delivery e).trans hdelivery) (fun handler hrecovering => ?_) fun b hdone => ?_
    · rcases y.fail_phase e with ⟨handler', hrecover, hphase⟩ | ⟨-, hphase⟩
      · rw [hphase] at hrecovering
        obtain rfl := Phase.recovering.inj hrecovering
        exact ⟨e, hdelivery ▸ hrecover⟩
      · rw [hphase] at hrecovering
        cases hrecovering
    · rcases y.fail_phase e with ⟨handler', -, hphase⟩ | ⟨-, hphase⟩
      · rw [hphase] at hdone
        cases hdone
      · rw [hphase] at hdone
        cases hdone
  | recovers x handler hx hphase =>
    refine h.save hx rfl (fun handler' hrecovering => by cases hrecovering) fun b hdone => ?_
    have hanswer : handler (s.processed.find x.key) = .ok b := Phase.done.inj hdone
    obtain ⟨e, hrecover⟩ := h.handles i x handler hx hphase
    cases hrow : s.processed.find x.key with
    | none => exact absurd (hrow ▸ hanswer) (h.demands i x hx e handler b hrecover)
    | some d => rfl
  | leaves x hx =>
    exact h.save hx rfl (fun handler' hrecovering => by cases hrecovering) fun b hdone => by cases hdone
  | commits x result hx hphase =>
    have hgrows (k : K) (hk : (s.processed.find k).isSome = true) :
        ((s.commit i x result).processed.find k).isSome = true := by
      unfold Store.commit
      dsimp only
      split
      · rw [Table.find_put]
        split
        · rfl
        · exact hk
      · exact hk
    refine ⟨fun j y hy => ?_, fun j y handler hy hrecovering => ?_, fun j y b hy hdone => ?_⟩
    · rcases Table.find_put_cases hy with ⟨-, rfl⟩ | ⟨-, hold⟩
      · exact h.demands i x hx
      · exact h.demands j y hold
    · rcases Table.find_put_cases hy with ⟨-, rfl⟩ | ⟨-, hold⟩
      · cases hrecovering
      · exact h.handles j y handler hold hrecovering
    · rcases Table.find_put_cases hy with ⟨-, rfl⟩ | ⟨-, hold⟩
      · exact Store.commit_isSome (hconsistent.fits i x hx) hphase
      · exact hgrows _ (h.returned j y b hold hdone)

def Store.EndsWithout (s : Store K D E B) (e : E) : Prop := ∀ i x, s.sessions.find i = some x → x.phase ≠ .done (.error e)

omit [DecidableEq K] in
theorem Store.EndsWithout.save {x : Session K D E B} (h : s.EndsWithout e) (hx : x.phase ≠ .done (.error e)) :
    (s.save i x).EndsWithout e := by
  intro j y hy
  rcases Table.find_put_cases hy with ⟨-, rfl⟩ | ⟨-, hold⟩
  · exact hx
  · exact h j y hold

-- An error that the mutation does not raise, and that no row and no handler answers with, ends no session.
theorem Store.EndsWithout.turn (h : s.EndsWithout e) (hconsistent : Consistent start s) (hreturns : Returns s)
    (hturn : Turn raised s i s') (hraised : ¬raised e)
    (hanswer : ∀ x d, s.sessions.find i = some x → s.processed.find x.key = some d → x.delivery.answer d ≠ .error e)
    (hhandler : ∀ x e' handler, s.sessions.find i = some x → x.delivery.recover e' = some handler →
      handler (s.processed.find x.key) ≠ .error e) : s'.EndsWithout e := by
  cases hturn with
  | idle => exact h
  | runs x x' txn hx hdelivery hphase => exact h.save (by simp [hphase])
  | fails x y e' hx hdelivery hcause =>
    refine h.save fun hdone => ?_
    rcases y.fail_phase e' with ⟨handler, -, hphase⟩ | ⟨hescapes, hphase⟩
    · rw [hphase] at hdone
      cases hdone
    · rw [hphase] at hdone
      obtain rfl : e' = e := Except.error.inj (Phase.done.inj hdone)
      rcases hcause with hcause | rfl | hphase
      · exact hraised hcause
      · have hloses := (hconsistent.fits i x hx).sound.loses
        rw [hdelivery] at hescapes
        rw [hescapes] at hloses
        cases hloses
      · obtain ⟨-, ⟨hok, -⟩ | ⟨-, -, d, hd, hresult⟩⟩ := (hconsistent.fits i x hx).running _ hphase
        · cases hok
        · exact hanswer x d hx hd hresult.symm
  | recovers x handler hx hphase =>
    obtain ⟨e', hrecover⟩ := hreturns.handles i x handler hx hphase
    exact h.save fun hdone => hhandler x e' handler hx hrecover (Phase.done.inj hdone)
  | commits x result hx hphase =>
    intro j y hy
    rcases Table.find_put_cases hy with ⟨-, rfl⟩ | ⟨-, hold⟩
    · intro hdone
      cases hdone
    · exact h j y hold
  | leaves x hx =>
    refine h.save fun hdone => ?_
    cases hdone

end Run

end Relational.Inbox
