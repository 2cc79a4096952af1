import Mathlib.Data.List.Count
import Mathlib.Data.List.Nodup
import Beyvra.Relational.Transaction

namespace Relational.Inbox

-- The statements of a delivery, all of them on the row of the delivery's own key.
inductive Txn (D E : Type) where
  | finish (result : Except E Bool)
  | select (next : Option D → Txn D E)
  | selectForUpdate (next : Option D → Txn D E)
  | mutate (next : Txn D E)
  | insert (next : Txn D E)

structure Delivery (K D E : Type) where
  key : K
  row : D
  body : Txn D E
  -- What the unique constraint raises, and which errors the caller of the transaction handles.
  duplicate : E
  recover : E → Option (Option D → Except E Bool)

inductive Phase (D E : Type) where
  | running (txn : Txn D E)
  | recovering (handler : Option D → Except E Bool)
  | done (result : Except E Bool)
  | lost

structure Session (K D E B : Type) where
  delivery : Delivery K D E
  phase : Phase D E
  inserted : Bool := false
  effect : Option (B → B) := none
  locked : Bool := false
  raised : Bool := false

structure Entry (K B : Type) where
  session : Nat
  key : K
  effect : B → B

structure Store (K D E B : Type) where
  business : B
  processed : Table K D := Table.empty
  sessions : Table Nat (Session K D E B) := Table.empty
  log : List (Entry K B) := []

inductive Action (K D E B : Type) where
  | start (i : Nat) (delivery : Delivery K D E)
  | advance (i : Nat) (outcome : Except E (B → B))
  | abandon (i : Nat)

variable {K D E B : Type} [DecidableEq K]

namespace Session

def ends (x : Session K D E B) (phase : Phase D E) : Session K D E B :=
  { x with phase, inserted := false, effect := none, locked := false }

def fail (x : Session K D E B) (e : E) : Session K D E B :=
  match x.delivery.recover e with
  | some handler => x.ends (.recovering handler)
  | none => x.ends (.done (.error e))

def key (x : Session K D E B) : K := x.delivery.key

end Session

namespace Store

def stored (s : Store K D E B) (x : Session K D E B) : Option D := s.processed.find x.key

def visible (s : Store K D E B) (x : Session K D E B) : Option D :=
  if x.inserted then some x.delivery.row else s.stored x

def free (s : Store K D E B) (i : Nat) (k : K) : Bool :=
  s.sessions.rows.all fun p => p.1 = i || !(p.2.locked && p.2.key = k)

def claimed (s : Store K D E B) (i : Nat) (k : K) : Bool :=
  s.sessions.rows.any fun p => p.1 ≠ i && p.2.inserted && p.2.key = k

def save (s : Store K D E B) (i : Nat) (x : Session K D E B) : Store K D E B :=
  { s with sessions := s.sessions.put i x }

def commit (s : Store K D E B) (i : Nat) (x : Session K D E B) (result : Bool) : Store K D E B where
  business := (x.effect.getD id) s.business
  processed := if x.inserted then s.processed.put x.key x.delivery.row else s.processed
  sessions := s.sessions.put i (x.ends (.done (.ok result)))
  log := s.log ++ (x.effect.map (Entry.mk i x.key)).toList

-- A statement that needs what another session holds waits: the session stays where it is.
def execute (s : Store K D E B) (i : Nat) (x : Session K D E B) (outcome : Except E (B → B)) :
    Txn D E → Store K D E B
  | .finish (.ok result) => s.commit i x result
  | .finish (.error e) => s.save i (x.fail e)
  | .select next => s.save i { x with phase := .running (next (s.visible x)) }
  | .selectForUpdate next =>
    match s.visible x with
    | none => s.save i { x with phase := .running (next none) }
    | some row =>
      if s.free i x.key then s.save i { x with phase := .running (next (some row)), locked := true }
      else s
  | .mutate next =>
    match outcome with
    | .ok f => s.save i { x with phase := .running next, effect := some (f ∘ x.effect.getD id) }
    | .error e => s.save i ({ x with raised := true }.fail e)
  | .insert next =>
    if (s.visible x).isSome then s.save i (x.fail x.delivery.duplicate)
    else if s.claimed i x.key then s
    else s.save i { x with phase := .running next, inserted := true }

def perform (s : Store K D E B) (i : Nat) (x : Session K D E B) (outcome : Except E (B → B)) :
    Store K D E B :=
  match x.phase with
  | .running txn => s.execute i x outcome txn
  | .recovering handler => s.save i (x.ends (.done (handler (s.stored x))))
  | .done _ => s
  | .lost => s

def step (s : Store K D E B) : Action K D E B → Store K D E B
  | .start i delivery =>
    if (s.sessions.find i).isNone then s.save i { delivery, phase := .running delivery.body } else s
  | .advance i outcome =>
    match s.sessions.find i with
    | none => s
    | some x => s.perform i x outcome
  | .abandon i =>
    match s.sessions.find i with
    | none => s
    | some x =>
      match x.phase with
      | .done _ => s
      | _ => s.save i (x.ends .lost)

end Store

-- What a delivery comes to: the one that commits the row answers true, the others answer from the row.
def Txn.Leads (answer : D → Except E Bool) : Txn D E → Option D → Bool → Bool → Prop
  | .finish result, row, mutated, inserted =>
    (result = .ok true ∧ mutated = true ∧ inserted = true) ∨
      (mutated = false ∧ inserted = false ∧ ∃ d, row = some d ∧ result = answer d)
  | .select next, row, mutated, inserted => inserted = false ∧
    ∀ row', (∀ d, row = some d → row' = some d) → (next row').Leads answer row' mutated inserted
  | .selectForUpdate next, row, mutated, inserted => inserted = false ∧
    ∀ row', (∀ d, row = some d → row' = some d) → (next row').Leads answer row' mutated inserted
  | .mutate next, row, mutated, inserted => mutated = false ∧ next.Leads answer row true inserted
  | .insert next, row, mutated, inserted => inserted = false ∧ next.Leads answer row mutated true

def Txn.Quiet (d : D) : Txn D E → Prop
  | .finish _ => True
  | .select next => (next (some d)).Quiet d
  | .selectForUpdate next => (next (some d)).Quiet d
  | .mutate _ => False
  | .insert _ => True

-- What the loser of the insert makes of the winner's row.
def Delivery.answer (x : Delivery K D E) (d : D) : Except E Bool :=
  match x.recover x.duplicate with
  | some handler => handler (some d)
  | none => .error x.duplicate

structure Delivery.Sound (x : Delivery K D E) : Prop where
  leads : ∀ row, x.body.Leads x.answer row false false
  quiet : ∀ d, x.body.Quiet d
  escapes : ∀ d e, x.answer d = .error e → x.recover e = none
  loses : (x.recover x.duplicate).isSome = true
  harmless : ∀ e handler row, x.recover e = some handler → handler row ≠ .ok true

def Action.session : Action K D E B → Nat
  | .start i _ => i
  | .advance i _ => i
  | .abandon i => i

def Starts : Action K D E B → Prop
  | .start _ delivery => delivery.Sound
  | _ => True

omit [DecidableEq K] in
theorem Delivery.Sound.declines {x : Delivery K D E} (h : x.Sound) (d : D) : x.answer d ≠ .ok true := by
  obtain ⟨handler, hrecover⟩ := Option.isSome_iff_exists.mp h.loses
  unfold Delivery.answer
  rw [hrecover]
  exact h.harmless x.duplicate handler (some d) hrecover

section Frame

variable {s : Store K D E B} {i j : Nat} {x : Session K D E B} {action : Action K D E B}

theorem Store.free_iff {k : K} : s.free i k = true ↔
    ∀ j y, s.sessions.find j = some y → y.locked = true → y.key = k → j = i := by
  simp only [Store.free, List.all_eq_true, Bool.or_eq_true, decide_eq_true_eq, Bool.not_eq_true',
    Bool.and_eq_false_iff, decide_eq_false_iff_not]
  constructor
  · intro h j y hy hlocked hkey
    rcases h (j, y) (Table.mem_rows_iff.mpr hy) with hj | hfree | hother
    · exact hj
    · simp [hlocked] at hfree
    · exact absurd hkey hother
  · intro h p hp
    by_cases hlocked : p.2.locked = true
    · by_cases hkey : p.2.key = k
      · exact .inl (h p.1 p.2 (Table.mem_rows_iff.mp hp) hlocked hkey)
      · exact .inr (.inr hkey)
    · exact .inr (.inl (by simpa using hlocked))

theorem Store.not_claimed {k : K} (h : s.claimed i k = false) {j : Nat} {y : Session K D E B}
    (hy : s.sessions.find j = some y) (hinserted : y.inserted = true) (hkey : y.key = k) : j = i := by
  by_contra hne
  have hclaimed : s.claimed i k = true :=
    List.any_eq_true.mpr ⟨(j, y), Table.mem_rows_iff.mpr hy, by simp [hne, hinserted, hkey]⟩
  simp [hclaimed] at h

theorem Store.commit_idle (hinserted : x.inserted = false) (heffect : x.effect = none) (result : Bool) :
    s.commit i x result = s.save i (x.ends (.done (.ok result))) := by
  simp [Store.commit, Store.save, hinserted, heffect]

theorem Store.execute_cases (s : Store K D E B) (i : Nat) (x : Session K D E B)
    (outcome : Except E (B → B)) (txn : Txn D E) :
    s.execute i x outcome txn = s ∨ (∃ x', s.execute i x outcome txn = s.save i x') ∨
      ∃ result, s.execute i x outcome txn = s.commit i x result := by
  cases txn with
  | finish result =>
    cases result with
    | ok b => exact .inr (.inr ⟨b, rfl⟩)
    | error e => exact .inr (.inl ⟨_, rfl⟩)
  | select next => exact .inr (.inl ⟨_, rfl⟩)
  | selectForUpdate next =>
    simp only [Store.execute]
    cases s.visible x with
    | none => exact .inr (.inl ⟨_, rfl⟩)
    | some d =>
      dsimp only
      split
      · exact .inr (.inl ⟨_, rfl⟩)
      · exact .inl rfl
  | mutate next => cases outcome <;> exact .inr (.inl ⟨_, rfl⟩)
  | insert next =>
    simp only [Store.execute]
    split
    · exact .inr (.inl ⟨_, rfl⟩)
    · split
      · exact .inl rfl
      · exact .inr (.inl ⟨_, rfl⟩)

theorem Store.step_cases (s : Store K D E B) (action : Action K D E B) :
    s.step action = s ∨ (∃ x', s.step action = s.save action.session x') ∨
      ∃ x result, s.sessions.find action.session = some x ∧
        s.step action = s.commit action.session x result := by
  cases action with
  | start i delivery =>
    simp only [Store.step, Action.session]
    split
    · exact .inr (.inl ⟨_, rfl⟩)
    · exact .inl rfl
  | advance i outcome =>
    simp only [Store.step, Action.session]
    cases hx : s.sessions.find i with
    | none => exact .inl rfl
    | some x =>
      simp only [Store.perform]
      cases x.phase with
      | running txn =>
        rcases s.execute_cases i x outcome txn with hsame | ⟨x', hsave⟩ | ⟨result, hcommit⟩
        · exact .inl hsame
        · exact .inr (.inl ⟨x', hsave⟩)
        · exact .inr (.inr ⟨x, result, rfl, hcommit⟩)
      | recovering handler => exact .inr (.inl ⟨_, rfl⟩)
      | done result => exact .inl rfl
      | lost => exact .inl rfl
  | abandon i =>
    simp only [Store.step, Action.session]
    cases s.sessions.find i with
    | none => exact .inl rfl
    | some x =>
      dsimp only
      cases x.phase with
      | done result => exact .inl rfl
      | _ => exact .inr (.inl ⟨_, rfl⟩)

theorem Store.step_sessions (s : Store K D E B) (hne : j ≠ action.session) :
    (s.step action).sessions.find j = s.sessions.find j := by
  rcases s.step_cases action with hsame | ⟨x', hsave⟩ | ⟨x, result, -, hcommit⟩
  · rw [hsame]
  · rw [hsave]
    exact Table.find_put_of_ne _ _ hne
  · rw [hcommit]
    exact Table.find_put_of_ne _ _ hne

theorem Store.step_log (s : Store K D E B) {c : Entry K B} (hc : c ∈ (s.step action).log) :
    c ∈ s.log ∨ c.session = action.session := by
  rcases s.step_cases action with hsame | ⟨x', hsave⟩ | ⟨x, result, -, hcommit⟩
  · exact .inl (hsame ▸ hc)
  · rw [hsave] at hc
    exact .inl hc
  · rw [hcommit] at hc
    simp only [Store.commit, List.mem_append, Option.mem_toList, Option.map_eq_some_iff] at hc
    rcases hc with hold | ⟨f, -, rfl⟩
    · exact .inl hold
    · exact .inr rfl

end Frame

section Alone

variable {s : Store K D E B} {i : Nat} {x : Session K D E B}

omit [DecidableEq K] in
theorem Store.save_save (s : Store K D E B) (i : Nat) (x y : Session K D E B) :
    (s.save i x).save i y = s.save i y := by
  unfold Store.save
  rw [Table.put_put]

theorem Store.advance_save (s : Store K D E B) (i : Nat) (x : Session K D E B)
    (outcome : Except E (B → B)) :
    (s.save i x).step (.advance i outcome) = (s.save i x).perform i x outcome := by
  have hfind : (s.save i x).sessions.find i = some x := Table.find_put_self _ _ _
  simp only [Store.step, hfind]

theorem Store.free_alone (h : s.sessions = Table.empty) (k : K) : (s.save i x).free i k = true := by
  refine Store.free_iff.mpr ?_
  intro j y hy _ _
  rcases Table.find_put_cases hy with ⟨hj, -⟩ | ⟨-, hold⟩
  · exact hj
  · simp [h] at hold

theorem Store.unclaimed_alone (h : s.sessions = Table.empty) (k : K) : (s.save i x).claimed i k = false := by
  refine List.any_eq_false.mpr ?_
  rintro ⟨j, y⟩ hy
  rcases Table.find_put_cases (Table.mem_rows_iff.mp hy) with ⟨hj, -⟩ | ⟨-, hold⟩
  · simp [hj]
  · simp [h] at hold

end Alone

end Relational.Inbox

namespace Relational.Inbox

variable {K D E B : Type} [DecidableEq K]

structure Fits (processed : Table K D)
    (log : List (Entry K B)) (i : Nat) (x : Session K D E B) : Prop where
  sound : x.delivery.Sound
  running : ∀ txn, x.phase = .running txn → x.raised = false ∧
    txn.Leads x.delivery.answer (processed.find x.key) x.effect.isSome x.inserted
  idle : (∀ txn, x.phase ≠ .running txn) → x.inserted = false ∧ x.effect = none
  recovering : ∀ handler, x.phase = .recovering handler → (∀ row, handler row ≠ .ok true) ∧
    (x.raised = false →
      ∃ d, processed.find x.key = some d ∧ handler (some d) = x.delivery.answer d)
  done : ∀ result, x.phase = .done result →
    (result = .ok true ∧ x.raised = false ∧ ∃ f, ⟨i, x.key, f⟩ ∈ log) ∨
      (result ≠ .ok true ∧ (x.raised = false →
        ∃ d, processed.find x.key = some d ∧ result = x.delivery.answer d))
  fresh : x.inserted = true → processed.find x.key = none

structure Consistent (start s : Store K D E B) : Prop where
  fits : ∀ i x, s.sessions.find i = some x → Fits s.processed s.log i x
  exclusive : ∀ i j x y, s.sessions.find i = some x → s.sessions.find j = some y →
    x.inserted = true → y.inserted = true → x.key = y.key → i = j
  logged : ∀ c ∈ s.log, ∃ x, s.sessions.find c.session = some x ∧ x.key = c.key ∧
    x.phase = .done (.ok true) ∧ s.processed.find c.key = some x.delivery.row
  once : (s.log.map (·.key)).Nodup
  rows : ∀ k, (s.processed.find k).isSome ↔
    (start.processed.find k).isSome ∨ k ∈ s.log.map (·.key)
  kept : ∀ k d, start.processed.find k = some d →
    s.processed.find k = some d ∧ k ∉ s.log.map (·.key)
  business : s.business = s.log.foldl (fun b c => c.effect b) start.business

section Local

variable {processed processed' : Table K D}
  {log log' : List (Entry K B)} {i : Nat} {x : Session K D E B}

omit [DecidableEq K] in
theorem Txn.Leads.mono {f : D → Except E Bool} {txn : Txn D E} {row row' : Option D}
    {mutated inserted : Bool} (h : txn.Leads f row mutated inserted)
    (hrow : ∀ d, row = some d → row' = some d) : txn.Leads f row' mutated inserted := by
  induction txn generalizing mutated inserted with
  | finish result =>
    rcases h with hwon | ⟨hm, hi, d, hd, hresult⟩
    · exact .inl hwon
    · exact .inr ⟨hm, hi, d, hrow d hd, hresult⟩
  | select next ih => exact ⟨h.1, fun row'' hrow' => h.2 row'' fun d hd => hrow' d (hrow d hd)⟩
  | selectForUpdate next ih => exact ⟨h.1, fun row'' hrow' => h.2 row'' fun d hd => hrow' d (hrow d hd)⟩
  | mutate next ih => exact ⟨h.1, ih h.2⟩
  | insert next ih => exact ⟨h.1, ih h.2⟩

theorem Fits.mono (h : Fits processed log i x)
    (hgrows : ∀ d, processed.find x.key = some d → processed'.find x.key = some d)
    (hlog : ∀ c ∈ log, c ∈ log') (hfresh : x.inserted = true → processed'.find x.key = none) :
    Fits processed' log' i x where
  sound := h.sound
  running txn htxn := ⟨(h.running txn htxn).1, (h.running txn htxn).2.mono hgrows⟩
  idle := h.idle
  recovering handler hphase := by
    obtain ⟨hharmless, hrow⟩ := h.recovering handler hphase
    refine ⟨hharmless, fun hraised => ?_⟩
    obtain ⟨d, hd, hanswer⟩ := hrow hraised
    exact ⟨d, hgrows d hd, hanswer⟩
  done result hphase := by
    rcases h.done result hphase with ⟨hwon, hraised, f, hf⟩ | ⟨hlost, hrow⟩
    · exact .inl ⟨hwon, hraised, f, hlog _ hf⟩
    · refine .inr ⟨hlost, fun hraised => ?_⟩
      obtain ⟨d, hd, hanswer⟩ := hrow hraised
      exact ⟨d, hgrows d hd, hanswer⟩
  fresh := hfresh

theorem Fits.continues {txn : Txn D E} (hsound : x.delivery.Sound)
    (hphase : x.phase = .running txn) (hraised : x.raised = false)
    (hleads : txn.Leads x.delivery.answer (processed.find x.key) x.effect.isSome x.inserted)
    (hfresh : x.inserted = true → processed.find x.key = none) : Fits processed log i x where
  sound := hsound
  running txn' htxn' := by
    obtain rfl : txn = txn' := Phase.running.inj (hphase.symm.trans htxn')
    exact ⟨hraised, hleads⟩
  idle hidle := absurd hphase (hidle txn)
  recovering handler hrecovering := by simp [hphase] at hrecovering
  done result hdone := by simp [hphase] at hdone
  fresh := hfresh

theorem Fits.over {result : Except E Bool} (hsound : x.delivery.Sound)
    (hdone : (result = .ok true ∧ x.raised = false ∧ ∃ f, ⟨i, x.key, f⟩ ∈ log) ∨
      (result ≠ .ok true ∧ (x.raised = false →
        ∃ d, processed.find x.key = some d ∧ result = x.delivery.answer d))) :
    Fits processed log i (x.ends (.done result)) where
  sound := hsound
  running txn htxn := by simp [Session.ends] at htxn
  idle _ := ⟨rfl, rfl⟩
  recovering handler hphase := by simp [Session.ends] at hphase
  done result' hphase := by
    obtain rfl : result = result' := Phase.done.inj hphase
    exact hdone
  fresh hinserted := by simp [Session.ends] at hinserted

theorem Fits.lost (hsound : x.delivery.Sound) :
    Fits processed log i (x.ends .lost) where
  sound := hsound
  running txn htxn := by simp [Session.ends] at htxn
  idle _ := ⟨rfl, rfl⟩
  recovering handler hphase := by simp [Session.ends] at hphase
  done result hphase := by simp [Session.ends] at hphase
  fresh hinserted := by simp [Session.ends] at hinserted

theorem Fits.recovers {e : E} {handler : Option D → Except E Bool}
    (hsound : x.delivery.Sound) (hrecover : x.delivery.recover e = some handler)
    (hrow : x.raised = false →
      ∃ d, processed.find x.key = some d ∧ handler (some d) = x.delivery.answer d) :
    Fits processed log i (x.ends (.recovering handler)) where
  sound := hsound
  running txn htxn := by simp [Session.ends] at htxn
  idle _ := ⟨rfl, rfl⟩
  recovering handler' hphase := by
    obtain rfl : handler = handler' := Phase.recovering.inj hphase
    exact ⟨fun row => hsound.harmless e handler row hrecover, hrow⟩
  done result hphase := by simp [Session.ends] at hphase
  fresh hinserted := by simp [Session.ends] at hinserted

theorem Fits.fail_raised (hsound : x.delivery.Sound) (hraised : x.raised = true)
    (e : E) : Fits processed log i (x.fail e) := by
  unfold Session.fail
  cases hrecover : x.delivery.recover e with
  | some handler => exact Fits.recovers hsound hrecover fun hno => absurd hraised (by simp [hno])
  | none => exact Fits.over hsound (.inr ⟨by simp, fun hno => absurd hraised (by simp [hno])⟩)

theorem Fits.fail_duplicate {d : D} (hsound : x.delivery.Sound)
    (hd : processed.find x.key = some d) :
    Fits processed log i (x.fail x.delivery.duplicate) := by
  obtain ⟨handler, hrecover⟩ := Option.isSome_iff_exists.mp hsound.loses
  have hhandler : handler (some d) = x.delivery.answer d := by
    unfold Delivery.answer
    rw [hrecover]
  unfold Session.fail
  rw [hrecover]
  exact Fits.recovers hsound hrecover fun _ => ⟨d, hd, hhandler⟩

theorem Fits.fail_answer {d : D} {e : E} (hsound : x.delivery.Sound)
    (hd : processed.find x.key = some d) (he : x.delivery.answer d = .error e) :
    Fits processed log i (x.fail e) := by
  unfold Session.fail
  rw [hsound.escapes d e he]
  exact Fits.over hsound (.inr ⟨by simp, fun _ => ⟨d, hd, he.symm⟩⟩)

end Local

section Run

variable {start s : Store K D E B} {i : Nat} {x x' : Session K D E B} {txn : Txn D E}
  {action : Action K D E B}

-- A session that has not answered changes only itself.
theorem Consistent.save (h : Consistent start s) (hfits : Fits s.processed s.log i x')
    (hopen : ∀ x, s.sessions.find i = some x → x.phase ≠ .done (.ok true))
    (hclaim : x'.inserted = true → ∀ j y, s.sessions.find j = some y → y.inserted = true →
      y.key = x'.key → j = i) : Consistent start (s.save i x') := by
  refine ⟨?_, ?_, ?_, h.once, h.rows, h.kept, h.business⟩
  · intro j y hy
    rcases Table.find_put_cases hy with ⟨rfl, rfl⟩ | ⟨-, hold⟩
    · exact hfits
    · exact h.fits j y hold
  · intro j j' y y' hy hy' hinserted hinserted' hkey
    rcases Table.find_put_cases hy with ⟨rfl, rfl⟩ | ⟨hne, hold⟩
    · rcases Table.find_put_cases hy' with ⟨rfl, -⟩ | ⟨-, hold'⟩
      · rfl
      · exact (hclaim hinserted j' y' hold' hinserted' hkey.symm).symm
    · rcases Table.find_put_cases hy' with ⟨rfl, rfl⟩ | ⟨-, hold'⟩
      · exact absurd (hclaim hinserted' j y hold hinserted hkey) hne
      · exact h.exclusive j j' y y' hold hold' hinserted hinserted' hkey
  · intro c hc
    obtain ⟨x, hx, hlogged⟩ := h.logged c hc
    have hne : c.session ≠ i := by
      rintro rfl
      exact hopen x hx hlogged.2.1
    exact ⟨x, (Table.find_put_of_ne _ _ hne).trans hx, hlogged⟩

theorem Consistent.save_unclaimed (h : Consistent start s)
    (hfits : Fits s.processed s.log i x')
    (hopen : ∀ x, s.sessions.find i = some x → x.phase ≠ .done (.ok true))
    (hclaim : x'.inserted = false) : Consistent start (s.save i x') :=
  h.save hfits hopen fun hinserted => by simp [hclaim] at hinserted

omit [DecidableEq K] in
theorem not_done_of_find (hx : s.sessions.find i = some x) (hopen : x.phase ≠ .done (.ok true)) :
    ∀ y, s.sessions.find i = some y → y.phase ≠ .done (.ok true) := by
  intro y hy
  rw [hx] at hy
  exact Option.some.inj hy ▸ hopen

theorem Consistent.unlogged (h : Consistent start s) (hx : s.sessions.find i = some x)
    (hopen : x.phase ≠ .done (.ok true)) : ∀ c ∈ s.log, c.session ≠ i := by
  rintro c hc rfl
  obtain ⟨y, hy, -, hphase, -⟩ := h.logged c hc
  rw [hx] at hy
  obtain rfl := Option.some.inj hy
  exact hopen hphase

-- The delivery that inserted the row commits its effect with it.
theorem Consistent.commit_won (h : Consistent start s) (hx : s.sessions.find i = some x)
    (hrun : x.phase = .running txn) {f : B → B} (heffect : x.effect = some f)
    (hinserted : x.inserted = true) : Consistent start (s.commit i x true) := by
  have hfits := h.fits i x hx
  have hfresh := hfits.fresh hinserted
  have hnew : x.key ∉ s.log.map (·.key) := by
    intro hmem
    have hsome := (h.rows x.key).mpr (.inr hmem)
    simp [hfresh] at hsome
  have hlog : (s.commit i x true).log = s.log ++ [⟨i, x.key, f⟩] := by
    simp only [Store.commit, heffect, Option.map_some, Option.toList_some]
  have hprocessed : (s.commit i x true).processed = s.processed.put x.key x.delivery.row := by
    simp only [Store.commit, hinserted, if_true]
  have hother (k : K) (d : D) (hd : s.processed.find k = some d) : k ≠ x.key := by
    rintro rfl
    simp [hfresh] at hd
  have hgrows (k : K) (d : D) (hd : s.processed.find k = some d) :
      (s.processed.put x.key x.delivery.row).find k = some d := by
    rw [Table.find_put_of_ne _ _ (hother k d hd), hd]
  refine ⟨?_, ?_, ?_, ?_, ?_, ?_, ?_⟩
  · intro j y hy
    rw [hprocessed, hlog]
    rcases Table.find_put_cases hy with ⟨rfl, rfl⟩ | ⟨hne, hold⟩
    · exact Fits.over hfits.sound
        (.inl ⟨rfl, (hfits.running txn hrun).1, f, List.mem_append_right _ List.mem_cons_self⟩)
    · refine (h.fits j y hold).mono (hgrows y.key) (fun c => List.mem_append_left _) ?_
      intro hy'
      have hkey : y.key ≠ x.key := fun heq => hne (h.exclusive j i y x hold hx hy' hinserted heq)
      rw [Table.find_put_of_ne _ _ hkey]
      exact (h.fits j y hold).fresh hy'
  · intro j j' y y' hy hy' hin hin' hkey
    rcases Table.find_put_cases hy with ⟨-, rfl⟩ | ⟨-, hold⟩
    · simp [Session.ends] at hin
    · rcases Table.find_put_cases hy' with ⟨-, rfl⟩ | ⟨-, hold'⟩
      · simp [Session.ends] at hin'
      · exact h.exclusive j j' y y' hold hold' hin hin' hkey
  · intro c hc
    rw [hprocessed]
    rw [hlog] at hc
    rcases List.mem_append.mp hc with hold | hnewc
    · obtain ⟨y, hy, hkey, hphase, hrow⟩ := h.logged c hold
      have hne : c.session ≠ i := h.unlogged hx (by simp [hrun]) c hold
      exact ⟨y, (Table.find_put_of_ne _ _ hne).trans hy, hkey, hphase, hgrows _ _ hrow⟩
    · obtain rfl := List.mem_singleton.mp hnewc
      exact ⟨x.ends (.done (.ok true)), Table.find_put_self _ _ _, rfl, rfl, Table.find_put_self _ _ _⟩
  · rw [hlog, List.map_append, List.map_singleton]
    exact h.once.append (List.nodup_singleton _) (by simpa using hnew)
  · intro k
    rw [hprocessed, hlog, List.map_append, List.map_singleton, List.mem_append, List.mem_singleton,
      ← or_assoc, ← h.rows, Table.find_put]
    by_cases hk : k = x.key
    · simp [hk]
    · simp [hk]
  · intro k d hd
    obtain ⟨hfind, hmem⟩ := h.kept k d hd
    rw [hprocessed, hlog, List.map_append, List.map_singleton]
    refine ⟨hgrows k d hfind, ?_⟩
    simp [hother k d hfind, hmem]
  · rw [hlog, List.foldl_append, ← h.business]
    simp [Store.commit, heffect]

omit [DecidableEq K] in
theorem Session.fail_inserted (x : Session K D E B) (e : E) : (x.fail e).inserted = false := by
  unfold Session.fail
  cases x.delivery.recover e <;> rfl

theorem Consistent.finish (h : Consistent start s) (hx : s.sessions.find i = some x)
    {result : Except E Bool} (hrun : x.phase = .running (.finish result)) (outcome : Except E (B → B)) :
    Consistent start (s.execute i x outcome (.finish result)) := by
  have hfits := h.fits i x hx
  have hsound := hfits.sound
  have hopen := not_done_of_find hx (by simp [hrun])
  rcases (hfits.running _ hrun).2 with ⟨rfl, heffect, hinserted⟩ | ⟨heffect, hinserted, d, hd, hresult⟩
  · obtain ⟨f, hf⟩ := Option.isSome_iff_exists.mp heffect
    exact h.commit_won hx hrun hf hinserted
  · have hnone : x.effect = none := Option.isNone_iff_eq_none.mp (by simpa using heffect)
    cases result with
    | ok b =>
      change Consistent start (s.commit i x b)
      rw [Store.commit_idle hinserted hnone]
      have hlost : (.ok b : Except E Bool) ≠ .ok true := hresult ▸ hsound.declines d
      exact h.save_unclaimed (Fits.over hsound (.inr ⟨hlost, fun _ => ⟨d, hd, hresult⟩⟩)) hopen rfl
    | error e =>
      exact h.save_unclaimed (Fits.fail_answer hsound hd hresult.symm) hopen (x.fail_inserted e)

-- A statement that writes nothing leaves the session with the claim it had.
theorem Consistent.continues (h : Consistent start s) (hx : s.sessions.find i = some x)
    (hrun : x.phase = .running txn) (hdelivery : x'.delivery = x.delivery)
    (hinserted : x'.inserted = x.inserted) {next : Txn D E} (hphase : x'.phase = .running next)
    (hraised : x'.raised = false)
    (hleads : next.Leads x'.delivery.answer (s.processed.find x'.key) x'.effect.isSome x'.inserted) :
    Consistent start (s.save i x') := by
  have hfits := h.fits i x hx
  have hkey : x'.key = x.key := congrArg Delivery.key hdelivery
  have hfresh : x'.inserted = true → s.processed.find x'.key = none := by
    rw [hinserted, hkey]
    exact hfits.fresh
  refine h.save (Fits.continues (hdelivery ▸ hfits.sound) hphase hraised hleads hfresh)
    (not_done_of_find hx (by simp [hrun])) ?_
  rw [hinserted, hkey]
  exact fun hin j y hy hy' hsame => h.exclusive j i y x hy hx hy' hin hsame

theorem Consistent.insert (h : Consistent start s) (hx : s.sessions.find i = some x) {next : Txn D E}
    (hrun : x.phase = .running (.insert next)) (outcome : Except E (B → B)) :
    Consistent start (s.execute i x outcome (.insert next)) := by
  have hfits := h.fits i x hx
  have hsound := hfits.sound
  obtain ⟨hraised, hinserted, hnext⟩ := hfits.running _ hrun
  have hrow : s.visible x = s.processed.find x.key := by simp [Store.visible, Store.stored, hinserted]
  have hopen := not_done_of_find hx (by simp [hrun])
  simp only [Store.execute]
  split
  · rename_i hsome
    obtain ⟨d, hd⟩ := Option.isSome_iff_exists.mp hsome
    exact h.save_unclaimed (Fits.fail_duplicate hsound (hrow ▸ hd)) hopen (x.fail_inserted _)
  · rename_i hsome
    have hnone : s.processed.find x.key = none := hrow ▸ Option.not_isSome_iff_eq_none.mp hsome
    split
    · exact h
    · rename_i hclaimed
      have hfree : s.claimed i x.key = false := by simpa using hclaimed
      exact h.save (Fits.continues hsound rfl hraised hnext fun _ => hnone) hopen
        fun _ j y hy hy' hkey => Store.not_claimed hfree hy hy' hkey

theorem Consistent.execute (h : Consistent start s) (hx : s.sessions.find i = some x)
    (hrun : x.phase = .running txn) (outcome : Except E (B → B)) :
    Consistent start (s.execute i x outcome txn) := by
  have hfits := h.fits i x hx
  obtain ⟨hraised, hleads⟩ := hfits.running txn hrun
  cases txn with
  | finish result => exact h.finish hx hrun outcome
  | select next =>
    have hrow : s.visible x = s.processed.find x.key := by simp [Store.visible, Store.stored, hleads.1]
    have hnext := hleads.2 (s.visible x) fun d hd => hrow.trans hd
    exact h.continues hx hrun rfl rfl rfl hraised (hrow ▸ hnext)
  | selectForUpdate next =>
    have hrow : s.visible x = s.processed.find x.key := by simp [Store.visible, Store.stored, hleads.1]
    have hnext := hleads.2 (s.visible x) fun d hd => hrow.trans hd
    simp only [Store.execute]
    cases hvisible : s.visible x with
    | none =>
      rw [hvisible] at hrow hnext
      exact h.continues hx hrun rfl rfl rfl hraised (hrow ▸ hnext)
    | some d =>
      rw [hvisible] at hrow hnext
      dsimp only
      split
      · exact h.continues hx hrun rfl rfl rfl hraised (hrow ▸ hnext)
      · exact h
  | mutate next =>
    cases outcome with
    | ok f => exact h.continues hx hrun rfl rfl rfl hraised hleads.2
    | error e =>
      exact h.save_unclaimed (Fits.fail_raised (x := { x with raised := true }) hfits.sound rfl e)
        (not_done_of_find hx (by simp [hrun])) (Session.fail_inserted _ e)
  | insert next => exact h.insert hx hrun outcome

theorem Consistent.perform (h : Consistent start s) (hx : s.sessions.find i = some x)
    (outcome : Except E (B → B)) : Consistent start (s.perform i x outcome) := by
  unfold Store.perform
  have hfits := h.fits i x hx
  cases hphase : x.phase with
  | running txn => exact h.execute hx hphase outcome
  | recovering handler =>
    obtain ⟨hharmless, hrow⟩ := hfits.recovering handler hphase
    refine h.save_unclaimed (Fits.over hfits.sound (.inr ⟨hharmless _, ?_⟩))
      (not_done_of_find hx (by simp [hphase])) rfl
    intro hraised
    obtain ⟨d, hd, hanswer⟩ := hrow hraised
    exact ⟨d, hd, by rw [Store.stored, hd, hanswer]⟩
  | done result => exact h
  | lost => exact h

theorem Consistent.step (h : Consistent start s) {action : Action K D E B}
    (hstarts : Starts action) : Consistent start (s.step action) := by
  cases action with
  | start i delivery =>
    simp only [Store.step]
    split
    · rename_i hnone
      have hfree := Option.isNone_iff_eq_none.mp hnone
      have hnew : ∀ x, s.sessions.find i = some x → x.phase ≠ .done (.ok true) := by
        intro x hx
        simp [hfree] at hx
      exact h.save_unclaimed (Fits.continues hstarts rfl rfl (hstarts.leads _)
        fun hinserted => by simp at hinserted) hnew rfl
    · exact h
  | advance i outcome =>
    simp only [Store.step]
    cases hx : s.sessions.find i with
    | none => exact h
    | some x => exact h.perform hx outcome
  | abandon i =>
    simp only [Store.step]
    cases hx : s.sessions.find i with
    | none => exact h
    | some x =>
      have hlost (hopen : x.phase ≠ .done (.ok true)) : Consistent start (s.save i (x.ends .lost)) :=
        h.save_unclaimed (Fits.lost (h.fits i x hx).sound) (not_done_of_find hx hopen) rfl
      dsimp only
      cases hphase : x.phase with
      | running txn => exact hlost (by simp [hphase])
      | recovering handler => exact hlost (by simp [hphase])
      | done result => exact h
      | lost => exact hlost (by simp [hphase])

theorem Consistent.of_quiet (hsessions : s.sessions = Table.empty) (hlog : s.log = []) :
    Consistent s s := by
  have hnone {i : Nat} {x : Session K D E B} : ¬s.sessions.find i = some x := by simp [hsessions]
  refine ⟨?_, ?_, ?_, ?_, ?_, ?_, ?_⟩
  · exact fun i x hx => absurd hx hnone
  · exact fun i j x y hx => absurd hx hnone
  · simp [hlog]
  · simp [hlog]
  · simp [hlog]
  · simp [hlog]
  · simp [hlog]

theorem Consistent.run {s' : Store K D E B} (h : Consistent start s)
    (hrun : Reaches Store.step (fun _ action => Starts action) s s') :
    Consistent start s' :=
  hrun.invariant h fun _ _ hconsistent hstarts => hconsistent.step hstarts

theorem Consistent.step_row (h : Consistent start s) (action : Action K D E B) {k : K} {d : D}
    (hd : s.processed.find k = some d) : (s.step action).processed.find k = some d := by
  rcases s.step_cases action with hsame | ⟨x', hsave⟩ | ⟨x, result, hx, hcommit⟩
  · rwa [hsame]
  · rw [hsave]
    exact hd
  · rw [hcommit]
    simp only [Store.commit]
    split
    · rename_i hinserted
      have hne : k ≠ x.key := by
        rintro rfl
        simp [(h.fits _ x hx).fresh hinserted] at hd
      rw [Table.find_put_of_ne _ _ hne, hd]
    · exact hd

end Run

-- What the deliveries of a run come to, of every identity at once.
structure ExactlyOnce (start s : Store K D E B) : Prop where
  business : s.business = s.log.foldl (fun b c => c.effect b) start.business
  atMostOnce : ∀ k, (s.log.map (·.key)).count k ≤ 1
  returned : ∀ i x, s.sessions.find i = some x →
    (x.phase = .done (.ok true) ↔ ∃ f, ⟨i, x.key, f⟩ ∈ s.log)
  once : ∀ i x, s.sessions.find i = some x → x.phase = .done (.ok true) →
    (s.log.map (·.key)).count x.key = 1 ∧ s.processed.find x.key = some x.delivery.row
  processed : ∀ k, (s.processed.find k).isSome ↔
    (start.processed.find k).isSome ∨ k ∈ s.log.map (·.key)
  kept : ∀ k d, start.processed.find k = some d →
    s.processed.find k = some d ∧ k ∉ s.log.map (·.key)
  raised : ∀ i x, s.sessions.find i = some x → x.raised = true →
    x.phase ≠ .done (.ok true) ∧ x.inserted = false ∧ x.effect = none ∧ ∀ c ∈ s.log, c.session ≠ i
  replied : ∀ i x result, s.sessions.find i = some x → x.phase = .done result → x.raised = false →
    result = .ok true ∨ ∃ d, s.processed.find x.key = some d ∧ result = x.delivery.answer d

theorem Consistent.exactlyOnce {start s : Store K D E B} (h : Consistent start s) : ExactlyOnce start s where
  business := h.business
  atMostOnce := List.nodup_iff_count_le_one.mp h.once
  returned i x hx := by
    constructor
    · intro hdone
      rcases (h.fits i x hx).done _ hdone with ⟨-, -, hlogged⟩ | ⟨hlost, -⟩
      · exact hlogged
      · exact absurd rfl hlost
    · rintro ⟨f, hf⟩
      obtain ⟨y, hy, -, hdone, -⟩ := h.logged _ hf
      obtain rfl : x = y := Option.some.inj (hx.symm.trans hy)
      exact hdone
  once i x hx hdone := by
    rcases (h.fits i x hx).done _ hdone with ⟨-, -, f, hf⟩ | ⟨hlost, -⟩
    · obtain ⟨y, hy, -, -, hrow⟩ := h.logged _ hf
      obtain rfl : x = y := Option.some.inj (hx.symm.trans hy)
      exact ⟨List.count_eq_one_of_mem h.once (List.mem_map.mpr ⟨_, hf, rfl⟩), hrow⟩
    · exact absurd rfl hlost
  processed := h.rows
  kept := h.kept
  raised i x hx hraised := by
    have hfits := h.fits i x hx
    have hnot : x.phase ≠ .done (.ok true) := by
      intro hdone
      rcases hfits.done _ hdone with ⟨-, hno, -⟩ | ⟨hlost, -⟩
      · simp [hraised] at hno
      · exact hlost rfl
    have hidle : ∀ txn, x.phase ≠ .running txn := by
      intro txn hrun
      have hno := (hfits.running txn hrun).1
      simp [hraised] at hno
    exact ⟨hnot, (hfits.idle hidle).1, (hfits.idle hidle).2, h.unlogged hx hnot⟩
  replied i x result hx hdone hraised := by
    rcases (h.fits i x hx).done _ hdone with ⟨hwon, -, -⟩ | ⟨-, hrow⟩
    · exact .inl hwon
    · exact .inr (hrow hraised)

end Relational.Inbox
