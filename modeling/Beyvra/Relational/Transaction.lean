import Mathlib.Logic.Relation
import Beyvra.Relational.Table

namespace Relational

variable {ε α β S Op : Type}

def require (p : Prop) [Decidable p] (e : ε) : Except ε Unit := if p then .ok () else .error e

def fetch {K R : Type} [DecidableEq K] (t : Table K R) (k : K) (missing : ε) : Except ε R :=
  match t.find k with
  | some r => .ok r
  | none => .error missing

def demand (o : Option α) (missing : ε) : Except ε α :=
  match o with
  | some a => .ok a
  | none => .error missing

theorem bind_eq_ok {x : Except ε α} {f : α → Except ε β} {b : β} :
    (x >>= f) = .ok b ↔ ∃ a, x = .ok a ∧ f a = .ok b := by
  cases x with
  | error e => simp [bind, Except.bind]
  | ok a => simp [bind, Except.bind]

theorem bind_eq_error {x : Except ε α} {f : α → Except ε β} {e : ε} :
    (x >>= f) = .error e ↔ x = .error e ∨ ∃ a, x = .ok a ∧ f a = .error e := by
  cases x with
  | error e => simp [bind, Except.bind]
  | ok a => simp [bind, Except.bind]

theorem bind_of_ok {x : Except ε α} {f : α → Except ε β} {a : α} (h : x = .ok a) :
    (x >>= f) = f a := by
  subst h
  rfl

theorem bind_of_error {x : Except ε α} {f : α → Except ε β} {e : ε} (h : x = .error e) :
    (x >>= f) = .error e := by
  subst h
  rfl

theorem pure_eq_ok {a b : α} : (pure a : Except ε α) = .ok b ↔ a = b := by
  simp [pure, Except.pure]

theorem map_eq_ok {x : Except ε α} {f : α → β} {b : β} : f <$> x = .ok b ↔ ∃ a, x = .ok a ∧ f a = b := by
  cases x <;> simp

theorem require_eq_ok {p : Prop} [Decidable p] {e : ε} {u : Unit} : require p e = .ok u ↔ p := by
  by_cases h : p <;> simp [require, h]

theorem require_eq_error {p : Prop} [Decidable p] {e e' : ε} : require p e = .error e' ↔ ¬p ∧ e = e' := by
  by_cases h : p <;> simp [require, h]

theorem require_of {p : Prop} [Decidable p] {e : ε} (h : p) : require p e = .ok () := by
  simp [require, h]

theorem require_of_not {p : Prop} [Decidable p] {e : ε} (h : ¬p) : require p e = .error e := by
  simp [require, h]

theorem fetch_eq_ok {K R : Type} [DecidableEq K] {t : Table K R} {k : K} {e : ε} {r : R} :
    fetch t k e = .ok r ↔ t.find k = some r := by
  unfold fetch
  cases t.find k <;> simp

theorem fetch_of_some {K R : Type} [DecidableEq K] {t : Table K R} {k : K} {e : ε} {r : R}
    (h : t.find k = some r) : fetch t k e = .ok r := fetch_eq_ok.mpr h

theorem demand_eq_ok {o : Option α} {e : ε} {a : α} : demand o e = .ok a ↔ o = some a := by
  cases o <;> simp [demand]

theorem demand_eq_error {o : Option α} {e e' : ε} : demand o e = .error e' ↔ o = none ∧ e = e' := by
  cases o <;> simp [demand]

theorem mapM_eq_ok {f : α → Except ε β} {xs : List α} {ys : List β} :
    xs.mapM f = .ok ys ↔ List.Forall₂ (fun x y => f x = .ok y) xs ys := by
  induction xs generalizing ys with
  | nil =>
    rw [List.mapM_nil, pure_eq_ok, List.forall₂_nil_left_iff]
    exact eq_comm
  | cons x xs ih =>
    simp only [List.mapM_cons, bind_eq_ok, pure_eq_ok, ih, List.forall₂_cons_left_iff]
    constructor
    · rintro ⟨y, hy, ys, hys, rfl⟩
      exact ⟨y, ys, hy, hys, rfl⟩
    · rintro ⟨y, ys, hy, hys, rfl⟩
      exact ⟨y, hy, ys, hys, rfl⟩

theorem mapM_of_ok {f : α → Except ε β} {g : α → β} {xs : List α} (h : ∀ x ∈ xs, f x = .ok (g x)) :
    xs.mapM f = .ok (xs.map g) :=
  mapM_eq_ok.mpr (List.forall₂_map_right_iff.mpr (List.forall₂_same.mpr h))

theorem ok_of_mapM {f : α → Except ε β} {xs : List α} {ys : List β} (h : xs.mapM f = .ok ys) :
    ∀ x ∈ xs, ∃ y ∈ ys, f x = .ok y := by
  induction mapM_eq_ok.mp h with
  | nil => simp
  | cons hx hrest ih =>
    rintro x hmem
    rcases List.mem_cons.mp hmem with rfl | hmem
    · exact ⟨_, List.mem_cons_self, hx⟩
    · obtain ⟨y, hy, hfx⟩ := ih (mapM_eq_ok.mpr hrest) x hmem
      exact ⟨y, List.mem_cons_of_mem _ hy, hfx⟩

theorem exists_mapM {f : α → Except ε β} {xs : List α} (h : ∀ x ∈ xs, ∃ y, f x = .ok y) :
    ∃ ys, xs.mapM f = .ok ys := by
  induction xs with
  | nil => exact ⟨[], rfl⟩
  | cons x xs ih =>
    obtain ⟨y, hy⟩ := h x List.mem_cons_self
    obtain ⟨ys, hys⟩ := ih fun x hx => h x (List.mem_cons_of_mem _ hx)
    exact ⟨y :: ys, mapM_eq_ok.mpr (.cons hy (mapM_eq_ok.mp hys))⟩

theorem mem_of_mapM {f : α → Except ε β} {xs : List α} {ys : List β} (h : xs.mapM f = .ok ys) {y : β}
    (hy : y ∈ ys) : ∃ x ∈ xs, f x = .ok y := by
  induction mapM_eq_ok.mp h with
  | nil => cases hy
  | cons hx hrest ih =>
    rcases List.mem_cons.mp hy with rfl | hy
    · exact ⟨_, List.mem_cons_self, hx⟩
    · obtain ⟨x, hmem, hfx⟩ := ih (mapM_eq_ok.mpr hrest) hy
      exact ⟨x, List.mem_cons_of_mem _ hmem, hfx⟩

def commit (body : S → Except ε (α × S)) (s : S) : S :=
  match body s with
  | .ok (_, s') => s'
  | .error _ => s

theorem commit_cases (body : S → Except ε (α × S)) (s : S) :
    (∃ a s', body s = .ok (a, s') ∧ commit body s = s') ∨
      (∃ e, body s = .error e) ∧ commit body s = s := by
  unfold commit
  cases h : body s with
  | error e => exact .inr ⟨⟨e, rfl⟩, rfl⟩
  | ok p => exact .inl ⟨p.1, p.2, rfl, rfl⟩

theorem commit_of_ok {body : S → Except ε (α × S)} {s s' : S} {a : α} (h : body s = .ok (a, s')) :
    commit body s = s' := by
  simp [commit, h]

theorem commit_of_error {body : S → Except ε (α × S)} {s : S} {e : ε} (h : body s = .error e) :
    commit body s = s := by
  simp [commit, h]

def commitState (body : S → Except ε S) (s : S) : S := commit (fun s => (fun s' => ((), s')) <$> body s) s

theorem commitState_of_ok {body : S → Except ε S} {s s' : S} (h : body s = .ok s') :
    commitState body s = s' := by
  simp [commitState, commit, h]

theorem commitState_of_error {body : S → Except ε S} {s : S} {e : ε} (h : body s = .error e) :
    commitState body s = s := by
  simp [commitState, commit, h]

theorem commitState_cases (body : S → Except ε S) (s : S) :
    (∃ s', body s = .ok s' ∧ commitState body s = s') ∨
      (∃ e, body s = .error e) ∧ commitState body s = s := by
  cases h : body s with
  | error e => exact .inr ⟨⟨e, rfl⟩, commitState_of_error h⟩
  | ok s' => exact .inl ⟨s', rfl, commitState_of_ok h⟩

def Moves (step : S → Op → S) (allowed : S → Op → Prop) (s s' : S) : Prop :=
  ∃ op, allowed s op ∧ step s op = s'

abbrev Reaches (step : S → Op → S) (allowed : S → Op → Prop) : S → S → Prop :=
  Relation.ReflTransGen (Moves step allowed)

namespace Reaches

variable {step : S → Op → S} {allowed allowed' : S → Op → Prop} {s s' : S}

theorem invariant {P : S → Prop} (h : Reaches step allowed s s') (h0 : P s)
    (hstep : ∀ t op, P t → allowed t op → P (step t op)) : P s' := by
  induction h with
  | refl => exact h0
  | tail _ hmove ih =>
    obtain ⟨op, hop, rfl⟩ := hmove
    exact hstep _ op ih hop

theorem widen (h : Reaches step allowed s s') (hle : ∀ t op, allowed t op → allowed' t op) :
    Reaches step allowed' s s' := by
  have hmoves : Moves step allowed ≤ Moves step allowed' := by
    rintro t t' ⟨op, hop, he⟩
    exact ⟨op, hle t op hop, he⟩
  exact Relation.ReflTransGen.mono hmoves _ _ h

theorem of_foldl {ops : List Op} (hall : ∀ t, ∀ op ∈ ops, allowed t op) :
    Reaches step allowed s (ops.foldl step s) := by
  induction ops generalizing s with
  | nil => exact .refl
  | cons op ops ih =>
    have hhead : Moves step allowed s (step s op) := ⟨op, hall s op List.mem_cons_self, rfl⟩
    exact .head hhead (ih fun t op' hmem => hall t op' (List.mem_cons_of_mem _ hmem))

def replays (step : S → Op → S) (check : S → Op → Bool) : List Op → S → Bool
  | [], _ => true
  | op :: ops, s => check s op && replays step check ops (step s op)

theorem of_replays (check : S → Op → Bool) {ops : List Op} (h : replays step check ops s = true)
    (hall : ∀ t, ∀ op ∈ ops, check t op = true → allowed t op) :
    Reaches step allowed s (ops.foldl step s) := by
  induction ops generalizing s with
  | nil => exact .refl
  | cons op ops ih =>
    obtain ⟨hcheck, hrest⟩ := Bool.and_eq_true_iff.mp h
    have hhead : Moves step allowed s (step s op) := ⟨op, hall s op List.mem_cons_self hcheck, rfl⟩
    exact .head hhead (ih hrest fun t op' hmem => hall t op' (List.mem_cons_of_mem _ hmem))

end Reaches

-- The property holds of the state each operation of the list runs in, and of the operation.
def Throughout (step : S → Op → S) (P : S → Op → Prop) : List Op → S → Prop
  | [], _ => True
  | op :: ops, s => P s op ∧ Throughout step P ops (step s op)

section Throughout

variable {step : S → Op → S} {P : S → Op → Prop} {s : S}

instance decidableThroughout [∀ s op, Decidable (P s op)] : (ops : List Op) → (s : S) → Decidable (Throughout step P ops s)
  | [], _ => .isTrue trivial
  | op :: ops, s =>
    have := decidableThroughout ops (step s op)
    inferInstanceAs (Decidable (P s op ∧ Throughout step P ops (step s op)))

theorem throughout_append {before after : List Op} : Throughout step P (before ++ after) s ↔
    Throughout step P before s ∧ Throughout step P after (before.foldl step s) := by
  induction before generalizing s with
  | nil => simp [Throughout]
  | cons op before ih => simp only [List.cons_append, Throughout, ih, List.foldl_cons, and_assoc]

theorem throughout_iff {ops : List Op} : Throughout step P ops s ↔
    ∀ before op after, ops = before ++ op :: after → P (before.foldl step s) op := by
  constructor
  · rintro h before op after rfl
    exact (throughout_append.mp h).2.1
  · intro h
    induction ops generalizing s with
    | nil => trivial
    | cons op ops ih =>
      refine ⟨h [] op ops rfl, ih fun before op' after heq => ?_⟩
      exact h (op :: before) op' after (congrArg (op :: ·) heq)

theorem throughout_of_invariant {inv : S → Prop} (hinv : ∀ s op, inv s → inv (step s op)) {ops : List Op}
    (h0 : inv s) : Throughout step (fun s _ => inv s) ops s := by
  induction ops generalizing s with
  | nil => trivial
  | cons op ops ih => exact ⟨h0, ih (hinv s op h0)⟩

-- Where an allowed step keeps a good state good exactly under P, so does an allowed run at every state it passes.
theorem stays_iff_throughout {allowed : S → Op → Prop} {good : S → Prop}
    (hgood : ∀ s op, allowed s op → good s → (good (step s op) ↔ P s op)) {ops : List Op}
    (hallowed : Throughout step allowed ops s) (hstart : good s) :
    (∀ before after, ops = before ++ after → good (before.foldl step s)) ↔ Throughout step P ops s := by
  induction ops generalizing s with
  | nil =>
    refine iff_of_true (fun before after heq => ?_) trivial
    rw [(List.append_eq_nil_iff.mp heq.symm).1]
    exact hstart
  | cons op ops ih =>
    obtain ⟨hop, hrest⟩ := hallowed
    constructor
    · intro h
      have hnext : good (step s op) := h [op] ops rfl
      refine ⟨(hgood s op hop hstart).mp hnext, (ih hrest hnext).mp fun before after heq => ?_⟩
      exact h (op :: before) after (congrArg (op :: ·) heq)
    · rintro ⟨hkept, hothers⟩ before after heq
      have hnext : good (step s op) := (hgood s op hop hstart).mpr hkept
      cases before with
      | nil => exact hstart
      | cons op' before =>
        obtain ⟨rfl, hops⟩ := List.cons.inj heq
        exact (ih hrest hnext).mpr hothers before after hops

theorem always_iff_throughout {inv good : S → Prop} (hinv : ∀ s op, inv s → inv (step s op))
    (hgood : ∀ s op, inv s → good s → (good (step s op) ↔ P s op)) {ops : List Op} (h0 : inv s)
    (hstart : good s) : (∀ before after, ops = before ++ after → good (before.foldl step s)) ↔
      Throughout step P ops s :=
  stays_iff_throughout hgood (throughout_of_invariant hinv h0) hstart

theorem Throughout.reaches {ops : List Op} (h : Throughout step P ops s) :
    Reaches step P s (ops.foldl step s) := by
  induction ops generalizing s with
  | nil => exact .refl
  | cons op ops ih =>
    have hhead : Moves step P s (step s op) := ⟨op, h.1, rfl⟩
    exact .head hhead (ih h.2)

end Throughout

section Redelivery

variable {D K : Type} [DecidableEq K] (deliver : S → D → S) (key : D → K)

def firsts : List K → List D → List D
  | _, [] => []
  | seen, d :: ds => if key d ∈ seen then firsts seen ds else d :: firsts (key d :: seen) ds

abbrev firstOccurrences (ds : List D) : List D := firsts key [] ds

structure Absorbing (P : S → Prop) (ok : D → Prop) : Prop where
  kept : ∀ s d, P s → ok d → P (deliver s d)
  settled : ∀ s d d', P s → ok d → ok d' → key d = key d' → deliver (deliver s d) d' = deliver s d
  persists : ∀ s d d', P s → ok d → ok d' → deliver s d = s → deliver (deliver s d') d = deliver s d'

variable {deliver key} {P : S → Prop} {ok : D → Prop}

theorem Absorbing.foldl_firsts (h : Absorbing deliver key P ok) (ds : List D) (seen : List K) (s : S)
    (hs : P s) (hok : ∀ d ∈ ds, ok d)
    (hseen : ∀ d, ok d → key d ∈ seen → deliver s d = s) :
    ds.foldl deliver s = (firsts key seen ds).foldl deliver s := by
  induction ds generalizing seen s with
  | nil => rfl
  | cons d ds ih =>
    have hd : ok d := hok d List.mem_cons_self
    have htail : ∀ d' ∈ ds, ok d' := fun d' hmem => hok d' (List.mem_cons_of_mem _ hmem)
    by_cases hmem : key d ∈ seen
    · have hskip : deliver s d = s := hseen d hd hmem
      simp only [List.foldl_cons, firsts, hmem, if_true, hskip]
      exact ih seen s hs htail hseen
    · simp only [List.foldl_cons, firsts, hmem, if_false]
      apply ih (key d :: seen) (deliver s d) (h.kept s d hs hd) htail
      intro d' hd' hmem'
      rcases List.mem_cons.mp hmem' with heq | hold
      · exact h.settled s d d' hs hd hd' heq.symm
      · exact h.persists s d' d hs hd' hd (hseen d' hd' hold)

theorem Absorbing.foldl_firstOccurrences (h : Absorbing deliver key P ok) (ds : List D) (s : S)
    (hs : P s) (hok : ∀ d ∈ ds, ok d) :
    ds.foldl deliver s = (firstOccurrences key ds).foldl deliver s :=
  h.foldl_firsts ds [] s hs hok fun _ _ hmem => absurd hmem List.not_mem_nil

end Redelivery

end Relational
