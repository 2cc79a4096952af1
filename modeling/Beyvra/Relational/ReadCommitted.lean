import Mathlib.Logic.Function.Basic
import Beyvra.Relational.Transaction

namespace Relational

inductive Txn (K R L A : Type) where
  | commit
  | rollback
  | select (k : K) (next : Option R → Txn K R L A)
  | selectForUpdate (k : K) (next : Option R → Txn K R L A)
  | update (label : L) (k : K) (p : R → Bool) (f : R → R) (next : Txn K R L A)
  | scan (p : R → Bool) (next : List K → Txn K R L A)
  | consult (next : A → Txn K R L A)

structure Session (K R L A : Type) where
  txn : Txn K R L A
  own : Table K R := Table.empty
  locks : List K := []

structure Store (K R L A : Type) where
  committed : Table K R
  sessions : Table Nat (Session K R L A) := Table.empty

inductive Action (K R L A : Type) where
  | start (i : Nat) (txn : Txn K R L A)
  | advance (i : Nat) (answer : A)
  | abandon (i : Nat)

variable {K R L A : Type} [DecidableEq K]

namespace Table

def merge (t own : Table K R) : Table K R := own.rows.foldl (fun t p => t.put p.1 p.2) t

theorem find_merge (t own : Table K R) (k : K) : (t.merge own).find k = (own.find k).or (t.find k) := by
  have hrows (ps : List (K × R)) (hnd : (ps.map Prod.fst).Nodup) (t : Table K R) :
      (ps.foldl (fun t p => t.put p.1 p.2) t).find k = (lookupRows k ps).or (t.find k) := by
    induction ps generalizing t with
    | nil => simp [lookupRows]
    | cons p ps ih =>
      obtain ⟨hp, hps⟩ := List.nodup_cons.mp hnd
      rw [List.foldl_cons, ih hps]
      by_cases hk : p.1 = k
      · subst hk
        have hnone : lookupRows p.1 ps = none := by
          cases hfound : lookupRows p.1 ps with
          | none => rfl
          | some r =>
            have hmem := (lookupRows_eq_some hps).mp hfound
            exact absurd (List.mem_map.mpr ⟨_, hmem, rfl⟩) hp
        rw [hnone, find_put_self]
        simp [lookupRows]
      · rw [find_put_of_ne _ _ (Ne.symm hk)]
        simp [lookupRows, hk]
  exact hrows own.rows own.nodup t

end Table

def Session.over : Session K R L A := { txn := .rollback }

namespace Store

def visible (s : Store K R L A) (x : Session K R L A) (k : K) : Option R :=
  (x.own.find k).or (s.committed.find k)

def free (s : Store K R L A) (i : Nat) (k : K) : Bool :=
  s.sessions.rows.all fun p => p.1 = i || k ∉ p.2.locks

def save (s : Store K R L A) (i : Nat) (x : Session K R L A) : Store K R L A :=
  { s with sessions := s.sessions.put i x }

def matching (s : Store K R L A) (x : Session K R L A) (p : R → Bool) : List K :=
  (s.committed.rows.map Prod.fst).filter fun k => (s.visible x k).any p

-- A statement that needs a row another session holds waits: the session stays where it is.
def perform (s : Store K R L A) (i : Nat) (x : Session K R L A) (answer : A) : Store K R L A :=
  match x.txn with
  | .commit => { committed := s.committed.merge x.own, sessions := s.sessions.put i .over }
  | .rollback => s.save i .over
  | .select k next => s.save i { x with txn := next (s.visible x k) }
  | .selectForUpdate k next =>
    match s.visible x k with
    | none => s.save i { x with txn := next none }
    | some r =>
      if s.free i k then s.save i { x with txn := next (some r), locks := k :: x.locks } else s
  | .update _ k p f next =>
    match (s.visible x k).filter p with
    | none => s.save i { x with txn := next }
    | some r =>
      if s.free i k then s.save i { txn := next, own := x.own.put k (f r), locks := k :: x.locks } else s
  | .scan p next => s.save i { x with txn := next (s.matching x p) }
  | .consult next => s.save i { x with txn := next answer }

def step (s : Store K R L A) : Action K R L A → Store K R L A
  | .start i txn => if (s.sessions.find i).isNone then s.save i { txn } else s
  | .advance i answer =>
    match s.sessions.find i with
    | none => s
    | some x => s.perform i x answer
  | .abandon i => if (s.sessions.find i).isNone then s else s.save i .over

end Store

-- What a session may rely on: the rows it has locked are as it last saw or wrote them.
def Txn.Safe (final : R → Prop) (trusted : L → Prop) : Txn K R L A → (K → Option R) → Prop
  | .commit, _ => True
  | .rollback, _ => True
  | .select _ next, known => ∀ row, (next row).Safe final trusted known
  | .selectForUpdate k next, known => ∀ row, (∀ r, known k = some r → row = some r) →
    (next row).Safe final trusted (Function.update known k row)
  | .update label k p f next, known => next.Safe final trusted known ∧
    ∀ r, (∀ r', known k = some r' → r = r') → p r = true → (¬trusted label → ¬final r) ∧
      (¬final r → next.Safe final trusted (Function.update known k (some (f r))))
  | .scan _ next, known => ∀ keys, (next keys).Safe final trusted known
  | .consult next, known => ∀ answer, (next answer).Safe final trusted known

def Store.Admits (final : R → Prop) (trusted : L → Prop) (s : Store K R L A) : Action K R L A → Prop
  | .start _ txn => txn.Safe final trusted fun _ => none
  | .advance i _ => ∀ x label k p f next r, s.sessions.find i = some x →
    x.txn = .update label k p f next → (s.visible x k).filter p = some r → s.free i k = true →
      trusted label → ¬final r
  | .abandon _ => True

structure Informed (final : R → Prop) (trusted : L → Prop) (s : Store K R L A) (x : Session K R L A)
    (known : K → Option R) : Prop where
  safe : x.txn.Safe final trusted known
  locked : ∀ k r, known k = some r → k ∈ x.locks
  current : ∀ k r, known k = some r → s.visible x k = some r

structure Consistent (final : R → Prop) (trusted : L → Prop) (s : Store K R L A) : Prop where
  informed : ∀ i x, s.sessions.find i = some x → ∃ known, Informed final trusted s x known
  exclusive : ∀ i j x y k, s.sessions.find i = some x → s.sessions.find j = some y → k ∈ x.locks →
    k ∈ y.locks → i = j
  written : ∀ i x k r, s.sessions.find i = some x → x.own.find k = some r →
    k ∈ x.locks ∧ ∃ r₀, s.committed.find k = some r₀ ∧ ¬final r₀

section Library

variable {final : R → Prop} {trusted : L → Prop} {s s' : Store K R L A} {x x' : Session K R L A}
  {i j : Nat} {k : K} {r : R}

theorem Store.free_iff : s.free i k = true ↔
    ∀ j y, s.sessions.find j = some y → k ∈ y.locks → j = i := by
  simp only [Store.free, List.all_eq_true, Bool.or_eq_true, decide_eq_true_eq]
  constructor
  · intro h j y hy hk
    exact (h (j, y) (Table.mem_rows_iff.mpr hy)).resolve_right fun hnot => hnot hk
  · intro h p hp
    by_cases hk : k ∈ p.2.locks
    · exact .inl (h p.1 p.2 (Table.mem_rows_iff.mp hp) hk)
    · exact .inr hk

theorem Consistent.over (h : Consistent final trusted s) (i : Nat) :
    Consistent final trusted (s.save i .over) := by
  refine ⟨?_, ?_, ?_⟩
  · intro j y hy
    rcases Table.find_put_cases hy with ⟨-, rfl⟩ | ⟨-, hy'⟩
    · exact ⟨fun _ => none, trivial, fun _ _ hk => by simp at hk, fun _ _ hk => by simp at hk⟩
    · obtain ⟨known, hsafe, hlocked, hcurrent⟩ := h.informed j y hy'
      exact ⟨known, hsafe, hlocked, hcurrent⟩
  · intro j j' y y' k hy hy' hk hk'
    rcases Table.find_put_cases hy with ⟨-, rfl⟩ | ⟨-, hold⟩
    · simp [Session.over] at hk
    · rcases Table.find_put_cases hy' with ⟨-, rfl⟩ | ⟨-, hold'⟩
      · simp [Session.over] at hk'
      · exact h.exclusive j j' y y' k hold hold' hk hk'
  · intro j y k r hy hr
    rcases Table.find_put_cases hy with ⟨-, rfl⟩ | ⟨-, hy⟩
    · simp [Session.over] at hr
    · exact h.written j y k r hy hr

theorem Consistent.save (h : Consistent final trusted s) {known : K → Option R}
    (hinformed : Informed final trusted s x' known)
    (hlocks : ∀ k ∈ x'.locks, s.free i k = true)
    (hwritten : ∀ k r, x'.own.find k = some r → k ∈ x'.locks ∧ ∃ r₀, s.committed.find k = some r₀ ∧ ¬final r₀) :
    Consistent final trusted (s.save i x') := by
  refine ⟨?_, ?_, ?_⟩
  · intro j y hy
    rcases Table.find_put_cases hy with ⟨-, rfl⟩ | ⟨-, hy'⟩
    · exact ⟨known, hinformed.safe, hinformed.locked, hinformed.current⟩
    · obtain ⟨known', hsafe, hlocked, hcurrent⟩ := h.informed j y hy'
      exact ⟨known', hsafe, hlocked, hcurrent⟩
  · intro j j' y y' k hy hy' hk hk'
    rcases Table.find_put_cases hy with ⟨rfl, rfl⟩ | ⟨-, hold⟩
    · rcases Table.find_put_cases hy' with ⟨rfl, rfl⟩ | ⟨-, hold'⟩
      · rfl
      · exact (Store.free_iff.mp (hlocks k hk) j' y' hold' hk').symm
    · rcases Table.find_put_cases hy' with ⟨rfl, rfl⟩ | ⟨-, hold'⟩
      · exact Store.free_iff.mp (hlocks k hk') j y hold hk
      · exact h.exclusive j j' y y' k hold hold' hk hk'
  · intro j y k r hy hr
    rcases Table.find_put_cases hy with ⟨-, rfl⟩ | ⟨-, hy⟩
    · exact hwritten k r hr
    · exact h.written j y k r hy hr

theorem Consistent.holds (h : Consistent final trusted s) (hx : s.sessions.find i = some x)
    (hk : k ∈ x.locks) : s.free i k = true :=
  Store.free_iff.mpr fun j y hy hk' => h.exclusive j i y x k hy hx hk' hk

theorem Consistent.locks (h : Consistent final trusted s) (hx : s.sessions.find i = some x)
    (hk : s.free i k = true) : ∀ k' ∈ k :: x.locks, s.free i k' = true := by
  intro k' hk'
  rcases List.mem_cons.mp hk' with rfl | hheld
  · exact hk
  · exact h.holds hx hheld

-- A session only writes rows whose committed version is not final, so committing it keeps the final ones.
theorem Consistent.kept (h : Consistent final trusted s) (hx : s.sessions.find i = some x)
    (hr : s.committed.find k = some r) (hfinal : final r) : (s.committed.merge x.own).find k = some r := by
  rw [Table.find_merge]
  cases hown : x.own.find k with
  | none => exact hr
  | some r' =>
    obtain ⟨-, r₀, hr₀, hnot⟩ := h.written i x k r' hx hown
    rw [hr] at hr₀
    obtain rfl := Option.some.inj hr₀
    exact absurd hfinal hnot

theorem Consistent.commit (h : Consistent final trusted s) (hx : s.sessions.find i = some x) :
    Consistent final trusted
      { committed := s.committed.merge x.own, sessions := s.sessions.put i .over } := by
  have hover := h.over i
  have hforeign {j : Nat} {y : Session K R L A} (hy : s.sessions.find j = some y) (hne : j ≠ i) {k : K}
      (hk : k ∈ y.locks) : (s.committed.merge x.own).find k = s.committed.find k := by
    rw [Table.find_merge]
    cases hown : x.own.find k with
    | none => rfl
    | some r => exact absurd (h.exclusive j i y x k hy hx hk (h.written i x k r hx hown).1) hne
  refine ⟨?_, hover.exclusive, ?_⟩
  · intro j y hy
    rcases Table.find_put_cases hy with ⟨-, rfl⟩ | ⟨hne, hy'⟩
    · exact ⟨fun _ => none, trivial, fun _ _ hk => by simp at hk, fun _ _ hk => by simp at hk⟩
    · obtain ⟨known, hsafe, hlocked, hcurrent⟩ := h.informed j y hy'
      refine ⟨known, hsafe, hlocked, ?_⟩
      intro k r hk
      have hvisible := hcurrent k r hk
      unfold Store.visible at hvisible ⊢
      dsimp only
      rw [hforeign hy' hne (hlocked k r hk)]
      exact hvisible
  · intro j y k r hy hr
    rcases Table.find_put_cases hy with ⟨-, rfl⟩ | ⟨hne, hy'⟩
    · simp [Session.over] at hr
    · obtain ⟨hk, r₀, hr₀, hnot⟩ := h.written j y k r hy' hr
      exact ⟨hk, r₀, (hforeign hy' hne hk).trans hr₀, hnot⟩

theorem Consistent.read (h : Consistent final trusted s) (hx : s.sessions.find i = some x)
    {known : K → Option R} {txn : Txn K R L A} (hinformed : Informed final trusted s x known)
    (hsafe : txn.Safe final trusted known) : Consistent final trusted (s.save i { x with txn }) :=
  h.save ⟨hsafe, hinformed.locked, hinformed.current⟩ (fun _ hk => h.holds hx hk)
    fun k r hr => h.written i x k r hx hr

theorem Consistent.lock (h : Consistent final trusted s) (hx : s.sessions.find i = some x)
    {known : K → Option R} {txn : Txn K R L A} (hinformed : Informed final trusted s x known)
    (hfree : s.free i k = true) (hvisible : s.visible x k = some r)
    (hsafe : txn.Safe final trusted (Function.update known k (some r))) :
    Consistent final trusted (s.save i { x with txn, locks := k :: x.locks }) := by
  refine h.save ⟨hsafe, ?_, ?_⟩ (h.locks hx hfree) ?_
  · intro k' r' hk'
    by_cases heq : k' = k
    · exact heq ▸ List.mem_cons_self
    · rw [Function.update_of_ne heq] at hk'
      exact List.mem_cons_of_mem _ (hinformed.locked k' r' hk')
  · intro k' r' hk'
    by_cases heq : k' = k
    · subst heq
      rw [Function.update_self] at hk'
      exact hk' ▸ hvisible
    · rw [Function.update_of_ne heq] at hk'
      exact hinformed.current k' r' hk'
  · intro k' r' hr'
    obtain ⟨hk', hcommitted⟩ := h.written i x k' r' hx hr'
    exact ⟨List.mem_cons_of_mem _ hk', hcommitted⟩

theorem Consistent.not_final (h : Consistent final trusted s) (hx : s.sessions.find i = some x)
    (hvisible : s.visible x k = some r) (hnot : ¬final r) :
    ∃ r₀, s.committed.find k = some r₀ ∧ ¬final r₀ := by
  unfold Store.visible at hvisible
  cases hown : x.own.find k with
  | none =>
    rw [hown, Option.none_or] at hvisible
    exact ⟨r, hvisible, hnot⟩
  | some r' => exact (h.written i x k r' hx hown).2

theorem Consistent.write (h : Consistent final trusted s) (hx : s.sessions.find i = some x)
    {known : K → Option R} {txn : Txn K R L A} {r' : R} (hinformed : Informed final trusted s x known)
    (hfree : s.free i k = true) (hvisible : s.visible x k = some r) (hnot : ¬final r)
    (hsafe : txn.Safe final trusted (Function.update known k (some r'))) :
    Consistent final trusted (s.save i { txn, own := x.own.put k r', locks := k :: x.locks }) := by
  refine h.save ⟨hsafe, ?_, ?_⟩ (h.locks hx hfree) ?_
  · intro k' y hk'
    by_cases heq : k' = k
    · exact heq ▸ List.mem_cons_self
    · rw [Function.update_of_ne heq] at hk'
      exact List.mem_cons_of_mem _ (hinformed.locked k' y hk')
  · intro k' y hk'
    unfold Store.visible
    by_cases heq : k' = k
    · subst heq
      rw [Function.update_self] at hk'
      rw [Table.find_put_self, hk', Option.some_or]
    · rw [Function.update_of_ne heq] at hk'
      rw [Table.find_put_of_ne _ _ heq]
      exact hinformed.current k' y hk'
  · intro k' y hy
    rcases Table.find_put_cases hy with ⟨rfl, -⟩ | ⟨-, hold⟩
    · exact ⟨List.mem_cons_self, h.not_final hx hvisible hnot⟩
    · obtain ⟨hk', hcommitted⟩ := h.written i x k' y hx hold
      exact ⟨List.mem_cons_of_mem _ hk', hcommitted⟩

theorem Informed.agrees {known : K → Option R} (h : Informed final trusted s x known) {row : Option R}
    (hvisible : s.visible x k = row) : ∀ r, known k = some r → row = some r :=
  fun r hk => hvisible.symm.trans (h.current k r hk)

theorem Consistent.perform (h : Consistent final trusted s) (hx : s.sessions.find i = some x) (answer : A)
    (hadmits : s.Admits final trusted (.advance i answer)) :
    Consistent final trusted (s.perform i x answer) := by
  obtain ⟨known, hinformed⟩ := h.informed i x hx
  have hsafe := hinformed.safe
  unfold Store.perform
  cases htxn : x.txn with
  | commit => exact h.commit hx
  | rollback => exact h.over i
  | select k next =>
    rw [htxn] at hsafe
    exact h.read hx hinformed (hsafe _)
  | selectForUpdate k next =>
    rw [htxn] at hsafe
    dsimp only
    cases hvisible : s.visible x k with
    | none =>
      have hnone : known k = none := by
        cases hk : known k with
        | none => rfl
        | some r => exact absurd (hinformed.agrees hvisible r hk) (by simp)
      refine h.read hx hinformed ?_
      have hnext := hsafe none (hinformed.agrees hvisible)
      have hsame : Function.update known k none = known := hnone ▸ Function.update_eq_self k known
      rwa [hsame] at hnext
    | some r =>
      by_cases hfree : s.free i k = true
      · simp only [hfree, if_true]
        exact h.lock hx hinformed hfree hvisible (hsafe (some r) (hinformed.agrees hvisible))
      · simp only [hfree]
        exact h
  | update label k p f next =>
    rw [htxn] at hsafe
    dsimp only
    cases hmatch : (s.visible x k).filter p with
    | none => exact h.read hx hinformed hsafe.1
    | some r =>
      obtain ⟨hvisible, hp⟩ := Option.filter_eq_some_iff.mp hmatch
      by_cases hfree : s.free i k = true
      · simp only [hfree, if_true]
        have hagrees : ∀ r', known k = some r' → r = r' := fun r' hk =>
          Option.some.inj (hinformed.agrees hvisible r' hk)
        obtain ⟨hguard, hnext⟩ := hsafe.2 r hagrees hp
        have hnot : ¬final r := by
          by_cases htrusted : trusted label
          · exact hadmits x label k p f next r hx htxn hmatch hfree htrusted
          · exact hguard htrusted
        exact h.write hx hinformed hfree hvisible hnot (hnext hnot)
      · simp only [hfree]
        exact h
  | scan p next =>
    rw [htxn] at hsafe
    exact h.read hx hinformed (hsafe _)
  | consult next =>
    rw [htxn] at hsafe
    exact h.read hx hinformed (hsafe answer)

theorem Consistent.step (h : Consistent final trusted s) (action : Action K R L A)
    (hadmits : s.Admits final trusted action) : Consistent final trusted (s.step action) := by
  cases action with
  | start i txn =>
    simp only [Store.step]
    split
    · have hinformed : Informed final trusted s { txn } fun _ => none :=
        ⟨hadmits, fun _ _ hk => by simp at hk, fun _ _ hk => by simp at hk⟩
      exact h.save hinformed (fun _ hk => by simp at hk) fun _ _ hr => by simp at hr
    · exact h
  | advance i answer =>
    simp only [Store.step]
    cases hx : s.sessions.find i with
    | none => exact h
    | some x => exact h.perform hx answer hadmits
  | abandon i =>
    simp only [Store.step]
    split
    · exact h
    · exact h.over i

theorem Store.perform_committed (s : Store K R L A) (i : Nat) (x : Session K R L A) (answer : A) :
    (s.perform i x answer).committed = s.committed ∨
      (s.perform i x answer).committed = s.committed.merge x.own := by
  unfold Store.perform
  cases x.txn with
  | commit => exact .inr rfl
  | selectForUpdate k next =>
    left
    dsimp only
    cases s.visible x k with
    | none => rfl
    | some r => by_cases hfree : s.free i k = true <;> simp [hfree, Store.save]
  | update label k p f next =>
    left
    dsimp only
    cases (s.visible x k).filter p with
    | none => rfl
    | some r => by_cases hfree : s.free i k = true <;> simp [hfree, Store.save]
  | _ => exact .inl rfl

theorem Consistent.final_kept (h : Consistent final trusted s) (action : Action K R L A)
    (hr : s.committed.find k = some r) (hfinal : final r) :
    (s.step action).committed.find k = some r := by
  cases action with
  | start i txn =>
    simp only [Store.step]
    split <;> exact hr
  | advance i answer =>
    simp only [Store.step]
    cases hx : s.sessions.find i with
    | none => exact hr
    | some x =>
      dsimp only
      rcases s.perform_committed i x answer with hsame | hmerged
      · rwa [hsame]
      · rw [hmerged]
        exact h.kept hx hr hfinal
  | abandon i =>
    simp only [Store.step]
    split <;> exact hr

theorem Consistent.run (h : Consistent final trusted s)
    (hrun : Reaches Store.step (Store.Admits final trusted) s s') : Consistent final trusted s' :=
  hrun.invariant h fun _ action hconsistent hadmits => hconsistent.step action hadmits

-- Rows that are final when they are committed stay as they are, whatever the transactions interleave.
theorem Consistent.run_final_kept (h : Consistent final trusted s)
    (hrun : Reaches Store.step (Store.Admits final trusted) s s')
    (hr : s.committed.find k = some r) (hfinal : final r) : s'.committed.find k = some r := by
  induction hrun with
  | refl => exact hr
  | tail hprefix hmove ih =>
    obtain ⟨action, -, rfl⟩ := hmove
    exact (h.run hprefix).final_kept action ih hfinal

theorem Consistent.of_quiet (h : s.sessions = Table.empty) : Consistent final trusted s := by
  refine ⟨?_, ?_, ?_⟩
  · intro i x hx
    rw [h] at hx
    simp at hx
  · intro i j x y k hx
    rw [h] at hx
    simp at hx
  · intro i x k r hx
    rw [h] at hx
    simp at hx

end Library

-- What a transaction does to the rows when no other session interferes.
inductive Txn.Completes : Txn K R L A → (K → Option R) → (K → Option R) → Prop
  | commit (rows : K → Option R) : Completes .commit rows rows
  | select {k : K} {next : Option R → Txn K R L A} {rows rows' : K → Option R}
    (h : Completes (next (rows k)) rows rows') : Completes (.select k next) rows rows'
  | selectForUpdate {k : K} {next : Option R → Txn K R L A} {rows rows' : K → Option R}
    (h : Completes (next (rows k)) rows rows') : Completes (.selectForUpdate k next) rows rows'
  | updated {label : L} {k : K} {p : R → Bool} {f : R → R} {next : Txn K R L A}
    {rows rows' : K → Option R} {r : R} (hr : (rows k).filter p = some r)
    (h : Completes next (Function.update rows k (some (f r))) rows') :
    Completes (.update label k p f next) rows rows'
  | unmatched {label : L} {k : K} {p : R → Bool} {f : R → R} {next : Txn K R L A}
    {rows rows' : K → Option R} (hr : (rows k).filter p = none) (h : Completes next rows rows') :
    Completes (.update label k p f next) rows rows'
  | scan {p : R → Bool} {next : List K → Txn K R L A} {rows rows' : K → Option R}
    (h : ∀ keys, (∀ k, k ∈ keys ↔ (rows k).any p = true) → Completes (next keys) rows rows') :
    Completes (.scan p next) rows rows'
  | consult {next : A → Txn K R L A} {rows rows' : K → Option R} (answer : A)
    (h : Completes (next answer) rows rows') : Completes (.consult next) rows rows'

namespace Store

variable {t : Table K R} {x x' : Session K R L A} {k : K} {r r' : R} {rows : K → Option R} {p : R → Bool}

def lone (t : Table K R) (x : Session K R L A) : Store K R L A := ⟨t, Table.empty.put 0 x⟩

structure Sees (t own : Table K R) (rows : K → Option R) : Prop where
  rows : ∀ k, (own.find k).or (t.find k) = rows k
  stored : ∀ k r, own.find k = some r → (t.find k).isSome

theorem Sees.found {own : Table K R} (h : Sees t own rows) (hr : rows k = some r) : (t.find k).isSome := by
  rw [← h.rows] at hr
  cases hown : own.find k with
  | none =>
    rw [hown, Option.none_or] at hr
    exact hr ▸ rfl
  | some y => exact h.stored k y hown

theorem Sees.put {own : Table K R} (h : Sees t own rows) (hr : rows k = some r) (r' : R) :
    Sees t (own.put k r') (Function.update rows k (some r')) := by
  refine ⟨?_, ?_⟩
  · intro k'
    by_cases heq : k' = k
    · subst heq
      rw [Table.find_put_self, Function.update_self, Option.some_or]
    · rw [Table.find_put_of_ne _ _ heq, Function.update_of_ne heq, h.rows]
  · intro k' y hy
    rcases Table.find_put_cases hy with ⟨rfl, -⟩ | ⟨-, hold⟩
    · exact h.found hr
    · exact h.stored k' y hold

theorem Sees.mem_matching (h : Sees t x.own rows) :
    k ∈ (lone t x).matching x p ↔ (rows k).any p = true := by
  have hvisible : (lone t x).visible x k = rows k := h.rows k
  simp only [matching, List.mem_filter, hvisible]
  refine and_iff_right_of_imp ?_
  intro hmatch
  obtain ⟨r, hr, -⟩ := (Option.any_eq_true p (rows k)).mp hmatch
  obtain ⟨r₀, hr₀⟩ := Option.isSome_iff_exists.mp (h.found hr)
  exact List.mem_map.mpr ⟨(k, r₀), Table.mem_rows_iff.mpr hr₀, rfl⟩

theorem lone_free (t : Table K R) (x : Session K R L A) (k : K) : (lone t x).free 0 k = true := by
  refine free_iff.mpr ?_
  intro j y hy _
  rcases Table.find_put_cases hy with ⟨hj, -⟩ | ⟨-, hnone⟩
  · exact hj
  · simp at hnone

omit [DecidableEq K] in
theorem lone_save (t : Table K R) (x x' : Session K R L A) : (lone t x).save 0 x' = lone t x' := by
  unfold lone save
  rw [Table.put_put]

theorem lone_step (t : Table K R) (x : Session K R L A) (answer : A) :
    (lone t x).step (.advance 0 answer) = (lone t x).perform 0 x answer := by
  have hfind : (lone t x).sessions.find 0 = some x := Table.find_put_self _ _ _
  simp only [step, hfind]

def LoneResult (s : Store K R L A) (rows : K → Option R) : Prop :=
  ∃ s', Reaches step (fun _ _ => True) s s' ∧ ∀ k, s'.committed.find k = rows k

theorem LoneResult.after (h : LoneResult (lone t x') rows) (answer : A)
    (hperform : (lone t x).perform 0 x answer = (lone t x).save 0 x') : LoneResult (lone t x) rows := by
  obtain ⟨s', hs, hcommitted⟩ := h
  rw [lone_save] at hperform
  exact ⟨s', .head ⟨.advance 0 answer, trivial, (lone_step t x answer).trans hperform⟩ hs, hcommitted⟩

-- The sequential reading of a transaction is one of its interleaved runs.
theorem lone_completes [Inhabited A] {txn : Txn K R L A} {rows' : K → Option R}
    (h : txn.Completes rows rows') (htxn : x.txn = txn) (hsees : Sees t x.own rows) :
    LoneResult (lone t x) rows' := by
  have hvisible {x : Session K R L A} {rows : K → Option R} (hsees : Sees t x.own rows) (k : K) :
      (lone t x).visible x k = rows k := hsees.rows k
  induction h generalizing x with
  | commit rows =>
    refine ⟨_, .single ⟨.advance 0 default, trivial, rfl⟩, ?_⟩
    intro k
    rw [lone_step]
    simp only [perform, htxn]
    rw [Table.find_merge]
    exact hsees.rows k
  | select h ih =>
    refine (ih (x := { x with txn := _ }) rfl hsees).after default ?_
    simp only [perform, htxn, hvisible hsees]
  | @selectForUpdate k next rows rows' h ih =>
    cases hrow : rows k with
    | none =>
      refine (ih (x := { x with txn := _ }) rfl hsees).after default ?_
      simp only [perform, htxn, hvisible hsees, hrow]
    | some r =>
      refine (ih (x := { x with txn := _, locks := k :: x.locks }) rfl hsees).after default ?_
      simp only [perform, htxn, hvisible hsees, hrow, lone_free, if_true]
  | @updated label k p f next rows rows' r hr h ih =>
    have hput := hsees.put (Option.filter_eq_some_iff.mp hr).1 (f r)
    refine (ih (x := { txn := next, own := x.own.put k (f r), locks := k :: x.locks }) rfl hput).after
      default ?_
    simp only [perform, htxn, hvisible hsees, hr, lone_free, if_true]
  | unmatched hr h ih =>
    refine (ih (x := { x with txn := _ }) rfl hsees).after default ?_
    simp only [perform, htxn, hvisible hsees, hr]
  | @scan p next rows rows' h ih =>
    refine (ih _ (fun _ => hsees.mem_matching) (x := { x with txn := _ }) rfl hsees).after
      default ?_
    simp only [perform, htxn]
  | consult answer h ih =>
    refine (ih (x := { x with txn := _ }) rfl hsees).after answer ?_
    simp only [perform, htxn]

end Store

end Relational
