import Mathlib.Algebra.Group.Basic
import Beyvra.FinancialClient.Client
import Beyvra.Relational.Transaction

namespace Beyvra

open Relational

namespace FinancialClient

def Json.hashable : Json → Bool
  | .arr _ | .obj _ => false
  | _ => true

-- The outcomes the loop ends with success() or failure() of the breaker.
def Outcome.reported : Outcome → Bool
  | .sslError | .timeout | .connectionError | .response _ none => true
  | .response _ (some (.obj fields)) => (fields.lookup "code").all Json.hashable
  | .otherError _ | .response _ (some _) => false

section Order

variable {T : Type} [Sub T] [LinearOrder T]

def CircuitBreaker.Recovered (b : CircuitBreaker T) (now : T) : Prop :=
  ∀ openedAt, b.openedAt = some openedAt → b.recoverySeconds ≤ now - openedAt

namespace Calls

def Available (s : Calls T) : Prop :=
  (∀ i, ¬s.InFlight i) → ∀ now, s.breaker.Recovered now → ∃ b, s.breaker.beforeRequest now = .ok b

-- A call leaves the loop unreported only when it does not leave a taken probe slot behind it.
def Returns (s : Calls T) : ClientOp T → Prop
  | .settle i outcome _ => outcome.reported = false → s.InFlight i → s.breaker.halfOpenProbe = true →
      ∃ j, j ≠ i ∧ s.InFlight j
  | _ => True

def Opened (s : Calls T) : Prop := s.breaker.halfOpenProbe = true → ∃ openedAt, s.breaker.openedAt = some openedAt

def Held (s : Calls T) : Prop := s.breaker.halfOpenProbe = true → ∃ i, s.InFlight i

end Calls

section Breaker

variable {b b' : CircuitBreaker T} {now : T}

theorem beforeRequest_eq_ok : b.beforeRequest now = .ok b' ↔
    (b.state now = .closed ∧ b' = b) ∨
      (b.state now = .halfOpen ∧ b.halfOpenProbe = false ∧ b' = { b with halfOpenProbe := true }) := by
  unfold CircuitBreaker.beforeRequest
  simp only [bind_eq_ok, require_eq_ok, pure_eq_ok]
  cases b.state now <;> cases b.halfOpenProbe <;> simp [eq_comm]

theorem state_closed : b.state now = .closed ↔ b.openedAt = none := by
  unfold CircuitBreaker.state
  cases b.openedAt with
  | none => simp
  | some openedAt => by_cases h : b.recoverySeconds ≤ now - openedAt <;> simp [h]

theorem state_halfOpen : b.state now = .halfOpen ↔
    ∃ openedAt, b.openedAt = some openedAt ∧ b.recoverySeconds ≤ now - openedAt := by
  unfold CircuitBreaker.state
  cases b.openedAt with
  | none => simp
  | some openedAt => by_cases h : b.recoverySeconds ≤ now - openedAt <;> simp [h]

theorem admits_of_recovered (h : b.Recovered now) (hprobe : b.halfOpenProbe = false) :
    ∃ b', b.beforeRequest now = .ok b' := by
  cases hopened : b.openedAt with
  | none => exact ⟨_, beforeRequest_eq_ok.mpr (.inl ⟨state_closed.mpr hopened, rfl⟩)⟩
  | some openedAt =>
    exact ⟨_, beforeRequest_eq_ok.mpr (.inr ⟨state_halfOpen.mpr ⟨_, hopened, h _ hopened⟩, hprobe, rfl⟩)⟩

theorem refuses_of_probe {openedAt : T} (hopened : b.openedAt = some openedAt)
    (hprobe : b.halfOpenProbe = true) : ¬∃ b', b.beforeRequest now = .ok b' := by
  rintro ⟨b', hok⟩
  rcases beforeRequest_eq_ok.mp hok with ⟨hclosed, -⟩ | ⟨-, hfree, -⟩
  · rw [state_closed.mp hclosed] at hopened
    cases hopened
  · rw [hprobe] at hfree
    cases hfree

end Breaker

section Settle

variable {r : Request T} {outcome : Outcome} {now : Readings T} {b : CircuitBreaker T} {body : Json}
  {code : String} {statusCode : Int}

theorem code_of_hashable (h : Json.hashable body = true) : ∃ code, safeCode body = .ok code := by
  cases body with
  | arr | obj => cases h
  | _ => exact ⟨_, rfl⟩

theorem code_of_object (fields : List (String × Json)) : (rawCode (.obj fields) >>= safeCode) =
    safeCode ((fields.lookup "code").getD (.str "FINANCIAL_SERVICE_ERROR")) := rfl

omit [Sub T] [LinearOrder T] in
theorem answered_phase : ¬(r.answered statusCode code body).sent := by
  unfold Request.answered Request.sent
  split <;> simp [Request.finish]

theorem receive_phase : ¬(r.receive statusCode body code now b).2.sent := by
  unfold Request.receive
  split
  · simp [Request.finish, Request.sent]
  · split
    · split
      · simp [Request.again, Request.sent]
      · exact answered_phase
    · exact answered_phase

theorem settle_phase : ¬(r.settle outcome now b).2.sent := by
  have hinterrupted : ¬r.interrupted.sent := by
    unfold Request.interrupted
    split
    · simp [Request.finish, Request.sent]
    · split <;> simp [Request.finish, Request.again, Request.sent]
  cases outcome with
  | timeout => exact hinterrupted
  | connectionError => exact hinterrupted
  | sslError => simp [Request.settle, Request.finish, Request.sent]
  | otherError exception => simp [Request.settle, Request.finish, Request.sent]
  | response statusCode body =>
    unfold Request.settle
    dsimp only
    split
    · simp [Request.finish, Request.sent]
    · exact receive_phase

theorem receive_probe : (r.receive statusCode body code now b).1.halfOpenProbe = false := by
  unfold Request.receive
  split
  · rfl
  · split <;> rfl

theorem settle_of_code {body : Option Json} (h : (rawCode (body.getD (.obj [])) >>= safeCode) = .ok code) :
    r.settle (.response statusCode body) now b = r.receive statusCode (body.getD (.obj [])) code now b := by
  unfold Request.settle
  simp only [h]

theorem settle_of_error {body : Option Json} {error : ClientError}
    (h : (rawCode (body.getD (.obj [])) >>= safeCode) = .error error) :
    r.settle (.response statusCode body) now b = (b, r.finish error) := by
  unfold Request.settle
  simp only [h]

theorem settle_reported (h : outcome.reported = true) : (r.settle outcome now b).1.halfOpenProbe = false := by
  cases outcome with
  | sslError => rfl
  | timeout => rfl
  | connectionError => rfl
  | otherError exception => cases h
  | response statusCode body =>
    have hcode : ∃ code, (rawCode (body.getD (.obj [])) >>= safeCode) = .ok code := by
      cases body with
      | none => exact ⟨_, rfl⟩
      | some body =>
        cases body with
        | obj fields =>
          simp only [Outcome.reported] at h
          cases hlookup : fields.lookup "code" with
          | none => exact ⟨_, by rw [Option.getD_some, code_of_object, hlookup]; rfl⟩
          | some value =>
            rw [hlookup] at h
            obtain ⟨code, hcode⟩ := code_of_hashable h
            exact ⟨code, by rw [Option.getD_some, code_of_object, hlookup]; exact hcode⟩
        | _ => cases h
    obtain ⟨code, hcode⟩ := hcode
    rw [settle_of_code hcode]
    exact receive_probe

theorem settle_unreported (h : outcome.reported = false) : (r.settle outcome now b).1 = b := by
  cases outcome with
  | otherError exception => rfl
  | response statusCode body =>
    cases body with
    | none => cases h
    | some body =>
      cases body with
      | obj fields =>
        simp only [Outcome.reported] at h
        cases hlookup : fields.lookup "code" with
        | none =>
          rw [hlookup] at h
          cases h
        | some value =>
          rw [hlookup] at h
          have herror : (rawCode ((some (Json.obj fields)).getD (.obj [])) >>= safeCode) =
              .error (.uncaught "TypeError") := by
            rw [Option.getD_some, code_of_object, hlookup]
            cases value with
            | arr | obj => rfl
            | _ => cases h
          exact congrArg Prod.fst (settle_of_error herror)
      | _ => rfl
  | _ => cases h

end Settle

section Step

variable {s : Calls T} {b : CircuitBreaker T} {i j : Nat} {r : Request T} {op : ClientOp T}

omit [Sub T] [LinearOrder T] in
theorem inFlight_put_self : (⟨b, s.requests.put i r⟩ : Calls T).InFlight i ↔ r.sent := by
  simp [Calls.InFlight]

omit [Sub T] [LinearOrder T] in
theorem inFlight_put_of_ne (h : j ≠ i) : (⟨b, s.requests.put i r⟩ : Calls T).InFlight j ↔ s.InFlight j := by
  simp [Calls.InFlight, Table.find_put_of_ne _ _ h]

omit [Sub T] [LinearOrder T] in
theorem not_inFlight (hfind : s.requests.find i = some r) (h : ¬r.sent) : ¬s.InFlight i := by
  rintro ⟨r', hfind', hsent⟩
  obtain rfl := Option.some.inj (hfind.symm.trans hfind')
  exact h hsent

omit [Sub T] [LinearOrder T] in
theorem inFlight_put (hbefore : ¬s.InFlight i) (hafter : ¬r.sent) :
    (⟨b, s.requests.put i r⟩ : Calls T).InFlight j ↔ s.InFlight j := by
  by_cases hj : j = i
  · subst hj
    exact iff_of_false (fun h => hafter (inFlight_put_self.mp h)) hbefore
  · exact inFlight_put_of_ne hj

variable [Zero T]

-- All that an operation can do to the breaker and to the calls in flight.
inductive ClientEffect (s : Calls T) (op : ClientOp T) : Prop
  | kept (hreturns : s.Returns op) (hbreaker : (s.step op).breaker = s.breaker)
      (hflight : ∀ j, (s.step op).InFlight j ↔ s.InFlight j)
  | admitted (i : Nat) (now : T) (hreturns : s.Returns op)
      (hbreaker : s.breaker.beforeRequest now = .ok (s.step op).breaker) (hflight : (s.step op).InFlight i)
  | settled (i : Nat) (r : Request T) (outcome : Outcome) (now : Readings T) (hop : op = .settle i outcome now)
      (hsent : s.InFlight i) (hbreaker : (s.step op).breaker = (r.settle outcome now s.breaker).1)
      (hflight : ∀ j, (s.step op).InFlight j ↔ j ≠ i ∧ s.InFlight j)

theorem ClientEffect.of_eq (hreturns : s.Returns op) (h : s.step op = s) : ClientEffect s op :=
  .kept hreturns (by rw [h]) fun j => by rw [h]

theorem client_effect (s : Calls T) (op : ClientOp T) : ClientEffect s op := by
  cases op with
  | call i method retryCount deadline =>
    cases hfind : s.requests.find i with
    | none =>
      refine .kept trivial (by simp only [Calls.step, hfind]) fun j => ?_
      simp only [Calls.step, hfind]
      refine inFlight_put ?_ (by simp [Request.start, Request.sent])
      rintro ⟨r, hr, -⟩
      rw [hfind] at hr
      cases hr
    | some r => exact .of_eq trivial (by simp only [Calls.step, hfind])
  | begin i remaining now =>
    cases hfind : s.requests.find i with
    | none => exact .of_eq trivial (by simp only [Calls.step, hfind])
    | some r =>
      cases hphase : r.phase with
      | ready =>
        have hidle : ¬s.InFlight i := not_inFlight hfind (by simp [Request.sent, hphase])
        cases hbegin : r.begin remaining now s.breaker with
        | error error =>
          refine .kept trivial (by simp only [Calls.step, hfind, hphase, hbegin]) fun j => ?_
          simp only [Calls.step, hfind, hphase, hbegin]
          exact inFlight_put hidle (by simp [Request.finish, Request.sent])
        | ok b =>
          have hadmitted : s.breaker.beforeRequest now = .ok b := by
            unfold Request.begin at hbegin
            simp only [bind_eq_ok, require_eq_ok] at hbegin
            obtain ⟨-, -, -, -, hok⟩ := hbegin
            exact hok
          refine .admitted i now trivial ?_ ?_
          · simpa only [Calls.step, hfind, hphase, hbegin] using hadmitted
          · simp only [Calls.step, hfind, hphase, hbegin]
            exact inFlight_put_self.mpr rfl
      | _ => exact .of_eq trivial (by simp only [Calls.step, hfind, hphase])
  | settle i outcome now =>
    cases hfind : s.requests.find i with
    | none =>
      have hidle : ¬s.InFlight i := by
        rintro ⟨r, hr, -⟩
        rw [hfind] at hr
        cases hr
      exact .of_eq (fun _ hflight => absurd hflight hidle) (by simp only [Calls.step, hfind])
    | some r =>
      by_cases hsent : r.sent
      · refine .settled i r outcome now rfl ⟨r, hfind, hsent⟩ ?_ fun j => ?_
        · simp only [Calls.step, hfind, hsent, if_true]
        · simp only [Calls.step, hfind, hsent, if_true]
          by_cases hj : j = i
          · subst hj
            exact iff_of_false (fun h => settle_phase (inFlight_put_self.mp h)) fun h => h.1 rfl
          · exact (inFlight_put_of_ne hj).trans ⟨fun h => ⟨hj, h⟩, And.right⟩
      · have hidle : ¬s.InFlight i := not_inFlight hfind hsent
        exact .of_eq (fun _ hflight => absurd hflight hidle) (by simp only [Calls.step, hfind, hsent, if_false])

theorem opened_step (s : Calls T) (op : ClientOp T) (h : s.Opened) : (s.step op).Opened := by
  unfold Calls.Opened at h ⊢
  rcases client_effect s op with ⟨-, hbreaker, -⟩ | ⟨i, now, -, hbreaker, -⟩ |
    ⟨i, r, outcome, now, -, -, hbreaker, -⟩
  · rwa [hbreaker]
  · rcases beforeRequest_eq_ok.mp hbreaker with ⟨-, heq⟩ | ⟨hhalf, -, heq⟩
    · rwa [heq]
    · obtain ⟨openedAt, hopened, -⟩ := state_halfOpen.mp hhalf
      rw [heq]
      exact fun _ => ⟨openedAt, hopened⟩
  · rw [hbreaker]
    cases hreported : outcome.reported with
    | true =>
      intro hprobe
      rw [settle_reported hreported] at hprobe
      cases hprobe
    | false => rwa [settle_unreported hreported]

theorem held_step (s : Calls T) (op : ClientOp T) (h : s.Held) : (s.step op).Held ↔ s.Returns op := by
  rcases client_effect s op with ⟨hreturns, hbreaker, hflight⟩ | ⟨i, now, hreturns, -, hflight⟩ |
    ⟨i, r, outcome, now, rfl, hsent, hbreaker, hflight⟩
  · refine iff_of_true (fun hprobe => ?_) hreturns
    rw [hbreaker] at hprobe
    obtain ⟨i, hi⟩ := h hprobe
    exact ⟨i, (hflight i).mpr hi⟩
  · exact iff_of_true (fun _ => ⟨i, hflight⟩) hreturns
  · simp only [Calls.Held, Calls.Returns, hbreaker, hflight]
    cases hreported : outcome.reported with
    | true =>
      refine iff_of_true (fun hprobe => ?_) fun hfalse => ?_
      · rw [settle_reported hreported] at hprobe
        cases hprobe
      · cases hfalse
    | false =>
      rw [settle_unreported hreported]
      exact ⟨fun hheld _ _ hprobe => hheld hprobe, fun hreturns hprobe => hreturns rfl hsent hprobe⟩

end Step

end Order

section Group

variable {T : Type} [AddCommGroup T] [LinearOrder T]

-- Among the readings of a group there is one at which the breaker has recovered.
theorem available_iff_held {s : Calls T} (h : s.Opened) : s.Available ↔ s.Held := by
  constructor
  · intro havailable hprobe
    by_contra hnone
    obtain ⟨openedAt, hopened⟩ := h hprobe
    have hrecovered : s.breaker.Recovered (s.breaker.recoverySeconds + openedAt) := by
      intro openedAt' hopened'
      obtain rfl := Option.some.inj (hopened.symm.trans hopened')
      rw [add_sub_cancel_right]
    exact refuses_of_probe hopened hprobe (havailable (fun i hi => hnone ⟨i, hi⟩) _ hrecovered)
  · intro hheld hidle now hrecovered
    refine admits_of_recovered hrecovered (Bool.eq_false_iff.mpr fun hprobe => ?_)
    obtain ⟨i, hi⟩ := hheld hprobe
    exact hidle i hi

theorem available_throughout_iff (threshold : Int) (recoverySeconds : T) (ops : List (ClientOp T)) :
    (∀ before after, ops = before ++ after →
      (before.foldl Calls.step (.start threshold recoverySeconds)).Available) ↔
    Throughout Calls.step Calls.Returns ops (.start threshold recoverySeconds) := by
  have hopened : (Calls.start threshold recoverySeconds).Opened := fun hprobe => by cases hprobe
  have hheld : (Calls.start threshold recoverySeconds).Held := fun hprobe => by cases hprobe
  rw [← always_iff_throughout opened_step (fun s op _ => held_step s op) hopened hheld]
  refine forall_congr' fun before => forall_congr' fun after => forall_congr' fun _ => ?_
  have hrun : Reaches Calls.step (fun _ _ => True) (Calls.start threshold recoverySeconds)
      (before.foldl Calls.step (.start threshold recoverySeconds)) := .of_foldl fun _ _ _ => trivial
  exact available_iff_held (hrun.invariant hopened fun s op h _ => opened_step s op h)

end Group

-- One timeout opens the breaker; the probe then reads a list of wallets and the call raises AttributeError.
def listedWallets : List (ClientOp Int) :=
  [.call 0 "GET" 0 100, .begin 0 0 0, .settle 0 .timeout ⟨0, 0, 0⟩,
    .call 1 "GET" 0 130, .begin 1 30 30, .settle 1 (.response 200 (some (.arr []))) ⟨31, 31, 31⟩]

theorem listed_wallets_unavailable : ¬∀ (threshold : Int) (recoverySeconds : Int) (ops : List (ClientOp Int)),
    (ops.foldl Calls.step (.start threshold recoverySeconds)).Available := by
  intro h
  have hidle : ∀ p ∈ (listedWallets.foldl Calls.step (.start 1 30)).requests.rows, ¬p.2.sent := by decide
  have hrecovered : (listedWallets.foldl Calls.step (.start 1 30)).breaker.Recovered 1000 := by
    intro openedAt hopened
    obtain rfl := Option.some.inj hopened
    decide
  obtain ⟨b, hb⟩ := h 1 30 listedWallets (fun i ⟨r, hr, hsent⟩ => hidle _ (Table.mem_rows_iff.mpr hr) hsent) 1000
    hrecovered
  cases hb

end FinancialClient

end Beyvra
