import Beyvra.Users.GoogleAuth

namespace Beyvra

open Relational

namespace GoogleAuth

variable {settings : GoogleSettings} {s s' : GoogleSystem} {op : GoogleStep} {i j : Nat} {c d : Callback}
  {e f : Credential} {hold : Hold} {r : Sent}

-- An identity that is not linked has an email that no account has.
def Resolution.Unowned (resolution : Resolution) : Prop := resolution.linked = none → resolution.owners = []

def CallbackPhase.resolution : CallbackPhase → Option Resolution
  | .resolved _ _ resolution | .stored _ _ resolution _ => some resolution
  | _ => none

def CallbackPhase.issue : CallbackPhase → Option Issue
  | .stored _ _ _ issue => some issue
  | _ => none

def Final (phase : CallbackPhase) : Prop := ∃ reply, phase = .answered reply

inductive GoogleChange (settings : GoogleSettings) (s : GoogleSystem) : GoogleStep → GoogleSystem → Prop where
  | nothing {op : GoogleStep} : GoogleChange settings s op s
  | ticked (d : Nat) : GoogleChange settings s (.tick d) { s with clock := s.clock + d }
  | started {op : GoogleStep} (row : OAuthTransaction) : GoogleChange settings s op
      { s with transactions := s.transactions.put s.nextTransaction row, nextTransaction := s.nextTransaction + 1 }
  | released {op : GoogleStep} {i : Nat} {c : Callback} (hbefore : ∀ d, s.callbacks.find i = some d → ¬Final d.phase)
      (hhold : c.phase.hold = none) (hticket : ∀ ticket, c.phase ≠ .answered (.ticket ticket)) :
      GoogleChange settings s op (s.save i c)
  | locked {op : GoogleStep} {i : Nat} {c : Callback} {transaction : Nat} {row : OAuthTransaction}
      (hc : s.callbacks.find i = some c) (hphase : c.phase = .waiting transaction) (hfree : s.lockFree transaction = true)
      (hrow : s.transactions.find transaction = some row) (hunconsumed : row.consumedAt = none)
      (htime : s.clock < row.expiresAt) : GoogleChange settings s op (s.turn i c (.locked ⟨transaction, s.clock⟩))
  | identified {op : GoogleStep} {i : Nat} {c : Callback} {hold : Hold} {phase : CallbackPhase}
      (hc : s.callbacks.find i = some c) (hphase : c.phase = .locked hold) (hhold : phase.hold = some hold)
      (hissue : phase.issue = none) (hunowned : ∀ resolution, phase.resolution = some resolution → resolution.Unowned) :
      GoogleChange settings s op (s.turn i c phase)
  | issued {op : GoogleStep} {i : Nat} {c : Callback} {hold : Hold} {consumedAt : Timestamp} {resolution : Resolution}
      {user : Nat} (nextUser : Nat) (hc : s.callbacks.find i = some c)
      (hphase : c.phase = .resolved hold consumedAt resolution)
      (huser : ∀ linked, resolution.linked = some linked → user = linked) :
      GoogleChange settings s op (issue settings { s with nextUser } i c hold consumedAt resolution user)
  | denied {op : GoogleStep} {i : Nat} {c : Callback} {hold : Hold} {consumedAt : Timestamp}
      (hc : s.callbacks.find i = some c) (hphase : c.phase = .refused hold consumedAt) :
      GoogleChange settings s op ((consume s hold.transaction consumedAt).fail i c "ACCOUNT_LINK_REQUIRED")
  | sent {op : GoogleStep} {i : Nat} {c : Callback} {hold : Hold} {consumedAt : Timestamp} {resolution : Resolution} {issue : Issue}
      {row : OAuthTransaction} (hc : s.callbacks.find i = some c) (hphase : c.phase = .stored hold consumedAt resolution issue)
      (hrow : s.transactions.find hold.transaction = some row) : GoogleChange settings s op
        { (register settings (consume s hold.transaction consumedAt) resolution issue.user).turn i c
            (.answered (.ticket issue.ticket)) with
          sent := ⟨hold.transaction, hold.lockedAt, row.expiresAt, resolution, issue⟩ :: s.sent }
  | replayed {op : GoogleStep} {j : Nat} {e : Credential} (hanswered : ∃ reply, e.phase = .answered reply) :
      GoogleChange settings s op { s with credentials := s.credentials.put j e }
  | added {j : Nat} {ticket : String} (hfree : s.credentials.find j = none)
      (hmark : ∀ expiresAt, s.used.find ticket = some expiresAt → expiresAt ≤ s.clock) :
      GoogleChange settings s (.submit j ticket)
        { s with
          used := s.used.put ticket (s.clock + usedSeconds * microsecondsPerSecond)
          credentials := s.credentials.put j ⟨ticket, .added⟩ }
  | got {op : GoogleStep} {j : Nat} {e : Credential} (he : s.credentials.find j = some e) (hphase : e.phase = .added) :
      GoogleChange settings s op (s.turnCredential j e (.got (livePayload s e.ticket)))
  | dropped {op : GoogleStep} {j : Nat} {e : Credential} {payload : Option Nat} {phase : CredentialPhase}
      (he : s.credentials.find j = some e) (hphase : e.phase = .got payload)
      (hnext : ∀ user, phase = .deleted user → payload = some user)
      (hover : (∃ user, phase = .deleted user) ∨ ∃ reply, phase = .answered reply) :
      GoogleChange settings s op ({ s with tickets := s.tickets.erase e.ticket }.turnCredential j e phase)
  | minted {op : GoogleStep} {j : Nat} {e : Credential} {user : Nat} (he : s.credentials.find j = some e)
      (hphase : e.phase = .deleted user) : GoogleChange settings s op
        { s.turnCredential j e (.answered (.session user)) with pairs := ⟨e.ticket, user⟩ :: s.pairs }

theorem failed_change (hc : s.callbacks.find i = some c) (hopen : ¬Final c.phase) (code : String) :
    GoogleChange settings s op (s.fail i c code) := by
  refine .released (fun d hd => ?_) rfl fun ticket h => (by cases h)
  obtain rfl := Option.some.inj (hc.symm.trans hd)
  exact hopen

theorem lock_change {transaction : Nat} (hc : s.callbacks.find i = some c) (hphase : c.phase = .waiting transaction)
    (hfree : s.lockFree transaction = true) : GoogleChange settings s op (lock s i c transaction) := by
  have hopen : ¬Final c.phase := by
    rw [hphase]
    rintro ⟨reply, h⟩
    cases h
  unfold lock
  cases hrow : s.transactions.find transaction with
  | none => exact failed_change hc hopen _
  | some row =>
    dsimp only
    split_ifs with hspent hcode
    · exact failed_change hc hopen _
    · exact failed_change hc hopen _
    · simp only [not_or, not_not, not_le] at hspent
      exact .locked hc hphase hfree hrow hspent.1 hspent.2

theorem completeIdentity_change {claims : GoogleClaims} (hc : s.callbacks.find i = some c) (hphase : c.phase = .locked hold) :
    GoogleChange settings s op (completeIdentity settings s i c hold claims) := by
  have hopen : ¬Final c.phase := by
    rw [hphase]
    rintro ⟨reply, h⟩
    cases h
  unfold completeIdentity
  cases hlinked : s.linkedTo claims.sub with
  | some user =>
    simp only
    split_ifs
    · refine .identified hc hphase rfl rfl fun resolution h => ?_
      obtain rfl := Option.some.inj h
      exact fun hnone => (by cases hnone)
    · exact failed_change hc hopen _
  | none =>
    simp only
    split_ifs with howned hlogin
    · exact .identified hc hphase rfl rfl fun resolution h => (by cases h)
    · exact failed_change hc hopen _
    · refine .identified hc hphase rfl rfl fun resolution h => ?_
      obtain rfl := Option.some.inj h
      exact fun _ => not_not.mp howned

theorem store_change {consumedAt : Timestamp} {resolution : Resolution} (hc : s.callbacks.find i = some c)
    (hphase : c.phase = .resolved hold consumedAt resolution) :
    GoogleChange settings s op (store settings s i c hold consumedAt resolution) := by
  have hopen : ¬Final c.phase := by
    rw [hphase]
    rintro ⟨reply, h⟩
    cases h
  unfold store
  cases hlinked : resolution.linked with
  | some user =>
    refine .issued s.nextUser hc hphase fun linked h => ?_
    rw [hlinked] at h
    exact Option.some.inj h
  | none =>
    simp only
    split_ifs
    · exact .nothing
    · exact failed_change hc hopen _
    · refine .issued (s.nextUser + 1) hc hphase fun linked h => ?_
      rw [hlinked] at h
      cases h

theorem commit_change (hc : s.callbacks.find i = some c) (ok : Bool) :
    GoogleChange settings s op (commit settings s i c ok) := by
  unfold commit
  cases hphase : c.phase with
  | refused hold consumedAt =>
    have hopen : ¬Final c.phase := by
      rw [hphase]
      rintro ⟨reply, h⟩
      cases h
    cases ok with
    | false => exact failed_change hc hopen _
    | true => exact .denied hc hphase
  | stored hold consumedAt resolution issue =>
    have hopen : ¬Final c.phase := by
      rw [hphase]
      rintro ⟨reply, h⟩
      cases h
    cases ok with
    | false => exact failed_change hc hopen _
    | true =>
      simp only [send, if_true]
      cases hrow : s.transactions.find hold.transaction with
      | none => exact failed_change hc hopen _
      | some row => exact .sent hc hphase hrow
  | waiting transaction => exact .nothing
  | locked hold => exact .nothing
  | resolved hold consumedAt resolution => exact .nothing
  | answered reply => exact .nothing

theorem submit_change {ticket : String} (hfree : s.credentials.find j = none) :
    GoogleChange settings s (.submit j ticket) (submit s j ticket) := by
  unfold submit
  dsimp only
  split_ifs with hrefused
  · exact .replayed ⟨_, rfl⟩
  · refine .added hfree fun expiresAt hmark => ?_
    have hlive : (s.used.find ticket).any (fun expiresAt => decide (s.clock < expiresAt)) ≠ true :=
      fun hlive => hrefused (.inr hlive)
    rw [hmark] at hlive
    simpa using hlive

theorem callbackStep_change (hc : s.callbacks.find i = some c) (op : GoogleStep) :
    GoogleChange settings s op (callbackStep settings s i c op) := by
  cases op with
  | lock k =>
    simp only [callbackStep]
    cases hphase : c.phase with
    | waiting transaction =>
      dsimp only
      split_ifs with hfree
      · exact lock_change hc hphase hfree
      · exact .nothing
    | _ => exact .nothing
  | identify k result =>
    simp only [callbackStep]
    cases hphase : c.phase with
    | locked hold =>
      have hopen : ¬Final c.phase := by
        rw [hphase]
        rintro ⟨reply, h⟩
        cases h
      cases result with
      | failed code => exact failed_change hc hopen _
      | claims claims => exact completeIdentity_change hc hphase
    | _ => exact .nothing
  | store k raises =>
    simp only [callbackStep]
    cases hphase : c.phase with
    | resolved hold consumedAt resolution =>
      have hopen : ¬Final c.phase := by
        rw [hphase]
        rintro ⟨reply, h⟩
        cases h
      dsimp only
      split_ifs
      · exact failed_change hc hopen _
      · exact store_change hc hphase
    | _ => exact .nothing
  | commit k ok => exact commit_change hc ok
  | _ => exact .nothing

theorem credentialStep_change (he : s.credentials.find j = some e) (op : GoogleStep) :
    GoogleChange settings s op (credentialStep s j e op) := by
  cases op with
  | get k =>
    simp only [credentialStep]
    cases hphase : e.phase with
    | added => exact .got he hphase
    | _ => exact .nothing
  | delete k =>
    simp only [credentialStep]
    cases hphase : e.phase with
    | got payload =>
      cases payload with
      | none => exact .dropped he hphase (fun user h => (by cases h)) (.inr ⟨_, rfl⟩)
      | some user =>
        refine .dropped he hphase (fun user' h => ?_) (.inl ⟨user, rfl⟩)
        cases h
        rfl
    | _ => exact .nothing
  | mint k =>
    simp only [credentialStep]
    cases hphase : e.phase with
    | deleted user =>
      simp only [mint]
      split_ifs
      · exact .minted he hphase
      · exact .replayed ⟨_, rfl⟩
    | _ => exact .nothing
  | _ => exact .nothing

theorem googleStep_change (s : GoogleSystem) (op : GoogleStep) : GoogleChange settings s op (googleStep settings s op) := by
  cases op with
  | tick d => exact .ticked d
  | start state action seconds => exact .started _
  | arrive i state code =>
    simp only [googleStep]
    split_ifs with hfree
    · have hbefore : ∀ d, s.callbacks.find i = some d → ¬Final d.phase := fun d hd => by
        rw [hfree] at hd
        cases hd
      unfold arrive
      cases s.byState settings state with
      | none => exact .released hbefore rfl fun ticket h => (by cases h)
      | some transaction => exact .released hbefore rfl fun ticket h => (by cases h)
    · exact .nothing
  | submit j ticket =>
    simp only [googleStep]
    split_ifs with hfree
    · exact submit_change hfree
    · exact .nothing
  | lock i | identify i result | store i raises | commit i ok =>
    cases hc : s.callbacks.find i with
    | none =>
      simp only [googleStep, hc]
      exact .nothing
    | some c =>
      simp only [googleStep, hc]
      exact callbackStep_change hc _
  | get j | delete j | mint j =>
    cases he : s.credentials.find j with
    | none =>
      simp only [googleStep, he]
      exact .nothing
    | some e =>
      simp only [googleStep, he]
      exact credentialStep_change he _

section Locking

-- Who holds a transaction holds it alone, unconsumed and not expired when it was locked.
structure Locking (s : GoogleSystem) : Prop where
  known : ∀ x row, s.transactions.find x = some row → x < s.nextTransaction
  alone : ∀ i j c d hold hold', s.callbacks.find i = some c → s.callbacks.find j = some d → c.phase.hold = some hold →
    d.phase.hold = some hold' → hold.transaction = hold'.transaction → i = j
  held : ∀ i c hold, s.callbacks.find i = some c → c.phase.hold = some hold →
    ∃ row, s.transactions.find hold.transaction = some row ∧ row.consumedAt = none ∧ hold.lockedAt < row.expiresAt
  unowned : ∀ i c resolution, s.callbacks.find i = some c → c.phase.resolution = some resolution → resolution.Unowned
  issued : ∀ i c hold consumedAt resolution issue, s.callbacks.find i = some c →
    c.phase = .stored hold consumedAt resolution issue → ∀ user, resolution.linked = some user → issue.user = user
  spent : ∀ r ∈ s.sent, ∃ row, s.transactions.find r.transaction = some row ∧ row.consumedAt ≠ none
  once : (s.sent.map Sent.transaction).Nodup
  timely : ∀ r ∈ s.sent, r.lockedAt < r.expiresAt
  resolved : ∀ r ∈ s.sent, r.resolution.Unowned ∧ ∀ user, r.resolution.linked = some user → r.issue.user = user

theorem resolution_none {phase : CallbackPhase} (h : phase.hold = none) : phase.resolution = none := by
  cases phase with
  | waiting | answered => rfl
  | locked | refused | resolved | stored => cases h

theorem Locking.frame (h : Locking s) (htransactions : s'.transactions = s.transactions)
    (hnext : s'.nextTransaction = s.nextTransaction) (hcallbacks : s'.callbacks = s.callbacks) (hsent : s'.sent = s.sent) :
    Locking s' := by
  constructor
  · rw [htransactions, hnext]
    exact h.known
  · rw [hcallbacks]
    exact h.alone
  · rw [hcallbacks, htransactions]
    exact h.held
  · rw [hcallbacks]
    exact h.unowned
  · rw [hcallbacks]
    exact h.issued
  · rw [hsent, htransactions]
    exact h.spent
  · rw [hsent]
    exact h.once
  · rw [hsent]
    exact h.timely
  · rw [hsent]
    exact h.resolved

-- A callback goes to a phase that keeps the lock it has, or has none.
theorem Locking.saved (h : Locking s)
    (hhold : ∀ hold, c.phase.hold = some hold → (∃ row, s.transactions.find hold.transaction = some row ∧
      row.consumedAt = none ∧ hold.lockedAt < row.expiresAt) ∧ ∀ j d hold', s.callbacks.find j = some d →
        d.phase.hold = some hold' → hold'.transaction = hold.transaction → j = i)
    (hunowned : ∀ resolution, c.phase.resolution = some resolution → resolution.Unowned)
    (hissued : ∀ hold consumedAt resolution issue, c.phase = .stored hold consumedAt resolution issue →
      ∀ user, resolution.linked = some user → issue.user = user) : Locking (s.save i c) where
  known := h.known
  alone j k d e hold hold' hd he hhold₁ hhold₂ hsame := by
    rcases Table.find_put_cases hd with ⟨rfl, rfl⟩ | ⟨-, hdold⟩
    · rcases Table.find_put_cases he with ⟨rfl, -⟩ | ⟨-, heold⟩
      · rfl
      · exact ((hhold hold hhold₁).2 k e hold' heold hhold₂ hsame.symm).symm
    · rcases Table.find_put_cases he with ⟨rfl, rfl⟩ | ⟨-, heold⟩
      · exact (hhold hold' hhold₂).2 j d hold hdold hhold₁ hsame
      · exact h.alone j k d e hold hold' hdold heold hhold₁ hhold₂ hsame
  held j d hold hd hheld := by
    rcases Table.find_put_cases hd with ⟨rfl, rfl⟩ | ⟨-, hd⟩
    · exact (hhold hold hheld).1
    · exact h.held j d hold hd hheld
  unowned j d resolution hd hresolution := by
    rcases Table.find_put_cases hd with ⟨rfl, rfl⟩ | ⟨-, hd⟩
    · exact hunowned resolution hresolution
    · exact h.unowned j d resolution hd hresolution
  issued j d hold consumedAt resolution issue hd hphase := by
    rcases Table.find_put_cases hd with ⟨rfl, rfl⟩ | ⟨-, hd⟩
    · exact hissued hold consumedAt resolution issue hphase
    · exact h.issued j d hold consumedAt resolution issue hd hphase
  spent := h.spent
  once := h.once
  timely := h.timely
  resolved := h.resolved

theorem Locking.released (h : Locking s) (hhold : c.phase.hold = none) : Locking (s.save i c) := by
  refine h.saved (fun hold heq => ?_) (fun resolution heq => ?_) fun hold consumedAt resolution issue heq => ?_
  · rw [hhold] at heq
    cases heq
  · rw [resolution_none hhold] at heq
    cases heq
  · rw [heq] at hhold
    cases hhold

-- A callback that keeps the lock that it has
theorem Locking.moved (h : Locking s) (hc : s.callbacks.find i = some c) (hhold : c.phase.hold = some hold)
    (hkept : d.phase.hold = some hold) (hunowned : ∀ resolution, d.phase.resolution = some resolution → resolution.Unowned)
    (hissued : ∀ hold consumedAt resolution issue, d.phase = .stored hold consumedAt resolution issue →
      ∀ user, resolution.linked = some user → issue.user = user) : Locking (s.save i d) := by
  refine h.saved (fun hold' heq => ?_) hunowned hissued
  obtain rfl := Option.some.inj (hkept.symm.trans heq)
  exact ⟨h.held i c hold hc hhold, fun j e hold' he hheld hsame => h.alone j i e c hold' hold he hc hheld hhold hsame⟩

theorem lockFree_iff {transaction : Nat} (hfree : s.lockFree transaction = true) {j : Nat} {d : Callback} {hold : Hold}
    (hd : s.callbacks.find j = some d) (hhold : d.phase.hold = some hold) : hold.transaction ≠ transaction := by
  have hmem := Table.mem_rows_iff.mpr hd
  have hfree' := List.all_eq_true.mp hfree _ hmem
  simpa [hhold] using hfree'

theorem find_consume (s : GoogleSystem) (x y : Nat) (consumedAt : Timestamp) :
    (consume s x consumedAt).transactions.find y =
      (s.transactions.find y).map fun row => if y = x then { row with consumedAt := some consumedAt } else row := by
  unfold consume
  cases hx : s.transactions.find x with
  | none =>
    by_cases hy : y = x
    · rw [hy, hx]
      rfl
    · simp [hy]
  | some row =>
    by_cases hy : y = x
    · subst hy
      simp [hx]
    · simp [Table.find_put_of_ne _ _ hy, hy]

section Consume

variable (s : GoogleSystem) (x : Nat) (consumedAt : Timestamp) (resolution : Resolution) (user : Nat)

theorem consume_eq : consume s x consumedAt = { s with transactions := (consume s x consumedAt).transactions } := by
  unfold consume
  split <;> rfl

theorem register_eq : register settings s resolution user =
    { s with
      users := (register settings s resolution user).users
      identities := (register settings s resolution user).identities } := by
  unfold register
  split <;> rfl

end Consume

theorem consumed_row {x y : Nat} {consumedAt : Timestamp} {row : OAuthTransaction}
    (h : (consume s x consumedAt).transactions.find y = some row) : ∃ old, s.transactions.find y = some old := by
  rw [find_consume] at h
  obtain ⟨old, hold, -⟩ := Option.map_eq_some_iff.mp h
  exact ⟨old, hold⟩

-- The holder consumes its transaction and is answered.
theorem Locking.closed (h : Locking s) (hc : s.callbacks.find i = some c) (hhold : c.phase.hold = some hold)
    (consumedAt : Timestamp) (hd : d.phase.hold = none) : Locking ((consume s hold.transaction consumedAt).save i d) := by
  have hothers : ∀ j e hold', ((consume s hold.transaction consumedAt).save i d).callbacks.find j = some e →
      e.phase.hold = some hold' → s.callbacks.find j = some e ∧ hold'.transaction ≠ hold.transaction := by
    intro j e hold' he hheld
    rcases Table.find_put_cases he with ⟨-, rfl⟩ | ⟨hne, heold⟩
    · rw [hd] at hheld
      cases hheld
    · rw [consume_eq] at heold
      exact ⟨heold, fun hsame => hne (h.alone j i e c hold' hold heold hc hheld hhold hsame)⟩
  have hsent : ((consume s hold.transaction consumedAt).save i d).sent = s.sent := by rw [consume_eq]; rfl
  constructor
  · intro x row hrow
    obtain ⟨old, hfound⟩ := consumed_row hrow
    show x < (consume s hold.transaction consumedAt).nextTransaction
    rw [consume_eq]
    exact h.known x old hfound
  · intro j k e f hold₁ hold₂ he hf hhold₁ hhold₂ hsame
    exact h.alone j k e f hold₁ hold₂ (hothers j e hold₁ he hhold₁).1 (hothers k f hold₂ hf hhold₂).1 hhold₁ hhold₂ hsame
  · intro j e hold' he hheld
    obtain ⟨heold, hne⟩ := hothers j e hold' he hheld
    obtain ⟨row, hrow, hopen⟩ := h.held j e hold' heold hheld
    refine ⟨row, ?_, hopen⟩
    show (consume s hold.transaction consumedAt).transactions.find hold'.transaction = some row
    rw [find_consume, hrow]
    simp [hne]
  · intro j e resolution he hresolution
    cases hheld : e.phase.hold with
    | none =>
      rw [resolution_none hheld] at hresolution
      cases hresolution
    | some hold' => exact h.unowned j e resolution (hothers j e hold' he hheld).1 hresolution
  · intro j e hold' consumedAt' resolution issue he hphase
    have hheld : e.phase.hold = some hold' := by rw [hphase]; rfl
    exact h.issued j e hold' consumedAt' resolution issue (hothers j e hold' he hheld).1 hphase
  · intro r hr
    rw [hsent] at hr
    obtain ⟨row, hrow, hspent⟩ := h.spent r hr
    show ∃ row, (consume s hold.transaction consumedAt).transactions.find r.transaction = some row ∧ row.consumedAt ≠ none
    rw [find_consume, hrow]
    refine ⟨_, rfl, ?_⟩
    split_ifs
    · exact Option.some_ne_none _
    · exact hspent
  · rw [hsent]
    exact h.once
  · rw [hsent]
    exact h.timely
  · rw [hsent]
    exact h.resolved

theorem Locking.logged (h : Locking s)
    (hspent : ∃ row, s.transactions.find r.transaction = some row ∧ row.consumedAt ≠ none)
    (hnew : r.transaction ∉ s.sent.map Sent.transaction) (htimely : r.lockedAt < r.expiresAt)
    (hresolved : r.resolution.Unowned ∧ ∀ user, r.resolution.linked = some user → r.issue.user = user) :
    Locking { s with sent := r :: s.sent } where
  known := h.known
  alone := h.alone
  held := h.held
  unowned := h.unowned
  issued := h.issued
  spent := List.forall_mem_cons.mpr ⟨hspent, h.spent⟩
  once := List.nodup_cons.mpr ⟨hnew, h.once⟩
  timely := List.forall_mem_cons.mpr ⟨htimely, h.timely⟩
  resolved := List.forall_mem_cons.mpr ⟨hresolved, h.resolved⟩

theorem Locking.change (h : Locking s) (hchange : GoogleChange settings s op s') : Locking s' := by
  cases hchange with
  | nothing => exact h
  | ticked d => exact h.frame rfl rfl rfl rfl
  | started row =>
    have hfresh : s.transactions.find s.nextTransaction = none := by
      cases hrow : s.transactions.find s.nextTransaction with
      | none => rfl
      | some old => exact absurd (h.known _ old hrow) (Nat.lt_irrefl _)
    have hkept : ∀ x old, s.transactions.find x = some old →
        (s.transactions.put s.nextTransaction row).find x = some old := fun x old hold => by
      rw [Table.find_put_of_ne _ _ (Nat.ne_of_lt (h.known x old hold))]
      exact hold
    refine ⟨fun x old hx => ?_, h.alone, fun i c hold hc hheld => ?_, h.unowned, h.issued, fun r hr => ?_, h.once, h.timely,
      h.resolved⟩
    · rcases Table.find_put_cases hx with ⟨rfl, -⟩ | ⟨-, hold⟩
      · exact Nat.lt_succ_self _
      · exact Nat.lt_succ_of_lt (h.known x old hold)
    · obtain ⟨old, hold', hopen⟩ := h.held i c hold hc hheld
      exact ⟨old, hkept _ old hold', hopen⟩
    · obtain ⟨old, hold, hspent⟩ := h.spent r hr
      exact ⟨old, hkept _ old hold, hspent⟩
  | released hbefore hhold hticket => exact h.released hhold
  | @locked _ i c transaction row hc hphase hfree hrow hunconsumed htime =>
    refine h.saved (fun hold heq => ?_) (fun resolution heq => (by cases heq)) fun _ _ _ _ heq => (by cases heq)
    obtain rfl := Option.some.inj heq
    exact ⟨⟨row, hrow, hunconsumed, htime⟩, fun j d hold' hd hheld hsame => absurd hsame (lockFree_iff hfree hd hheld)⟩
  | @identified _ i c hold phase hc hphase hhold hissue hunowned =>
    have hheld : c.phase.hold = some hold := by rw [hphase]; rfl
    refine h.moved hc hheld hhold hunowned fun _ _ _ _ heq => ?_
    have hphase' : phase = _ := heq
    rw [hphase'] at hissue
    cases hissue
  | @issued _ i c hold consumedAt resolution user nextUser hc hphase huser =>
    have hheld : c.phase.hold = some hold := by rw [hphase]; rfl
    have hmoved : Locking (s.save i { c with phase := .stored hold consumedAt resolution ⟨user, settings.token s.draws,
        s.clock + ticketSeconds * microsecondsPerSecond⟩ }) := by
      refine h.moved hc hheld rfl (fun resolution' heq => ?_) fun _ _ _ _ heq linked hlinked => ?_
      · obtain rfl := Option.some.inj heq
        exact h.unowned i c resolution hc (by rw [hphase]; rfl)
      · cases heq
        exact huser linked hlinked
    exact hmoved.frame rfl rfl rfl rfl
  | @denied _ i c hold consumedAt hc hphase =>
    have hheld : c.phase.hold = some hold := by rw [hphase]; rfl
    exact h.closed hc hheld consumedAt rfl
  | @sent _ i c hold consumedAt resolution issue row hc hphase hrow =>
    have hheld : c.phase.hold = some hold := by rw [hphase]; rfl
    have hclosed : Locking ((consume s hold.transaction consumedAt).save i
        { c with phase := .answered (.ticket issue.ticket) }) := h.closed hc hheld consumedAt rfl
    obtain ⟨opened, hopen, hunconsumed, htime⟩ := h.held i c hold hc hheld
    obtain rfl := Option.some.inj (hopen.symm.trans hrow)
    have hnew : hold.transaction ∉ s.sent.map Sent.transaction := fun hmem => by
      obtain ⟨r, hr, hsame⟩ := List.mem_map.mp hmem
      obtain ⟨row, hspentrow, hspent⟩ := h.spent r hr
      rw [hsame, hopen] at hspentrow
      exact hspent (Option.some.inj hspentrow ▸ hunconsumed)
    have hspent : ∃ row, (consume s hold.transaction consumedAt).transactions.find hold.transaction = some row ∧
        row.consumedAt ≠ none := by
      rw [find_consume, hopen]
      exact ⟨_, rfl, by simp⟩
    have hsent : ((consume s hold.transaction consumedAt).save i { c with phase := .answered (.ticket issue.ticket) }).sent =
        s.sent := by rw [consume_eq]; rfl
    rw [← hsent] at hnew ⊢
    have hlogged := hclosed.logged (r := ⟨hold.transaction, hold.lockedAt, opened.expiresAt, resolution, issue⟩) hspent hnew
      htime ⟨h.unowned i c resolution hc (by rw [hphase]; rfl), h.issued i c hold consumedAt resolution issue hc hphase⟩
    refine hlogged.frame ?_ ?_ ?_ rfl
    · rw [register_eq]
      rfl
    · rw [register_eq]
      rfl
    · rw [register_eq]
      rfl
  | replayed hanswered => exact h.frame rfl rfl rfl rfl
  | added hfree hmark => exact h.frame rfl rfl rfl rfl
  | got he hphase => exact h.frame rfl rfl rfl rfl
  | dropped he hphase hnext hover => exact h.frame rfl rfl rfl rfl
  | minted he hphase => exact h.frame rfl rfl rfl rfl

end Locking

end GoogleAuth

end Beyvra
