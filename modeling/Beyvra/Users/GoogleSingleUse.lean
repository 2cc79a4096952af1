import Beyvra.Users.GoogleTransactions

namespace Beyvra

open Relational

namespace GoogleAuth

variable {settings : GoogleSettings} {s s' : GoogleSystem} {op : GoogleStep} {i j : Nat} {c d : Callback}
  {e f : Credential} {hold : Hold} {r : Sent}

section Issued

def Drawn (settings : GoogleSettings) (draws : Nat) (ticket : String) : Prop := ∃ k < draws, ticket = settings.token k

def Issue.entry (issue : Issue) : TicketEntry := ⟨issue.user, issue.storedUntil⟩

-- A ticket is stored once, by the callback that drew it.
structure Issued (settings : GoogleSettings) (s : GoogleSystem) : Prop where
  drawn : ∀ r ∈ s.sent, Drawn settings s.draws r.issue.ticket
  once : (s.sent.map fun r => r.issue.ticket).Nodup
  cached : ∀ ticket entry, s.tickets.find ticket = some entry → Drawn settings s.draws ticket
  entry : ∀ r ∈ s.sent, ∀ entry, s.tickets.find r.issue.ticket = some entry → entry = r.issue.entry
  timed : ∀ r ∈ s.sent, r.issue.storedUntil ≤ s.clock + ticketSeconds * microsecondsPerSecond
  storedDrawn : ∀ i c issue, s.callbacks.find i = some c → c.phase.issue = some issue → Drawn settings s.draws issue.ticket
  storedEntry : ∀ i c issue, s.callbacks.find i = some c → c.phase.issue = some issue →
    ∀ entry, s.tickets.find issue.ticket = some entry → entry = issue.entry
  storedTimed : ∀ i c issue, s.callbacks.find i = some c → c.phase.issue = some issue →
    issue.storedUntil ≤ s.clock + ticketSeconds * microsecondsPerSecond
  unsent : ∀ i c issue, s.callbacks.find i = some c → c.phase.issue = some issue → ∀ r ∈ s.sent, r.issue.ticket ≠ issue.ticket
  alone : ∀ i j c d a b, s.callbacks.find i = some c → s.callbacks.find j = some d → c.phase.issue = some a →
    d.phase.issue = some b → a.ticket = b.ticket → i = j

theorem Issued.frame (h : Issued settings s) (hdraws : s'.draws = s.draws) (hsent : s'.sent = s.sent)
    (hclock : s.clock ≤ s'.clock)
    (htickets : ∀ ticket entry, s'.tickets.find ticket = some entry → s.tickets.find ticket = some entry)
    (hcallbacks : ∀ i c issue, s'.callbacks.find i = some c → c.phase.issue = some issue →
      ∃ d, s.callbacks.find i = some d ∧ d.phase.issue = some issue) : Issued settings s' := by
  constructor
  · rw [hsent, hdraws]
    exact h.drawn
  · rw [hsent]
    exact h.once
  · rw [hdraws]
    exact fun ticket entry hentry => h.cached ticket entry (htickets ticket entry hentry)
  · rw [hsent]
    exact fun r hr entry hentry => h.entry r hr entry (htickets _ entry hentry)
  · rw [hsent]
    exact fun r hr => (h.timed r hr).trans (add_le_add_left hclock _)
  · rw [hdraws]
    intro i c issue hc hissue
    obtain ⟨d, hd, hold⟩ := hcallbacks i c issue hc hissue
    exact h.storedDrawn i d issue hd hold
  · intro i c issue hc hissue entry hentry
    obtain ⟨d, hd, hold⟩ := hcallbacks i c issue hc hissue
    exact h.storedEntry i d issue hd hold entry (htickets _ entry hentry)
  · intro i c issue hc hissue
    obtain ⟨d, hd, hold⟩ := hcallbacks i c issue hc hissue
    exact (h.storedTimed i d issue hd hold).trans (add_le_add_left hclock _)
  · rw [hsent]
    intro i c issue hc hissue
    obtain ⟨d, hd, hold⟩ := hcallbacks i c issue hc hissue
    exact h.unsent i d issue hd hold
  · intro i j c d a b hc hd ha hb
    obtain ⟨c', hc', ha'⟩ := hcallbacks i c a hc ha
    obtain ⟨d', hd', hb'⟩ := hcallbacks j d b hd hb
    exact h.alone i j c' d' a b hc' hd' ha' hb'

theorem saved_issue (hissue : c.phase.issue = none) {k : Nat} {issue : Issue}
    (hd : (s.callbacks.put i c).find k = some d) (hd' : d.phase.issue = some issue) :
    ∃ e, s.callbacks.find k = some e ∧ e.phase.issue = some issue := by
  rcases Table.find_put_cases hd with ⟨-, rfl⟩ | ⟨-, hold⟩
  · rw [hissue] at hd'
    cases hd'
  · exact ⟨d, hold, hd'⟩

theorem issue_none {phase : CallbackPhase} (h : phase.hold = none) : phase.issue = none := by
  cases phase with
  | waiting | answered => rfl
  | locked | refused | resolved | stored => cases h

theorem Drawn.succ {draws : Nat} {ticket : String} (h : Drawn settings draws ticket) : Drawn settings (draws + 1) ticket := by
  obtain ⟨k, hk, heq⟩ := h
  exact ⟨k, Nat.lt_succ_of_lt hk, heq⟩

theorem Drawn.ne_next (htoken : Function.Injective settings.token) {draws : Nat} {ticket : String}
    (h : Drawn settings draws ticket) : ticket ≠ settings.token draws := by
  obtain ⟨k, hk, rfl⟩ := h
  exact fun heq => absurd (htoken heq) (Nat.ne_of_lt hk)

theorem Issued.issued {consumedAt : Timestamp} {resolution : Resolution} {user nextUser : Nat} (h : Issued settings s)
    (htoken : Function.Injective settings.token) :
    Issued settings (issue settings { s with nextUser } i c hold consumedAt resolution user) where
  drawn r hr := (h.drawn r hr).succ
  once := h.once
  cached ticket entry hentry := by
    rcases Table.find_put_cases hentry with ⟨rfl, -⟩ | ⟨-, hold⟩
    · exact ⟨s.draws, Nat.lt_succ_self _, rfl⟩
    · exact (h.cached ticket entry hold).succ
  entry r hr entry hentry := by
    rcases Table.find_put_cases hentry with ⟨heq, -⟩ | ⟨-, hold⟩
    · exact absurd heq ((h.drawn r hr).ne_next htoken)
    · exact h.entry r hr entry hold
  timed := h.timed
  storedDrawn j d issue hd hissue := by
    rcases Table.find_put_cases hd with ⟨-, rfl⟩ | ⟨-, hold⟩
    · obtain rfl := Option.some.inj hissue
      exact ⟨s.draws, Nat.lt_succ_self _, rfl⟩
    · exact (h.storedDrawn j d issue hold hissue).succ
  storedEntry j d issue hd hissue entry hentry := by
    rcases Table.find_put_cases hd with ⟨-, rfl⟩ | ⟨-, hdold⟩
    · obtain rfl := Option.some.inj hissue
      exact (Option.some.inj ((Table.find_put_self _ _ _).symm.trans hentry)).symm
    · rcases Table.find_put_cases hentry with ⟨heq, -⟩ | ⟨-, hold⟩
      · exact absurd heq ((h.storedDrawn j d issue hdold hissue).ne_next htoken)
      · exact h.storedEntry j d issue hdold hissue entry hold
  storedTimed j d issue hd hissue := by
    rcases Table.find_put_cases hd with ⟨-, rfl⟩ | ⟨-, hold⟩
    · obtain rfl := Option.some.inj hissue
      exact le_refl _
    · exact h.storedTimed j d issue hold hissue
  unsent j d issue hd hissue r hr := by
    rcases Table.find_put_cases hd with ⟨-, rfl⟩ | ⟨-, hold⟩
    · obtain rfl := Option.some.inj hissue
      exact (h.drawn r hr).ne_next htoken
    · exact h.unsent j d issue hold hissue r hr
  alone j k d e a b hd he ha hb hsame := by
    rcases Table.find_put_cases hd with ⟨rfl, rfl⟩ | ⟨-, hdold⟩
    · rcases Table.find_put_cases he with ⟨rfl, -⟩ | ⟨-, heold⟩
      · rfl
      · obtain rfl := Option.some.inj ha
        exact absurd hsame.symm ((h.storedDrawn k e b heold hb).ne_next htoken)
    · rcases Table.find_put_cases he with ⟨-, rfl⟩ | ⟨-, heold⟩
      · obtain rfl := Option.some.inj hb
        exact absurd hsame ((h.storedDrawn j d a hdold ha).ne_next htoken)
      · exact h.alone j k d e a b hdold heold ha hb hsame

-- The callback that drew a ticket sends it.
theorem Issued.sent (h : Issued settings s) (hc : s.callbacks.find i = some c) (hissue : c.phase.issue = some r.issue)
    (hd : d.phase.issue = none) : Issued settings { s with callbacks := s.callbacks.put i d, sent := r :: s.sent } := by
  have hothers : ∀ j e issue, (s.callbacks.put i d).find j = some e → e.phase.issue = some issue →
      s.callbacks.find j = some e ∧ r.issue.ticket ≠ issue.ticket := by
    intro j e issue he heissue
    rcases Table.find_put_cases he with ⟨-, rfl⟩ | ⟨hne, hold⟩
    · rw [hd] at heissue
      cases heissue
    · exact ⟨hold, fun hsame => hne (h.alone i j c e r.issue issue hc hold hissue heissue hsame).symm⟩
  have hnew : r.issue.ticket ∉ s.sent.map fun r => r.issue.ticket := fun hmem => by
    obtain ⟨other, hother, hsame⟩ := List.mem_map.mp hmem
    exact h.unsent i c r.issue hc hissue other hother hsame
  constructor
  · exact List.forall_mem_cons.mpr ⟨h.storedDrawn i c r.issue hc hissue, h.drawn⟩
  · exact List.nodup_cons.mpr ⟨hnew, h.once⟩
  · exact h.cached
  · exact List.forall_mem_cons.mpr ⟨h.storedEntry i c r.issue hc hissue, h.entry⟩
  · exact List.forall_mem_cons.mpr ⟨h.storedTimed i c r.issue hc hissue, h.timed⟩
  · exact fun j e issue he heissue => h.storedDrawn j e issue (hothers j e issue he heissue).1 heissue
  · exact fun j e issue he heissue => h.storedEntry j e issue (hothers j e issue he heissue).1 heissue
  · exact fun j e issue he heissue => h.storedTimed j e issue (hothers j e issue he heissue).1 heissue
  · intro j e issue he heissue
    obtain ⟨hold, hne⟩ := hothers j e issue he heissue
    exact List.forall_mem_cons.mpr ⟨hne, h.unsent j e issue hold heissue⟩
  · intro j k e f a b he hf ha hb
    exact h.alone j k e f a b (hothers j e a he ha).1 (hothers k f b hf hb).1 ha hb

theorem Issued.change (htoken : Function.Injective settings.token) (h : Issued settings s)
    (hchange : GoogleChange settings s op s') : Issued settings s' := by
  have hsame : ∀ i c issue, s.callbacks.find i = some c → c.phase.issue = some issue →
      ∃ d, s.callbacks.find i = some d ∧ d.phase.issue = some issue := fun i c issue hc hissue => ⟨c, hc, hissue⟩
  cases hchange with
  | nothing => exact h
  | ticked d =>
    refine h.frame rfl rfl ?_ (fun _ _ hentry => hentry) hsame
    exact le_add_of_nonneg_right (Int.natCast_nonneg d)
  | started row => exact h.frame rfl rfl (le_refl _) (fun _ _ hentry => hentry) hsame
  | released hbefore hhold hticket =>
    exact h.frame rfl rfl (le_refl _) (fun _ _ hentry => hentry) fun k d issue hd hissue =>
      saved_issue (issue_none hhold) hd hissue
  | locked hc hphase hfree hrow hunconsumed htime =>
    exact h.frame rfl rfl (le_refl _) (fun _ _ hentry => hentry) fun k d issue hd hissue => saved_issue rfl hd hissue
  | identified hc hphase hhold hissue hunowned =>
    exact h.frame rfl rfl (le_refl _) (fun _ _ hentry => hentry) fun k d issue hd hd' => saved_issue hissue hd hd'
  | issued nextUser hc hphase huser => exact h.issued htoken
  | denied hc hphase =>
    rw [consume_eq]
    exact h.frame rfl rfl (le_refl _) (fun _ _ hentry => hentry) fun k d issue hd hissue => saved_issue rfl hd hissue
  | @sent _ i c hold consumedAt resolution issue row hc hphase hrow =>
    have hissue : c.phase.issue = some issue := by rw [hphase]; rfl
    have hsent := h.sent (r := ⟨hold.transaction, hold.lockedAt, row.expiresAt, resolution, issue⟩)
      (d := { c with phase := .answered (.ticket issue.ticket) }) hc hissue rfl
    rw [register_eq, consume_eq]
    exact hsent.frame rfl rfl (le_refl _) (fun _ _ hentry => hentry) fun i c issue hc hissue => ⟨c, hc, hissue⟩
  | replayed hanswered => exact h.frame rfl rfl (le_refl _) (fun _ _ hentry => hentry) hsame
  | added hfree hmark => exact h.frame rfl rfl (le_refl _) (fun _ _ hentry => hentry) hsame
  | got he hphase => exact h.frame rfl rfl (le_refl _) (fun _ _ hentry => hentry) hsame
  | dropped he hphase hnext hover =>
    exact h.frame rfl rfl (le_refl _) (fun _ _ hentry => (Table.find_erase_eq_some.mp hentry).2) hsame
  | minted he hphase => exact h.frame rfl rfl (le_refl _) (fun _ _ hentry => hentry) hsame

end Issued

section Redeemed

-- What a client may present: a ticket that was sent, or no token at all
def Presented (settings : GoogleSettings) (s : GoogleSystem) (ticket : String) : Prop :=
  (∀ k, ticket ≠ settings.token k) ∨ ∃ r ∈ s.sent, r.issue.ticket = ticket

-- Tokens are not guessed.
def Unguessed (settings : GoogleSettings) (s : GoogleSystem) : GoogleStep → Prop
  | .submit _ ticket => Presented settings s ticket
  | _ => True

def Open (e : Credential) : Prop := ∀ reply, e.phase ≠ .answered reply

-- Past its cache.get with a payload
def Holding (e : Credential) (user : Nat) : Prop := e.phase = .got (some user) ∨ e.phase = .deleted user

-- An exchange that may still find the ticket, or has found it
def Live (s : GoogleSystem) (e : Credential) (r : Sent) : Prop :=
  e.ticket = r.issue.ticket ∧ (e.phase = .added ∧ s.clock < r.issue.storedUntil ∨ ∃ user, Holding e user)

def Tried (s : GoogleSystem) (ticket : String) : Prop :=
  (∃ j e, s.credentials.find j = some e ∧ Open e ∧ e.ticket = ticket) ∨ ∃ p ∈ s.pairs, p.ticket = ticket

structure Redeemed (settings : GoogleSettings) (s : GoogleSystem) : Prop where
  presented : ∀ j e, s.credentials.find j = some e → Open e → Presented settings s e.ticket
  -- the mark of a ticket that was tried outlives the ticket
  marked : ∀ r ∈ s.sent, Tried s r.issue.ticket →
    ∃ until_, s.used.find r.issue.ticket = some until_ ∧ r.issue.storedUntil ≤ until_
  payload : ∀ j e user, s.credentials.find j = some e → Holding e user →
    ∃ r ∈ s.sent, r.issue.ticket = e.ticket ∧ r.issue.user = user
  alone : ∀ r ∈ s.sent, ∀ j k e f, s.credentials.find j = some e → s.credentials.find k = some f → Live s e r → Live s f r →
    j = k
  unpaired : ∀ r ∈ s.sent, ∀ j e, s.credentials.find j = some e → Live s e r → ∀ p ∈ s.pairs, p.ticket ≠ r.issue.ticket
  pairs : ∀ p ∈ s.pairs, ∃ r ∈ s.sent, r.issue.ticket = p.ticket ∧ r.issue.user = p.user
  once : (s.pairs.map TokenPair.ticket).Nodup

theorem Holding.isOpen {user : Nat} (h : Holding e user) : Open e := by
  intro reply heq
  rcases h with hgot | hdeleted
  · cases hgot.symm.trans heq
  · cases hdeleted.symm.trans heq

theorem Live.isOpen (h : Live s e r) : Open e := by
  rcases h.2 with ⟨hadded, -⟩ | ⟨user, hholding⟩
  · intro reply heq
    cases hadded.symm.trans heq
  · exact hholding.isOpen

theorem Live.earlier (hclock : s.clock ≤ s'.clock) (h : Live s' e r) : Live s e r := by
  refine ⟨h.1, h.2.imp (fun hadded => ⟨hadded.1, lt_of_le_of_lt hclock hadded.2⟩) fun hholding => hholding⟩

-- The exchanges that are not answered go on as they are, and time passes.
theorem Redeemed.frame (h : Redeemed settings s) (hsent : s'.sent = s.sent) (hused : s'.used = s.used)
    (hpairs : s'.pairs = s.pairs) (hclock : s.clock ≤ s'.clock)
    (hcredentials : ∀ j e, s'.credentials.find j = some e → Open e → s.credentials.find j = some e) :
    Redeemed settings s' := by
  constructor
  · intro j e he hopen
    unfold Presented
    rw [hsent]
    exact h.presented j e (hcredentials j e he hopen) hopen
  · rw [hsent, hused]
    intro r hr htried
    refine h.marked r hr (htried.imp ?_ ?_)
    · rintro ⟨j, e, he, hopen, hticket⟩
      exact ⟨j, e, hcredentials j e he hopen, hopen, hticket⟩
    · rw [hpairs]
      exact id
  · rw [hsent]
    exact fun j e user he hholding => h.payload j e user (hcredentials j e he hholding.isOpen) hholding
  · rw [hsent]
    intro r hr j k e f he hf hlive hlive'
    exact h.alone r hr j k e f (hcredentials j e he hlive.isOpen) (hcredentials k f hf hlive'.isOpen)
      (hlive.earlier hclock) (hlive'.earlier hclock)
  · rw [hsent, hpairs]
    intro r hr j e he hlive
    exact h.unpaired r hr j e (hcredentials j e he hlive.isOpen) (hlive.earlier hclock)
  · rw [hsent, hpairs]
    exact h.pairs
  · rw [hpairs]
    exact h.once

theorem answered_closed {j k : Nat} (hanswered : ∃ reply, f.phase = .answered reply)
    (he : (s.credentials.put j f).find k = some e) (hopen : Open e) : s.credentials.find k = some e := by
  rcases Table.find_put_cases he with ⟨-, rfl⟩ | ⟨-, hold⟩
  · obtain ⟨reply, heq⟩ := hanswered
    exact absurd heq (hopen reply)
  · exact hold

-- An open exchange takes a step: what it may hold afterwards it might before.
theorem Redeemed.stepped (h : Redeemed settings s) (he : s.credentials.find j = some e) (hopen : Open e)
    (hticket : f.ticket = e.ticket) (hlive : ∀ r ∈ s.sent, Live s f r → Live s e r)
    (hpayload : ∀ user, Holding f user → ∃ r ∈ s.sent, r.issue.ticket = f.ticket ∧ r.issue.user = user) :
    Redeemed settings { s with credentials := s.credentials.put j f } where
  presented k g hg hgopen := by
    rcases Table.find_put_cases hg with ⟨-, rfl⟩ | ⟨-, hold⟩
    · rw [hticket]
      exact h.presented j e he hopen
    · exact h.presented k g hold hgopen
  marked r hr htried := by
    refine h.marked r hr (htried.imp ?_ id)
    rintro ⟨k, g, hg, hgopen, hsame⟩
    rcases Table.find_put_cases hg with ⟨-, rfl⟩ | ⟨-, hold⟩
    · exact ⟨j, e, he, hopen, hticket.symm.trans hsame⟩
    · exact ⟨k, g, hold, hgopen, hsame⟩
  payload k g user hg hholding := by
    rcases Table.find_put_cases hg with ⟨-, rfl⟩ | ⟨-, hold⟩
    · exact hpayload user hholding
    · exact h.payload k g user hold hholding
  alone r hr k l g g' hg hg' hglive hglive' := by
    have hbefore : ∀ m a, (s.credentials.put j f).find m = some a → Live s a r →
        ∃ b, s.credentials.find m = some b ∧ Live s b r := by
      intro m a ha halive
      rcases Table.find_put_cases ha with ⟨rfl, rfl⟩ | ⟨-, hold⟩
      · exact ⟨e, he, hlive r hr halive⟩
      · exact ⟨a, hold, halive⟩
    obtain ⟨b, hb, hblive⟩ := hbefore k g hg hglive
    obtain ⟨b', hb', hblive'⟩ := hbefore l g' hg' hglive'
    exact h.alone r hr k l b b' hb hb' hblive hblive'
  unpaired r hr k g hg hglive := by
    rcases Table.find_put_cases hg with ⟨-, rfl⟩ | ⟨-, hold⟩
    · exact h.unpaired r hr j e he (hlive r hr hglive)
    · exact h.unpaired r hr k g hold hglive
  pairs := h.pairs
  once := h.once

theorem livePayload_sent (hissued : Issued settings s) {user : Nat} (hr : r ∈ s.sent)
    (h : livePayload s r.issue.ticket = some user) : r.issue.user = user ∧ s.clock < r.issue.storedUntil := by
  obtain ⟨entry, hentry, rfl⟩ := Option.map_eq_some_iff.mp h
  obtain ⟨hfound, htime⟩ := Option.filter_eq_some_iff.mp hentry
  obtain rfl := hissued.entry r hr entry hfound
  exact ⟨rfl, of_decide_eq_true htime⟩

theorem livePayload_presented (hissued : Issued settings s) {ticket : String} {user : Nat}
    (hpresented : Presented settings s ticket) (h : livePayload s ticket = some user) :
    ∃ r ∈ s.sent, r.issue.ticket = ticket := by
  rcases hpresented with hno | hsent
  · obtain ⟨entry, hentry, -⟩ := Option.map_eq_some_iff.mp h
    obtain ⟨k, -, htoken⟩ := hissued.cached _ entry (Option.filter_eq_some_iff.mp hentry).1
    exact absurd htoken (hno k)
  · exact hsent

theorem Redeemed.got (h : Redeemed settings s) (hissued : Issued settings s) (he : s.credentials.find j = some e)
    (hphase : e.phase = .added) : Redeemed settings (s.turnCredential j e (.got (livePayload s e.ticket))) := by
  have hopen : Open e := fun reply heq => by cases hphase.symm.trans heq
  have hpayload : ∀ user, Holding { e with phase := .got (livePayload s e.ticket) } user →
      livePayload s e.ticket = some user := by
    rintro user (hgot | hdeleted)
    · exact CredentialPhase.got.inj hgot
    · cases hdeleted
  refine h.stepped he hopen rfl (fun r hr hlive => ?_) fun user hholding => ?_
  · rcases hlive.2 with ⟨hadded, -⟩ | ⟨user, hholding⟩
    · cases hadded
    · have hfound := hpayload user hholding
      rw [show e.ticket = r.issue.ticket from hlive.1] at hfound
      exact ⟨hlive.1, .inl ⟨hphase, (livePayload_sent hissued hr hfound).2⟩⟩
  · have hfound := hpayload user hholding
    obtain ⟨r, hr, hticket⟩ := livePayload_presented hissued (h.presented j e he hopen) hfound
    rw [← hticket] at hfound
    exact ⟨r, hr, hticket, (livePayload_sent hissued hr hfound).1⟩

theorem Redeemed.dropped {payload : Option Nat} {phase : CredentialPhase} (h : Redeemed settings s)
    (he : s.credentials.find j = some e) (hphase : e.phase = .got payload)
    (hnext : ∀ user, phase = .deleted user → payload = some user)
    (hover : (∃ user, phase = .deleted user) ∨ ∃ reply, phase = .answered reply) :
    Redeemed settings (s.turnCredential j e phase) := by
  have hopen : Open e := fun reply heq => by cases hphase.symm.trans heq
  have hheld : ∀ user, Holding { e with phase } user → Holding e user := by
    rintro user (hgot | hdeleted)
    · have hgot : phase = .got (some user) := hgot
      rcases hover with ⟨user', rfl⟩ | ⟨reply, rfl⟩
      · cases hgot
      · cases hgot
    · exact .inl (hphase.trans (congrArg CredentialPhase.got (hnext user hdeleted)))
  refine h.stepped he hopen rfl (fun r hr hlive => ?_) fun user hholding => h.payload j e user he (hheld user hholding)
  refine ⟨hlive.1, ?_⟩
  rcases hlive.2 with ⟨hadded, -⟩ | ⟨user, hholding⟩
  · have hadded : phase = .added := hadded
    rcases hover with ⟨user', rfl⟩ | ⟨reply, rfl⟩
    · cases hadded
    · cases hadded
  · exact .inr ⟨user, hheld user hholding⟩

theorem Redeemed.minted {user : Nat} (h : Redeemed settings s) (he : s.credentials.find j = some e)
    (hphase : e.phase = .deleted user) : Redeemed settings
      { s.turnCredential j e (.answered (.session user)) with pairs := ⟨e.ticket, user⟩ :: s.pairs } := by
  have hholding : Holding e user := .inr hphase
  obtain ⟨r, hr, hticket, huser⟩ := h.payload j e user he hholding
  have hlive : Live s e r := ⟨hticket.symm, .inr ⟨user, hholding⟩⟩
  have hunpaired := h.unpaired r hr j e he hlive
  have hothers : ∀ k f, (s.credentials.put j { e with phase := .answered (.session user) }).find k = some f → Open f →
      k ≠ j ∧ s.credentials.find k = some f := by
    intro k f hf hopen
    rcases Table.find_put_cases hf with ⟨-, rfl⟩ | ⟨hne, hold⟩
    · exact absurd rfl (hopen _)
    · exact ⟨hne, hold⟩
  constructor
  · exact fun k f hf hopen => h.presented k f (hothers k f hf hopen).2 hopen
  · rintro r' hr' (⟨k, f, hf, hopen, hsame⟩ | ⟨p, hp, hsame⟩)
    · exact h.marked r' hr' (.inl ⟨k, f, (hothers k f hf hopen).2, hopen, hsame⟩)
    · rcases List.mem_cons.mp hp with rfl | hold
      · exact h.marked r' hr' (.inl ⟨j, e, he, hholding.isOpen, hsame⟩)
      · exact h.marked r' hr' (.inr ⟨p, hold, hsame⟩)
  · exact fun k f user' hf hheld => h.payload k f user' (hothers k f hf hheld.isOpen).2 hheld
  · exact fun r' hr' k l f g hf hg hflive hglive => h.alone r' hr' k l f g (hothers k f hf hflive.isOpen).2
      (hothers l g hg hglive.isOpen).2 hflive hglive
  · intro r' hr' k f hf hflive p hp
    obtain ⟨hne, hold⟩ := hothers k f hf hflive.isOpen
    rcases List.mem_cons.mp hp with rfl | hmem
    · intro hsame
      exact hne (h.alone r' hr' k j f e hold he hflive ⟨hsame, .inr ⟨user, hholding⟩⟩)
    · exact h.unpaired r' hr' k f hold hflive p hmem
  · exact List.forall_mem_cons.mpr ⟨⟨r, hr, hticket, huser⟩, h.pairs⟩
  · refine List.nodup_cons.mpr ⟨fun hmem => ?_, h.once⟩
    obtain ⟨p, hp, hsame⟩ := List.mem_map.mp hmem
    exact hunpaired p hp (hsame.trans hticket.symm)

theorem usedSeconds_longer (now : Timestamp) : now + ticketSeconds * microsecondsPerSecond ≤
    now + usedSeconds * microsecondsPerSecond := by
  have hseconds : ticketSeconds * microsecondsPerSecond ≤ usedSeconds * microsecondsPerSecond := by decide
  linarith

theorem Redeemed.added {ticket : String} (h : Redeemed settings s) (hissued : Issued settings s)
    (hpresented : Presented settings s ticket) (hfree : s.credentials.find j = none)
    (hmark : ∀ expiresAt, s.used.find ticket = some expiresAt → expiresAt ≤ s.clock) : Redeemed settings
      { s with
        used := s.used.put ticket (s.clock + usedSeconds * microsecondsPerSecond)
        credentials := s.credentials.put j ⟨ticket, .added⟩ } := by
  -- a live ticket that was tried before still has its mark
  have huntried : ∀ r ∈ s.sent, r.issue.ticket = ticket → s.clock < r.issue.storedUntil → ¬Tried s r.issue.ticket := by
    intro r hr hticket htime htried
    obtain ⟨until_, hfound, hlong⟩ := h.marked r hr htried
    rw [hticket] at hfound
    exact absurd (lt_of_lt_of_le htime hlong) (not_lt.mpr (hmark until_ hfound))
  have hnew : ∀ r, Live s ⟨ticket, .added⟩ r → r.issue.ticket = ticket ∧ s.clock < r.issue.storedUntil := by
    rintro r ⟨hticket, ⟨-, htime⟩ | ⟨user, hgot | hdeleted⟩⟩
    · exact ⟨hticket.symm, htime⟩
    · cases hgot
    · cases hdeleted
  constructor
  · intro k f hf hopen
    rcases Table.find_put_cases hf with ⟨-, rfl⟩ | ⟨-, hold⟩
    · exact hpresented
    · exact h.presented k f hold hopen
  · intro r hr htried
    by_cases hticket : r.issue.ticket = ticket
    · refine ⟨_, by rw [hticket]; exact Table.find_put_self _ _ _, ?_⟩
      exact (hissued.timed r hr).trans (usedSeconds_longer s.clock)
    · have hold : Tried s r.issue.ticket := by
        rcases htried with ⟨k, f, hf, hopen, hsame⟩ | hpair
        · rcases Table.find_put_cases hf with ⟨-, rfl⟩ | ⟨-, hfold⟩
          · exact absurd hsame.symm hticket
          · exact .inl ⟨k, f, hfold, hopen, hsame⟩
        · exact .inr hpair
      obtain ⟨until_, hfound, hlong⟩ := h.marked r hr hold
      exact ⟨until_, by rw [← hfound]; exact Table.find_put_of_ne _ _ hticket, hlong⟩
  · intro k f user hf hholding
    rcases Table.find_put_cases hf with ⟨-, rfl⟩ | ⟨-, hold⟩
    · rcases hholding with hgot | hdeleted
      · cases hgot
      · cases hdeleted
    · exact h.payload k f user hold hholding
  · intro r hr k l f g hf hg hflive hglive
    rcases Table.find_put_cases hf with ⟨rfl, rfl⟩ | ⟨-, hfold⟩
    · rcases Table.find_put_cases hg with ⟨rfl, -⟩ | ⟨-, hgold⟩
      · rfl
      · obtain ⟨hticket, htime⟩ := hnew r hflive
        exact absurd (.inl ⟨l, g, hgold, hglive.isOpen, hglive.1⟩) (huntried r hr hticket htime)
    · rcases Table.find_put_cases hg with ⟨-, rfl⟩ | ⟨-, hgold⟩
      · obtain ⟨hticket, htime⟩ := hnew r hglive
        exact absurd (.inl ⟨k, f, hfold, hflive.isOpen, hflive.1⟩) (huntried r hr hticket htime)
      · exact h.alone r hr k l f g hfold hgold hflive hglive
  · intro r hr k f hf hlive p hp
    rcases Table.find_put_cases hf with ⟨-, rfl⟩ | ⟨-, hold⟩
    · obtain ⟨hticket, htime⟩ := hnew r hlive
      exact fun hsame => huntried r hr hticket htime (.inr ⟨p, hp, hsame⟩)
    · exact h.unpaired r hr k f hold hlive p hp
  · exact h.pairs
  · exact h.once

-- Nobody has tried a ticket before it is sent.
theorem Redeemed.sent (h : Redeemed settings s) (hdrawn : Drawn settings s.draws r.issue.ticket)
    (hunsent : ∀ other ∈ s.sent, other.issue.ticket ≠ r.issue.ticket) :
    Redeemed settings { s with sent := r :: s.sent } := by
  have hopen : ∀ j e, s.credentials.find j = some e → Open e → e.ticket ≠ r.issue.ticket := by
    intro j e he hopen hsame
    rcases h.presented j e he hopen with hno | ⟨other, hother, hticket⟩
    · obtain ⟨k, -, htoken⟩ := hdrawn
      exact hno k (hsame.trans htoken)
    · exact hunsent other hother (hticket.trans hsame)
  have huntried : ¬Tried s r.issue.ticket := by
    rintro (⟨j, e, he, hopen', hsame⟩ | ⟨p, hp, hsame⟩)
    · exact hopen j e he hopen' hsame
    · obtain ⟨other, hother, hticket, -⟩ := h.pairs p hp
      exact hunsent other hother (hticket.trans hsame)
  have hkept : ∀ {P : Sent → Prop}, (∃ other ∈ s.sent, P other) → ∃ other ∈ r :: s.sent, P other := by
    rintro P ⟨other, hother, hP⟩
    exact ⟨other, List.mem_cons_of_mem _ hother, hP⟩
  constructor
  · exact fun j e he hopen => (h.presented j e he hopen).imp id hkept
  · exact List.forall_mem_cons.mpr ⟨fun htried => absurd htried huntried, h.marked⟩
  · exact fun j e user he hholding => hkept (h.payload j e user he hholding)
  · exact List.forall_mem_cons.mpr ⟨fun j k e f he hf hlive => absurd hlive.1 (hopen j e he hlive.isOpen), h.alone⟩
  · exact List.forall_mem_cons.mpr ⟨fun j e he hlive => absurd hlive.1 (hopen j e he hlive.isOpen), h.unpaired⟩
  · exact fun p hp => hkept (h.pairs p hp)
  · exact h.once

theorem Redeemed.change (h : Redeemed settings s) (hissued : Issued settings s) (hunguessed : Unguessed settings s op)
    (hchange : GoogleChange settings s op s') : Redeemed settings s' := by
  cases hchange with
  | nothing => exact h
  | ticked d => exact h.frame rfl rfl rfl (le_add_of_nonneg_right (Int.natCast_nonneg d)) fun _ _ he _ => he
  | started row => exact h.frame rfl rfl rfl (le_refl _) fun _ _ he _ => he
  | released hbefore hhold hticket => exact h.frame rfl rfl rfl (le_refl _) fun _ _ he _ => he
  | locked hc hphase hfree hrow hunconsumed htime => exact h.frame rfl rfl rfl (le_refl _) fun _ _ he _ => he
  | identified hc hphase hhold hissue hunowned => exact h.frame rfl rfl rfl (le_refl _) fun _ _ he _ => he
  | issued nextUser hc hphase huser => exact h.frame rfl rfl rfl (le_refl _) fun _ _ he _ => he
  | denied hc hphase =>
    rw [consume_eq]
    exact h.frame rfl rfl rfl (le_refl _) fun _ _ he _ => he
  | @sent _ i c hold consumedAt resolution issue row hc hphase hrow =>
    have hissue : c.phase.issue = some issue := by rw [hphase]; rfl
    have hsent := h.sent (r := ⟨hold.transaction, hold.lockedAt, row.expiresAt, resolution, issue⟩)
      (hissued.storedDrawn i c issue hc hissue) (hissued.unsent i c issue hc hissue)
    rw [register_eq, consume_eq]
    exact hsent.frame rfl rfl rfl (le_refl _) fun _ _ he _ => he
  | replayed hanswered =>
    exact h.frame rfl rfl rfl (le_refl _) fun _ _ he hopen => answered_closed hanswered he hopen
  | added hfree hmark => exact h.added hissued hunguessed hfree hmark
  | got he hphase => exact h.got hissued he hphase
  | dropped he hphase hnext hover =>
    have hdropped := h.dropped he hphase hnext hover
    exact hdropped.frame rfl rfl rfl (le_refl _) fun _ _ he _ => he
  | minted he hphase => exact h.minted he hphase

end Redeemed

structure SingleLogin (s : GoogleSystem) : Prop where
  sentOnce : (s.sent.map Sent.transaction).Nodup
  timely : ∀ r ∈ s.sent, r.lockedAt < r.expiresAt
  pairsOnce : (s.pairs.map TokenPair.ticket).Nodup
  -- the pair of a ticket is for the user that its callback resolved
  pairsFor : ∀ p ∈ s.pairs, ∀ r ∈ s.sent, r.issue.ticket = p.ticket → r.issue.user = p.user
  pairsSent : ∀ p ∈ s.pairs, ∃ r ∈ s.sent, r.issue.ticket = p.ticket
  linked : ∀ r ∈ s.sent, ∀ user, r.resolution.linked = some user → r.issue.user = user

-- No ticket for an identity whose email an account has that is not linked to it
def NoStranger (s : GoogleSystem) : Prop :=
  ∀ r ∈ s.sent, ∀ owner ∈ r.resolution.owners, r.resolution.linked = some owner

-- No ticket for an identity that is not linked and whose email an account has
def NoOwner (s : GoogleSystem) : Prop := ∀ r ∈ s.sent, r.resolution.Unowned

-- Accounts and links change by a callback alone that ends with a ticket, and an answer is final.
structure ErrorsCreateNothing (s s' : GoogleSystem) : Prop where
  created : (s'.users = s.users ∧ s'.identities = s.identities) ∨ ∃ i c ticket, s'.callbacks.find i = some c ∧
    c.phase = .answered (.ticket ticket) ∧ ∀ d, s.callbacks.find i = some d → ¬Final d.phase
  final : ∀ i c, s.callbacks.find i = some c → Final c.phase → s'.callbacks.find i = some c

structure LoginLaw (owned : GoogleSystem → Prop) (settings : GoogleSettings) (start : GoogleSystem) (ops : List GoogleStep) :
    Prop where
  single : ∀ before after, ops = before ++ after → SingleLogin (before.foldl (googleStep settings) start)
  owned : ∀ before after, ops = before ++ after → owned (before.foldl (googleStep settings) start)
  errors : ∀ before op after, ops = before ++ op :: after →
    ErrorsCreateNothing (before.foldl (googleStep settings) start)
      (googleStep settings (before.foldl (googleStep settings) start) op)

theorem put_final {i : Nat} {c : Callback} (hbefore : ∀ d, s.callbacks.find i = some d → ¬Final d.phase) (k : Nat)
    (d : Callback) (hd : s.callbacks.find k = some d) (hfinal : Final d.phase) :
    (s.callbacks.put i c).find k = some d := by
  have hne : k ≠ i := by
    rintro rfl
    exact hbefore d hd hfinal
  rw [Table.find_put_of_ne _ _ hne]
  exact hd

theorem unfinished {phase : CallbackPhase} (hc : s.callbacks.find i = some c) (hphase : c.phase = phase)
    (hopen : ∀ reply, phase ≠ .answered reply) : ∀ d, s.callbacks.find i = some d → ¬Final d.phase := by
  rintro d hd ⟨reply, hreply⟩
  obtain rfl := Option.some.inj (hc.symm.trans hd)
  exact hopen reply (hphase.symm.trans hreply)

theorem GoogleChange.errors (hchange : GoogleChange settings s op s') : ErrorsCreateNothing s s' := by
  have hsame : ∀ i c, s.callbacks.find i = some c → Final c.phase → s.callbacks.find i = some c := fun _ _ hc _ => hc
  cases hchange with
  | nothing | ticked | started | replayed | added | got | dropped | minted => exact ⟨.inl ⟨rfl, rfl⟩, hsame⟩
  | released hbefore hhold hticket => exact ⟨.inl ⟨rfl, rfl⟩, put_final hbefore⟩
  | locked hc hphase hfree hrow hunconsumed htime =>
    exact ⟨.inl ⟨rfl, rfl⟩, put_final (unfinished hc hphase fun _ h => (by cases h))⟩
  | identified hc hphase hhold hissue hunowned =>
    exact ⟨.inl ⟨rfl, rfl⟩, put_final (unfinished hc hphase fun _ h => (by cases h))⟩
  | issued nextUser hc hphase huser =>
    exact ⟨.inl ⟨rfl, rfl⟩, put_final (unfinished hc hphase fun _ h => (by cases h))⟩
  | denied hc hphase =>
    rw [consume_eq]
    exact ⟨.inl ⟨rfl, rfl⟩, put_final (unfinished hc hphase fun _ h => (by cases h))⟩
  | @sent _ i c hold consumedAt resolution issue row hc hphase hrow =>
    have hbefore := unfinished hc hphase fun _ h => (by cases h)
    rw [register_eq, consume_eq]
    exact ⟨.inr ⟨i, _, issue.ticket, Table.find_put_self _ _ _, rfl, hbefore⟩, put_final hbefore⟩

structure LoginInvariant (settings : GoogleSettings) (s : GoogleSystem) : Prop where
  locking : Locking s
  issued : Issued settings s
  redeemed : Redeemed settings s

theorem LoginInvariant.single (h : LoginInvariant settings s) : SingleLogin s where
  sentOnce := h.locking.once
  timely := h.locking.timely
  pairsOnce := h.redeemed.once
  pairsFor p hp r hr hticket := by
    obtain ⟨other, hother, hsame, huser⟩ := h.redeemed.pairs p hp
    have heq : other = r := List.inj_on_of_nodup_map h.issued.once hother hr (hsame.trans hticket.symm)
    rw [← heq]
    exact huser
  pairsSent p hp := by
    obtain ⟨r, hr, hticket, -⟩ := h.redeemed.pairs p hp
    exact ⟨r, hr, hticket⟩
  linked r hr := (h.locking.resolved r hr).2

theorem LoginInvariant.initial (users : Table Nat GoogleUser) (identities : List ExternalIdentity) :
    LoginInvariant settings (.initial users identities) where
  locking :=
    { known := fun x row hrow => (by cases hrow)
      alone := fun i j c d hold hold' hc => (by cases hc)
      held := fun i c hold hc => (by cases hc)
      unowned := fun i c resolution hc => (by cases hc)
      issued := fun i c hold consumedAt resolution issue hc => (by cases hc)
      spent := fun r hr => (by cases hr)
      once := List.nodup_nil
      timely := fun r hr => (by cases hr)
      resolved := fun r hr => (by cases hr) }
  issued :=
    { drawn := fun r hr => (by cases hr)
      once := List.nodup_nil
      cached := fun ticket entry hentry => (by cases hentry)
      entry := fun r hr => (by cases hr)
      timed := fun r hr => (by cases hr)
      storedDrawn := fun i c issue hc => (by cases hc)
      storedEntry := fun i c issue hc => (by cases hc)
      storedTimed := fun i c issue hc => (by cases hc)
      unsent := fun i c issue hc => (by cases hc)
      alone := fun i j c d a b hc => (by cases hc) }
  redeemed :=
    { presented := fun j e he => (by cases he)
      marked := fun r hr => (by cases hr)
      payload := fun j e user he => (by cases he)
      alone := fun r hr => (by cases hr)
      unpaired := fun r hr => (by cases hr)
      pairs := fun p hp => (by cases hp)
      once := List.nodup_nil }

theorem google_login {settings : GoogleSettings} (htoken : Function.Injective settings.token) (users : Table Nat GoogleUser)
    (identities : List ExternalIdentity) {ops : List GoogleStep}
    (hunguessed : Throughout (googleStep settings) (Unguessed settings) ops (.initial users identities)) :
    LoginLaw NoOwner settings (.initial users identities) ops := by
  have hrun : ∀ before after, ops = before ++ after →
      LoginInvariant settings (before.foldl (googleStep settings) (.initial users identities)) := by
    rintro before after rfl
    refine (throughout_append.mp hunguessed).1.reaches.invariant (.initial users identities) fun s op h hop => ?_
    have hchange : GoogleChange settings s op (googleStep settings s op) := googleStep_change s op
    exact ⟨h.locking.change hchange, h.issued.change htoken hchange, h.redeemed.change h.issued hop hchange⟩
  constructor
  · exact fun before after hops => (hrun before after hops).single
  · exact fun before after hops r hr => ((hrun before after hops).locking.resolved r hr).1
  · exact fun before op after hops => (googleStep_change _ op).errors

section Runs

def drawnTickets : GoogleSettings where
  token n := String.ofList (List.replicate (n + 1) 'a')
  hash := id
  lower := id
  upper := id
  normalize := id
  autoCreateUsers := true

theorem drawnTickets_injective : Function.Injective drawnTickets.token := by
  intro m n h
  have hlength := congrArg List.length (String.ofList_injective h)
  simpa using hlength

def accounts : Table Nat GoogleUser := (Table.empty.put 0 { email := "ann@x" }).put 1 { email := "bob@x" }

-- Ann's Google identity; its email is by now the one that Bob's account has.
def annAsBob : List GoogleStep :=
  [.start "state" .login 600, .arrive 0 "state" "code", .lock 0, .identify 0 (.claims ⟨"ann", "bob@x"⟩), .store 0 false,
    .commit 0 true]

def annTicket : Sent := ⟨0, 0, 600000000, ⟨"ann", "bob@x", some 0, [1]⟩, ⟨0, "a", 60000000⟩⟩

theorem annAsBob_sent : (annAsBob.foldl (googleStep drawnTickets) (.initial accounts [⟨"ann", 0⟩])).sent = [annTicket] := by
  decide +kernel

theorem linked_identity_signs_in : ¬∀ settings users identities ops, Function.Injective settings.token →
    Throughout (googleStep settings) (Unguessed settings) ops (.initial users identities) →
      LoginLaw NoStranger settings (.initial users identities) ops := by
  intro hclaim
  have hlaw := hclaim drawnTickets accounts [⟨"ann", 0⟩] annAsBob drawnTickets_injective
    ⟨trivial, trivial, trivial, trivial, trivial, trivial, trivial⟩
  have hstranger := hlaw.owned annAsBob [] (List.append_nil _).symm
  rw [NoStranger, annAsBob_sent] at hstranger
  have hlinked := hstranger annTicket List.mem_cons_self 1 List.mem_cons_self
  exact absurd hlinked (by decide)

def redeemed : List GoogleStep := annAsBob ++ [.submit 0 "a", .get 0, .delete 0, .mint 0]

theorem google_login_ann : LoginLaw NoOwner drawnTickets (.initial accounts [⟨"ann", 0⟩]) redeemed := by
  refine google_login drawnTickets_injective accounts [⟨"ann", 0⟩] (throughout_append.mpr
    ⟨⟨trivial, trivial, trivial, trivial, trivial, trivial, trivial⟩, ⟨.inr ?_, trivial, trivial, trivial, trivial⟩⟩)
  rw [annAsBob_sent]
  exact ⟨annTicket, List.mem_cons_self, rfl⟩

end Runs

end GoogleAuth

end Beyvra
