import Beyvra.Realtime.Channels

namespace Beyvra

open Text

def identifier (entry : ChannelEntry) (channel : String) : List Char :=
  channel.toList.drop (entry.pattern.toList.takeWhile (· ≠ '\x7b')).length

def ownIdentifier (r : Realtime) (userId : String) (entry : ChannelEntry) : List Char :=
  if startsWith entry.pattern "simulation." then ("sim-" ++ userId).toList
  else if entry.pattern = treasuryPattern then (r.tenant userId).toList
  else userId.toList

def Authority (r : Realtime) (user : RealtimeUser) (channel : Option String) : Prop :=
  ∀ token, subscriptionToken r user channel = .ok token →
    (∀ beyvra codestra, suppliedSecret beyvra codestra = some r.proxySecret →
      authorizeSubscription r beyvra codestra user.id channel = true) ∧
    ∀ name entry, channel = some name → channelEntry name = some entry → entry.visibility = .owner →
      identifier entry name = ownIdentifier r user.id entry

structure Overreaches (r : Realtime) (user : RealtimeUser) (name : String) (entry : ChannelEntry) :
    Prop where
  enabled : r.enabled = true
  configured : r.secret ≠ ""
  short : name.length ≤ 200
  found : channelEntry name = some entry
  other : identifier entry name ≠ user.id.toList
  unchecked : entry.pattern = institutionalPattern ∨
    (entry.pattern ∈ [notificationPattern, securityPattern] ∧ endsWith name user.id = true)

section Registry

variable {entry : ChannelEntry} {name : String}

structure Personal (entry : ChannelEntry) (stem : List Char) (allowed : Char → Bool) : Prop where
  compiled : compilePattern entry.pattern = literal (stem ++ ['.']) ++ [.many allowed]
  stem : entry.pattern.toList.takeWhile (· ≠ '\x7b') = stem ++ ['.']
  undotted : allowed '.' = false

theorem registry_personal : ∀ entry ∈ channelRegistry, entry.visibility = .owner →
    ∃ stem allowed, Personal entry stem allowed := by
  simp only [channelRegistry, List.forall_mem_cons, List.not_mem_nil, false_imp_iff, implies_true,
    publicChannel, privateChannel, reduceCtorEq, true_imp_iff, true_and, and_true]
  refine ⟨?_, ?_, ?_, ?_, ?_, ?_, ?_, ?_⟩
  · exact ⟨"simulation.order".toList, _, rfl, rfl, rfl⟩
  · exact ⟨"simulation.execution".toList, _, rfl, rfl, rfl⟩
  · exact ⟨"simulation.position".toList, _, rfl, rfl, rfl⟩
  · exact ⟨"simulation.execution-quality".toList, _, rfl, rfl, rfl⟩
  · exact ⟨"notification".toList, _, rfl, rfl, rfl⟩
  · exact ⟨"account.security".toList, _, rfl, rfl, rfl⟩
  · exact ⟨"treasury".toList, _, rfl, rfl, rfl⟩
  · exact ⟨"institutional.subaccount.updated.v1".toList, _, rfl, rfl, rfl⟩

def scopedPatterns : List String :=
  [notificationPattern, securityPattern, treasuryPattern, institutionalPattern]

theorem registry_scoped : ∀ entry ∈ channelRegistry, entry.visibility = .owner →
    (startsWith entry.pattern "simulation." = true ∧ entry.accountScope = true ∧
      entry.pattern ∉ scopedPatterns) ∨
    (startsWith entry.pattern "simulation." = false ∧ entry.accountScope = false ∧
      entry.pattern ∈ scopedPatterns) := by
  decide

theorem registry_open : ∀ entry ∈ channelRegistry, entry.pattern ∈ scopedPatterns →
    startsWith entry.requiredPermission "demo." = false ∧ entry.visibility = .owner := by
  decide

theorem channelEntry_eq_some (h : channelEntry name = some entry) :
    entry ∈ channelRegistry ∧ accepts (compilePattern entry.pattern) name.toList = true := by
  unfold channelEntry at h
  exact ⟨List.mem_of_find?_eq_some h, (List.find?_eq_some_iff_append.mp h).1⟩

theorem channelEntry_nonempty (h : channelEntry name = some entry) : name ≠ "" := by
  rintro rfl
  have hnone : channelEntry "" = none := by decide
  simp [hnone] at h

theorem lastSegment_identifier (h : channelEntry name = some entry) (hv : entry.visibility = .owner) :
    lastSegment '.' name.toList = identifier entry name := by
  obtain ⟨hmem, haccepts⟩ := channelEntry_eq_some h
  obtain ⟨stem, allowed, hpersonal⟩ := registry_personal entry hmem hv
  rw [hpersonal.compiled] at haccepts
  obtain ⟨last, htext, hall⟩ := accepts_literal_many haccepts
  have hundotted : '.' ∉ last := by
    intro hdot
    rcases hall '.' hdot with hallowed | hnewline
    · simp [hpersonal.undotted] at hallowed
    · simp at hnewline
  unfold identifier
  rw [hpersonal.stem, htext, List.drop_left, List.append_assoc]
  exact lastSegment_append hundotted

end Registry

section Issue

variable {r : Realtime} {user : RealtimeUser} {name : String} {entry : ChannelEntry}

structure Issues (r : Realtime) (user : RealtimeUser) (name : String) (entry : ChannelEntry) : Prop where
  enabled : r.enabled = true
  configured : r.secret ≠ ""
  short : name.length ≤ 200
  found : channelEntry name = some entry
  owned : entry.visibility = .owner → privateRefusal r user.id name entry = false
  active : startsWith entry.requiredPermission "demo." = true → user.isActive = true

theorem subscriptionToken_eq_ok {channel : Option String} {token : SubscriptionToken} :
    subscriptionToken r user channel = .ok token ↔ ∃ name entry, channel = some name ∧
      Issues r user name entry ∧
      claims r user.id "centrifugo-subscription" name entry.pattern = some token := by
  constructor
  · intro h
    unfold subscriptionToken at h
    split at h
    · cases h
    rename_i henabled
    cases channel with
    | none => cases h
    | some name =>
      dsimp only at h
      split at h
      · cases h
      rename_i hshort
      split at h
      · cases h
      rename_i entry hentry
      split at h
      · cases h
      rename_i howned
      split at h
      · cases h
      rename_i hactive
      split at h
      · cases h
      rename_i token' hclaims
      obtain rfl := Except.ok.inj h
      refine ⟨name, entry, rfl, ⟨by simpa using henabled, ?_, ?_, hentry, ?_, ?_⟩, hclaims⟩
      · intro hsecret
        simp [claims, hsecret] at hclaims
      · exact not_lt.mp fun hlong => hshort (.inr hlong)
      · intro hv
        simpa using fun hrefused => howned ⟨hv, hrefused⟩
      · intro hdemo
        simpa using fun hinactive => hactive ⟨hdemo, hinactive⟩
  · rintro ⟨name, entry, rfl, hissues, hclaims⟩
    unfold subscriptionToken
    have hshort : ¬(name = "" ∨ 200 < name.length) :=
      not_or.mpr ⟨channelEntry_nonempty hissues.found, not_lt.mpr hissues.short⟩
    have howned : ¬(entry.visibility = .owner ∧ privateRefusal r user.id name entry = true) := by
      rintro ⟨hv, hrefused⟩
      simp [hissues.owned hv] at hrefused
    have hactive : ¬(startsWith entry.requiredPermission "demo." = true ∧ (!user.isActive) = true) := by
      rintro ⟨hdemo, hinactive⟩
      simp [hissues.active hdemo] at hinactive
    simp only [hissues.enabled, Bool.not_true, Bool.false_eq_true, if_false, hshort, hissues.found,
      howned, hactive, hclaims]

theorem Issues.issued (h : Issues r user name entry) :
    ∃ token, subscriptionToken r user (some name) = .ok token := by
  have hclaims : ∃ token, claims r user.id "centrifugo-subscription" name entry.pattern = some token := by
    unfold claims
    rw [if_neg h.configured]
    exact ⟨_, rfl⟩
  obtain ⟨token, htoken⟩ := hclaims
  exact ⟨token, subscriptionToken_eq_ok.mpr ⟨name, entry, rfl, h, htoken⟩⟩

theorem authorizeSubscription_of {beyvra codestra : Option String} (hentry : channelEntry name = some entry)
    (hsecret : suppliedSecret beyvra codestra = some r.proxySecret)
    (h : entry.visibility = .owner → proxyRefusal r user.id name entry = false) :
    authorizeSubscription r beyvra codestra user.id (some name) = true := by
  unfold authorizeSubscription
  simp only [hsecret, ne_eq, not_true_eq_false, if_false, Option.bind_some, hentry]
  cases hv : entry.visibility with
  | everyone => rfl
  | owner => simp [h hv]

-- The four patterns under which the last part of a channel names its owner.
theorem Issues.owner (h : Issues r user name entry) (hv : entry.visibility = .owner)
    (hnot : ¬Overreaches r user name entry) :
    identifier entry name = ownIdentifier r user.id entry ∧
      proxyRefusal r user.id name entry = false := by
  have hmem := (channelEntry_eq_some h.found).1
  have hlast := lastSegment_identifier h.found hv
  have howned := h.owned hv
  unfold ownIdentifier
  rcases registry_scoped entry hmem hv with ⟨hsim, hscope, hother⟩ | ⟨hsim, hscope, hone⟩
  · have howns : ownsDemoAccount user.id name = true := by
      by_contra hno
      simp [privateRefusal, hsim, hno] at howned
    have hidentifier : lastSegment '.' name.toList = ("sim-" ++ user.id).toList := by
      simpa using (Bool.and_eq_true_iff.mp howns).2
    have htreasury : entry.pattern ≠ treasuryPattern := by
      rintro heq
      exact hother (heq ▸ by decide)
    refine ⟨?_, ?_⟩
    · rw [if_pos hsim, ← hlast, hidentifier]
    · simp [proxyRefusal, howns, htreasury, hscope]
  · rw [if_neg (by simp [hsim])]
    by_cases htreasury : entry.pattern = treasuryPattern
    · have hchannel : name = "treasury." ++ r.tenant user.id := by
        by_contra hno
        simp [privateRefusal, htreasury, hno] at howned
      refine ⟨?_, ?_⟩
      · unfold identifier
        rw [if_pos htreasury, htreasury, hchannel, String.toList_append]
        exact List.drop_left
      · rw [htreasury] at hsim
        simp [proxyRefusal, hsim, htreasury, hchannel]
    · rw [if_neg htreasury]
      have hidentifier : identifier entry name = user.id.toList := by
        by_contra hno
        refine hnot ⟨h.enabled, h.configured, h.short, h.found, hno, ?_⟩
        by_cases hinstitutional : entry.pattern = institutionalPattern
        · exact .inl hinstitutional
        · have hpair : entry.pattern ∈ [notificationPattern, securityPattern] := by
            simp only [scopedPatterns, List.mem_cons, List.not_mem_nil, or_false] at hone ⊢
            tauto
          refine .inr ⟨hpair, ?_⟩
          by_contra hends
          simp [privateRefusal, hpair, hends] at howned
      have hscoped : userScoped user.id name entry = true := by
        have hthree : entry.pattern ∈ [notificationPattern, securityPattern, institutionalPattern] := by
          simp only [scopedPatterns, List.mem_cons, List.not_mem_nil, or_false] at hone ⊢
          tauto
        simp [userScoped, hthree, hlast, hidentifier]
      exact ⟨hidentifier, by simp [proxyRefusal, hsim, htreasury, hscoped]⟩

theorem Overreaches.issues (h : Overreaches r user name entry) :
    Issues r user name entry ∧ entry.visibility = .owner ∧ ownIdentifier r user.id entry = user.id.toList := by
  have hmem := (channelEntry_eq_some h.found).1
  have hone : entry.pattern ∈ scopedPatterns ∧ entry.pattern ≠ treasuryPattern := by
    rcases h.unchecked with heq | ⟨hpair, -⟩
    · exact heq ▸ by decide
    · rcases List.mem_pair.mp hpair with heq | heq <;> exact heq ▸ by decide
  obtain ⟨hdemo, hv⟩ := registry_open entry hmem hone.1
  obtain ⟨hsim, hscope⟩ : startsWith entry.pattern "simulation." = false ∧ entry.accountScope = false := by
    rcases registry_scoped entry hmem hv with ⟨-, -, hother⟩ | ⟨hsim, hscope, -⟩
    · exact absurd hone.1 hother
    · exact ⟨hsim, hscope⟩
  refine ⟨⟨h.enabled, h.configured, h.short, h.found, fun _ => ?_, fun hdemo' => ?_⟩, hv, ?_⟩
  · have hends : entry.pattern ∈ [notificationPattern, securityPattern] → endsWith name user.id = true := by
      intro hpair
      rcases h.unchecked with heq | ⟨-, hends⟩
      · exact absurd hpair (heq ▸ by decide)
      · exact hends
    simp only [privateRefusal, hsim, hscope, Bool.false_and, Bool.false_or, Bool.or_false, hone.2,
      decide_false, Bool.and_eq_false_iff, decide_eq_false_iff_not, Bool.not_eq_false']
    exact or_iff_not_imp_left.mpr fun hpair => hends (not_not.mp hpair)
  · simp [hdemo] at hdemo'
  · simp [ownIdentifier, hsim, hone.2]

end Issue

theorem channel_authority_iff (r : Realtime) (user : RealtimeUser) (channel : Option String) :
    Authority r user channel ↔
      ¬∃ name entry, channel = some name ∧ Overreaches r user name entry := by
  constructor
  · rintro hauthority ⟨name, entry, rfl, hover⟩
    obtain ⟨hissues, hv, hown⟩ := hover.issues
    obtain ⟨token, htoken⟩ := hissues.issued
    exact hover.other (((hauthority token htoken).2 name entry rfl hover.found hv).trans hown)
  · intro hnone token htoken
    obtain ⟨name, entry, rfl, hissues, -⟩ := subscriptionToken_eq_ok.mp htoken
    have hnot : ¬Overreaches r user name entry := fun hover => hnone ⟨name, entry, rfl, hover⟩
    refine ⟨fun beyvra codestra hsecret => ?_, ?_⟩
    · exact authorizeSubscription_of hissues.found hsecret fun hv => (hissues.owner hv hnot).2
    · rintro name' entry' heq hentry hv
      obtain rfl := Option.some.inj heq
      obtain rfl := Option.some.inj (hissues.found.symm.trans hentry)
      exact (hissues.owner hv hnot).1

def stagingRealtime : Realtime where
  getenv name :=
    if name = "CENTRIFUGO_TOKEN_HMAC_SECRET" then some "token-secret"
    else if name = "CENTRIFUGO_PROXY_SECRET" then some "proxy-secret"
    else some "true"
  memberships := []
  tokenVersion _ := none
  now := 0
  nonce := "nonce"

def secondUser : RealtimeUser := ⟨"2", true⟩

-- "notification.42" ends with the id of user 2, and no check at all stands before the other channel.
theorem foreign_channels_issued :
    (∀ name ∈ ["notification.42", "institutional.subaccount.updated.v1.42"],
      (subscriptionToken stagingRealtime secondUser (some name)).toOption.isSome = true ∧
      authorizeSubscription stagingRealtime (some "proxy-secret") none "2" (some name) = false) ∧
    ¬Authority stagingRealtime secondUser (some "notification.42") := by
  have hruns : ∀ name ∈ ["notification.42", "institutional.subaccount.updated.v1.42"],
      (subscriptionToken stagingRealtime secondUser (some name)).toOption.isSome = true ∧
      authorizeSubscription stagingRealtime (some "proxy-secret") none "2" (some name) = false := by
    decide +kernel
  refine ⟨hruns, fun hauthority => ?_⟩
  obtain ⟨hissued, hrefused⟩ := hruns "notification.42" List.mem_cons_self
  cases htoken : subscriptionToken stagingRealtime secondUser (some "notification.42") with
  | error refusal =>
    rw [htoken] at hissued
    exact absurd hissued Bool.false_ne_true
  | ok token =>
    have haccepted := (hauthority token htoken).1 (some "proxy-secret") none (by decide)
    exact absurd haccepted (by rw [show secondUser.id = "2" from rfl, hrefused]; simp)

end Beyvra
