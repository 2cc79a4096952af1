import Mathlib.Data.List.Sort
import Mathlib.Data.String.Basic
import Beyvra.Relational.Table
import Beyvra.Relational.Transaction

namespace Beyvra

open Relational

namespace Gateway

structure GatewayEnv where
  userId : String
  isUuid : String → Bool
  -- _resolve_realtime_instrument: the instrument id and the provider's symbol
  resolve : String → Option (String × String)

inductive Channel where
  | plain (name : String)
  | portfolio (kind owner : String)
  | quote (reference : String)
  | candle (reference interval : String)
  deriving DecidableEq

def supportedSymbols : List String :=
  ["BTCUSDT", "ETHUSDT", "BNBUSDT", "SOLUSDT", "XRPUSDT", "AAPL", "MSFT", "TSLA", "EUR/USD", "GBP/USD", "USD/JPY"]

def canonicalSymbols : List String := ["BTC-USD", "ETH-USD", "BNB-USD", "SOL-USD", "XRP-USD"]

def supportedIntervals : List String := ["1m", "5m", "15m", "1h", "4h", "1d"]

def plainChannels : List String := ["demo.order", "demo.execution", "demo.position", "notification", "market.status"]

def portfolioChannels : List String := ["portfolio.balance", "portfolio.profit_loss"]

def split (separator : Char) (text : String) : List String := (text.toList.splitOn separator).map String.ofList

def supportedReference (env : GatewayEnv) (reference : String) : Bool :=
  reference ∈ supportedSymbols || reference ∈ canonicalSymbols || env.isUuid reference

def marketChannel (env : GatewayEnv) (text : String) : Option Channel :=
  match split '.' text with
  | ["market", reference, "quote"] => if supportedReference env reference then some (.quote reference) else none
  | ["market", reference, "candle", interval] =>
    if supportedReference env reference && interval ∈ supportedIntervals then some (.candle reference interval) else none
  | _ => none

-- _valid_channel, with what a valid channel is made of
def validChannel (env : GatewayEnv) (text : String) : Option Channel :=
  if text ∈ plainChannels then some (.plain text)
  else match split ':' text with
    | [kind, owner] =>
      if kind ∈ portfolioChannels then if owner = env.userId then some (.portfolio kind owner) else none
      else marketChannel env text
    | _ => marketChannel env text

def Channel.text : Channel → String
  | .plain name => name
  | .portfolio kind owner => kind ++ ":" ++ owner
  | .quote reference => "market." ++ reference ++ ".quote"
  | .candle reference interval => "market." ++ reference ++ ".candle." ++ interval

def Channel.isDemo : Channel → Bool
  | .plain name => "demo.".toList.isPrefixOf name.toList
  | _ => false

-- A task goes by the order of its creation; market_tasks names the task of a channel.
structure Connection where
  subscriptions : List Channel := []
  marketTasks : Table Channel Nat := Table.empty
  running : List (Nat × Channel) := []
  created : Nat := 0
  tradesGroup : Bool := false

def createTask (s : Connection) (channel : Channel) : Connection :=
  { s with
    running := s.running ++ [(s.created, channel)]
    created := s.created + 1
    marketTasks := if s.marketTasks.find channel = none then s.marketTasks.put channel s.created else s.marketTasks }

def cancelTask (s : Connection) (channel : Channel) : Connection :=
  match s.marketTasks.find channel with
  | none => s
  | some task => { s with
      marketTasks := s.marketTasks.erase channel
      running := s.running.filter (·.1 ≠ task) }

def startStream (s : Connection) : Channel → Connection
  | .candle reference interval => createTask (cancelTask s (.quote reference)) (.candle reference interval)
  | .quote reference =>
    -- a candle stream also publishes its quote projection
    if .candle reference "1m" ∈ s.subscriptions then s else createTask s (.quote reference)
  | _ => s

def subscribe (s : Connection) (channel : Channel) : Connection :=
  if channel ∈ s.subscriptions then s
  else startStream { s with
    subscriptions := s.subscriptions ++ [channel], tradesGroup := s.tradesGroup || channel.isDemo } channel

def unsubscribe (s : Connection) (channel : Channel) : Connection :=
  if channel ∈ s.subscriptions then
    cancelTask { s with subscriptions := s.subscriptions.filter (· ≠ channel) } channel
  else s

-- What is no list is none, and so is an entry that is no text.
inductive GatewayMessage where
  | ping
  | resume
  | subscribe (channels : Option (List (Option String)))
  | unsubscribe (channels : Option (List (Option String)))
  | other

inductive GatewayReply where
  | pong
  | resumeAck (channels : List String)
  | invalidChannels
  | forbiddenChannel (channel : Option String)
  | subscribed (added channels : List String)
  | unsubscribed (removed channels : List String)
  | unknownAction

def sortedTexts (channels : List Channel) : List String := (channels.map Channel.text).insertionSort (· ≤ ·)

def parsed (env : GatewayEnv) (channels : List (Option String)) : List Channel :=
  channels.filterMap (Option.bind · (validChannel env))

def refused (env : GatewayEnv) (channels : List (Option String)) : List (Option String) :=
  channels.filter fun channel => (channel.bind (validChannel env)).isNone

def changed (channels : List Channel) (p : Channel → Bool) : List String :=
  (channels.eraseDups.filter p).map Channel.text

def receiveJson (env : GatewayEnv) (s : Connection) : GatewayMessage → List GatewayReply × Connection
  | .ping => ([.pong], s)
  | .resume => ([.resumeAck (sortedTexts s.subscriptions)], s)
  | .subscribe none => ([.invalidChannels], s)
  | .subscribe (some channels) =>
    let valid := parsed env channels
    let s' := valid.foldl subscribe s
    ((refused env channels).map .forbiddenChannel ++
      [.subscribed (changed valid (· ∉ s.subscriptions)) (sortedTexts s'.subscriptions)], s')
  | .unsubscribe channels =>
    let valid := parsed env (channels.getD [])
    let s' := valid.foldl unsubscribe s
    ([.unsubscribed (changed valid (· ∈ s.subscriptions)) (sortedTexts s'.subscriptions)], s')
  | .other => ([.unknownAction], s)

-- The instrument whose quotes _stream_market emits
def instrumentId (env : GatewayEnv) (reference : String) : String :=
  match env.resolve reference with
  | some (id, _) => id
  | none => reference

-- The channels that the task of a channel emits on
def streamChannels (env : GatewayEnv) : Channel → List Channel
  | .quote reference => [.quote reference, .quote (instrumentId env reference)]
  | .candle reference interval => [.candle reference interval, .quote (instrumentId env reference)]
  | _ => []

variable {env : GatewayEnv} {s : Connection} {channel c : Channel} {channels : List Channel} {r : String}

def Runs (s : Connection) (channel : Channel) : Prop := ∃ task, (task, channel) ∈ s.running

-- The running tasks are the named ones.
structure Tasks (s : Connection) : Prop where
  named : ∀ task channel, (task, channel) ∈ s.running ↔ s.marketTasks.find channel = some task
  numbered : ∀ task channel, (task, channel) ∈ s.running → task < s.created
  single : ∀ task channel channel', (task, channel) ∈ s.running → (task, channel') ∈ s.running → channel = channel'

structure Wired (s : Connection) : Prop extends Tasks s where
  subscribed : ∀ channel, Runs s channel → channel ∈ s.subscriptions
  candles : ∀ reference interval, .candle reference interval ∈ s.subscriptions → Runs s (.candle reference interval)

theorem Wired.empty : Wired {} where
  named := by simp
  numbered := by simp
  single := by simp
  subscribed := by simp [Runs]
  candles := by simp

theorem Tasks.runs_iff (h : Tasks s) : Runs s channel ↔ s.marketTasks.find channel ≠ none := by
  simp only [Runs, h.named, ne_eq, ← Option.ne_none_iff_exists']

theorem Tasks.create (h : Tasks s) (hfree : ¬Runs s channel) : Tasks (createTask s channel) := by
  have hnone : s.marketTasks.find channel = none := not_not.mp (h.runs_iff.not.mp hfree)
  refine ⟨fun task c => ?_, fun task c hmem => ?_, fun task c c' hmem hmem' => ?_⟩
  · simp only [createTask, hnone, if_true, List.mem_append, List.mem_singleton, Table.find_put, Prod.mk.injEq, h.named]
    by_cases hc : c = channel
    · subst hc
      simp [hnone, eq_comm]
    · simp [hc]
  · simp only [createTask, List.mem_append, List.mem_singleton, Prod.mk.injEq] at hmem ⊢
    rcases hmem with hold | ⟨rfl, -⟩
    · have hlt := h.numbered task c hold
      omega
    · omega
  · simp only [createTask, List.mem_append, List.mem_singleton, Prod.mk.injEq] at hmem hmem'
    rcases hmem with hold | ⟨hlast, rfl⟩
    · rcases hmem' with hold' | ⟨rfl, rfl⟩
      · exact h.single task c c' hold hold'
      · exact absurd (h.numbered _ c hold) (lt_irrefl _)
    · subst hlast
      rcases hmem' with hold' | ⟨-, rfl⟩
      · exact absurd (h.numbered _ c' hold') (lt_irrefl _)
      · rfl

theorem runs_create : Runs (createTask s channel) c ↔ Runs s c ∨ c = channel := by
  simp only [Runs, createTask, List.mem_append, List.mem_singleton, Prod.mk.injEq, exists_or, exists_and_right,
    exists_eq, true_and]

theorem Tasks.cancel (h : Tasks s) (channel : Channel) : Tasks (cancelTask s channel) := by
  unfold cancelTask
  cases htask : s.marketTasks.find channel with
  | none => exact h
  | some task =>
    have hmem := (h.named task channel).mpr htask
    refine ⟨fun task' c => ?_, fun task' c hmem' => ?_, fun task' c c' hmem' hmem'' => ?_⟩
    · simp only [List.mem_filter, Table.find_erase_eq_some, h.named, decide_eq_true_eq]
      constructor
      · rintro ⟨hfound, hne⟩
        refine ⟨?_, hfound⟩
        rintro rfl
        exact hne (Option.some.inj (hfound.symm.trans htask))
      · rintro ⟨hne, hfound⟩
        refine ⟨hfound, ?_⟩
        rintro rfl
        exact hne (h.single task' c channel ((h.named task' c).mpr hfound) hmem)
    · exact h.numbered task' c (List.mem_of_mem_filter hmem')
    · exact h.single task' c c' (List.mem_of_mem_filter hmem') (List.mem_of_mem_filter hmem'')

theorem Tasks.runs_cancel (h : Tasks s) : Runs (cancelTask s channel) c ↔ Runs s c ∧ c ≠ channel := by
  rw [(h.cancel channel).runs_iff, h.runs_iff]
  unfold cancelTask
  cases htask : s.marketTasks.find channel with
  | none =>
    constructor
    · intro hfound
      refine ⟨hfound, ?_⟩
      rintro rfl
      exact hfound htask
    · exact And.left
  | some task =>
    by_cases hc : c = channel
    · subst hc
      simp
    · simp [hc, Table.find_erase_of_ne]

@[simp] theorem createTask_subscriptions : (createTask s channel).subscriptions = s.subscriptions := rfl

@[simp] theorem cancelTask_subscriptions : (cancelTask s channel).subscriptions = s.subscriptions := by
  unfold cancelTask
  split <;> rfl

-- A channel that is not subscribed yet, once it is
def StartsOn (s : Connection) (channel c : Channel) : Prop :=
  match channel with
  | .candle reference _ => c = channel ∨ Runs s c ∧ c ≠ .quote reference
  | .quote reference => Runs s c ∨ c = channel ∧ .candle reference "1m" ∉ s.subscriptions
  | _ => Runs s c

theorem subscribe_subscriptions : (subscribe s channel).subscriptions =
    if channel ∈ s.subscriptions then s.subscriptions else s.subscriptions ++ [channel] := by
  unfold subscribe
  split
  · rfl
  · cases channel with
    | plain name => rfl
    | portfolio kind owner => rfl
    | quote reference =>
      simp only [startStream]
      split <;> rfl
    | candle reference interval => simp [startStream]

theorem mem_subscribe : c ∈ (subscribe s channel).subscriptions ↔ c ∈ s.subscriptions ∨ c = channel := by
  rw [subscribe_subscriptions]
  split
  · rename_i hmem
    constructor
    · exact .inl
    · rintro (hc | rfl)
      · exact hc
      · exact hmem
  · simp

theorem Wired.subscribe_new (h : Wired s) (hnew : channel ∉ s.subscriptions) :
    Tasks (subscribe s channel) ∧ ∀ c, Runs (subscribe s channel) c ↔ StartsOn s channel c := by
  have hfree : ¬Runs s channel := fun hruns => hnew (h.subscribed channel hruns)
  unfold subscribe
  rw [if_neg hnew]
  have htasks : Tasks { s with
      subscriptions := s.subscriptions ++ [channel], tradesGroup := s.tradesGroup || channel.isDemo } := ⟨h.named, h.numbered, h.single⟩
  cases channel with
  | plain name => exact ⟨htasks, fun c => Iff.rfl⟩
  | portfolio kind owner => exact ⟨htasks, fun c => Iff.rfl⟩
  | quote reference =>
    simp only [startStream, List.mem_append, List.mem_singleton, reduceCtorEq, or_false]
    split
    · rename_i hminute
      refine ⟨htasks, fun c => ?_⟩
      simp only [StartsOn, hminute, not_true_eq_false, and_false, or_false]
      exact Iff.rfl
    · rename_i hminute
      refine ⟨htasks.create hfree, fun c => ?_⟩
      simp only [StartsOn, hminute, not_false_eq_true, and_true]
      exact runs_create
  | candle reference interval =>
    simp only [startStream]
    have hcancelled := htasks.cancel (.quote reference)
    have hstill : ¬Runs (cancelTask { s with
        subscriptions := s.subscriptions ++ [.candle reference interval]
        tradesGroup := s.tradesGroup || (Channel.candle reference interval).isDemo } (.quote reference))
        (.candle reference interval) := fun hruns => hfree (htasks.runs_cancel.mp hruns).1
    refine ⟨hcancelled.create hstill, fun c => ?_⟩
    rw [runs_create, htasks.runs_cancel]
    exact or_comm

theorem startsOn_subscribed (h : StartsOn s channel c) : Runs s c ∨ c = channel := by
  cases channel with
  | plain name => exact .inl h
  | portfolio kind owner => exact .inl h
  | quote reference => exact h.imp_right And.left
  | candle reference interval => exact h.symm.imp_left And.left

theorem startsOn_candle {interval : String} (h : Runs s (.candle r interval) ∨ channel = .candle r interval) :
    StartsOn s channel (.candle r interval) := by
  cases channel with
  | plain name => exact h.elim id nofun
  | portfolio kind owner => exact h.elim id nofun
  | quote reference => exact .inl (h.elim id nofun)
  | candle reference interval' =>
    rcases h with hruns | hsame
    · exact .inr ⟨hruns, nofun⟩
    · exact .inl hsame.symm

theorem Wired.subscribe (h : Wired s) (channel : Channel) : Wired (subscribe s channel) := by
  by_cases hmem : channel ∈ s.subscriptions
  · unfold Gateway.subscribe
    rwa [if_pos hmem]
  · obtain ⟨htasks, hruns⟩ := h.subscribe_new hmem
    refine ⟨htasks, fun c hc => ?_, fun reference interval hc => ?_⟩
    · rw [mem_subscribe]
      exact (startsOn_subscribed ((hruns c).mp hc)).imp_left (h.subscribed c)
    · rw [hruns]
      apply startsOn_candle
      exact (mem_subscribe.mp hc).imp (h.candles reference interval) Eq.symm

theorem Wired.subscribeAll (h : Wired s) (channels : List Channel) : Wired (channels.foldl Gateway.subscribe s) := by
  induction channels generalizing s with
  | nil => exact h
  | cons channel channels ih => exact ih (h.subscribe channel)

theorem mem_subscribeAll : c ∈ (channels.foldl subscribe s).subscriptions ↔ c ∈ s.subscriptions ∨ c ∈ channels := by
  induction channels generalizing s with
  | nil => simp
  | cons channel channels ih => rw [List.foldl_cons, ih, mem_subscribe, List.mem_cons, or_assoc]

-- What is subscribed and what runs afterwards is what was, less the channels.
structure Without (channels : List Channel) (s s' : Connection) : Prop where
  wired : Wired s'
  subscriptions : ∀ c, c ∈ s'.subscriptions ↔ c ∈ s.subscriptions ∧ c ∉ channels
  runs : ∀ c, Runs s' c ↔ Runs s c ∧ c ∉ channels

theorem Wired.unsubscribe (h : Wired s) (channel : Channel) : Without [channel] s (unsubscribe s channel) := by
  unfold Gateway.unsubscribe
  by_cases hmem : channel ∈ s.subscriptions
  · rw [if_pos hmem]
    have htasks : Tasks { s with subscriptions := s.subscriptions.filter (· ≠ channel) } :=
      ⟨h.named, h.numbered, h.single⟩
    have hruns : ∀ c, Runs (cancelTask { s with subscriptions := s.subscriptions.filter (· ≠ channel) } channel) c ↔
        Runs s c ∧ c ≠ channel := fun c => htasks.runs_cancel
    refine ⟨⟨htasks.cancel channel, fun c hc => ?_, fun reference interval hc => ?_⟩, fun c => ?_, fun c => ?_⟩
    · obtain ⟨hold, hne⟩ := (hruns c).mp hc
      simpa [hne] using h.subscribed c hold
    · rw [hruns]
      rw [cancelTask_subscriptions, List.mem_filter, decide_eq_true_eq] at hc
      exact ⟨h.candles reference interval hc.1, hc.2⟩
    · simp
    · rw [hruns, List.mem_singleton]
  · rw [if_neg hmem]
    have hne : ∀ c ∈ s.subscriptions, c ≠ channel := by
      rintro c hc rfl
      exact hmem hc
    refine ⟨h, fun c => ?_, fun c => ?_⟩
    · rw [List.mem_singleton]
      exact ⟨fun hc => ⟨hc, hne c hc⟩, And.left⟩
    · rw [List.mem_singleton]
      exact ⟨fun hc => ⟨hc, hne c (h.subscribed c hc)⟩, And.left⟩

theorem Wired.unsubscribeAll (h : Wired s) (channels : List Channel) :
    Without channels s (channels.foldl Gateway.unsubscribe s) := by
  induction channels generalizing s with
  | nil => exact ⟨h, by simp, by simp⟩
  | cons channel channels ih =>
    have hone := h.unsubscribe channel
    have hrest := ih hone.wired
    refine ⟨hrest.wired, fun c => ?_, fun c => ?_⟩
    · rw [List.foldl_cons, hrest.subscriptions, hone.subscriptions, List.mem_singleton, List.mem_cons, not_or, and_assoc]
    · rw [List.foldl_cons, hrest.runs, hone.runs, List.mem_singleton, List.mem_cons, not_or, and_assoc]

-- The stream of a quote channel outlives the subscriptions, as none of them adds a candle channel of its reference.
def KeepsStream (s : Connection) (channels : List Channel) (r : String) : Prop :=
  Runs s (.quote r) ∧ ∀ interval, .candle r interval ∈ channels → .candle r interval ∈ s.subscriptions

-- The quote channel is new, the 1m candle is not there at its place in the list, and no new candle follows it.
def StartsStream (s : Connection) (channels : List Channel) (r : String) : Prop :=
  .quote r ∉ s.subscriptions ∧ ∃ before after, channels = before ++ .quote r :: after ∧ .quote r ∉ before ∧
    .candle r "1m" ∉ s.subscriptions ∧ .candle r "1m" ∉ before ∧
    ∀ interval, .candle r interval ∈ after → .candle r interval ∈ s.subscriptions ∨ .candle r interval ∈ before

def OwnStream (s : Connection) (channels : List Channel) (r : String) : Prop :=
  KeepsStream s channels r ∨ StartsStream s channels r

theorem keepsStream_append : KeepsStream s (channels ++ [channel]) r ↔ KeepsStream s channels r ∧
    ∀ interval, channel = .candle r interval → channel ∈ s.subscriptions ∨ channel ∈ channels := by
  constructor
  · rintro ⟨hruns, hold⟩
    refine ⟨⟨hruns, fun interval hmem => hold interval (List.mem_append_left _ hmem)⟩, ?_⟩
    rintro interval rfl
    exact .inl (hold interval (List.mem_append_right _ (List.mem_singleton_self _)))
  · rintro ⟨⟨hruns, hold⟩, hlast⟩
    refine ⟨hruns, fun interval hmem => ?_⟩
    rcases List.mem_append.mp hmem with hmem | hmem
    · exact hold interval hmem
    · obtain rfl := List.mem_singleton.mp hmem
      exact (hlast interval rfl).elim id (hold interval)

theorem startsStream_append : StartsStream s (channels ++ [channel]) r ↔
    (StartsStream s channels r ∧ ∀ interval, channel = .candle r interval → channel ∈ s.subscriptions ∨ channel ∈ channels) ∨
    channel = .quote r ∧ .quote r ∉ s.subscriptions ∧ .quote r ∉ channels ∧
      .candle r "1m" ∉ s.subscriptions ∧ .candle r "1m" ∉ channels := by
  constructor
  · rintro ⟨hnew, before, after, heq, hfirst, hminute, hminute', hafter⟩
    rcases List.eq_nil_or_concat after with rfl | ⟨after, last, rfl⟩
    · obtain ⟨rfl, hlast⟩ := List.append_inj' heq rfl
      exact .inr ⟨List.singleton_inj.mp hlast, hnew, hfirst, hminute, hminute'⟩
    · rw [List.concat_eq_append, ← List.cons_append, ← List.append_assoc] at heq
      obtain ⟨rfl, hlast⟩ := List.append_inj' heq rfl
      obtain rfl := List.singleton_inj.mp hlast
      rw [List.concat_eq_append] at hafter
      refine .inl ⟨⟨hnew, before, after, rfl, hfirst, hminute, hminute', fun interval hmem => ?_⟩, ?_⟩
      · exact hafter interval (List.mem_append_left _ hmem)
      · rintro interval rfl
        exact (hafter interval (List.mem_append_right _ (List.mem_singleton_self _))).imp_right (List.mem_append_left _)
  · rintro (⟨⟨hnew, before, after, rfl, hfirst, hminute, hminute', hafter⟩, hlast⟩ | ⟨rfl, hnew, hfirst, hminute, hminute'⟩)
    · refine ⟨hnew, before, after ++ [channel], by simp, hfirst, hminute, hminute', fun interval hmem => ?_⟩
      rcases List.mem_append.mp hmem with hmem | hmem
      · exact hafter interval hmem
      · obtain rfl := List.mem_singleton.mp hmem
        rcases hlast interval rfl with hold | hin
        · exact .inl hold
        · rcases List.mem_append.mp hin with hin | hin
          · exact .inr hin
          · exact hafter interval ((List.mem_cons.mp hin).resolve_left nofun)
    · exact ⟨hnew, channels, [], rfl, hfirst, hminute, hminute', nofun⟩

theorem ownStream_append : OwnStream s (channels ++ [channel]) r ↔
    (OwnStream s channels r ∧ ∀ interval, channel = .candle r interval → channel ∈ s.subscriptions ∨ channel ∈ channels) ∨
    channel = .quote r ∧ .quote r ∉ s.subscriptions ∧ .quote r ∉ channels ∧
      .candle r "1m" ∉ s.subscriptions ∧ .candle r "1m" ∉ channels := by
  rw [OwnStream, OwnStream, keepsStream_append, startsStream_append, or_and_right, or_assoc]

theorem Wired.runs_quote (h : Wired s) (channels : List Channel) :
    Runs (channels.foldl Gateway.subscribe s) (.quote r) ↔ OwnStream s channels r := by
  induction channels using List.reverseRecOn with
  | nil => simp [OwnStream, KeepsStream, StartsStream]
  | append_singleton channels channel ih =>
    have hwired := h.subscribeAll channels
    rw [List.foldl_append, List.foldl_cons, List.foldl_nil, ownStream_append, ← ih]
    by_cases hold : channel ∈ s.subscriptions ∨ channel ∈ channels
    · have hmem := mem_subscribeAll.mpr hold
      rw [Gateway.subscribe, if_pos hmem]
      constructor
      · exact fun hruns => .inl ⟨hruns, fun _ _ => hold⟩
      · rintro (⟨hruns, -⟩ | ⟨rfl, hnew, hfirst, -⟩)
        · exact hruns
        · exact absurd hold (not_or.mpr ⟨hnew, hfirst⟩)
    · have hmem := mem_subscribeAll.not.mpr hold
      obtain ⟨hnew, hfirst⟩ := not_or.mp hold
      rw [(hwired.subscribe_new hmem).2]
      cases channel with
      | plain name => simp [StartsOn]
      | portfolio kind owner => simp [StartsOn]
      | quote reference =>
        simp only [StartsOn, mem_subscribeAll, not_or, Channel.quote.injEq, reduceCtorEq, false_implies, implies_true,
          and_true]
        constructor
        · rintro (hruns | ⟨rfl, hminute, hminute'⟩)
          · exact .inl hruns
          · exact .inr ⟨rfl, hnew, hfirst, hminute, hminute'⟩
        · rintro (hruns | ⟨rfl, -, -, hminute, hminute'⟩)
          · exact .inl hruns
          · exact .inr ⟨rfl, hminute, hminute'⟩
      | candle reference interval =>
        simp only [StartsOn, reduceCtorEq, false_or, false_and, or_false, Channel.quote.injEq, ne_eq]
        refine and_congr_right fun _ => ⟨?_, ?_⟩
        · rintro hne interval' hsame
          exact absurd (Channel.candle.inj hsame).1.symm hne
        · rintro hlast rfl
          exact hold (hlast interval rfl)

structure Covered (env : GatewayEnv) (s : Connection) : Prop where
  candles : ∀ reference interval, .candle reference interval ∈ s.subscriptions → Runs s (.candle reference interval)
  quotes : ∀ r, .quote r ∈ s.subscriptions →
    Runs s (.quote r) ∨ ∃ reference interval, Runs s (.candle reference interval) ∧
      .quote r ∈ streamChannels env (.candle reference interval)
  subscribed : ∀ channel, Runs s channel → channel ∈ s.subscriptions
  apart : ∀ r r', Runs s (.quote r) → Runs s (.candle r' "1m") → instrumentId env r ≠ instrumentId env r'

def Fed (env : GatewayEnv) (candles : String → String → Prop) (r : String) : Prop :=
  ∃ reference interval, candles reference interval ∧ instrumentId env reference = r

-- What a message may do to the quote channels
def Keeps (env : GatewayEnv) (s : Connection) : GatewayMessage → Prop
  | .subscribe (some entries) =>
    let channels := parsed env entries
    let candle := fun reference interval =>
      Channel.candle reference interval ∈ s.subscriptions ∨ .candle reference interval ∈ channels
    ∀ r, .quote r ∈ s.subscriptions ∨ .quote r ∈ channels →
      (OwnStream s channels r ∨ Fed env candle r) ∧
        (OwnStream s channels r → ∀ r', candle r' "1m" → instrumentId env r ≠ instrumentId env r')
  | .unsubscribe entries =>
    let channels := parsed env (entries.getD [])
    ∀ r, .quote r ∈ s.subscriptions → .quote r ∉ channels → Runs s (.quote r) ∨
      Fed env (fun reference interval =>
        Channel.candle reference interval ∈ s.subscriptions ∧ .candle reference interval ∉ channels) r
  | _ => True

theorem Wired.runs_candle_iff (h : Wired s) {reference interval : String} :
    Runs s (.candle reference interval) ↔ .candle reference interval ∈ s.subscriptions :=
  ⟨h.subscribed _, h.candles reference interval⟩

-- Only the quote channels can be wrong.
theorem Wired.covered_iff (h : Wired s) : Covered env s ↔ ∀ r, .quote r ∈ s.subscriptions →
    (Runs s (.quote r) ∨ Fed env (fun reference interval => .candle reference interval ∈ s.subscriptions) r) ∧
      (Runs s (.quote r) → ∀ r', .candle r' "1m" ∈ s.subscriptions → instrumentId env r ≠ instrumentId env r') := by
  have hfed : ∀ r, (∃ reference interval, Runs s (.candle reference interval) ∧
      .quote r ∈ streamChannels env (.candle reference interval)) ↔
      Fed env (fun reference interval => .candle reference interval ∈ s.subscriptions) r := by
    intro r
    simp only [Fed, h.runs_candle_iff, streamChannels, List.mem_cons, reduceCtorEq, Channel.quote.injEq, false_or,
      List.not_mem_nil, or_false, eq_comm]
  constructor
  · intro hcovered r hr
    refine ⟨(hcovered.quotes r hr).imp_right (hfed r).mp, fun hruns r' hr' => ?_⟩
    exact hcovered.apart r r' hruns (h.candles r' "1m" hr')
  · intro hquotes
    refine ⟨h.candles, fun r hr => (hquotes r hr).1.imp_right (hfed r).mpr, h.subscribed, fun r r' hruns hruns' => ?_⟩
    exact (hquotes r (h.subscribed _ hruns)).2 hruns r' (h.subscribed _ hruns')

def receive (env : GatewayEnv) (s : Connection) (message : GatewayMessage) : Connection := (receiveJson env s message).2

theorem Wired.receive (h : Wired s) (message : GatewayMessage) : Wired (receive env s message) := by
  cases message with
  | ping => exact h
  | resume => exact h
  | other => exact h
  | subscribe entries =>
    cases entries with
    | none => exact h
    | some entries => exact h.subscribeAll _
  | unsubscribe entries => exact (h.unsubscribeAll _).wired

theorem Wired.keeps_iff (h : Wired s) (message : GatewayMessage) (hcovered : Covered env s) :
    Covered env (Gateway.receive env s message) ↔ Keeps env s message := by
  rw [(h.receive message).covered_iff]
  cases message with
  | ping => exact iff_true_intro (h.covered_iff.mp hcovered)
  | resume => exact iff_true_intro (h.covered_iff.mp hcovered)
  | other => exact iff_true_intro (h.covered_iff.mp hcovered)
  | subscribe entries =>
    cases entries with
    | none => exact iff_true_intro (h.covered_iff.mp hcovered)
    | some entries => simp only [Gateway.receive, receiveJson, h.runs_quote, mem_subscribeAll, Keeps]
  | unsubscribe entries =>
    have hwithout := h.unsubscribeAll (parsed env (entries.getD []))
    simp only [Gateway.receive, receiveJson, hwithout.subscriptions, hwithout.runs, Keeps]
    constructor
    · intro hquotes r hr hstays
      exact (hquotes r ⟨hr, hstays⟩).1.imp_left And.left
    · rintro hkeeps r ⟨hr, hstays⟩
      refine ⟨(hkeeps r hr hstays).imp_left fun hruns => ⟨hruns, hstays⟩, fun hruns r' hr' => ?_⟩
      exact hcovered.apart r r' hruns.1 (h.candles r' "1m" hr'.1)

theorem Covered.empty (env : GatewayEnv) : Covered env {} :=
  Wired.empty.covered_iff.mpr (by simp)

theorem streams_covered_iff (env : GatewayEnv) (messages : List GatewayMessage) :
    (∀ before after, messages = before ++ after → Covered env (before.foldl (receive env) {})) ↔
      Throughout (receive env) (Keeps env) messages {} :=
  always_iff_throughout (fun _ message h => h.receive message) (fun _ message h hcovered => h.keeps_iff message hcovered)
    Wired.empty (Covered.empty env)

def unseeded : GatewayEnv where
  userId := "1"
  isUuid _ := false
  resolve _ := none

def borrowedStream : List GatewayMessage :=
  [.subscribe (some [some "market.BTCUSDT.quote"]), .subscribe (some [some "market.BTCUSDT.candle.5m"]),
    .unsubscribe (some [some "market.BTCUSDT.candle.5m"])]

-- The candle channel takes over the stream of the quote channel and does not give it back.
theorem quote_uncovered : ¬Covered unseeded (borrowedStream.foldl (receive unseeded) {}) := by
  intro h
  have hidle : (borrowedStream.foldl (receive unseeded) {}).running = [] := by decide +kernel
  have hruns : ∀ channel, ¬Runs (borrowedStream.foldl (receive unseeded) {}) channel := by
    rintro channel ⟨task, hmem⟩
    rw [hidle] at hmem
    cases hmem
  rcases h.quotes "BTCUSDT" (by decide +kernel) with hown | ⟨_, _, hcandle, -⟩
  · exact hruns _ hown
  · exact hruns _ hcandle

end Gateway

end Beyvra
