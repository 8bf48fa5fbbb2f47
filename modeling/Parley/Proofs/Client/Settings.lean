import Parley.Client.Basic
import Parley.Config.Environment
import Parley.Proofs.Rest.Attempts

/-! Settings under which a client lasts. Numbers are accepted from the environment as they are read,
whatever they are for; the parts of the client that take them rely on more. -/
namespace Parley

theorem Except.bind_eq_ok_iff {ε α β : Type} {x : Except ε α} {f : α → Except ε β} {b : β} :
    x >>= f = .ok b ↔ ∃ a, x = .ok a ∧ f a = .ok b := by
  cases x with
  | error e => simp [bind, Except.bind]
  | ok a => simp [bind, Except.bind]

namespace ClientConfig

/-- The settings that other parts rely on, as they are read from the environment. -/
structure ReadFrom (env : Environment) (c : ClientConfig) : Prop where
  dispatchMode : dispatchModeOf env = .ok c.gateway.dispatchMode
  dispatchCapacity : parsed env "CHAT_DISPATCH_CAPACITY"
    GatewayConfig.standard.dispatchCapacity Text.readUInt64? = .ok c.gateway.dispatchCapacity
  dedupeCapacity : parsed env "CHAT_DEDUPE_CAPACITY"
    GatewayConfig.standard.dedupeCapacity Text.readUInt64? = .ok c.gateway.dedupeCapacity
  bucketIdleTtlSecs : parsed env "CHAT_BUCKET_IDLE_TTL_SECS"
    RestConfig.standard.bucketIdleTtlSecs Text.readUInt64? = .ok c.rest.bucketIdleTtlSecs
  shard : ∃ s, c.shard.shard = .ok s

variable {env : Environment} {c : ClientConfig}

theorem readFrom_of_accepted (h : ofEnvironment env = .ok c) : c.ReadFrom env := by
  unfold ofEnvironment at h
  cases htoken : env "CHAT_TOKEN" with
  | none => simp [htoken, bind, Except.bind] at h
  | some token =>
    simp only [htoken, Except.bind_eq_ok_iff, pure, Except.pure, Except.ok.injEq] at h
    obtain ⟨_, -, gateway, hgateway, rest, hrest, _, -, _, -, _, -, s, hs, rfl⟩ := h
    simp only [gatewayOf, Except.bind_eq_ok_iff, pure, Except.pure, Except.ok.injEq] at hgateway
    obtain ⟨_, -, _, -, _, -, _, -, _, -, _, -, mode, hmode, capacity, hcapacity, dedupe, hdedupe,
      rfl⟩ := hgateway
    simp only [restOf, Except.bind_eq_ok_iff, pure, Except.pure, Except.ok.injEq] at hrest
    obtain ⟨_, -, _, -, _, -, idle, hidle, rfl⟩ := hrest
    exact ⟨hmode, hcapacity, hdedupe, hidle, s, hs⟩

end ClientConfig

def ClientConfig.DispatchFits (c : ClientConfig) : Prop :=
  c.gateway.dispatchMode = .queued →
    c.gateway.dispatchCapacity.toNat ≤ Gateway.DispatchMode.capacityLimit

instance (c : ClientConfig) : Decidable c.DispatchFits := inferInstanceAs (Decidable (_ → _))

/-- A queue of zero places is taken for one without bound. -/
theorem Gateway.DispatchMode.isPossible_ofConfig {c : ClientConfig} :
    (ofConfig c.gateway.dispatchMode c.gateway.dispatchCapacity.toNat).isPossible = true ↔
      c.DispatchFits := by
  unfold ClientConfig.DispatchFits ofConfig
  cases c.gateway.dispatchMode with
  | inline => simp [isPossible]
  | queued =>
    dsimp only
    split_ifs with h
    · simp [isPossible, h]
    · simp [isPossible]

def ClientConfig.KeysFit (c : ClientConfig) : Prop :=
  c.gateway.dedupeCapacity.toNat + 1 ≤ Cache.Dedupe.keyLimit

instance (c : ClientConfig) : Decidable c.KeysFit := inferInstanceAs (Decidable (_ ≤ _))

/-- As long as its places can be counted, a set can be laid out if it is not too large. -/
theorem Cache.Dedupe.isPossible_iff {capacity : Nat} (h : capacity + 1 < UInt64.size) :
    isPossible capacity = true ↔ capacity + 1 ≤ keyLimit := by
  have hsize : UInt64.size = 18446744073709551616 := rfl
  unfold isPossible keyLimit
  rw [Nat.mod_eq_of_lt (by omega), decide_eq_true_iff]
  omega

theorem Rest.Sweep.start?_eq_some_iff {period idle : Duration} {now : Instant} {s : Sweep} :
    start? period idle now = some s ↔ period ≠ .zero ∧ s = ⟨now.plus period, period, idle⟩ := by
  unfold start?
  split_ifs with h
  · simp [h]
  · simp [h, eq_comm]

namespace Client

/-- Until `t` no part of the client is given a value that it cannot take. -/
structure Lasts (client : Client) (t : Instant) : Prop where
  dispatch : ∀ capacity, client.session.dispatch.mode = .bounded capacity →
    capacity ≤ Gateway.DispatchMode.capacityLimit
  /-- The set of the last keys has a place to spare, and counts its places in 64 bits. -/
  dedupe : client.session.dedupe.capacity + 1 < UInt64.size
  /-- There are cleanups, and each can tell whether a bucket is idle, whatever the requests do. -/
  sweep : ∃ sweep, client.sweep = some sweep ∧ sweep.period ≠ .zero ∧
    ∀ events : List Rest.Traffic.Event, (∀ e ∈ events, e.time ≤ t) → ∀ n b,
      ((⟨client.queue, fun _ => none⟩ : Rest.Traffic).run events).queue.registry.bucketOf? n =
        some b → (b.lastAttempt.after? sweep.idle).isSome

end Client

structure ClientConfig.Sustains (c : ClientConfig) (t : Instant) : Prop where
  dispatch : c.DispatchFits
  keys : c.KeysFit
  period : c.rest.bucketIdleTtlSecs ≠ 0
  idle : t.nanos + c.rest.bucketIdleTtlSecs.toNat * 1000000000 < Instant.limit

theorem RestConfig.bucketIdleTtl_eq_zero_iff {c : RestConfig} :
    c.bucketIdleTtl = .zero ↔ c.bucketIdleTtlSecs = 0 := by
  rw [bucketIdleTtl, Duration.ofSecs, Duration.zero, Duration.mk.injEq, ← UInt64.toNat_inj,
    UInt64.toNat_zero]
  omega

theorem Gateway.Options.exists_ofConfig {c : ClientConfig} (h : ∃ s, c.shard.shard = .ok s) :
    ∃ o, ofConfig c = .ok o ∧ o.dedupeCapacity = c.gateway.dedupeCapacity.toNat := by
  obtain ⟨s, hs⟩ := h
  rw [ofConfig, hs]
  exact ⟨_, rfl, rfl⟩

namespace Client

variable {env : Environment} {c : ClientConfig} {client : Client} {x : Gateway.Surroundings}
  {t : Instant}

structure Made (c : ClientConfig) (x : Gateway.Surroundings) (client : Client) : Prop where
  queue : client.queue = .create c.rest.preemptiveBackoff
  dispatch : client.session.dispatch.mode =
    .ofConfig c.gateway.dispatchMode c.gateway.dispatchCapacity.toNat
  dedupe : client.session.dedupe.capacity = max c.gateway.dedupeCapacity.toNat 1
  sweep : client.sweep = Rest.Sweep.start? c.rest.bucketIdleTtl c.rest.bucketIdleTtl x.now

/-- A client whose shard is one starts, unless its dispatch queue or its set of keys is too large. -/
theorem start_cases (h : ∃ s, c.shard.shard = .ok s) (x : Gateway.Surroundings) :
    (c.DispatchFits ∧ Cache.Dedupe.isPossible c.gateway.dedupeCapacity.toNat = true ∧
        ∃ client, start c x = .ok client ∧ Made c x client) ∨
      (¬ c.DispatchFits ∧ start c x = .error .capacity) ∨
      (c.DispatchFits ∧ Cache.Dedupe.isPossible c.gateway.dedupeCapacity.toNat = false ∧
        start c x = .error .keys) := by
  obtain ⟨o, ho, hd⟩ := Gateway.Options.exists_ofConfig h
  rw [← Gateway.DispatchMode.isPossible_ofConfig, ← hd]
  unfold start
  dsimp only
  rw [ho]
  dsimp only
  split_ifs with hp hk
  · exact Or.inr (Or.inl ⟨by simpa using hp, rfl⟩)
  · exact Or.inr (Or.inr ⟨by simpa using hp, by simpa using hk, rfl⟩)
  · refine Or.inl ⟨by simpa using hp, by simpa using hk, _, rfl, rfl, rfl, ?_, rfl⟩
    rw [← hd]
    rfl

theorem Made.lasts_iff (h : Made c x client) (hp : c.DispatchFits)
    (hk : Cache.Dedupe.isPossible c.gateway.dedupeCapacity.toNat = true) :
    client.Lasts t ↔ c.Sustains t := by
  have hidle := Rest.Traffic.idle_ends_fit_iff c.rest.preemptiveBackoff c.rest.bucketIdleTtl t
  have hperiod := not_congr (RestConfig.bucketIdleTtl_eq_zero_iff (c := c.rest))
  have hsize : 2 < UInt64.size ∧ Cache.Dedupe.keyLimit < UInt64.size := by decide
  constructor
  · rintro ⟨-, hdedupe, sweep, hs, hz, hfit⟩
    rw [h.sweep, Rest.Sweep.start?_eq_some_iff] at hs
    obtain ⟨hne, rfl⟩ := hs
    rw [h.queue] at hfit
    rw [h.dedupe] at hdedupe
    exact ⟨hp, (Cache.Dedupe.isPossible_iff (by omega)).mp hk, hperiod.mp hne, hidle.mp hfit⟩
  · rintro ⟨-, hkeys, hne, hfit⟩
    refine ⟨?_, ?_, ?_⟩
    · intro capacity hm
      rw [h.dispatch] at hm
      have hpossible := Gateway.DispatchMode.isPossible_ofConfig.mpr hp
      rw [hm] at hpossible
      simpa [Gateway.DispatchMode.isPossible] using hpossible
    · unfold ClientConfig.KeysFit at hkeys
      rw [h.dedupe]
      omega
    · refine ⟨_, h.sweep.trans (Rest.Sweep.start?_eq_some_iff.mpr ⟨hperiod.mpr hne, rfl⟩),
        hperiod.mpr hne, ?_⟩
      rw [h.queue]
      exact hidle.mpr hfit

/-- With settings that are accepted the client starts and lasts exactly if its dispatch queue, when it
is bounded, and its set of the last keys are not too large, the idle time of buckets is not zero, and
the ends of idle times are in the range of the clock. It never fails over its shard. -/
theorem accepted_settings_last_iff (h : ClientConfig.ofEnvironment env = .ok c)
    (x : Gateway.Surroundings) (t : Instant) :
    c.ReadFrom env ∧ (∀ e, start c x ≠ .error (.config e)) ∧
      ((∃ client, start c x = .ok client ∧ client.Lasts t) ↔ c.Sustains t) := by
  have hread := ClientConfig.readFrom_of_accepted h
  have hkeys (hc : c.Sustains t) :
      Cache.Dedupe.isPossible c.gateway.dedupeCapacity.toNat = true := by
    have hlimit : Cache.Dedupe.keyLimit < UInt64.size := by decide
    have hfit : c.gateway.dedupeCapacity.toNat + 1 ≤ Cache.Dedupe.keyLimit := hc.keys
    exact (Cache.Dedupe.isPossible_iff (by omega)).mpr hfit
  refine ⟨hread, ?_⟩
  -- the shard has been checked as the settings were read
  rcases start_cases hread.shard x with ⟨hp, hk, client, hs, hm⟩ | ⟨hp, hs⟩ | ⟨-, hk, hs⟩
  · refine ⟨fun e he => by simp [hs] at he, ?_⟩
    constructor
    · rintro ⟨other, ho, hl⟩
      obtain rfl := Except.ok.inj (hs.symm.trans ho)
      exact (hm.lasts_iff hp hk).mp hl
    · intro hc
      exact ⟨client, hs, (hm.lasts_iff hp hk).mpr hc⟩
  · refine ⟨fun e he => by simp [hs] at he, ?_⟩
    constructor
    · rintro ⟨other, ho, -⟩
      simp [hs] at ho
    · intro hc
      exact absurd hc.dispatch hp
  · refine ⟨fun e he => by simp [hs] at he, ?_⟩
    constructor
    · rintro ⟨other, ho, -⟩
      simp [hs] at ho
    · intro hc
      simp [hkeys hc] at hk

def withToken (name value : String) : Environment :=
  fun n => [("CHAT_TOKEN", "token"), (name, value)].lookup n

theorem defaults_last :
    ClientConfig.ofEnvironment (withToken "CHAT_DISPATCH_CAPACITY" "0") = .ok (.standard "token") ∧
      ∀ x, ∃ client, start (.standard "token") x = .ok client ∧ client.Lasts (.ofMillis 1000) := by
  have h : ClientConfig.ofEnvironment (withToken "CHAT_DISPATCH_CAPACITY" "0") =
      .ok (.standard "token") := by
    decide +kernel
  refine ⟨h, fun x => ?_⟩
  obtain ⟨-, -, hlasts⟩ := accepted_settings_last_iff h x (.ofMillis 1000)
  exact hlasts.mpr ⟨by decide, by decide, by decide, by decide⟩

def largeCapacity : ClientConfig :=
  { ClientConfig.standard "token" with
    gateway := { GatewayConfig.standard with dispatchCapacity := 2305843009213693952 } }

def manyKeys : ClientConfig :=
  { ClientConfig.standard "token" with
    gateway := { GatewayConfig.standard with dedupeCapacity := 9223372036854775808 } }

def noIdleTime : ClientConfig :=
  { ClientConfig.standard "token" with
    rest := { RestConfig.standard with bucketIdleTtlSecs := 0 } }

/-- A capacity that no dispatch queue has, one that no set of keys has, and an idle time of zero, with
which nothing is ever cleaned up. -/
theorem accepted_settings_fail :
    ClientConfig.ofEnvironment (withToken "CHAT_DISPATCH_CAPACITY" "2305843009213693952") =
        .ok largeCapacity ∧
      (∀ x, start largeCapacity x = .error .capacity) ∧
      ClientConfig.ofEnvironment (withToken "CHAT_DEDUPE_CAPACITY" "9223372036854775808") =
        .ok manyKeys ∧
      (∀ x, start manyKeys x = .error .keys) ∧
      ClientConfig.ofEnvironment (withToken "CHAT_BUCKET_IDLE_TTL_SECS" "0") = .ok noIdleTime ∧
      ∀ x, ∃ client, start noIdleTime x = .ok client ∧ client.sweep = none := by
  have hlarge : ¬ largeCapacity.DispatchFits := by decide
  have hqueue : manyKeys.DispatchFits := by decide
  have hmany : Cache.Dedupe.isPossible manyKeys.gateway.dedupeCapacity.toNat = false := by decide
  have hfits : noIdleTime.DispatchFits ∧
      Cache.Dedupe.isPossible noIdleTime.gateway.dedupeCapacity.toNat = true := by
    decide
  have hzero : noIdleTime.rest.bucketIdleTtl = .zero :=
    RestConfig.bucketIdleTtl_eq_zero_iff.mpr rfl
  refine ⟨by decide +kernel, fun x => ?_, by decide +kernel, fun x => ?_, by decide +kernel,
    fun x => ?_⟩
  · rcases start_cases (c := largeCapacity) ⟨_, rfl⟩ x with ⟨hp, -⟩ | ⟨-, hs⟩ | ⟨hp, -⟩
    · exact absurd hp hlarge
    · exact hs
    · exact absurd hp hlarge
  · rcases start_cases (c := manyKeys) ⟨_, rfl⟩ x with ⟨-, hk, -⟩ | ⟨hp, -⟩ | ⟨-, -, hs⟩
    · simp [hmany] at hk
    · exact absurd hqueue hp
    · exact hs
  · rcases start_cases (c := noIdleTime) ⟨_, rfl⟩ x with ⟨-, -, client, hs, hm⟩ | ⟨hp, -⟩ | ⟨-, hk, -⟩
    · exact ⟨client, hs, hm.sweep.trans (if_pos hzero)⟩
    · exact absurd hfits.1 hp
    · simp [hfits.2] at hk

end Client

end Parley
