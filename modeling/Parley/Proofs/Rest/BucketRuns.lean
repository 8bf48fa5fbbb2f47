import Mathlib.Data.List.Induction
import Parley.Rest.Bucket

/-! Runs of the operations on one bucket, and how long a refusal lasts in them. A refusal is only a
count of zero beside an end, so it ends early exactly when an operation puts the count back. -/
namespace Parley.Rest

structure Timed (α : Type) where
  time : Instant
  act : α

def InOrder {α : Type} (events : List (Timed α)) : Prop :=
  events.Pairwise fun d e => d.time ≤ e.time

theorem InOrder.le_of_snoc {α : Type} {events before : List (Timed α)} {e : Timed α}
    (ho : InOrder events) (hp : before ++ [e] <+: events) : ∀ d ∈ before, d.time ≤ e.time := by
  intro d hd
  have hs := List.Pairwise.sublist hp.sublist ho
  exact (List.pairwise_append.mp hs).2.2 d hd e (by simp)

namespace Bucket

inductive Act where
  | ask
  | learn (info : RateLimit)
  | refusal (wait : Duration)
  | consume
  | refund

def Act.isRefusal : Act → Bool
  | .refusal _ => true
  | _ => false

abbrev Event := Timed Act

/-- The bucket after a response, also one that is broken off. -/
def absorb (b : Bucket) (info : RateLimit) (now : Instant) : Bucket :=
  (b.update? info now).getD (b.learnLimit info)

/-- The bucket after a refusal, also one that ends past the clock's range. -/
def refused (b : Bucket) (wait : Duration) (now : Instant) : Bucket :=
  match now.after? wait with
  | some reset => b.refuse reset
  | none => b.drain

def next (b : Bucket) (e : Event) : Bucket :=
  match e.act with
  | .ask => (b.tryAdmit e.time).1
  | .learn info => b.absorb info e.time
  | .refusal wait => b.refused wait e.time
  | .consume => b.consume
  | .refund => b.refund

def run (b : Bucket) (events : List Event) : Bucket := events.foldl next b

@[simp] theorem run_nil (b : Bucket) : b.run [] = b := rfl

@[simp] theorem run_cons (b : Bucket) (e : Event) (events : List Event) :
    b.run (e :: events) = (b.next e).run events := rfl

@[simp] theorem run_snoc (b : Bucket) (events : List Event) (e : Event) :
    b.run (events ++ [e]) = (b.run events).next e := by
  simp [run, List.foldl_append]

def grants (b : Bucket) (now : Instant) : Prop := (b.tryAdmit now).2 = .granted

instance (b : Bucket) (now : Instant) : Decidable (b.grants now) :=
  inferInstanceAs (Decidable (_ = _))

/-- The end of the window that a response announces, if the clock can represent it. -/
def announced (info : RateLimit) (now : Instant) : Option Instant := info.resetAfter.bind now.after?

/-- The clock can represent what a response has a limited bucket compute: the end that it announces,
and that of the tolerance after the known end. -/
def InRange (b : Bucket) (info : RateLimit) (now : Instant) : Prop :=
  b.unlimited = false → ∀ wait ∈ info.resetAfter,
    (now.after? wait).isSome ∧ ∀ known ∈ b.resetAt, (known.after? tolerance).isSome

variable {b b' : Bucket} {info : RateLimit} {now : Instant}

theorem isComparable_iff : b.isComparable = true ↔
    ∀ known ∈ b.resetAt, (known.after? tolerance).isSome := by
  simp only [isComparable, Option.all_eq_true, Option.mem_def]

theorem update?_of_told (hu : b.unlimited = false) (hm : info.hasMetadata = true)
    (hr : b.InRange info now) :
    b.update? info now = some (b.learn info (announced info now) now) := by
  unfold update? announced
  cases hw : info.resetAfter with
  | none => simp [hu, hm]
  | some wait =>
    obtain ⟨hnew, hknown⟩ := hr hu wait hw
    obtain ⟨t, ht⟩ := Option.isSome_iff_exists.mp hnew
    have hc := isComparable_iff.mpr hknown
    simp [hu, hm, ht, hc]

theorem update?_of_far (hr : ¬ b.InRange info now) : b.update? info now = none := by
  simp only [InRange, not_forall] at hr
  obtain ⟨hu, wait, hw, hfar⟩ := hr
  rw [Option.mem_def] at hw
  have hm : info.hasMetadata = true := by simp [RateLimit.hasMetadata, hw]
  by_cases hc : b.isComparable = true
  · have hnew : now.after? wait = none := by
      by_contra hne
      exact hfar ⟨Option.isSome_iff_ne_none.mpr hne, isComparable_iff.mp hc⟩
    simp [update?, hu, hm, hw, hnew]
  · simp [update?, hu, hm, hw, hc]

/-- A response changes nothing, lifts the limit, is learned from or is broken off. -/
theorem update?_cases (b : Bucket) (info : RateLimit) (now : Instant) :
    (b.unlimited = true ∧ b.update? info now = some b) ∨
      (b.unlimited = false ∧
        (b.update? info now = some { b with unlimited := true } ∨
          b.update? info now = some (b.learn info (announced info now) now) ∨
          b.update? info now = none)) := by
  cases hu : b.unlimited with
  | true => exact Or.inl ⟨rfl, by simp [update?, hu]⟩
  | false =>
    refine Or.inr ⟨rfl, ?_⟩
    cases hm : info.hasMetadata with
    | false => exact Or.inl (by simp [update?, hu, hm])
    | true =>
      by_cases hr : b.InRange info now
      · exact Or.inr (Or.inl (update?_of_told hu hm hr))
      · exact Or.inr (Or.inr (update?_of_far hr))

/-- A response is broken off exactly if the clock cannot represent what it has the bucket compute. -/
theorem update?_eq_none_iff : b.update? info now = none ↔ ¬ b.InRange info now := by
  refine ⟨fun h hr => ?_, update?_of_far⟩
  cases hu : b.unlimited with
  | true => simp [update?, hu] at h
  | false =>
    cases hm : info.hasMetadata with
    | false => simp [update?, hu, hm] at h
    | true => simp [update?_of_told hu hm hr] at h

theorem absorb_of_update (h : b.update? info now = some b') : b.absorb info now = b' := by
  simp [absorb, h]

theorem absorb_of_broken_off (h : b.update? info now = none) :
    b.absorb info now = b.learnLimit info := by
  simp [absorb, h]

/-- The bucket is empty, and does not refill before `until_`. -/
structure Blocked (b : Bucket) (until_ : Instant) : Prop where
  limited : b.unlimited = false
  learned : b.learned = true
  empty : b.remaining = 0
  resets : ∃ reset, b.resetAt = some reset ∧ until_ ≤ reset

theorem blocked_refuse (b : Bucket) (until_ : Instant) : (b.refuse until_).Blocked until_ :=
  ⟨rfl, rfl, rfl, until_, rfl, Nat.le_refl until_.nanos⟩

variable {until_ : Instant}

theorem refill_of_open (h : ∀ t ∈ b.resetAt, now < t) : b.refill now = b := by
  unfold refill
  split
  · next t ht => exact if_neg (Instant.not_le_of_lt (h t ht))
  · rfl

theorem Blocked.tryAdmit (h : b.Blocked until_) (hn : now < until_) :
    ∃ reset, until_ ≤ reset ∧
      b.tryAdmit now = ({ b with lastAttempt := now }, .waitUntil reset) := by
  obtain ⟨hu, -, he, reset, hr, hl⟩ := h
  have hlater := Instant.not_le_of_lt (Instant.lt_of_lt_of_le hn hl)
  refine ⟨reset, hl, ?_⟩
  simp [Bucket.tryAdmit, refill, hu, hr, hlater, he]

theorem Blocked.not_grants (h : b.Blocked until_) (hn : now < until_) : ¬ b.grants now := by
  obtain ⟨reset, -, ha⟩ := h.tryAdmit hn
  simp [grants, ha]

theorem grants_of_unlimited (hu : b.unlimited = true) : b.grants now := by
  simp [grants, Bucket.tryAdmit, hu]

theorem grants_of_remaining (hr : 0 < b.remaining) (hw : ∀ t ∈ b.resetAt, now < t) :
    b.grants now := by
  cases hu : b.unlimited with
  | true => exact grants_of_unlimited hu
  | false =>
    have hf : ({ b with lastAttempt := now } : Bucket).refill now = { b with lastAttempt := now } :=
      refill_of_open hw
    have hl : ({ b with lastAttempt := now } : Bucket).unlimited ≠ true := by simp [hu]
    unfold grants Bucket.tryAdmit
    rw [if_neg hl, hf, if_pos hr]

/-- The operation makes a blocked bucket grant again. A slot that comes back does, whoever gave it
up; a response does if it says nothing about limits, or announces a later window with slots. -/
def lifts (b : Bucket) (e : Event) : Bool :=
  match e.act with
  | .ask | .consume | .refusal _ => false
  | .refund => b.limit != 0
  | .learn info =>
    !info.hasMetadata ||
      (isNewWindow b.resetAt (announced info e.time) &&
        (info.remaining.map UInt32.toNat).getD 0 != 0 &&
        (info.limit.map UInt32.toNat).getD b.limit != 0)

theorem Blocked.consume_eq (h : b.Blocked until_) : b.consume = b := by
  have hu := h.limited
  have he := h.empty
  cases b
  simp_all [consume]

theorem Blocked.refund_remaining (h : b.Blocked until_) :
    b.refund = { b with remaining := min 1 b.limit } := by
  simp [refund, h.limited, h.empty]

theorem absorb_silent (hu : b.unlimited = false) {info : RateLimit}
    (hm : info.hasMetadata = false) : b.absorb info now = { b with unlimited := true } := by
  simp [absorb, update?, hu, hm]

theorem absorb_told (hu : b.unlimited = false) {info : RateLimit} (hm : info.hasMetadata = true)
    (now : Instant) :
    b.absorb info now = b.learn info (announced info now) now ∨
      b.absorb info now = b.learnLimit info ∧ isNewWindow b.resetAt (announced info now) = false := by
  by_cases hr : b.InRange info now
  · exact Or.inl (absorb_of_update (update?_of_told hu hm hr))
  · refine Or.inr ⟨absorb_of_broken_off (update?_of_far hr), ?_⟩
    simp only [InRange, not_forall] at hr
    obtain ⟨-, wait, hw, hfar⟩ := hr
    rw [announced, Option.mem_def.mp hw, Option.bind_some]
    -- an end that is missing, or cannot be compared, announces no new window
    cases hn : now.after? wait with
    | none => cases b.resetAt <;> rfl
    | some new =>
      cases hk : b.resetAt with
      | none => rfl
      | some known =>
        have hpast : known.after? tolerance = none := by simpa [hn, hk] using hfar
        simp [isNewWindow, hpast]

theorem Blocked.learn_remaining (h : b.Blocked until_) (info : RateLimit) (t : Option Instant) :
    (b.learn info t now).remaining =
      if isNewWindow b.resetAt t then
        min ((info.remaining.map UInt32.toNat).getD 0) ((info.limit.map UInt32.toNat).getD b.limit)
      else 0 := by
  simp only [learn, h.learned, h.empty]
  cases info.remaining <;> cases isNewWindow b.resetAt t <;> simp

theorem Blocked.learn_resetAt (h : b.Blocked until_) (info : RateLimit) (t : Option Instant)
    (now : Instant) :
    ∃ reset, (b.learn info t now).resetAt = some reset ∧ until_ ≤ reset := by
  obtain ⟨hu, hl, he, reset, hr, hle⟩ := h
  cases t with
  | none => exact ⟨reset, by simp [learn, hr], hle⟩
  | some new =>
    cases hw : isNewWindow b.resetAt (some new) with
    | true =>
      refine ⟨new, by simp [learn, hr, hr ▸ hw], ?_⟩
      obtain ⟨last, hlast, hlt⟩ : ∃ last, reset.after? tolerance = some last ∧ last < new := by
        simpa [isNewWindow, hr, Option.any_eq_true] using hw
      rw [Instant.after?_eq_some hlast, Instant.lt_iff] at hlt
      rw [Instant.le_iff] at *
      simp only [Instant.plus] at hlt
      omega
    | false =>
      refine ⟨max reset new, by simp [learn, hl, hr, hr ▸ hw], ?_⟩
      exact Instant.le_trans hle (Instant.le_max_left reset new)

theorem Blocked.absorb (h : b.Blocked until_) {info : RateLimit}
    (hl : b.lifts ⟨now, .learn info⟩ = false) : (b.absorb info now).Blocked until_ := by
  simp only [lifts, Bool.or_eq_false_iff, Bool.not_eq_false', Bool.and_eq_false_iff,
    bne_eq_false_iff_eq] at hl
  obtain ⟨hm, hw⟩ := hl
  rcases absorb_told h.limited hm now with ha | ⟨ha, -⟩
  · rw [ha]
    refine ⟨h.limited, rfl, ?_, h.learn_resetAt info _ now⟩
    rw [h.learn_remaining]
    rcases hw with (hw | hw) | hw
    · simp [hw]
    · simp [hw]
    · simp [hw]
  · rw [ha]
    exact ⟨h.limited, h.learned, h.empty, h.resets⟩

theorem Blocked.next {e : Event} (h : b.Blocked until_) (hn : e.act.isRefusal = false)
    (ht : e.time < until_) (hl : b.lifts e = false) : (b.next e).Blocked until_ := by
  obtain ⟨time, act⟩ := e
  cases act with
  | ask =>
    obtain ⟨reset, -, ha⟩ := h.tryAdmit ht
    simp only [Bucket.next, ha]
    exact ⟨h.limited, h.learned, h.empty, h.resets⟩
  | learn info => exact h.absorb hl
  | refusal wait => simp [Act.isRefusal] at hn
  | consume =>
    simp only [Bucket.next, h.consume_eq]
    exact h
  | refund =>
    have hz : b.limit = 0 := by simpa [lifts] using hl
    simp only [Bucket.next, h.refund_remaining]
    exact ⟨h.limited, h.learned, by simp [hz], h.resets⟩

theorem Blocked.grants_absorb (h : b.Blocked until_) (hn : now < until_) {info : RateLimit}
    (hl : b.lifts ⟨now, .learn info⟩ = true) : (b.absorb info now).grants now := by
  cases hm : info.hasMetadata with
  | false =>
    rw [absorb_silent h.limited hm]
    exact grants_of_unlimited rfl
  | true =>
    simp only [lifts, hm, Bool.not_true, Bool.false_or, Bool.and_eq_true, bne_iff_ne] at hl
    obtain ⟨⟨hw, hr⟩, hc⟩ := hl
    rcases absorb_told h.limited hm now with ha | ⟨-, ha⟩
    · rw [ha]
      obtain ⟨reset, hs, hle⟩ := h.learn_resetAt info (announced info now) now
      apply grants_of_remaining
      · rw [h.learn_remaining, if_pos hw]
        omega
      · intro t hmem
        rw [hs, Option.mem_some_iff] at hmem
        exact hmem ▸ Instant.lt_of_lt_of_le hn hle
    · simp [ha] at hw

theorem Blocked.grants_next {e : Event} (h : b.Blocked until_) (ht : e.time < until_)
    (hl : b.lifts e = true) : (b.next e).grants e.time := by
  obtain ⟨time, act⟩ := e
  cases act with
  | ask => simp [lifts] at hl
  | learn info => exact h.grants_absorb ht hl
  | refusal wait => simp [lifts] at hl
  | consume => simp [lifts] at hl
  | refund =>
    have hz : b.limit ≠ 0 := by simpa [lifts] using hl
    obtain ⟨reset, hs, hle⟩ := h.resets
    simp only [Bucket.next, h.refund_remaining]
    apply grants_of_remaining
    · simp only
      omega
    · intro t hmem
      simp only [hs, Option.mem_some_iff] at hmem
      exact hmem ▸ Instant.lt_of_lt_of_le ht hle

/-- A block stands after events that all leave it in force. -/
theorem Blocked.run (h : b.Blocked until_) (events : List Event)
    (hn : ∀ e ∈ events, e.act.isRefusal = false) (ht : ∀ e ∈ events, e.time < until_)
    (hl : ∀ before e, before ++ [e] <+: events → (b.run before).lifts e = false) :
    (b.run events).Blocked until_ := by
  induction events using List.reverseRecOn with
  | nil => exact h
  | append_singleton events e ih =>
    have hp : events <+: events ++ [e] := List.prefix_append events [e]
    have hb := ih (fun d hd => hn d (hp.subset hd)) (fun d hd => ht d (hp.subset hd))
      (fun before d hd => hl before d (hd.trans hp))
    rw [run_snoc]
    exact hb.next (hn e (by simp)) (ht e (by simp)) (hl events e (List.prefix_refl _))

/-- As long as no bucket of a run grants before the end of the block, no event lifts it. -/
theorem Blocked.lifts_of_not_grants (h : b.Blocked until_) {events : List Event}
    (hn : ∀ e ∈ events, e.act.isRefusal = false) (ho : InOrder events)
    (hg : ∀ before e, before ++ [e] <+: events → e.time < until_ →
      ¬ (b.run (before ++ [e])).grants e.time)
    (before : List Event) (e : Event) (hp : before ++ [e] <+: events) (ht : e.time < until_) :
    (b.run before).lifts e = false := by
  -- An event may be judged only while the block stands, so the shorter prefixes come first.
  induction hk : before.length using Nat.strongRecOn generalizing before e with
  | _ k ih =>
    have hle := ho.le_of_snoc hp
    have hin : before <+: events := (List.prefix_append before [e]).trans hp
    have hb : (b.run before).Blocked until_ := by
      apply h.run before (fun d hd => hn d (hin.subset hd))
      · intro d hd
        exact Nat.lt_of_le_of_lt (hle d hd) ht
      · intro earlier d hd
        have hlen := hd.length_le
        simp only [List.length_append, List.length_singleton] at hlen
        have hmem : d ∈ before := hd.subset (by simp)
        exact ih earlier.length (by omega) earlier d (hd.trans hin)
          (Nat.lt_of_le_of_lt (hle d hmem) ht) rfl
    cases hl : (b.run before).lifts e with
    | false => rfl
    | true =>
      have hgrant := hb.grants_next ht hl
      rw [← run_snoc] at hgrant
      exact absurd hgrant (hg before e hp ht)

/-- A refusal keeps its bucket shut until its end exactly as long as no event before that end lifts
it: a slot that is given back, a response that says nothing about limits, or one that announces a
later window with slots. -/
theorem refusal_lasts_iff (b : Bucket) {start until_ : Instant} {wait : Duration}
    (hu : start.after? wait = some until_) {events : List Event}
    (ho : InOrder (⟨start, .refusal wait⟩ :: events))
    (hn : ∀ e ∈ events, e.act.isRefusal = false) :
    (∀ before, before <+: events → ∀ now, (∀ e ∈ ⟨start, .refusal wait⟩ :: before, e.time ≤ now) →
        now < until_ → ¬ (b.run (⟨start, .refusal wait⟩ :: before)).grants now) ↔
      ∀ before e, before ++ [e] <+: events → e.time < until_ →
        (b.run (⟨start, .refusal wait⟩ :: before)).lifts e = false := by
  have hb : (b.next ⟨start, .refusal wait⟩).Blocked until_ := by
    simp only [Bucket.next, refused, hu]
    exact blocked_refuse b until_
  have ho' : InOrder events := List.Pairwise.of_cons ho
  simp only [run_cons]
  constructor
  · intro hg
    apply hb.lifts_of_not_grants hn ho'
    intro before e hp ht
    apply hg (before ++ [e]) hp e.time _ ht
    intro d hd
    have hsome : (⟨start, .refusal wait⟩ :: before) ++ [e] <+: ⟨start, .refusal wait⟩ :: events :=
      List.cons_prefix_cons.mpr ⟨rfl, hp⟩
    rcases List.mem_cons.mp hd with rfl | hd
    · exact ho.le_of_snoc hsome _ (by simp)
    · rcases List.mem_append.mp hd with hd | hd
      · exact ho.le_of_snoc hsome d (by simp [hd])
      · rw [List.mem_singleton.mp hd]
        exact Nat.le_refl e.time.nanos
  · intro hl before hp now hle hlt
    have hearly : ∀ e ∈ before, e.time < until_ := fun e he =>
      Nat.lt_of_le_of_lt (hle e (List.mem_cons_of_mem _ he)) hlt
    have hblock := hb.run before (fun e he => hn e (hp.subset he)) hearly
      (fun earlier e he => hl earlier e (he.trans hp) (hearly e (he.subset (by simp))))
    exact hblock.not_grants hlt

/-- A bucket of five slots, of which two requests that are under way hold one each. -/
def twoTaken : Bucket :=
  (create ⟨.get, "/gateway", none⟩ (.ofMillis 750) ⟨0⟩).run
    [⟨⟨0⟩, .learn { RateLimit.silent with
        limit := some 5, remaining := some 5, resetAfter := some (.ofSecs 1) }⟩,
      ⟨⟨0⟩, .ask⟩, ⟨⟨0⟩, .ask⟩]

theorem twoTaken_refused_to_the_end :
    InOrder [(⟨⟨0⟩, .refusal (.ofSecs 5)⟩ : Event), ⟨⟨1⟩, .ask⟩] ∧
      ∀ now, (⟨1⟩ : Instant) ≤ now → now < .ofMillis 5000 →
        ¬ (twoTaken.run [⟨⟨0⟩, .refusal (.ofSecs 5)⟩, ⟨⟨1⟩, .ask⟩]).grants now := by
  have ho : InOrder [(⟨⟨0⟩, .refusal (.ofSecs 5)⟩ : Event), ⟨⟨1⟩, .ask⟩] := by
    simp [InOrder, Instant.le_iff]
  refine ⟨ho, ?_⟩
  intro now hle hlt
  have hu : (⟨0⟩ : Instant).after? (.ofSecs 5) = some (.ofMillis 5000) := by decide
  have hiff := refusal_lasts_iff twoTaken hu ho (by simp [Act.isRefusal])
  refine hiff.mpr ?_ [⟨⟨1⟩, .ask⟩] (List.prefix_refl _) now ?_ hlt
  · intro before e hp _
    have hmem : e ∈ [(⟨⟨1⟩, .ask⟩ : Event)] := hp.subset (by simp)
    rw [List.mem_singleton.mp hmem]
    rfl
  · simp only [List.mem_cons, List.not_mem_nil, or_false, forall_eq_or_imp, forall_eq]
    exact ⟨Nat.zero_le now.nanos, hle⟩

/-- The slot of one of the two comes back while the other has been refused. -/
theorem twoTaken_grants_after_refund :
    (twoTaken.run [⟨⟨0⟩, .refusal (.ofSecs 5)⟩, ⟨⟨1⟩, .refund⟩]).grants ⟨2⟩ ∧
      (⟨2⟩ : Instant) < .ofMillis 5000 := by
  decide

end Bucket

end Parley.Rest
