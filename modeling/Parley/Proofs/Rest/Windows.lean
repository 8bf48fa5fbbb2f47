import Parley.Proofs.Rest.BucketRuns

/-! How many requests one window admits. A slot that comes back unused counts for the window that is
open then, whichever window it was granted in. So a window admits more requests than its limit exactly
if a slot of an earlier window comes back to it while it is open and not full. -/
namespace Parley.Rest

namespace Bucket

def IsOpen (b : Bucket) (now : Instant) : Prop := ∀ t ∈ b.resetAt, now < t

instance (b : Bucket) (now : Instant) : Decidable (b.IsOpen now) :=
  inferInstanceAs (Decidable (∀ t ∈ b.resetAt, now < t))

variable {b : Bucket} {now : Instant}

theorem IsOpen.earlier {later : Instant} (h : b.IsOpen later) (hle : now ≤ later) : b.IsOpen now :=
  fun t ht => Nat.lt_of_le_of_lt hle (h t ht)

theorem refill_of_not_open (h : ¬ b.IsOpen now) :
    b.refill now = { b with remaining := b.limit, resetAt := none } := by
  unfold IsOpen at h
  unfold refill
  cases hr : b.resetAt with
  | none => simp [hr] at h
  | some t =>
    have hle : t ≤ now := by
      rw [hr] at h
      exact Instant.le_of_not_lt fun hlt => h fun u hu => Option.mem_some_iff.mp hu ▸ hlt
    simp only [if_pos hle]

/-- Slots that a request finds which asks now. -/
def available (b : Bucket) (now : Instant) : Nat := if b.IsOpen now then b.remaining else b.limit

theorem remaining_refill (b : Bucket) (now : Instant) :
    (b.refill now).remaining = b.available now := by
  unfold available
  split
  · next h => rw [refill_of_open h]
  · next h => rw [refill_of_not_open h]

theorem limit_refill (b : Bucket) (now : Instant) : (b.refill now).limit = b.limit := by
  unfold refill
  split
  · split <;> rfl
  · rfl

theorem unlimited_refill (b : Bucket) (now : Instant) :
    (b.refill now).unlimited = b.unlimited := by
  unfold refill
  split
  · split <;> rfl
  · rfl

/-- A limited bucket grants a slot exactly if one is available, which is then gone. -/
theorem tryAdmit_limited (hu : b.unlimited = false) (now : Instant) :
    (b.tryAdmit now).1.unlimited = false ∧ (b.tryAdmit now).1.limit = b.limit ∧
      (b.tryAdmit now).1.remaining = b.available now - 1 ∧
      ((b.tryAdmit now).2 = .granted ↔ 0 < b.available now) := by
  have hl : ({ b with lastAttempt := now } : Bucket).unlimited ≠ true := by simp [hu]
  have hr : (({ b with lastAttempt := now } : Bucket).refill now).remaining = b.available now :=
    remaining_refill _ now
  have hlimit : (({ b with lastAttempt := now } : Bucket).refill now).limit = b.limit :=
    limit_refill _ now
  have hun := (unlimited_refill ({ b with lastAttempt := now } : Bucket) now).trans hu
  unfold tryAdmit
  dsimp only at hl ⊢
  rw [if_neg hl]
  generalize ({ b with lastAttempt := now } : Bucket).refill now = r at hr hlimit hun
  rw [hr]
  split
  · next h => exact ⟨hun, hlimit, rfl, by simpa using h⟩
  · next h => exact ⟨hun, hlimit, by simp only; omega, by simpa using h⟩

theorem isOpen_tryAdmit (ho : b.IsOpen now) (hr : 0 < b.remaining) :
    (b.tryAdmit now).1.IsOpen now := by
  have hf : ({ b with lastAttempt := now } : Bucket).refill now = { b with lastAttempt := now } :=
    refill_of_open ho
  unfold tryAdmit
  dsimp only at hf ⊢
  rw [hf, if_pos hr]
  split <;> exact ho

inductive Use where
  | ask
  /-- The slot of a grant comes back unused. Grants are numbered from zero. -/
  | giveBack (grant : Nat)

/-- A bucket with the grants whose slots have not come back. -/
structure Usage where
  bucket : Bucket
  nextGrant : Nat
  current : List Nat
  former : List Nat

namespace Usage

def start (b : Bucket) : Usage := ⟨b, 0, [], []⟩

def turn (u : Usage) (now : Instant) : Usage :=
  if u.bucket.IsOpen now then u else { u with current := [], former := u.current ++ u.former }

/-- A grant that is not held has nothing to give back. -/
def next (u : Usage) (e : Timed Use) : Usage :=
  match e.act with
  | .ask =>
    let turned := u.turn e.time
    match u.bucket.tryAdmit e.time with
    | (bucket, .granted) =>
      { turned with bucket, nextGrant := u.nextGrant + 1, current := u.nextGrant :: turned.current }
    | (bucket, .waitUntil _) => { turned with bucket }
  | .giveBack grant =>
    if grant ∈ u.current then
      { u with bucket := u.bucket.refund, current := u.current.erase grant }
    else if grant ∈ u.former then
      { u with bucket := u.bucket.refund, former := u.former.erase grant }
    else u

def run (u : Usage) (events : List (Timed Use)) : Usage := events.foldl next u

/-- A slot of an earlier window comes back to one that is open and not full. -/
def Overfills (u : Usage) (e : Timed Use) : Prop :=
  match e.act with
  | .ask => False
  | .giveBack grant =>
    grant ∉ u.current ∧ grant ∈ u.former ∧ u.bucket.remaining < u.bucket.limit ∧
      u.bucket.IsOpen e.time

@[simp] theorem run_nil (u : Usage) : u.run [] = u := rfl

@[simp] theorem run_append (u : Usage) (events more : List (Timed Use)) :
    u.run (events ++ more) = (u.run events).run more := by
  simp [run]

@[simp] theorem run_singleton (u : Usage) (e : Timed Use) : u.run [e] = u.next e := rfl

/-- Held and free slots of the window are no more than its limit; they are just as many once a window
has begun after the first. Slots of a window that has ended are not counted any more. -/
structure Fits (limit : Nat) (u : Usage) (now : Instant) : Prop where
  limited : u.bucket.unlimited = false
  size : u.bucket.limit = limit
  within : u.current.length ≤ limit
  free : u.bucket.IsOpen now → u.current.length + u.bucket.remaining ≤ limit
  full : u.former ≠ [] → u.bucket.IsOpen now → u.current.length + u.bucket.remaining = limit

variable {u : Usage} {limit : Nat}

theorem fits_start (hu : b.unlimited = false) (hr : b.remaining ≤ b.limit) (now : Instant) :
    Fits b.limit (start b) now :=
  ⟨hu, rfl, Nat.zero_le _, fun _ => by simpa [start] using hr, fun h => absurd rfl h⟩

theorem Fits.mono (h : Fits limit u now) {later : Instant} (hle : now ≤ later) :
    Fits limit u later :=
  ⟨h.limited, h.size, h.within, fun ho => h.free (ho.earlier hle),
    fun hf ho => h.full hf (ho.earlier hle)⟩

theorem Fits.turn (h : Fits limit u now) :
    (u.turn now).current.length + u.bucket.available now ≤ limit ∧
      ((u.turn now).former ≠ [] →
        (u.turn now).current.length + u.bucket.available now = limit) := by
  unfold Usage.turn available
  split
  · next ho => exact ⟨h.free ho, fun hf => h.full hf ho⟩
  · simp [h.size]

theorem Fits.ask (h : Fits limit u now) : Fits limit (u.next ⟨now, .ask⟩) now := by
  obtain ⟨hle, heq⟩ := h.turn
  obtain ⟨hu, hl, hr, hg⟩ := tryAdmit_limited h.limited now
  have hl := hl.trans h.size
  unfold Usage.next
  dsimp only
  split
  · next bucket ha =>
    rw [ha] at hu hl hr hg
    simp only [true_iff] at hu hl hr hg
    refine ⟨hu, hl, ?_, fun _ => ?_, fun hf _ => ?_⟩
    · simp only [List.length_cons]
      omega
    · simp only [List.length_cons, hr]
      omega
    · have hfull := heq hf
      simp only [List.length_cons, hr]
      omega
  · next bucket t ha =>
    rw [ha] at hu hl hr hg
    simp only [reduceCtorEq, false_iff, Nat.not_lt, Nat.le_zero_eq] at hu hl hr hg
    refine ⟨hu, hl, ?_, fun _ => ?_, fun hf _ => ?_⟩
    · simp only
      omega
    · simp only [hr]
      omega
    · have hfull := heq hf
      simp only [hr]
      omega

theorem refund_limited (hu : b.unlimited = false) :
    b.refund = { b with remaining := min (b.remaining + 1) b.limit } := by
  simp [refund, hu]

theorem Fits.giveBack (h : Fits limit u now) {grant : Nat}
    (hn : ¬ u.Overfills ⟨now, .giveBack grant⟩) :
    Fits limit (u.next ⟨now, .giveBack grant⟩) now := by
  have hb := refund_limited h.limited
  have hl := h.size
  unfold Usage.next
  dsimp only
  split
  · next hc =>
    have hlen := List.length_erase_of_mem hc
    have hpos := List.length_pos_of_mem hc
    have hw := h.within
    refine ⟨by rw [hb]; exact h.limited, by rw [hb]; exact hl, ?_, fun ho => ?_, fun hf ho => ?_⟩
    · simp only [hlen]
      omega
    · have hle := h.free (by simpa [hb, IsOpen] using ho)
      simp only [hb, hlen]
      omega
    · have heq := h.full hf (by simpa [hb, IsOpen] using ho)
      simp only [hb, hlen]
      omega
  · next hc =>
    split
    · next hm =>
      have hne : u.former ≠ [] := List.ne_nil_of_mem hm
      -- the slot adds nothing to a window that is full, and to one that has ended it does not matter
      have hkeep : (u.bucket.refund).IsOpen now →
          u.current.length + u.bucket.refund.remaining = limit := by
        intro ho
        have ho : u.bucket.IsOpen now := by simpa [hb, IsOpen] using ho
        have hfull : u.bucket.limit ≤ u.bucket.remaining :=
          Nat.le_of_not_lt fun hlt => hn ⟨hc, hm, hlt, ho⟩
        have heq := h.full hne ho
        simp only [hb]
        omega
      exact ⟨by rw [hb]; exact h.limited, by rw [hb]; exact hl, h.within,
        fun ho => Nat.le_of_eq (hkeep ho), fun _ ho => hkeep ho⟩
    · exact h

theorem Fits.next (h : Fits limit u now) {e : Timed Use} (hle : now ≤ e.time)
    (hn : ¬ u.Overfills e) : Fits limit (u.next e) e.time := by
  obtain ⟨time, act⟩ := e
  cases act with
  | ask => exact (h.mono hle).ask
  | giveBack grant => exact (h.mono hle).giveBack hn

theorem Fits.run (h : ∀ now, Fits limit u now) (events : List (Timed Use)) (ho : InOrder events)
    (hn : ∀ before e, before ++ [e] <+: events → ¬ (u.run before).Overfills e)
    (hle : ∀ e ∈ events, e.time ≤ now) : Fits limit (u.run events) now := by
  induction events using List.reverseRecOn generalizing now with
  | nil => exact h now
  | append_singleton events e ih =>
    have hp : events <+: events ++ [e] := List.prefix_append events [e]
    have hfits : Fits limit (u.run events) e.time :=
      ih (List.Pairwise.sublist hp.sublist ho) (fun before d hd => hn before d (hd.trans hp))
        (ho.le_of_snoc (List.prefix_refl _))
    rw [run_append, run_singleton]
    exact (hfits.next (Nat.le_refl _) (hn events e (List.prefix_refl _))).mono (hle e (by simp))

def asks (n : Nat) (now : Instant) : List (Timed Use) := List.replicate n ⟨now, .ask⟩

theorem Fits.after_asks (h : Fits limit u now) (n : Nat) : Fits limit (u.run (asks n now)) now := by
  induction n generalizing u with
  | zero => exact h
  | succ n ih => exact ih h.ask

theorem length_current_asks {n : Nat} (hu : u.bucket.unlimited = false) (ho : u.bucket.IsOpen now)
    (hn : n ≤ u.bucket.remaining) :
    (u.run (asks n now)).current.length = u.current.length + n := by
  induction n generalizing u with
  | zero => rfl
  | succ n ih =>
    obtain ⟨hu', -, hr, hg⟩ := tryAdmit_limited hu now
    have ha : u.bucket.available now = u.bucket.remaining := if_pos ho
    have hgrant : (u.bucket.tryAdmit now).2 = .granted := hg.mpr (by omega)
    have hnext : u.next ⟨now, .ask⟩ = { u with
        bucket := (u.bucket.tryAdmit now).1
        nextGrant := u.nextGrant + 1
        current := u.nextGrant :: u.current } := by
      have hpair : u.bucket.tryAdmit now = ((u.bucket.tryAdmit now).1, .granted) :=
        Prod.ext rfl hgrant
      unfold Usage.next
      rw [hpair]
      simp [Usage.turn, ho]
    have hrun : u.run (asks (n + 1) now) = (u.next ⟨now, .ask⟩).run (asks n now) := rfl
    rw [hrun, hnext, ih hu' (isOpen_tryAdmit ho (by omega)) (by simp only [hr, ha]; omega)]
    simp only [List.length_cons]
    omega

/-- Requests can take more slots of a window than its limit, once one has been added to it. -/
theorem Fits.exceeded (h : Fits limit u now) {e : Timed Use} (ht : e.time = now)
    (hv : u.Overfills e) :
    ∃ n, limit < ((u.next e).run (asks n now)).current.length := by
  obtain ⟨time, act⟩ := e
  obtain rfl : time = now := ht
  cases act with
  | ask => exact hv.elim
  | giveBack grant =>
    obtain ⟨hc, hm, hlt, ho⟩ := hv
    have hb := refund_limited h.limited
    have hfull := h.full (List.ne_nil_of_mem hm) ho
    have hnext : u.next ⟨time, .giveBack grant⟩ =
        { u with bucket := u.bucket.refund, former := u.former.erase grant } := by
      simp [Usage.next, hc, hm]
    refine ⟨u.bucket.remaining + 1, ?_⟩
    rw [hnext, length_current_asks (by rw [hb]; exact h.limited) (by rw [hb]; exact ho)]
    · simp only
      omega
    · simp only [hb]
      omega

end Usage

theorem remaining_le_limit_absorb (h : b.remaining ≤ b.limit) {info : RateLimit}
    (hr : b.InRange info now) : (b.absorb info now).remaining ≤ (b.absorb info now).limit := by
  rcases b.update?_cases info now with ⟨-, hs⟩ | ⟨-, hs | hs | hs⟩
  · rw [absorb_of_update hs]
    exact h
  · rw [absorb_of_update hs]
    exact h
  · rw [absorb_of_update hs]
    exact Nat.min_le_right _ _
  · exact absurd hr (update?_eq_none_iff.mp hs)

theorem remaining_le_limit_next (h : b.remaining ≤ b.limit) {e : Event}
    (hr : ∀ info, e.act = .learn info → b.InRange info e.time) :
    (b.next e).remaining ≤ (b.next e).limit := by
  obtain ⟨time, act⟩ := e
  cases act with
  | ask =>
    cases hu : b.unlimited with
    | true => simpa [next, tryAdmit, hu] using h
    | false =>
      obtain ⟨-, hl, hrem, -⟩ := tryAdmit_limited hu time
      have ha : b.available time ≤ b.limit := by
        unfold available
        split
        · exact h
        · exact Nat.le_refl _
      simp only [next, hl, hrem]
      omega
  | learn info => exact remaining_le_limit_absorb h (hr info rfl)
  | refusal wait =>
    simp only [next, refused]
    split
    · exact Nat.zero_le _
    · exact Nat.zero_le _
  | consume =>
    simp only [next, consume]
    split
    · exact h
    · exact Nat.le_trans (Nat.sub_le _ _) h
  | refund =>
    simp only [next, refund]
    split
    · exact h
    · exact Nat.min_le_right _ _

/-- No response of the run is broken off. -/
def LearnsAll (b : Bucket) (events : List Event) : Prop :=
  ∀ before info now, before ++ [⟨now, .learn info⟩] <+: events → (b.run before).InRange info now

theorem remaining_le_limit_run (h : b.remaining ≤ b.limit) (events : List Event)
    (hr : b.LearnsAll events) : (b.run events).remaining ≤ (b.run events).limit := by
  induction events using List.reverseRecOn with
  | nil => exact h
  | append_singleton events e ih =>
    have hp : events <+: events ++ [e] := List.prefix_append events [e]
    have hb := ih fun before info now hd => hr before info now (hd.trans hp)
    rw [run_snoc]
    refine remaining_le_limit_next hb fun info ha => hr events info e.time ?_
    exact ha ▸ List.prefix_refl _

/-- No more requests than the limit can hold slots of one window, however many ask at whatever time,
exactly as long as no slot of an earlier window comes back to a window that is open and not full. -/
theorem window_within_limit_iff (key : BucketKey) (backoff : Duration) (start : Instant)
    {history : List Event} (hr : (create key backoff start).LearnsAll history)
    (hu : ((create key backoff start).run history).unlimited = false)
    {events : List (Timed Use)} (ho : InOrder events) :
    let b := (create key backoff start).run history
    (∀ before, before <+: events → ∀ now, (∀ e ∈ before, e.time ≤ now) → ∀ n,
        ((Usage.start b).run (before ++ Usage.asks n now)).current.length ≤ b.limit) ↔
      ∀ before e, before ++ [e] <+: events → ¬ ((Usage.start b).run before).Overfills e := by
  have hle := remaining_le_limit_run (b := create key backoff start) (Nat.le_refl 1) history hr
  generalize (create key backoff start).run history = b at hu hle
  have hstart := Usage.fits_start hu hle
  dsimp only
  constructor
  · intro h
    induction events using List.reverseRecOn with
    | nil =>
      intro before e hp
      simp at hp
    | append_singleton events e ih =>
      have hp : events <+: events ++ [e] := List.prefix_append events [e]
      have hn := ih (List.Pairwise.sublist hp.sublist ho) fun before hb => h before (hb.trans hp)
      intro before d hd
      rcases List.prefix_concat_iff.mp hd with hlast | hd
      · obtain ⟨rfl, hde⟩ := List.append_inj' hlast rfl
        obtain rfl : d = e := by simpa using hde
        intro hv
        have hfits := Usage.Fits.run hstart before (List.Pairwise.sublist hp.sublist ho) hn
          (ho.le_of_snoc (List.prefix_refl _))
        obtain ⟨n, hlt⟩ := hfits.exceeded rfl hv
        have hmax := h (before ++ [d]) (List.prefix_refl _) d.time
          (fun c hc => ?_) n
        · rw [Usage.run_append, Usage.run_append, Usage.run_singleton] at hmax
          omega
        · rcases List.mem_append.mp hc with hc | hc
          · exact ho.le_of_snoc (List.prefix_refl _) c hc
          · rw [List.mem_singleton.mp hc]
            exact Nat.le_refl d.time.nanos
      · exact hn before d hd
  · intro hn before hp now hle n
    have hfits := Usage.Fits.run hstart before (List.Pairwise.sublist hp.sublist ho)
      (fun earlier e he => hn earlier e (he.trans hp)) hle
    rw [Usage.run_append]
    exact (hfits.after_asks n).within

def twoSlots : List Event :=
  [⟨⟨0⟩, .learn { RateLimit.silent with
    limit := some 2, remaining := some 2, resetAfter := some (.ofSecs 1) }⟩]

def earlyReturn : List (Timed Use) :=
  [⟨⟨1⟩, .ask⟩, ⟨⟨2⟩, .giveBack 0⟩, ⟨.ofMillis 1000, .ask⟩]

theorem earlyReturn_stays_within_limit :
    let b := (create ⟨.get, "/gateway", none⟩ (.ofMillis 750) ⟨0⟩).run twoSlots
    (create ⟨.get, "/gateway", none⟩ (.ofMillis 750) ⟨0⟩).LearnsAll twoSlots ∧
      b.unlimited = false ∧ InOrder earlyReturn ∧
      ∀ n, ((Usage.start b).run
        (earlyReturn ++ Usage.asks n (.ofMillis 1001))).current.length ≤ 2 := by
  have hr : (create ⟨.get, "/gateway", none⟩ (.ofMillis 750) ⟨0⟩).LearnsAll twoSlots := by
    intro before info now hp
    have hlen := hp.length_le
    simp only [twoSlots, List.length_append, List.length_singleton] at hlen
    obtain rfl : before = [] := List.length_eq_zero_iff.mp (by omega)
    obtain ⟨he, -⟩ := List.cons_prefix_cons.mp hp
    cases he
    intro _ wait hw
    obtain rfl := Option.some.inj hw
    exact ⟨rfl, fun known hk => nomatch hk⟩
  have hu : ((create ⟨.get, "/gateway", none⟩ (.ofMillis 750) ⟨0⟩).run twoSlots).unlimited = false :=
    rfl
  have ho : InOrder earlyReturn := by
    simp [InOrder, earlyReturn, Instant.le_iff, Instant.ofMillis]
  refine ⟨hr, hu, ho, fun n => ?_⟩
  have hiff := window_within_limit_iff ⟨.get, "/gateway", none⟩ (.ofMillis 750) ⟨0⟩ hr hu ho
  refine hiff.mpr ?_ earlyReturn (List.prefix_refl _) (.ofMillis 1001) ?_ n
  · intro before e hp
    -- the slot that comes back is one of the first window, which is still open
    rcases before with _ | ⟨d, _ | ⟨d', _ | ⟨d'', rest⟩⟩⟩
    all_goals
      simp only [earlyReturn, List.nil_append, List.cons_append, List.cons_prefix_cons,
        List.prefix_nil, List.append_eq_nil_iff, List.cons_ne_nil, and_false] at hp
    · rw [hp.1]
      exact id
    · rw [hp.1, hp.2.1]
      rintro ⟨hc, -⟩
      exact hc (by decide)
    · rw [hp.2.2.1]
      exact id
  · simp [earlyReturn, Instant.le_iff, Instant.ofMillis]

/-- The slot comes back after the next window has begun. -/
def lateReturn : List (Timed Use) :=
  [⟨⟨1⟩, .ask⟩, ⟨.ofMillis 1000, .ask⟩, ⟨.ofMillis 1001, .giveBack 0⟩]

/-- Two more requests are granted slots then, which makes three of a window of two. -/
theorem lateReturn_exceeds_limit :
    let b := (create ⟨.get, "/gateway", none⟩ (.ofMillis 750) ⟨0⟩).run twoSlots
    let events := lateReturn ++ Usage.asks 2 (.ofMillis 1002)
    b.unlimited = false ∧ b.limit = 2 ∧ InOrder events ∧
      ((Usage.start b).run events).current = [3, 2, 1] := by
  refine ⟨rfl, rfl, ?_, by decide⟩
  simp [InOrder, lateReturn, Usage.asks, Instant.le_iff, Instant.ofMillis]

end Bucket

end Parley.Rest
