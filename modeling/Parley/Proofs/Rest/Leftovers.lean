import Mathlib.Data.List.Nodup
import Parley.Proofs.Rest.Cleanup
import Parley.Proofs.Rest.Sharing
import Parley.Proofs.Rest.Users

/-! What a cleanup leaves. It drops stale lanes first, and then, round by round, the redirects that
lead nowhere. A round brings each of the remaining ways one redirect nearer to its missing end, so a
redirect is left over exactly if it stood one redirect further from there than there are rounds. -/
namespace Parley

namespace Table

variable {κ α : Type} [DecidableEq κ] {t t' : Table κ α}

theorem contains_iff_mem_keys {key : κ} : t.contains key = true ↔ key ∈ t.keys := by
  rw [contains, Option.isSome_iff_ne_none, ne_eq, get?_eq_none_iff, not_not]

/-- How many keys are gone when some of them are left. -/
theorem size_sub_eq_length_filter (hd : t.Distinct) (hd' : t'.Distinct)
    (hsub : ∀ key ∈ t'.keys, key ∈ t.keys) :
    t.size - t'.size = (t.keys.filter fun key => !t'.contains key).length := by
  have hkept : (t.keys.filter fun key => t'.contains key).length = t'.keys.length := by
    refine ((List.perm_ext_iff_of_nodup (List.Nodup.filter _ hd) hd').mpr ?_).length_eq
    intro key
    rw [List.mem_filter, contains_iff_mem_keys]
    exact ⟨And.right, fun hk => ⟨hsub key hk, hk⟩⟩
  have hall := List.length_eq_length_filter_add (l := t.keys) fun key => t'.contains key
  have hsize : t.size = t.keys.length := by simp [size, keys]
  have hsize' : t'.size = t'.keys.length := by simp [size, keys]
  omega

end Table

namespace Rest

variable {entries : Table BucketKey Entry} {key last : BucketKey} {hops rounds number : Nat}

/-- Over so many redirects the key leads to one without an entry. -/
def Dangles (entries : Table BucketKey Entry) (hops : Nat) (key : BucketKey) : Prop :=
  ∃ last, Leads entries hops key last ∧ entries.get? last = none

theorem dangles_zero_iff : Dangles entries 0 key ↔ entries.get? key = none := by
  constructor
  · rintro ⟨last, hl, hn⟩
    cases hl
    exact hn
  · intro hn
    exact ⟨key, .here key, hn⟩

theorem dangles_succ_iff : Dangles entries (hops + 1) key ↔
    ∃ target, entries.get? key = some (.redirect target) ∧ Dangles entries hops target := by
  constructor
  · rintro ⟨last, hl, hn⟩
    cases hl with
    | hop hk ht => exact ⟨_, hk, last, ht, hn⟩
  · rintro ⟨target, hk, last, ht, hn⟩
    exact ⟨last, .hop hk ht, hn⟩

theorem dangles_one_iff : Dangles entries 1 key ↔
    ∃ target, entries.get? key = some (.redirect target) ∧ entries.get? target = none := by
  simp only [dangles_succ_iff, dangles_zero_iff]

namespace Registry

theorem get?_dropDangling_redirect (hd : entries.Distinct) {target : BucketKey} :
    (dropDangling entries).get? key = some (.redirect target) ↔
      entries.get? key = some (.redirect target) ∧ entries.get? target ≠ none := by
  rw [dropDangling, Table.get?_filter hd, Option.filter_eq_some_iff]
  simp [Table.contains, Option.isSome_iff_ne_none]

/-- A round drops the keys that are one redirect away from nowhere. -/
theorem dangles_zero_dropDangling_iff (hd : entries.Distinct) :
    Dangles (dropDangling entries) 0 key ↔ Dangles entries 0 key ∨ Dangles entries 1 key := by
  rw [dangles_zero_iff, dangles_zero_iff, dangles_one_iff, dropDangling, Table.get?_filter hd]
  cases hk : entries.get? key with
  | none => simp
  | some entry =>
    cases entry with
    | owned number => simp
    | redirect target => simp [Table.contains]

/-- A round brings every longer way one redirect nearer to nowhere. -/
theorem dangles_succ_dropDangling_iff (hd : entries.Distinct) :
    Dangles (dropDangling entries) (hops + 1) key ↔ Dangles entries (hops + 2) key := by
  induction hops generalizing key with
  | zero =>
    rw [dangles_succ_iff, dangles_succ_iff]
    simp only [get?_dropDangling_redirect hd, dangles_zero_dropDangling_iff hd]
    constructor
    · rintro ⟨target, ⟨hk, ht⟩, hz | ho⟩
      · exact absurd (dangles_zero_iff.mp hz) ht
      · exact ⟨target, hk, ho⟩
    · rintro ⟨target, hk, ho⟩
      obtain ⟨next, ht, -⟩ := dangles_one_iff.mp ho
      exact ⟨target, ⟨hk, by simp [ht]⟩, Or.inr ho⟩
  | succ hops ih =>
    rw [dangles_succ_iff, dangles_succ_iff]
    simp only [get?_dropDangling_redirect hd, ih]
    constructor
    · rintro ⟨target, ⟨hk, -⟩, ht⟩
      exact ⟨target, hk, ht⟩
    · rintro ⟨target, hk, ht⟩
      obtain ⟨next, hn, -⟩ := dangles_succ_iff.mp ht
      exact ⟨target, ⟨hk, by simp [hn]⟩, ht⟩

theorem dangles_succ_dropDanglingRounds_iff (hd : entries.Distinct) (hops : Nat) :
    Dangles (dropDanglingRounds rounds entries) (hops + 1) key ↔
      Dangles entries (hops + 1 + rounds) key := by
  induction rounds generalizing entries with
  | zero => rfl
  | succ rounds ih =>
    have hd' : (dropDangling entries).Distinct := hd.filter _
    have hnext : hops + 1 + rounds = hops + rounds + 1 := by omega
    have hsum : hops + 1 + (rounds + 1) = hops + rounds + 2 := by omega
    rw [dropDanglingRounds, ih hd', hnext, hsum]
    exact dangles_succ_dropDangling_iff hd

/-- The rounds drop the keys that are no more redirects away from nowhere than there are rounds. -/
theorem get?_dropDanglingRounds_eq_none_iff (hd : entries.Distinct) :
    (dropDanglingRounds rounds entries).get? key = none ↔
      ∃ hops ≤ rounds, Dangles entries hops key := by
  induction rounds generalizing entries with
  | zero => simp [dropDanglingRounds, dangles_zero_iff]
  | succ rounds ih =>
    have hd' : (dropDangling entries).Distinct := hd.filter _
    rw [dropDanglingRounds, ih hd']
    constructor
    · rintro ⟨hops, hle, h⟩
      cases hops with
      | zero =>
        rcases (dangles_zero_dropDangling_iff hd).mp h with h | h
        · exact ⟨0, by omega, h⟩
        · exact ⟨1, by omega, h⟩
      | succ hops => exact ⟨hops + 2, by omega, (dangles_succ_dropDangling_iff hd).mp h⟩
    · rintro ⟨hops, hle, h⟩
      rcases hops with _ | _ | hops
      · exact ⟨0, by omega, (dangles_zero_dropDangling_iff hd).mpr (Or.inl h)⟩
      · exact ⟨0, by omega, (dangles_zero_dropDangling_iff hd).mpr (Or.inr h)⟩
      · exact ⟨hops + 1, by omega, (dangles_succ_dropDangling_iff hd).mpr h⟩

variable {r : Registry} {idle : Duration} {now : Instant}

def Gone (r : Registry) (idle : Duration) (now : Instant) (key : BucketKey) : Prop :=
  ∀ entry, r.entries.get? key = some entry → r.isStale idle now entry = true

def unstale (r : Registry) (idle : Duration) (now : Instant) : Table BucketKey Entry :=
  r.entries.filter fun _ entry => !r.isStale idle now entry

theorem get?_unstale_redirect (hd : r.entries.Distinct) {target : BucketKey} :
    (r.unstale idle now).get? key = some (.redirect target) ↔
      r.entries.get? key = some (.redirect target) := by
  rw [unstale, Table.get?_filter hd, Option.filter_eq_some_iff]
  simp [isStale]

theorem get?_unstale_eq_none_iff (hd : r.entries.Distinct) :
    (r.unstale idle now).get? key = none ↔ r.Gone idle now key := by
  rw [unstale, Table.get?_filter hd, Option.filter_eq_none_iff]
  simp [Gone]

theorem dangles_unstale_iff (hd : r.entries.Distinct) :
    Dangles (r.unstale idle now) hops key ↔
      ∃ last, Leads r.entries hops key last ∧ r.Gone idle now last := by
  have hway {k l : BucketKey} : Leads (r.unstale idle now) hops k l ↔ Leads r.entries hops k l :=
    ⟨fun h => h.mono fun _ _ => (get?_unstale_redirect hd).mp,
      fun h => h.mono fun _ _ => (get?_unstale_redirect hd).mpr⟩
  simp only [Dangles, hway, get?_unstale_eq_none_iff hd]

/-- A cleanup drops the keys that lead to a key that is gone over no more redirects than there are
rounds. -/
theorem get?_cleanup_eq_none_iff (hd : r.entries.Distinct) :
    (r.cleanup idle now).1.entries.get? key = none ↔
      ∃ hops ≤ hopLimit, ∃ last, Leads r.entries hops key last ∧ r.Gone idle now last := by
  simp only [← dangles_unstale_iff hd]
  exact get?_dropDanglingRounds_eq_none_iff (hd.filter _)

/-- A redirect that is left over leads nowhere exactly if it led to a key that is gone over one
redirect more than there are rounds. -/
theorem dangles_cleanup_iff (hd : r.entries.Distinct) :
    Dangles (r.cleanup idle now).1.entries 1 key ↔
      ∃ last, Leads r.entries (hopLimit + 1) key last ∧ r.Gone idle now last := by
  rw [← dangles_unstale_iff hd, Nat.add_comm]
  exact dangles_succ_dropDanglingRounds_iff (hd.filter _) 0

theorem mem_keys_of_cleanup (h : key ∈ (r.cleanup idle now).1.entries.keys) :
    key ∈ r.entries.keys := by
  obtain ⟨entry, hm⟩ := Table.mem_keys.mp h
  exact Table.mem_keys.mpr ⟨entry, (List.mem_filter.mp (mem_dropDanglingRounds hm)).1⟩

/-- A cleanup counts the keys that it drops. -/
theorem dropped_cleanup (hd : r.entries.Distinct) :
    (r.cleanup idle now).2 =
      (r.entries.keys.filter fun key => !(r.cleanup idle now).1.entries.contains key).length :=
  Table.size_sub_eq_length_filter hd (distinct_dropDanglingRounds _ (hd.filter _))
    fun _ => mem_keys_of_cleanup

theorem owner_of_cleanup {hash : BucketHash}
    (h : (r.cleanup idle now).1.hashes.get? hash = some key) :
    (r.cleanup idle now).1.entries.contains key :=
  (List.mem_filter.mp (Table.mem_of_get? h)).2

/-- A key of which the lane is left leads there as before. -/
theorem resolve_cleanup (hw : r.WellFormed) (hd : r.entries.Distinct) {owner : BucketKey}
    (hr : (r.resolve key now).2 = number)
    (ho : (r.cleanup idle now).1.entries.get? owner = some (.owned number)) (later : Instant) :
    (r.cleanup idle now).1.resolve key later = ((r.cleanup idle now).1, number) := by
  obtain ⟨hown, hfresh⟩ := get?_of_cleanup hd ho
  obtain ⟨lane, hl, -⟩ := Option.map_eq_some_iff.mp (hw.keyOf_eq hown)
  have hs := (resolve_eq_iff (hw.lt_nextLane hl)).mp hr
  exact resolve_of_serves ((serves_cleanup_iff hd).mpr ⟨hs, hfresh⟩) later

theorem stale_of_dropped (hd : r.entries.Distinct)
    (ho : r.entries.get? key = some (.owned number))
    (hn : (r.cleanup idle now).1.entries.get? key = none) :
    r.isStale idle now (.owned number) = true := by
  obtain ⟨hops, -, last, hl, hg⟩ := (get?_cleanup_eq_none_iff hd).mp hn
  cases hl with
  | here => exact hg _ ho
  | hop hk _ => simp [ho] at hk

end Registry

namespace Traffic

variable {x : Traffic} {idle : Duration} {now : Instant}

/-- Nobody stands in the line of the lane or has a slot of it, no request holds it, and it was last
asked for a slot at least `idle` ago. -/
structure Deserted (x : Traffic) (number : Nat) (idle : Duration) (now : Instant) : Prop where
  unused : ∃ lane, x.queue.registry.lane? number = some lane ∧ lane.line = [] ∧
    lane.inFlight = [] ∧ lane.bucket.lastAttempt.plus idle ≤ now
  unheld : ∀ id s, x.submissions id = some s → number ∉ s.lane?

theorem deserted_of_stale (backoff : Duration) (events : List Event)
    (hs : ((create backoff).run events).queue.registry.isStale idle now (.owned number) = true)
    (hl : (((create backoff).run events).queue.registry.lane? number).isSome) :
    ((create backoff).run events).Deserted number idle now := by
  obtain ⟨lane, hl⟩ := Option.isSome_iff_exists.mp hl
  rw [Queue.stale_owned_eq hl, Bool.and_eq_true, Bool.not_eq_true'] at hs
  obtain ⟨hunused, hquiet⟩ := hs
  refine ⟨⟨lane, hl, ?_, ?_, ?_⟩, ?_⟩
  · simp_all [Lane.inUse]
  · simp_all [Lane.inUse]
  · unfold Bucket.isQuiet at hquiet
    split at hquiet
    · next t ht =>
      rw [← Instant.after?_eq_some ht]
      simpa using hquiet
    · simp at hquiet
  · intro id s hs
    exact not_held_of_unused backoff events hl hunused hs

/-- A lane that is deserted has not been asked for a slot during `idle`. -/
theorem Deserted.not_asked {backoff : Duration} {events before after : List Event} {e : Event}
    (h : ((create backoff).run events).Deserted number idle now) (ho : InOrder events)
    (he : events = before ++ e :: after) (ha : ((create backoff).run before).Asks e number) :
    e.time.plus idle ≤ now := by
  obtain ⟨lane, hl, -, -, hlast⟩ := h.unused
  have hb : ((create backoff).run (before ++ e :: after)).bucketOf? number = some lane.bucket :=
    Registry.bucketOf?_eq_some.mpr ⟨lane, he ▸ hl, rfl⟩
  have ho' : InOrder (e :: after) := (List.pairwise_append.mp (he ▸ ho)).2.1
  have hle := le_lastAttempt_of_asks backoff ho' ha hb
  simp only [Instant.le_iff, Instant.plus] at *
  omega

/-- After a cleanup no redirect leads nowhere, unless one led to a lane that is gone over one
redirect more than the cleanup has rounds. All else holds of every cleanup: the owners of hashes have
entries, the lanes that are dropped are deserted, keys lead to the lanes that are left as before, and
the dropped keys are counted. -/
theorem cleanup_consistent_iff (backoff : Duration) (events : List Event) (idle : Duration)
    (now : Instant) :
    let x := (create backoff).run events
    let r := x.queue.registry
    let r' := (x.queue.cleanup idle now).1.registry
    ((∀ key target, r'.entries.get? key = some (.redirect target) → r'.entries.contains target) ↔
        ∀ key last, Leads r.entries (Registry.hopLimit + 1) key last → ¬ r.Gone idle now last) ∧
      (∀ hash owner, r'.hashes.get? hash = some owner → r'.entries.contains owner) ∧
      (∀ key number, r.entries.get? key = some (.owned number) → r'.entries.get? key = none →
        x.Deserted number idle now ∧
          (InOrder events → ∀ before e after, events = before ++ e :: after →
            ((create backoff).run before).Asks e number → e.time.plus idle ≤ now)) ∧
      (∀ key number owner later, (r.resolve key now).2 = number →
        r'.entries.get? owner = some (.owned number) → r'.resolve key later = (r', number)) ∧
      (x.queue.cleanup idle now).2 =
        (r.entries.keys.filter fun key => !r'.entries.contains key).length := by
  intro x r r'
  have hw : r.WellFormed := (sound_run backoff events).wellFormed
  have hd : r.entries.Distinct := distinct_run backoff events
  refine ⟨?_, fun _ _ => Registry.owner_of_cleanup, ?_, ?_, Registry.dropped_cleanup hd⟩
  · have hdangles (key : BucketKey) : Dangles r'.entries 1 key ↔
        ∃ last, Leads r.entries (Registry.hopLimit + 1) key last ∧ r.Gone idle now last :=
      Registry.dangles_cleanup_iff hd
    simp only [dangles_one_iff] at hdangles
    constructor
    · intro h key last hl hg
      obtain ⟨target, hk, hn⟩ := (hdangles key).mpr ⟨last, hl, hg⟩
      simpa [Table.contains, hn] using h key target hk
    · intro h key target hk
      rw [Table.contains, Option.isSome_iff_ne_none]
      intro hn
      obtain ⟨last, hl, hg⟩ := (hdangles key).mp ⟨target, hk, hn⟩
      exact h key last hl hg
  · intro key number ho hn
    obtain ⟨lane, hl, -⟩ := Option.map_eq_some_iff.mp (hw.keyOf_eq ho)
    have hdeserted := deserted_of_stale backoff events (Registry.stale_of_dropped hd ho hn)
      (Option.isSome_of_eq_some hl)
    exact ⟨hdeserted, fun hin _ _ _ he ha => hdeserted.not_asked hin he ha⟩
  · intro key number owner later hr ho
    exact Registry.resolve_cleanup hw hd hr ho later

/-- Ten paths have hashes of their own, and then each but the last reveals the hash of the next one:
the first path leads to the last one over nine redirects. -/
def nineRedirects : List Event :=
  [("/0", "0"), ("/1", "1"), ("/2", "2"), ("/3", "3"), ("/4", "4"), ("/5", "5"), ("/6", "6"),
    ("/7", "7"), ("/8", "8"), ("/9", "9"), ("/0", "1"), ("/1", "2"), ("/2", "3"), ("/3", "4"),
    ("/4", "5"), ("/5", "6"), ("/6", "7"), ("/7", "8"), ("/8", "9")].zipIdx.flatMap
      fun (r, id) => reveal id r.1 r.2

/-- A cleanup finds the only lane idle and drops it with eight of the redirects. The ninth is left
over and leads nowhere. -/
theorem nineRedirects_leave_one :
    let q := ((create (.ofMillis 750)).run nineRedirects).queue
    let left := q.cleanup (.ofSecs 10) (.ofMillis 20000)
    q.registry.size = 10 ∧ left.2 = 9 ∧
      left.1.registry.entries.entries =
        [(⟨.get, "/0", none⟩, .redirect ⟨.get, "/1", none⟩)] ∧
      left.1.registry.entries.contains ⟨.get, "/1", none⟩ = false := by
  refine ⟨?_, ?_, ?_, ?_⟩ <;> decide +kernel

end Traffic

end Rest

end Parley
