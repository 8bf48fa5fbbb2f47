import Parley.Proofs.Rest.Admissions
import Parley.Proofs.Rest.Sharing

/-! Keys of different major parameters never share a lane. A response redirects the key of the lane it
came over, which need not be the key of its request, to the home of the owner of its hash; all four
have the major parameter of the request. -/
namespace Parley.Rest

variable {key last : BucketKey} {n : Nat}

def SameMajors (entries : Table BucketKey Entry) : Prop :=
  ∀ key target, entries.get? key = some (.redirect target) → target.major = key.major

namespace SameMajors

variable {entries : Table BucketKey Entry}

theorem leads (h : SameMajors entries) (hl : Leads entries n key last) :
    last.major = key.major := by
  induction hl with
  | here key => rfl
  | hop hk _ ih => exact ih.trans (h _ _ hk)

theorem home (h : SameMajors entries) (hh : Registry.Home entries key last) :
    last.major = key.major := by
  rcases hh with ⟨_, -, hl, -⟩ | ⟨-, rfl⟩
  · exact h.leads hl
  · rfl

end SameMajors

namespace Registry

def OwnsMajors (hashes : Table BucketHash BucketKey) : Prop :=
  ∀ hash owner, (hash, owner) ∈ hashes.entries → owner.major = hash.major

variable {r r' found : Registry} {used : Nat} {hash? : Option BucketHash}

theorem Unites.sameMajors (hu : Unites r key used found r' hash?) (h : SameMajors r.entries)
    (ho : OwnsMajors r.hashes) (hk : ∀ hash ∈ hash?, hash.major = key.major) :
    SameMajors r'.entries := by
  cases hu with
  | silent _ he => exact he ▸ h
  | claims _ _ he => exact he ▸ h
  | agrees _ _ _ he => exact he ▸ h
  | @merges hash owner home number hown _ ht _ _ hf he =>
    have howner : owner.major = hash.major := ho hash owner (Table.mem_of_get? hown)
    have hhome : home.major = key.major :=
      calc home.major = owner.major := h.home ht
        _ = hash.major := howner
        _ = key.major := hk hash rfl
    intro source target hs
    rw [he, Table.get?_insert] at hs
    split_ifs at hs with hsource
    · simp only [Option.some.injEq, Entry.redirect.injEq] at hs
      rw [← hs, ← hsource, hhome]
    · exact h source target (redirect_of_home hf hs)

theorem Unites.ownsMajors (hu : Unites r key used found r' hash?) (ho : OwnsMajors r.hashes)
    (hk : ∀ hash ∈ hash?, hash.major = key.major) : OwnsMajors r'.hashes := by
  cases hu with
  | silent _ _ hh => exact hh ▸ ho
  | @claims hash _ _ _ hh =>
    intro other owner hm
    rw [hh] at hm
    rcases Table.mem_insert hm with hm | hm
    · obtain ⟨rfl, rfl⟩ := Prod.mk.inj hm
      exact (hk _ rfl).symm
    · exact ho other owner hm
  | agrees _ _ _ _ hh => exact hh ▸ ho
  | merges _ _ _ _ _ _ _ hh => exact hh ▸ ho

end Registry

namespace Traffic

open Registry (OwnsMajors)

def Served (q : Queue) (s : Submission) : Prop :=
  ∀ n ∈ s.lane?, ∃ key, q.registry.keyOf? n = some key ∧ key.major = s.key.major

/-- What isolates major parameters from each other. -/
structure Isolated (x : Traffic) : Prop extends Tidy x where
  redirects : SameMajors x.queue.registry.entries
  owners : OwnsMajors x.queue.registry.hashes
  served : ∀ id s, x.submissions id = some s → Served x.queue s

variable {x : Traffic} {e : Event} {q q' : Queue} {s : Submission} {now : Instant} {id : Nat}

theorem Served.move (h : Served q s) (hm : Queue.Move now q q') (hw : q.registry.WellFormed) :
    Served q' s := by
  intro n hn
  obtain ⟨key, hk, hmajor⟩ := h n hn
  exact ⟨key, hm.keeps_key hw hk, hmajor⟩

theorem served_of_none (h : s.lane? = none) : Served q s := by
  intro n hn
  simp [h] at hn

/-- The lane that a request asks for a slot has its major parameter. -/
theorem major_of_question (hw : q.registry.WellFormed) (hr : SameMajors q.registry.entries)
    (h : Served q s) {wake : Wake} {a : Submission.Question}
    (hq : s.question? q id now wake = some a) :
    ∃ key, (s.step q id now wake).1.registry.keyOf? a.lane = some key ∧
      key.major = s.key.major := by
  have ht := Submission.touches_of_question hq
  obtain ⟨lane, -, ⟨ha, hn, -⟩ | ⟨ha, hn, -⟩⟩ := Submission.question_cases hq
  · obtain ⟨home, hh, hres⟩ := q.registry.exists_home s.key now
    have hk : a.queue.registry.keyOf? a.lane = some home := by
      rw [ha, hn]
      simp only [Submission.passed, hres]
      exact hw.keyOf_laneOf_self home now
    have hwa : a.queue.registry.WellFormed := by
      rw [ha]
      exact hw.resolve s.key now
    exact ⟨home, ht.edits.keeps_key hwa hk, hr.home hh⟩
  · obtain ⟨key, hk, hmajor⟩ := h a.lane hn
    rw [← ha] at hk hw
    exact ⟨key, ht.edits.keeps_key hw hk, hmajor⟩

theorem Served.step (hw : q.registry.WellFormed) (hr : SameMajors q.registry.entries)
    (h : Served q s) {wake : Wake} (ha : s.allows q id now wake = true) :
    Served (s.step q id now wake).1 (s.step q id now wake).2 := by
  intro n hn
  rcases Submission.mem_lane?_step hn with hstay | ⟨a, hq, rfl⟩
  · rw [hstay] at hn ⊢
    exact h n hn
  · rw [Submission.key_step ha]
    exact major_of_question hw hr h hq

theorem hash_major {a : Answer} : ∀ hash ∈ a.hash?, hash.major = a.submission.key.major := by
  intro hash hh
  obtain ⟨name, -, rfl⟩ := Option.map_eq_some_iff.mp hh
  rfl

theorem Isolated.answer_major (h : x.Isolated) {a : Answer} (ha : x.answer? e = some a)
    {key : BucketKey} (hk : x.queue.registry.keyOf? a.lane = some key) :
    ∀ hash ∈ a.hash?, hash.major = key.major := by
  obtain ⟨-, hs, hp⟩ := answer?_eq_some ha
  obtain ⟨used, hused, hmajor⟩ := h.served a.id a.submission hs a.lane (by simp [Submission.lane?, hp])
  obtain rfl : key = used := Option.some.inj (hk.symm.trans hused)
  intro hash hh
  rw [hash_major hash hh, hmajor]

theorem ownsMajors_of_silent (hn : x.answer? e = none)
    (h : OwnsMajors x.queue.registry.hashes) : OwnsMajors (x.next e).queue.registry.hashes := by
  refine keeps_of_silent (P := fun r => OwnsMajors r.hashes) hn ?_ ?_ ?_ h
  · intro r key hr
    obtain ⟨home, -, hres⟩ := r.exists_home key e.time
    rwa [hres, Registry.hashes_laneOf]
  · intro r _ _ _ _ _ hr
    exact hr
  · intro r idle _ hr hash owner hm
    exact hr hash owner (List.mem_filter.mp hm).1

theorem Isolated.served_next (h : x.Isolated) {s : Submission}
    (hs : (x.next e).submissions id = some s) : Served (x.next e).queue s := by
  cases becomes_of_next hs with
  | stays ho => exact (h.served id s ho).move (x.move_next e) h.wellFormed
  | created => exact served_of_none rfl
  | stepped _ ho hw hq => exact hq ▸ (h.served id _ ho).step h.wellFormed h.redirects hw
  | @canceled old _ ho =>
    have hc : Served x.queue old.cancel := h.served id old ho
    exact hc.move (x.move_next e) h.wellFormed
  | abandoned => exact served_of_none (Submission.lane?_abandon _ _ _)

theorem Isolated.next (h : x.Isolated) (e : Event) : (x.next e).Isolated := by
  have ht := h.toTidy.next e
  cases ha : x.answer? e with
  | some a =>
    obtain ⟨key, hk, hu⟩ := h.toSound.unites ha
    have hmajor := h.answer_major ha hk
    exact ⟨ht, hu.sameMajors h.redirects h.owners hmajor, hu.ownsMajors h.owners hmajor,
      fun id s => h.served_next⟩
  | none =>
    exact ⟨ht, fun key target hk => h.redirects key target (redirect_of_silent h.distinct ha hk),
      ownsMajors_of_silent ha h.owners, fun id s => h.served_next⟩

theorem Isolated.run (h : x.Isolated) (events : List Event) : (x.run events).Isolated := by
  induction events generalizing x with
  | nil => exact h
  | cons e events ih => exact ih (h.next e)

theorem isolated_run (backoff : Duration) (events : List Event) :
    ((create backoff).run events).Isolated := by
  have ht : (create backoff).Tidy := tidy_run backoff []
  refine Isolated.run ⟨ht, ?_, ?_, ?_⟩ events
  · intro key target hk
    simp [create, Queue.create, Registry.create, Table.get?, Table.empty, Table.lookup] at hk
  · intro hash owner hm
    exact absurd hm List.not_mem_nil
  · intro id s hs
    simp [create] at hs

theorem Sound.keyOf_run (h : x.Sound) {key : BucketKey}
    (hk : x.queue.registry.keyOf? n = some key) (events : List Event) :
    (x.run events).queue.registry.keyOf? n = some key := by
  induction events generalizing x with
  | nil => exact hk
  | cons e events ih => exact ih (h.next e) ((x.move_next e).keeps_key h.wellFormed hk)

theorem Isolated.major_of_admits (h : x.Isolated) {lane : Nat} (ha : x.Admits e s lane) :
    ∃ key, (x.next e).queue.registry.keyOf? lane = some key ∧ key.major = s.key.major := by
  obtain ⟨id, wake, a, he, hs, hallow, hq, rfl, -⟩ := ha
  have hn : (x.next e).queue = (s.step x.queue id e.time wake).1 := by
    simp only [Traffic.next, he, hs, hallow, if_true, queue_put]
  rw [hn]
  exact major_of_question h.wellFormed h.redirects (h.served id s hs) hq

/-- A request that was admitted in the course of a run has the major parameter of its lane. -/
theorem major_of_admitted {backoff : Duration} {before events : List Event} {lane : Nat}
    (hb : before ++ [e] <+: events) (ha : ((create backoff).run before).Admits e s lane) :
    ∃ key, ((create backoff).run events).queue.registry.keyOf? lane = some key ∧
      key.major = s.key.major := by
  have hx := isolated_run backoff before
  obtain ⟨key, hk, hmajor⟩ := hx.major_of_admits ha
  obtain ⟨after, rfl⟩ := hb
  refine ⟨key, ?_, hmajor⟩
  have hr : (create backoff).run (before ++ [e] ++ after) =
      (((create backoff).run before).next e).run after := by
    simp [Traffic.run]
  rw [hr]
  exact (hx.toSound.next e).keyOf_run hk after

/-- Whatever the interleaving of requests, responses and cleanups, the bucket that serves a key has
its major parameter, and so has the key that owns a hash. No lane ever admits requests of different
major parameters, at whatever distance in time. -/
theorem majors_isolate_lanes (backoff : Duration) (events : List Event) :
    let q := ((create backoff).run events).queue
    (∀ key now, ∃ canonical, q.canonical? key now = some canonical ∧
        canonical.major = key.major) ∧
      (∀ hash owner, q.registry.hashes.get? hash = some owner → owner.major = hash.major) ∧
      ∀ before e s later f s' lane, before ++ [e] <+: events → later ++ [f] <+: events →
        ((create backoff).run before).Admits e s lane →
        ((create backoff).run later).Admits f s' lane → s.key.major = s'.key.major := by
  have h := isolated_run backoff events
  refine ⟨?_, ?_, ?_⟩
  · intro key now
    obtain ⟨home, hh, -⟩ := Registry.exists_home ((create backoff).run events).queue.registry key now
    exact ⟨home, Queue.canonical?_of_home h.wellFormed hh now, h.redirects.home hh⟩
  · intro hash owner ho
    exact h.owners hash owner (Table.mem_of_get? ho)
  · intro before e s later f s' lane hb hl ha ha'
    obtain ⟨key, hk, hmajor⟩ := major_of_admitted hb ha
    obtain ⟨key', hk', hmajor'⟩ := major_of_admitted hl ha'
    obtain rfl : key = key' := Option.some.inj (hk.symm.trans hk')
    rw [← hmajor, hmajor']

def channelMessages (method : Method) (channel : String) : Request :=
  ⟨method, .create "/channels/\x7b\x7d/messages" [channel], none, .standard⟩

/-- Reading two channels and writing to the first one reveal the same hash; then the first channel is
read and written to again. -/
def twoChannels : List Event :=
  let requests := [channelMessages .get "1", channelMessages .get "2", channelMessages .post "1",
    channelMessages .get "1", channelMessages .post "1"]
  requests.zipIdx.flatMap fun (request, id) => sendOf id request ++ [answered id "H"]

/-- The two methods share a lane, which admits requests of both, and the two channels do not. -/
theorem twoChannels_isolated :
    let x := create (.ofMillis 750)
    let q := (x.run twoChannels).queue
    let key method channel := BucketKey.ofRequest (channelMessages method channel)
    (∃ s s', (x.run (twoChannels.take 2)).Admits ⟨⟨0⟩, .wake 0 .ready⟩ s 0 ∧
      (x.run (twoChannels.take 18)).Admits ⟨⟨0⟩, .wake 4 .ready⟩ s' 0 ∧
      s.key = key .get "1" ∧ s'.key = key .post "1" ∧ s.key.major = s'.key.major) ∧
      q.canonical? (key .post "1") ⟨0⟩ = some (key .get "1") ∧
      q.canonical? (key .get "2") ⟨0⟩ = some (key .get "2") := by
  have hread : ∃ s, ((create (.ofMillis 750)).run (twoChannels.take 2)).Admits
      ⟨⟨0⟩, .wake 0 .ready⟩ s 0 ∧ s.key = BucketKey.ofRequest (channelMessages .get "1") :=
    ⟨_, ⟨0, .ready, _, rfl, rfl, rfl, rfl, rfl, rfl⟩, rfl⟩
  have hwritten : ∃ s, ((create (.ofMillis 750)).run (twoChannels.take 18)).Admits
      ⟨⟨0⟩, .wake 4 .ready⟩ s 0 ∧ s.key = BucketKey.ofRequest (channelMessages .post "1") :=
    ⟨_, ⟨4, .ready, _, rfl, rfl, rfl, rfl, rfl, rfl⟩, rfl⟩
  obtain ⟨s, hs, hk⟩ := hread
  obtain ⟨s', hs', hk'⟩ := hwritten
  obtain ⟨-, -, hsame⟩ := majors_isolate_lanes (.ofMillis 750) twoChannels
  have hmajor := hsame _ _ s _ _ s' 0 ⟨twoChannels.drop 3, rfl⟩ ⟨twoChannels.drop 19, rfl⟩ hs hs'
  refine ⟨⟨s, s', hs, hs', hk, hk', hmajor⟩, ?_, ?_⟩ <;> decide +kernel

end Traffic

end Parley.Rest
