import Parley.Proofs.Rest.Cleanup
import Parley.Proofs.Rest.Unions

/-! When redirects go in a circle. The only circle there can be is a key that is redirected to
itself, and only a response over a lane that its key has lost can bring it about: when the way from
the owner of its hash ends at that very key. -/
namespace Parley.Rest

variable {entries entries' : Table BucketKey Entry} {key last other : BucketKey} {m n : Nat}

theorem Leads.rounds (h : Leads entries n key key) (rounds : Nat) :
    Leads entries (rounds * n) key key := by
  induction rounds with
  | zero =>
    rw [Nat.zero_mul]
    exact .here key
  | succ rounds ih =>
    rw [Nat.succ_mul]
    exact ih.append h

namespace Registry

def Acyclic (entries : Table BucketKey Entry) : Prop :=
  ∀ key last m n, Leads entries m key last → Leads entries n key last → m = n

def Halts (entries : Table BucketKey Entry) (key : BucketKey) : Prop :=
  ∀ target, entries.get? key = some (.redirect target) → target = key

/-- All ways come to an end, if only at a key that is redirected to itself. -/
def Stops (entries : Table BucketKey Entry) : Prop :=
  ∀ key, ∃ hops last, Leads entries hops key last ∧ Halts entries last

theorem Rests.halts (h : Rests entries key) : Halts entries key :=
  fun target hk => absurd hk (h target)

theorem Halts.stays (h : Halts entries key) (hl : Leads entries n key last) : last = key := by
  induction hl with
  | here => rfl
  | hop hk _ ih =>
    obtain rfl := h _ hk
    exact ih h

theorem Stops.loop_of_circle (hs : Stops entries) (h : Leads entries (n + 1) key key) :
    entries.get? key = some (.redirect key) := by
  obtain ⟨hops, last, hl, hh⟩ := hs key
  -- going round often enough, the way passes the key at which it comes to its end
  have hle : hops ≤ hops * (n + 1) := Nat.le_mul_of_pos_right hops (Nat.succ_pos n)
  obtain rfl : key = last := hh.stays (hl.rest (h.rounds hops) hle)
  cases h with
  | hop hk _ =>
    obtain rfl := hh _ hk
    exact hk

theorem Stops.eq_of_leads (hs : Stops entries) (h : Leads entries m key other)
    (h' : Leads entries n other key) : key = other := by
  rcases Nat.eq_zero_or_eq_succ_pred (m + n) with hz | hsucc
  · obtain ⟨rfl, -⟩ := Nat.add_eq_zero_iff.mp hz
    cases h
    rfl
  · have hloop := hs.loop_of_circle (hsucc ▸ h.append h')
    have hh : Halts entries key := by
      intro target hk
      rw [hloop, Option.some.injEq, Entry.redirect.injEq] at hk
      exact hk.symm
    exact (hh.stays h).symm

theorem Stops.acyclic_iff (hs : Stops entries) :
    Acyclic entries ↔ ∀ key, entries.get? key ≠ some (.redirect key) := by
  constructor
  · intro ha key hk
    exact absurd (ha key key 0 1 (.here key) (.hop hk (.here key))) (by decide)
  · intro hno
    have hlt {key last : BucketKey} {m n : Nat} (hm : Leads entries m key last)
        (hn : Leads entries n key last) : ¬ m < n := by
      intro hlt
      have hr := hm.rest hn (Nat.le_of_lt hlt)
      obtain ⟨d, hd⟩ := Nat.exists_eq_succ_of_ne_zero (Nat.sub_ne_zero_of_lt hlt)
      rw [hd] at hr
      exact hno last (hs.loop_of_circle hr)
    intro key last m n hm hn
    exact Nat.le_antisymm (Nat.le_of_not_lt (hlt hn hm)) (Nat.le_of_not_lt (hlt hm hn))

theorem stops_create (backoff : Duration) : Stops (create backoff).entries :=
  fun key => ⟨0, key, .here key, fun _ h => by simp [create, Table.get?, Table.empty,
    Table.lookup] at h⟩

theorem Stops.change (h : Stops entries) (changed : BucketKey)
    (ha : ∀ k, k ≠ changed → entries'.get? k = entries.get? k)
    (hc : ∃ hops last, Leads entries' hops changed last ∧ Halts entries' last) :
    Stops entries' := by
  obtain ⟨more, stop, hmore, hstop⟩ := hc
  intro key
  obtain ⟨hops, last, hl, hh⟩ := h key
  rcases hl.change ha with hl | ⟨fewer, -, hl⟩
  · by_cases hk : last = changed
    · subst hk
      exact ⟨hops + more, stop, hl.append hmore, hstop⟩
    · refine ⟨hops, last, hl, ?_⟩
      intro target ht
      exact hh target ((ha last hk).symm.trans ht)
  · exact ⟨fewer + more, stop, hl.append hmore, hstop⟩

theorem Stops.mono (h : Stops entries)
    (hsub : ∀ k t, entries'.get? k = some (.redirect t) → entries.get? k = some (.redirect t)) :
    Stops entries' := by
  intro key
  obtain ⟨hops, last, hl, hh⟩ := h key
  induction hl with
  | here key => exact ⟨0, key, .here key, fun target ht => hh target (hsub key target ht)⟩
  | @hop hops key target last hk _ ih =>
    by_cases hk' : entries'.get? key = some (.redirect target)
    · obtain ⟨more, stop, hmore, hstop⟩ := ih hh
      exact ⟨more + 1, stop, .hop hk' hmore, hstop⟩
    · refine ⟨0, key, .here key, fun other ho => ?_⟩
      have hsame := hsub key other ho
      rw [hk, Option.some.injEq, Entry.redirect.injEq] at hsame
      exact absurd (hsame ▸ ho) hk'

variable {r r' found : Registry} {used : Nat} {hash : Option BucketHash}

theorem redirect_of_home {home target : BucketKey} {number : Nat}
    (hf : ∀ k, entries'.get? k = if home = k then some (.owned number) else entries.get? k)
    (h : entries'.get? key = some (.redirect target)) :
    entries.get? key = some (.redirect target) := by
  rw [hf] at h
  split_ifs at h
  · simp at h
  · exact h

theorem redirect_of_resolve {target : BucketKey} {now : Instant}
    (h : (r.resolve key now).1.entries.get? other = some (.redirect target)) :
    r.entries.get? other = some (.redirect target) := by
  obtain ⟨home, -, hr⟩ := r.exists_home key now
  rw [hr] at h
  exact redirect_of_home (r.get?_laneOf home now) h

/-- A redirect leads to a key that has a lane, unless it leads to the redirected key. -/
theorem Stops.unites (h : Stops r.entries) (hu : Unites r key used found r' hash) :
    Stops r'.entries := by
  cases hu with
  | silent _ he => exact he ▸ h
  | claims _ _ he => exact he ▸ h
  | agrees _ _ _ he => exact he ▸ h
  | @merges hash owner home number _ _ _ _ _ hf he =>
    have hfound : Stops found.entries := h.mono fun k t => redirect_of_home hf
    have hself : r'.entries.get? key = some (.redirect home) := by simp [he]
    refine hfound.change key ?_ ⟨1, home, .hop hself (.here home), ?_⟩
    · intro k hk
      rw [he, Table.get?_insert_of_ne _ (Ne.symm hk)]
    · by_cases hk : key = home
      · subst hk
        intro target ht
        rw [hself, Option.some.injEq, Entry.redirect.injEq] at ht
        exact ht.symm
      · have ho : r'.entries.get? home = some (.owned number) := by
          rw [he, Table.get?_insert_of_ne _ hk, hf, if_pos rfl]
        exact (rests_of_owned ho).halts

end Registry

namespace Traffic

open Registry (Acyclic Stops EndsAt)

structure Tidy (x : Traffic) : Prop extends Sound x where
  distinct : x.queue.registry.entries.Distinct
  stops : Stops x.queue.registry.entries

variable {x : Traffic} {e : Event}

/-- Only a response redirects a key. -/
theorem redirect_of_silent (hd : x.queue.registry.entries.Distinct) (hn : x.answer? e = none)
    {key target : BucketKey}
    (hk : (x.next e).queue.registry.entries.get? key = some (.redirect target)) :
    x.queue.registry.entries.get? key = some (.redirect target) := by
  have hkeep : (x.next e).queue.registry.entries.Distinct ∧
      ((x.next e).queue.registry.entries.get? key = some (.redirect target) →
        x.queue.registry.entries.get? key = some (.redirect target)) := by
    refine keeps_of_silent (P := fun r => r.entries.Distinct ∧
      (r.entries.get? key = some (.redirect target) →
        x.queue.registry.entries.get? key = some (.redirect target))) hn ?_ ?_ ?_
        ⟨hd, id⟩
    · intro r other hr
      exact ⟨Registry.distinct_resolve hr.1 other e.time,
        fun ht => hr.2 (Registry.redirect_of_resolve ht)⟩
    · intro r number lane lane' _ _ hr
      exact hr
    · intro r idle _ hr
      exact ⟨Registry.distinct_dropDanglingRounds _ (hr.1.filter _),
        fun ht => hr.2 (Registry.get?_of_cleanup hr.1 ht).1⟩
  exact hkeep.2 hk

theorem Tidy.next (h : x.Tidy) (e : Event) : (x.next e).Tidy := by
  refine ⟨h.toSound.next e, (x.move_next e).distinct h.wellFormed h.distinct, ?_⟩
  cases ha : x.answer? e with
  | some a =>
    obtain ⟨key, -, hu⟩ := h.toSound.unites ha
    exact h.stops.unites hu
  | none => exact h.stops.mono fun k t => redirect_of_silent h.distinct ha

theorem Tidy.run (h : x.Tidy) (events : List Event) : (x.run events).Tidy := by
  induction events generalizing x with
  | nil => exact h
  | cons e events ih => exact ih (h.next e)

theorem tidy_run (backoff : Duration) (events : List Event) :
    ((create backoff).run events).Tidy := by
  refine Tidy.run ⟨sound_create backoff, ?_, ?_⟩ events
  · exact Table.distinct_empty
  · exact Registry.stops_create backoff

/-- A response comes in over a lane that its key has lost, and the owner of its hash, which is
another key, leads to that key. -/
def Entangles (x : Traffic) (e : Event) : Prop :=
  ∃ a key hash owner, x.answer? e = some a ∧ x.queue.registry.keyOf? a.lane = some key ∧
    a.hash? = some hash ∧ x.queue.registry.hashes.get? hash = some owner ∧ owner ≠ key ∧
    EndsAt x.queue.registry.entries owner key ∧
    x.queue.registry.entries.get? key ≠ some (.owned a.lane)

def Swallows (x : Traffic) (e : Event) : Prop :=
  ∃ key number target, (x.lookedUp e).entries.get? key = some (.owned number) ∧
    (x.lookedUp e).keyOf? number = some target ∧
    (x.next e).queue.registry.entries.get? key = some (.redirect target)

/-- A response that entangles a key redirects it to itself, when it has a lane. -/
theorem Tidy.entangled (h : x.Tidy) (he : x.Entangles e) :
    ∃ key number, (x.lookedUp e).entries.get? key = some (.owned number) ∧
      (x.lookedUp e).keyOf? number = some key ∧
      (x.next e).queue.registry.entries.get? key = some (.redirect key) := by
  obtain ⟨a, key, hash, owner, ha, hk, hh, ho, hne, hend, hlost⟩ := he
  obtain ⟨key', hk', hu⟩ := h.toSound.unites ha
  obtain rfl : key = key' := Option.some.inj (hk.symm.trans hk')
  rw [hh] at hu
  cases hu with
  | claims ho' => simp [ho] at ho'
  | agrees ho' hs =>
    rw [ho, Option.some.injEq] at ho'
    subst ho'
    rcases hs with hs | ⟨-, hs⟩
    · exact absurd hs hne
    · exact absurd hs hlost
  | @merges hash owner' home number ho' _ ht _ hn hf he =>
    rw [ho, Option.some.injEq] at ho'
    subst ho'
    obtain rfl : key = home := Registry.Home.unique (Or.inl hend) ht
    exact ⟨key, number, by rw [hf, if_pos rfl], hn, by simp [he]⟩

/-- A redirect that was not there before goes from the key of the lane to the home of the owner. -/
theorem Tidy.redirected (h : x.Tidy) {key target : BucketKey}
    (hb : (x.lookedUp e).entries.get? key ≠ some (.redirect target))
    (hk : (x.next e).queue.registry.entries.get? key = some (.redirect target)) :
    ∃ a hash owner, x.answer? e = some a ∧ x.queue.registry.keyOf? a.lane = some key ∧
      a.hash? = some hash ∧ x.queue.registry.hashes.get? hash = some owner ∧ owner ≠ key ∧
      Registry.Home x.queue.registry.entries owner target ∧
      x.queue.registry.entries.get? target ≠ some (.owned a.lane) := by
  cases ha : x.answer? e with
  | none =>
    have hl : x.lookedUp e = x.queue.registry := by simp [lookedUp, ha]
    rw [hl] at hb
    exact absurd (redirect_of_silent h.distinct ha hk) hb
  | some a =>
    obtain ⟨used, hused, hu⟩ := h.toSound.unites ha
    generalize hh : a.hash? = hash? at hu
    cases hu with
    | silent hf he =>
      rw [he, ← hf] at hk
      exact absurd hk hb
    | claims _ hf he =>
      rw [he, ← hf] at hk
      exact absurd hk hb
    | agrees _ _ hf he =>
      rw [he, ← hf] at hk
      exact absurd hk hb
    | @merges hash owner home number ho hne ht hd hn hf he =>
      by_cases hkey : used = key
      · subst hkey
        rw [he, Table.get?_insert_self, Option.some.injEq, Entry.redirect.injEq] at hk
        subst hk
        exact ⟨a, hash, owner, rfl, hused, hh, ho, hne, ht, hd⟩
      · rw [he, Table.get?_insert_of_ne _ hkey] at hk
        exact absurd hk hb

theorem Tidy.entangles_of_redirected (h : x.Tidy) {key : BucketKey}
    (hb : (x.lookedUp e).entries.get? key ≠ some (.redirect key))
    (hk : (x.next e).queue.registry.entries.get? key = some (.redirect key)) : x.Entangles e := by
  obtain ⟨a, hash, owner, ha, hused, hh, ho, hne, ht, hd⟩ := h.redirected hb hk
  rcases ht with ht | ⟨-, rfl⟩
  · exact ⟨a, key, hash, owner, ha, hused, hh, ho, hne, ht, hd⟩
  · exact absurd rfl hne

theorem Tidy.redirect_of_lookedUp (h : x.Tidy) {key target : BucketKey}
    (hk : (x.lookedUp e).entries.get? key = some (.redirect target)) :
    x.queue.registry.entries.get? key = some (.redirect target) := by
  cases ha : x.answer? e with
  | none =>
    have hl : x.lookedUp e = x.queue.registry := by simp [lookedUp, ha]
    rwa [hl] at hk
  | some a =>
    obtain ⟨used, -, hu⟩ := h.toSound.unites ha
    generalize a.hash? = hash at hu
    cases hu with
    | silent hf => exact hf ▸ hk
    | claims _ hf => exact hf ▸ hk
    | agrees _ _ hf => exact hf ▸ hk
    | merges _ _ _ _ _ hf => exact Registry.redirect_of_home hf hk

theorem Tidy.wellFormed_lookedUp (h : x.Tidy) (e : Event) : (x.lookedUp e).WellFormed := by
  unfold lookedUp
  split
  · next a _ =>
    have hw : (a.landed x.queue).registry.WellFormed :=
      Queue.Edits.wellFormed (Submission.touches_land x.queue a.id e.time a.lane).edits h.wellFormed
    exact hw.destination a.lane a.hash? e.time
  · exact h.wellFormed

theorem Tidy.swallows_iff (h : x.Tidy) (e : Event) : x.Swallows e ↔ x.Entangles e := by
  constructor
  · rintro ⟨key, number, target, ho, hn, hk⟩
    obtain rfl : target = key := by
      have hself := (h.wellFormed_lookedUp e).keyOf_eq ho
      exact Option.some.inj (hn.symm.trans hself)
    exact h.entangles_of_redirected (by simp [ho]) hk
  · intro he
    obtain ⟨key, number, ho, hn, hk⟩ := h.entangled he
    exact ⟨key, number, key, ho, hn, hk⟩

/-- Redirects go in no circle exactly as long as no response comes in over a lane that its key has
lost while the owner of its hash leads to that key. At such a response, and at no other event, the
redirect of a key to itself takes the place of its lane, and there are no other circles. -/
theorem acyclic_iff_never_entangles (backoff : Duration) (events : List Event) :
    ((∀ before, before <+: events →
        Acyclic ((create backoff).run before).queue.registry.entries) ↔
      ∀ before e, before ++ [e] <+: events → ¬ ((create backoff).run before).Entangles e) ∧
    (∀ e, ((create backoff).run events).Swallows e ↔ ((create backoff).run events).Entangles e) ∧
    ∀ key n, Leads ((create backoff).run events).queue.registry.entries (n + 1) key key →
      ((create backoff).run events).queue.registry.entries.get? key = some (.redirect key) := by
  have ht := tidy_run backoff
  refine ⟨⟨?_, ?_⟩, (ht events).swallows_iff, fun key n => (ht events).stops.loop_of_circle⟩
  · intro hacyclic before e hp he
    obtain ⟨key, _, -, -, hk⟩ := (ht before).entangled he
    rw [← run_concat] at hk
    exact (ht (before ++ [e])).stops.acyclic_iff.mp (hacyclic _ hp) key hk
  · intro hnever before hp
    rw [(ht before).stops.acyclic_iff]
    -- the first key that is redirected to itself would have been entangled
    induction before using List.reverseRecOn with
    | nil => simp [create, Queue.create, Registry.create, Table.get?, Table.empty, Table.lookup]
    | append_singleton before e ih =>
      have hbefore := ih ((List.prefix_append before [e]).trans hp)
      intro key hk
      rw [run_concat] at hk
      refine hnever before e hp ((ht before).entangles_of_redirected ?_ hk)
      intro hl
      exact hbefore key ((ht before).redirect_of_lookedUp hl)

/-- POST is redirected to GET while request 3 still holds its lane, a cleanup drops both, and POST
gets a new lane, to which PATCH is redirected. -/
def lanesLost : List Event :=
  let get := plainRequest .get "/users"
  let post := plainRequest .post "/users"
  let patch := plainRequest .patch "/users"
  let answer (id : Nat) (hash : Option String) : List Event :=
    [⟨⟨0⟩, .wake id (.answered (.ok (Queue.fourLeft hash)))⟩]
  sendOf 0 get ++ answer 0 (some "G") ++ sendOf 1 post ++ answer 1 none ++ sendOf 2 post ++
    sendOf 3 post ++ answer 2 (some "G") ++ [⟨⟨0⟩, .cleanup .zero⟩] ++
    sendOf 4 post ++ answer 4 (some "P") ++ sendOf 5 patch ++ answer 5 (some "Q") ++
    sendOf 6 patch ++ answer 6 (some "P")

/-- The answer to request 3 reveals the hash of PATCH, and POST is redirected to itself. -/
def revealedLate : Event := ⟨⟨0⟩, .wake 3 (.answered (.ok (Queue.fourLeft (some "Q"))))⟩

theorem revealedLate_goes_in_circle :
    let x := (create (.ofMillis 750)).run lanesLost
    x.Swallows revealedLate ∧ ¬ Acyclic (x.next revealedLate).queue.registry.entries := by
  have hk : (((create (.ofMillis 750)).run lanesLost).next revealedLate).queue.registry.entries.get?
      ⟨.post, "/users", none⟩ = some (.redirect ⟨.post, "/users", none⟩) := rfl
  refine ⟨⟨⟨.post, "/users", none⟩, 2, ⟨.post, "/users", none⟩, rfl, rfl, hk⟩, ?_⟩
  intro ha
  exact absurd (ha _ _ 0 1 (.here _) (.hop hk (.here _))) (by decide)

end Traffic

end Parley.Rest
