import Parley.Proofs.Rest.Cycles

/-! Keys whose responses carried one hash share a lane. A response leads the way of its key to the
way of the key that owns the hash, and the two ways meet as long as none of their redirects is
replaced. Keys whose ways meet have one lane, unless a lookup gives up before it comes there. -/
namespace Parley.Rest

variable {entries entries' : Table BucketKey Entry} {a b c key last other : BucketKey} {m n : Nat}

def Meets (entries : Table BucketKey Entry) (a b : BucketKey) : Prop :=
  ∃ m n last, Leads entries m a last ∧ Leads entries n b last

namespace Meets

theorem symm (h : Meets entries a b) : Meets entries b a := by
  obtain ⟨m, n, last, ha, hb⟩ := h
  exact ⟨n, m, last, hb, ha⟩

theorem of_leads (h : Leads entries n a b) : Meets entries a b := ⟨n, 0, b, h, .here b⟩

/-- Of the two keys at which `b` meets the others, it comes to one first and then to the other. -/
theorem trans (h : Meets entries a b) (h' : Meets entries b c) : Meets entries a c := by
  obtain ⟨m, n, first, ha, hb⟩ := h
  obtain ⟨m', n', second, hb', hc⟩ := h'
  rcases Nat.le_total n m' with hle | hle
  · exact ⟨_, n', second, ha.append (hb.rest hb' hle), hc⟩
  · exact ⟨m, _, first, ha, hc.append (hb'.rest hb hle)⟩

end Meets

/-- The key is redirected, and in the second table not to the same key. -/
def Replaces (entries entries' : Table BucketKey Entry) (key : BucketKey) : Prop :=
  ∃ target, entries.get? key = some (.redirect target) ∧
    entries'.get? key ≠ some (.redirect target)

/-- A way is the same in both tables as far as its first redirect that is replaced. -/
theorem Leads.first_replaced (h : Leads entries n key last)
    (entries' : Table BucketKey Entry) :
    ∃ m mid, Leads entries m key mid ∧
      (∀ p k, p ≤ m → Leads entries p key k → Leads entries' p key k) ∧
      (mid = last ∨ Replaces entries entries' mid) := by
  have hnone {key : BucketKey} : ∀ p k, p ≤ 0 → Leads entries p key k → Leads entries' p key k := by
    intro p k hp hl
    obtain rfl := Nat.le_zero.mp hp
    cases hl
    exact .here key
  induction h with
  | here key => exact ⟨0, key, .here key, hnone, Or.inl rfl⟩
  | @hop hops key target last hk ht ih =>
    by_cases hk' : entries'.get? key = some (.redirect target)
    · obtain ⟨m, mid, hm, hsame, hend⟩ := ih
      refine ⟨m + 1, mid, .hop hk hm, ?_, hend⟩
      intro p k hp hl
      cases hl with
      | here => exact .here key
      | hop hkt hl =>
        rw [hk, Option.some.injEq, Entry.redirect.injEq] at hkt
        subst hkt
        exact .hop hk' (hsame _ k (Nat.le_of_succ_le_succ hp) hl)
    · exact ⟨0, key, .here key, hnone, Or.inr ⟨target, hk, hk'⟩⟩

/-- Ways that meet do so still if the redirects that are replaced are on both of them or on none. -/
theorem Meets.changed (h : Meets entries a b) (hs : Registry.Stops entries)
    (hr : ∀ k, Replaces entries entries' k →
      ((∃ n, Leads entries n a k) ↔ ∃ n, Leads entries n b k)) : Meets entries' a b := by
  obtain ⟨m, n, last, hm, hn⟩ := h
  obtain ⟨i, s, ha, hsame, hend⟩ := hm.first_replaced entries'
  obtain ⟨j, t, hb, hsame', hend'⟩ := hn.first_replaced entries'
  -- the ways are the same as far as `s` and `t`, and each of these is on both of them
  have hs' : ∃ p, Leads entries p b s := by
    rcases hend with rfl | hk
    · exact ⟨n, hn⟩
    · exact (hr s hk).mp ⟨i, ha⟩
  have ht' : ∃ p, Leads entries p a t := by
    rcases hend' with rfl | hk
    · exact ⟨m, hm⟩
    · exact (hr t hk).mpr ⟨j, hb⟩
  obtain ⟨j', hj'⟩ := hs'
  obtain ⟨i', hi'⟩ := ht'
  rcases Nat.le_total j' j with hle | hle
  · exact ⟨i, j', s, hsame i s (Nat.le_refl i) ha, hsame' j' s hle hj'⟩
  · rcases Nat.le_total i' i with hle' | hle'
    · exact ⟨i', j, t, hsame i' t hle' hi', hsame' j t (Nat.le_refl j) hb⟩
    · -- `s` and `t` lead to each other
      obtain rfl : s = t := hs.eq_of_leads (ha.rest hi' hle') (hb.rest hj' hle)
      exact ⟨i, j, s, hsame i s (Nat.le_refl i) ha, hsame' j s (Nat.le_refl j) hb⟩

namespace Registry

variable {home home' : BucketKey}

theorem EndsAt.eq_of_meets (h : Meets entries a b) (ha : EndsAt entries a home)
    (hb : EndsAt entries b home') : home = home' := by
  obtain ⟨m, n, last, hl, hl'⟩ := h
  obtain ⟨i, -, hi, hr⟩ := ha
  obtain ⟨j, -, hj, hr'⟩ := hb
  have hi' := hl.rest hi (hi.le_of_rests hr hl)
  have hj' := hl'.rest hj (hj.le_of_rests hr' hl')
  exact hi'.eq_of_rests hr hj' hr'

/-- A lookup that gives up ends at its own key, which is redirected and no end for other keys. -/
theorem home_eq_iff (h : Meets entries a b) (ha : Home entries a home)
    (hb : Home entries b home') :
    home = home' ↔ a = b ∨ ¬ GivesUp entries a ∧ ¬ GivesUp entries b := by
  constructor
  · rintro rfl
    rcases ha with ha | ⟨hga, rfl⟩ <;> rcases hb with hb | ⟨hgb, rfl⟩
    · exact Or.inr ⟨ha.not_givesUp, hb.not_givesUp⟩
    · obtain ⟨_, -, -, hr⟩ := ha
      exact absurd hr hgb.not_rests
    · obtain ⟨_, -, -, hr⟩ := hb
      exact absurd hr hga.not_rests
    · exact Or.inl rfl
  · rintro (rfl | ⟨hga, hgb⟩)
    · exact ha.unique hb
    · rcases ha with ha | ⟨hg, -⟩
      · rcases hb with hb | ⟨hg, -⟩
        · exact ha.eq_of_meets h hb
        · exact absurd hg hgb
      · exact absurd hg hga

/-- The key of a lane comes after the key on its way. -/
def Reaches (r : Registry) (key : BucketKey) (lane : Nat) : Prop :=
  ∃ hops last, Leads r.entries hops key last ∧ r.keyOf? lane = some last

theorem leads_of_changed (h : Leads entries n key last)
    (ha : ∀ k, k ≠ last → entries'.get? k = entries.get? k) :
    ∃ hops, Leads entries' hops key last := by
  rcases h.change ha with h | ⟨fewer, -, h⟩
  · exact ⟨n, h⟩
  · exact ⟨fewer, h⟩

variable {r r' found : Registry} {used : Nat} {hash : BucketHash}

theorem leads_home (h : Home r.entries key home) {number : Nat}
    (hf : ∀ k, found.entries.get? k =
      if home = k then some (.owned number) else r.entries.get? k) :
    ∃ hops, Leads found.entries hops key home := by
  rcases h with ⟨hops, -, hl, -⟩ | ⟨-, rfl⟩
  · refine leads_of_changed hl ?_
    intro k hk
    rw [hf, if_neg (Ne.symm hk)]
  · exact ⟨0, .here home⟩

/-- The response leads the keys that led to its lane to the owner of its hash. -/
theorem Unites.meets {last : BucketKey} (hu : Unites r last used found r' (some hash))
    (hl : Leads r.entries n key last) :
    ∃ owner, r'.hashes.get? hash = some owner ∧ Meets r'.entries key owner := by
  cases hu with
  | claims ho hf he hh =>
    refine ⟨last, by rw [hh, Table.get?_insert_self], ?_⟩
    exact .of_leads (he ▸ hl)
  | @agrees _ owner ho hs hf he hh =>
    refine ⟨owner, by rw [hh, ho], ?_⟩
    rw [he]
    rcases hs with rfl | ⟨⟨hops, -, hend, -⟩, -⟩
    · exact .of_leads hl
    · exact ⟨n, hops, last, hl, hend⟩
  | @merges _ owner home number ho hne ht hd hk hf he hh =>
    have hself : r'.entries.get? last = some (.redirect home) := by simp [he]
    have hother : ∀ k, k ≠ last → r'.entries.get? k = found.entries.get? k := by
      intro k hk
      rw [he, Table.get?_insert_of_ne _ (Ne.symm hk)]
    -- in the new table whatever leads to the lane or to the home of the owner leads to that home
    have hlead {k : BucketKey} {hops : Nat}
        (h : Leads found.entries hops k last ∨ Leads found.entries hops k home) :
        ∃ more, Leads r'.entries more k home := by
      rcases h with h | h
      · obtain ⟨more, h⟩ := leads_of_changed h hother
        exact ⟨more + 1, h.snoc hself⟩
      · rcases h.change hother with h | ⟨fewer, -, h⟩
        · exact ⟨hops, h⟩
        · exact ⟨fewer + 1, h.snoc hself⟩
    have hchanged : ∀ k, k ≠ home → found.entries.get? k = r.entries.get? k := by
      intro k hk
      rw [hf, if_neg (Ne.symm hk)]
    have hkey : ∃ more, Leads r'.entries more key home := by
      rcases hl.change hchanged with hl | ⟨fewer, -, hl⟩
      · exact hlead (Or.inl hl)
      · exact hlead (Or.inr hl)
    obtain ⟨i, hi⟩ := hkey
    obtain ⟨hops, hl'⟩ := leads_home ht hf
    obtain ⟨j, hj⟩ := hlead (Or.inr hl')
    exact ⟨owner, by rw [hh, ho], i, j, home, hi, hj⟩

theorem Unites.owner {last owner : BucketKey} {hash? : Option BucketHash}
    (hu : Unites r last used found r' hash?) (ho : r.hashes.get? hash = some owner) :
    r'.hashes.get? hash = some owner := by
  cases hu with
  | silent _ _ hh => rw [hh, ho]
  | @claims revealed hn _ _ hh =>
    have hne : revealed ≠ hash := by
      rintro rfl
      simp [ho] at hn
    rw [hh, Table.get?_insert_of_ne _ hne, ho]
  | agrees _ _ _ _ hh => rw [hh, ho]
  | merges _ _ _ _ _ _ _ hh => rw [hh, ho]

end Registry

namespace Queue

def canonical? (q : Queue) (key : BucketKey) (now : Instant) : Option BucketKey :=
  (q.bucket? key now).2.map Bucket.key

theorem canonical?_of_home {q : Queue} {home : BucketKey} (hw : q.registry.WellFormed)
    (h : Registry.Home q.registry.entries key home) (now : Instant) :
    q.canonical? key now = some home := by
  have hk := hw.keyOf_laneOf_self home now
  simp only [canonical?, bucket?, Registry.resolve_of_home h, Option.map_map]
  exact hk

end Queue

namespace Submission

/-- A request is sent over a lane to which its key leads. -/
theorem reaches_launch {q : Queue} (hw : q.registry.WellFormed) {id lane number : Nat}
    {s : Submission} {now : Instant} (h : (launch q id s lane now).2.phase = .sending number) :
    Registry.Reaches (launch q id s lane now).1.registry s.key number := by
  obtain ⟨home, ht, hr⟩ := q.registry.exists_home s.key now
  unfold launch at h ⊢
  rw [hr] at h ⊢
  dsimp only at h ⊢
  split_ifs at h ⊢ with hlane
  obtain rfl : (q.registry.laneOf home now).2 = number := by
    rw [not_not.mp hlane]
    simpa using h
  obtain ⟨hops, hl⟩ := Registry.leads_home ht (q.registry.get?_laneOf home now)
  have hk : ∀ l : Lane, (l.launch id).bucket.key = l.bucket.key := fun _ => rfl
  refine ⟨hops, home, hl, ?_⟩
  exact (Registry.keyOf_modifyLane _ lane hk _).trans (hw.keyOf_laneOf_self home now)

end Submission

namespace Traffic

open Registry (GivesUp Reaches Rests)

variable {x : Traffic} {e : Event} {hash : BucketHash} {owner : BucketKey}

def Act.isCleanup : Act → Bool
  | .cleanup _ => true
  | _ => false

theorem Tidy.owner_next (h : x.Tidy) (hc : e.act.isCleanup = false)
    (ho : x.queue.registry.hashes.get? hash = some owner) :
    (x.next e).queue.registry.hashes.get? hash = some owner := by
  cases ha : x.answer? e with
  | some a =>
    obtain ⟨last, -, hu⟩ := h.toSound.unites ha
    exact hu.owner ho
  | none =>
    refine keeps_of_silent (P := fun r => r.hashes.get? hash = some owner) ha ?_ ?_ ?_ ho
    · intro r key hr
      obtain ⟨home, -, he⟩ := r.exists_home key e.time
      rw [he, Registry.hashes_laneOf, hr]
    · intro r number lane lane' _ _ hr
      exact hr
    · intro r idle hi _
      simp [hi, Act.isCleanup] at hc

theorem Tidy.owner_run (h : x.Tidy) {events : List Event}
    (hc : ∀ e ∈ events, e.act.isCleanup = false)
    (ho : x.queue.registry.hashes.get? hash = some owner) :
    (x.run events).queue.registry.hashes.get? hash = some owner := by
  induction events generalizing x with
  | nil => exact ho
  | cons e events ih =>
    have hn := h.owner_next (hc e List.mem_cons_self) ho
    exact ih (h.next e) (fun d hd => hc d (List.mem_cons_of_mem e hd)) hn

/-- The event replaces a redirect that is on the way of one of the two keys and not of the other. -/
def Parts (x : Traffic) (e : Event) (a b : BucketKey) : Prop :=
  ∃ key, Replaces x.queue.registry.entries (x.next e).queue.registry.entries key ∧
    ¬ ((∃ n, Leads x.queue.registry.entries n a key) ↔
      ∃ n, Leads x.queue.registry.entries n b key)

def Together (a b : BucketKey) : Traffic → List Event → Prop
  | _, [] => True
  | x, e :: events => ¬ x.Parts e a b ∧ Together a b (x.next e) events

theorem Tidy.meets_next (h : x.Tidy) (hp : ¬ x.Parts e a b)
    (hm : Meets x.queue.registry.entries a b) : Meets (x.next e).queue.registry.entries a b := by
  refine hm.changed h.stops ?_
  intro key hr
  by_contra hn
  exact hp ⟨key, hr, hn⟩

theorem Tidy.meets_run (h : x.Tidy) {events : List Event} (ht : Together a b x events)
    (hm : Meets x.queue.registry.entries a b) :
    Meets (x.run events).queue.registry.entries a b := by
  induction events generalizing x with
  | nil => exact hm
  | cons e events ih => exact ih (h.next e) ht.2 (h.meets_next ht.1 hm)

theorem not_parts_of_no_redirect
    (h : ∀ target, .redirect target ∉ x.queue.registry.entries.values) : ¬ x.Parts e a b := by
  rintro ⟨key, ⟨target, hk, -⟩, -⟩
  exact h target (List.mem_map.mpr ⟨_, Table.mem_of_get? hk, rfl⟩)

/-- Between cleanups a redirect is replaced only if a lookup of its key gives up, or if a response
comes over a lane that its key has lost. -/
theorem Tidy.replaced (h : x.Tidy) (hc : e.act.isCleanup = false)
    (hr : Replaces x.queue.registry.entries (x.next e).queue.registry.entries key) :
    GivesUp x.queue.registry.entries key ∨
      ∃ a, x.answer? e = some a ∧ x.queue.registry.keyOf? a.lane = some key := by
  obtain ⟨target, hk, hn⟩ := hr
  cases ha : x.answer? e with
  | some a =>
    obtain ⟨last, hl, hu⟩ := h.toSound.unites ha
    generalize a.hash? = hash? at hu
    cases hu with
    | silent _ he => exact absurd (he ▸ hk) hn
    | claims _ _ he => exact absurd (he ▸ hk) hn
    | agrees _ _ _ he => exact absurd (he ▸ hk) hn
    | @merges _ owner home _ _ _ ht _ _ hf he =>
      by_cases hlast : last = key
      · exact Or.inr ⟨a, rfl, hlast ▸ hl⟩
      · rw [he, Table.get?_insert_of_ne _ hlast, hf] at hn
        by_cases hhome : home = key
        · subst hhome
          exact Or.inl (ht.givesUp_of_redirect hk)
        · rw [if_neg hhome] at hn
          exact absurd hk hn
  | none =>
    have hkeep : (∀ k t, (x.next e).queue.registry.entries.get? k = some (.redirect t) →
          x.queue.registry.entries.get? k = some (.redirect t)) ∧
        ((x.next e).queue.registry.entries.get? key = some (.redirect target) ∨
          GivesUp x.queue.registry.entries key) := by
      refine keeps_of_silent (P := fun r =>
        (∀ k t, r.entries.get? k = some (.redirect t) →
          x.queue.registry.entries.get? k = some (.redirect t)) ∧
        (r.entries.get? key = some (.redirect target) ∨ GivesUp x.queue.registry.entries key))
        ha ?_ ?_ ?_ ⟨fun _ _ => id, Or.inl hk⟩
      · rintro r other ⟨hsub, hkey⟩
        refine ⟨fun k t ht => hsub k t (Registry.redirect_of_resolve ht), ?_⟩
        rcases hkey with hkey | hg
        · obtain ⟨home, ht, hres⟩ := r.exists_home other e.time
          by_cases hhome : home = key
          · subst hhome
            obtain ⟨last, hl⟩ := ht.givesUp_of_redirect hkey
            exact Or.inr ⟨last, hl.mono hsub⟩
          · rw [hres, Registry.get?_laneOf, if_neg hhome]
            exact Or.inl hkey
        · exact Or.inr hg
      · intro r number lane lane' _ _ hr
        exact hr
      · intro r idle hi _
        simp [hi, Act.isCleanup] at hc
    exact Or.inl (hkeep.2.resolve_left hn)

def revealed? (x : Traffic) (e : Event) (key : BucketKey) : Option BucketHash :=
  match x.answer? e with
  | some a => if a.submission.key = key then a.hash? else none
  | none => none

def latest? (key : BucketKey) : Traffic → List Event → Option BucketHash
  | _, [] => none
  | x, e :: events => latest? key (x.next e) events <|> x.revealed? e key

/-- A response reveals the hash for the key, over a lane to which the key leads. -/
def Reveals (x : Traffic) (e : Event) (key : BucketKey) (hash : BucketHash) : Prop :=
  ∃ a, x.answer? e = some a ∧ a.submission.key = key ∧ a.hash? = some hash ∧
    Reaches x.queue.registry key a.lane

theorem Reveals.not_cleanup (h : x.Reveals e key hash) : e.act.isCleanup = false := by
  obtain ⟨a, ha, -⟩ := h
  rw [(answer?_eq_some ha).1]
  rfl

theorem Tidy.meets_of_reveals (h : x.Tidy) (hr : x.Reveals e key hash) :
    ∃ owner, (x.next e).queue.registry.hashes.get? hash = some owner ∧
      Meets (x.next e).queue.registry.entries key owner := by
  obtain ⟨a, ha, -, hh, hops, last, hl, hk⟩ := hr
  obtain ⟨last', hk', hu⟩ := h.toSound.unites ha
  obtain rfl : last = last' := Option.some.inj (hk.symm.trans hk')
  rw [hh] at hu
  exact hu.meets hl

/-- Two keys have one hash when a response for each has revealed it, over a lane to which the key
led. From then on they have one canonical key, unless a lookup gives up, as long as no event parts
them; until the second response, no event may part the first key from the owner of the hash. -/
theorem same_hash_same_canonical_iff (backoff : Duration) (before between after : List Event)
    (e₁ e₂ : Event) (k₁ k₂ : BucketKey) (hash : BucketHash) (now : Instant)
    (hc : ∀ e ∈ between, e.act.isCleanup = false) :
    let x := (create backoff).run before
    let y := (x.next e₁).run between
    let q := ((y.next e₂).run after).queue
    x.Reveals e₁ k₁ hash → y.Reveals e₂ k₂ hash →
    (∀ owner, (x.next e₁).queue.registry.hashes.get? hash = some owner →
      Together k₁ owner (x.next e₁) (between ++ [e₂])) →
    Together k₁ k₂ (y.next e₂) after →
      ∃ c₁ c₂, q.canonical? k₁ now = some c₁ ∧ q.canonical? k₂ now = some c₂ ∧
        (c₁ = c₂ ↔
          k₁ = k₂ ∨ ¬ GivesUp q.registry.entries k₁ ∧ ¬ GivesUp q.registry.entries k₂) := by
  intro x y q h₁ h₂ hb ha
  have hx : x.Tidy := tidy_run backoff before
  have hx' : (x.next e₁).Tidy := hx.next e₁
  have hy : y.Tidy := hx'.run between
  have hz : (y.next e₂).Tidy := hy.next e₂
  have hq : ((y.next e₂).run after).Tidy := hz.run after
  have hconcat : (x.next e₁).run (between ++ [e₂]) = y.next e₂ := run_concat (x.next e₁) between e₂
  obtain ⟨owner, ho, hm₁⟩ := hx.meets_of_reveals h₁
  have hm₁' : Meets (y.next e₂).queue.registry.entries k₁ owner := by
    rw [← hconcat]
    exact hx'.meets_run (hb owner ho) hm₁
  obtain ⟨owner', ho', hm₂⟩ := hy.meets_of_reveals h₂
  have howner : owner' = owner := by
    have hsame := hy.owner_next h₂.not_cleanup (hx'.owner_run hc ho)
    exact Option.some.inj (ho'.symm.trans hsame)
  have hmeet : Meets q.registry.entries k₁ k₂ := hz.meets_run ha (hm₁'.trans (howner ▸ hm₂).symm)
  obtain ⟨c₁, hc₁, -⟩ := q.registry.exists_home k₁ now
  obtain ⟨c₂, hc₂, -⟩ := q.registry.exists_home k₂ now
  exact ⟨c₁, c₂, Queue.canonical?_of_home hq.wellFormed hc₁ now,
    Queue.canonical?_of_home hq.wellFormed hc₂ now, Registry.home_eq_iff hmeet hc₁ hc₂⟩

def getSent : Traffic :=
  (create (.ofMillis 750)).run
    [⟨⟨0⟩, .submit 0 (plainRequest .get "/users")⟩, ⟨⟨0⟩, .wake 0 .ready⟩,
      ⟨⟨0⟩, .submit 1 (plainRequest .post "/users")⟩, ⟨⟨0⟩, .wake 1 .ready⟩, ⟨⟨0⟩, .wake 0 .ready⟩]

def answered (id : Nat) (hash : String) : Event :=
  ⟨⟨0⟩, .wake id (.answered (.ok (Queue.fourLeft (some hash))))⟩

/-- GET has revealed its hash, and POST is with the transport. -/
def postSent : Traffic := (getSent.next (answered 0 "H")).run [⟨⟨0⟩, .wake 1 .ready⟩]

theorem postSent_same_canonical :
    let q := (postSent.next (answered 1 "H")).queue
    getSent.Reveals (answered 0 "H") ⟨.get, "/users", none⟩ ⟨"H", none⟩ ∧
      postSent.Reveals (answered 1 "H") ⟨.post, "/users", none⟩ ⟨"H", none⟩ ∧
      q.canonical? ⟨.get, "/users", none⟩ ⟨0⟩ = q.canonical? ⟨.post, "/users", none⟩ ⟨0⟩ := by
  have h₁ : getSent.Reveals (answered 0 "H") ⟨.get, "/users", none⟩ ⟨"H", none⟩ :=
    ⟨_, rfl, rfl, rfl, 0, ⟨.get, "/users", none⟩, .here _, rfl⟩
  have h₂ : postSent.Reveals (answered 1 "H") ⟨.post, "/users", none⟩ ⟨"H", none⟩ :=
    ⟨_, rfl, rfl, rfl, 0, ⟨.post, "/users", none⟩, .here _, rfl⟩
  -- nothing is redirected before the second response
  have hx : (getSent.next (answered 0 "H")).queue.registry.entries.values = [.owned 0] := rfl
  have hy : postSent.queue.registry.entries.values = [.owned 0, .owned 1] := rfl
  have hx' (a b : BucketKey) : ¬ (getSent.next (answered 0 "H")).Parts ⟨⟨0⟩, .wake 1 .ready⟩ a b :=
    not_parts_of_no_redirect (by simp [hx])
  have hy' (a b : BucketKey) : ¬ postSent.Parts (answered 1 "H") a b :=
    not_parts_of_no_redirect (by simp [hy])
  have hrests : Rests (postSent.next (answered 1 "H")).queue.registry.entries
      ⟨.get, "/users", none⟩ :=
    have howned : (postSent.next (answered 1 "H")).queue.registry.entries.get?
        ⟨.get, "/users", none⟩ = some (.owned 0) := rfl
    Registry.rests_of_owned howned
  have hget : Registry.EndsAt (postSent.next (answered 1 "H")).queue.registry.entries
      ⟨.get, "/users", none⟩ ⟨.get, "/users", none⟩ :=
    ⟨0, by decide, .here _, hrests⟩
  have hpost : Registry.EndsAt (postSent.next (answered 1 "H")).queue.registry.entries
      ⟨.post, "/users", none⟩ ⟨.get, "/users", none⟩ :=
    ⟨1, by decide, .hop rfl (.here _), hrests⟩
  obtain ⟨c₁, c₂, hc₁, hc₂, hiff⟩ := same_hash_same_canonical_iff (.ofMillis 750) _
    [⟨⟨0⟩, .wake 1 .ready⟩] [] (answered 0 "H") (answered 1 "H") ⟨.get, "/users", none⟩
    ⟨.post, "/users", none⟩ ⟨"H", none⟩ ⟨0⟩ (by decide) h₁ h₂
    (fun _ _ => ⟨hx' _ _, hy' _ _, trivial⟩) trivial
  refine ⟨h₁, h₂, ?_⟩
  have hsame : c₁ = c₂ := hiff.mpr (Or.inr ⟨hget.not_givesUp, hpost.not_givesUp⟩)
  exact hc₁.trans (hsame ▸ hc₂.symm)

def reveal (id : Nat) (path hash : String) : List Event :=
  sendOf id (plainRequest .get path) ++ [answered id hash]

/-- Eight paths have hashes of their own. Two more reveal the hash of the first of the eight, and
then each of the eight reveals the hash of the next one. -/
def longWay : List Event :=
  [("/1", "1"), ("/2", "2"), ("/3", "3"), ("/4", "4"), ("/5", "5"), ("/6", "6"), ("/7", "7"),
    ("/8", "8"), ("/a", "1"), ("/b", "1"), ("/1", "2"), ("/2", "3"), ("/3", "4"), ("/4", "5"),
    ("/5", "6"), ("/6", "7"), ("/7", "8")].zipIdx.flatMap fun (r, id) => reveal id r.1 r.2

/-- Both keys have revealed the same hash and lead to the same lane, but over eight redirects, where
lookups give up. -/
theorem longWay_canonical_differ :
    let x := create (.ofMillis 750)
    let q := (x.run longWay).queue
    (∀ e ∈ longWay, e.act.isCleanup = false) ∧
      latest? ⟨.get, "/a", none⟩ x longWay = some ⟨"1", none⟩ ∧
      latest? ⟨.get, "/b", none⟩ x longWay = some ⟨"1", none⟩ ∧
      q.canonical? ⟨.get, "/a", none⟩ ⟨0⟩ = some ⟨.get, "/a", none⟩ ∧
      q.canonical? ⟨.get, "/b", none⟩ ⟨0⟩ = some ⟨.get, "/b", none⟩ := by
  refine ⟨?_, ?_, ?_, ?_, ?_⟩ <;> decide +kernel

end Traffic

end Parley.Rest
