import Mathlib.Tactic.SplitIfs
import Parley.Rest.Registry

/-! Ways over redirects, and where lookups end. A lookup ends at the first key on its way that is not
redirected. After too many redirects it gives up, and its own key gets a new lane. -/
namespace Parley.Rest

inductive Leads (entries : Table BucketKey Entry) : Nat → BucketKey → BucketKey → Prop
  | here (key) : Leads entries 0 key key
  | hop {hops : Nat} {key target last : BucketKey}
      (h : entries.get? key = some (.redirect target)) (ht : Leads entries hops target last) :
      Leads entries (hops + 1) key last

variable {entries entries' : Table BucketKey Entry} {key last mid other target : BucketKey}
  {hops m n : Nat}

def Registry.Rests (entries : Table BucketKey Entry) (key : BucketKey) : Prop :=
  ∀ target, entries.get? key ≠ some (.redirect target)

open Registry (Rests)

namespace Leads

theorem snoc (h : Leads entries hops key last)
    (ht : entries.get? last = some (.redirect target)) : Leads entries (hops + 1) key target := by
  induction h with
  | here key => exact .hop ht (.here target)
  | hop hk _ ih => exact .hop hk (ih ht)

/-- A changed entry matters to a way only from where the way comes to it. -/
theorem change (h : Leads entries hops key last) {entries' : Table BucketKey Entry}
    {changed : BucketKey} (ha : ∀ k, k ≠ changed → entries'.get? k = entries.get? k) :
    Leads entries' hops key last ∨ ∃ fewer, fewer < hops ∧ Leads entries' fewer key changed := by
  induction h with
  | here key => exact Or.inl (.here key)
  | @hop hops key target last hk _ ih =>
    by_cases hc : key = changed
    · subst hc
      exact Or.inr ⟨0, Nat.succ_pos hops, .here key⟩
    · have hk' : entries'.get? key = some (.redirect target) := (ha key hc).trans hk
      rcases ih with ih | ⟨fewer, hlt, ih⟩
      · exact Or.inl (.hop hk' ih)
      · exact Or.inr ⟨fewer + 1, Nat.succ_lt_succ hlt, .hop hk' ih⟩

theorem append (h : Leads entries m key mid) (h' : Leads entries n mid last) :
    Leads entries (m + n) key last := by
  induction h with
  | here key => simpa using h'
  | @hop hops key target mid hk _ ih =>
    rw [Nat.add_right_comm]
    exact .hop hk (ih h')

theorem unique (h : Leads entries m key last) (h' : Leads entries m key other) : last = other := by
  induction h with
  | here key =>
    cases h'
    rfl
  | hop hk _ ih =>
    cases h' with
    | hop hk' ht' =>
      rw [hk, Option.some.injEq, Entry.redirect.injEq] at hk'
      exact ih (hk' ▸ ht')

theorem split (h : Leads entries (m + n) key last) :
    ∃ mid, Leads entries m key mid ∧ Leads entries n mid last := by
  induction m generalizing key with
  | zero =>
    rw [Nat.zero_add] at h
    exact ⟨key, .here key, h⟩
  | succ m ih =>
    rw [Nat.add_right_comm] at h
    cases h with
    | hop hk ht =>
      obtain ⟨mid, hm, hn⟩ := ih ht
      exact ⟨mid, .hop hk hm, hn⟩

/-- The longer of two ways from one key goes on from the end of the shorter one. -/
theorem rest (h : Leads entries m key mid) (h' : Leads entries n key last) (hle : m ≤ n) :
    Leads entries (n - m) mid last := by
  rw [← Nat.add_sub_of_le hle] at h'
  obtain ⟨via, hv, hn⟩ := h'.split
  rw [h.unique hv]
  exact hn

theorem le_of_rests (h : Leads entries m key mid) (hr : Rests entries mid)
    (h' : Leads entries n key last) : n ≤ m := by
  rcases Nat.le_total n m with hle | hle
  · exact hle
  · have ht := h.rest h' hle
    generalize hd : n - m = d at ht
    cases ht with
    | here => omega
    | hop hk _ => exact absurd hk (hr _)

theorem eq_of_rests (h : Leads entries m key last) (hr : Rests entries last)
    (h' : Leads entries n key other) (hr' : Rests entries other) : last = other := by
  have heq : m = n := Nat.le_antisymm (h'.le_of_rests hr' h) (h.le_of_rests hr h')
  exact h.unique (heq ▸ h')

theorem mono (h : Leads entries' hops key last)
    (hsub : ∀ k t, entries'.get? k = some (.redirect t) → entries.get? k = some (.redirect t)) :
    Leads entries hops key last := by
  induction h with
  | here key => exact .here key
  | hop hk _ ih => exact .hop (hsub _ _ hk) ih

end Leads

namespace Registry

theorem rests_of_owned {number : Nat} (h : entries.get? key = some (.owned number)) :
    Rests entries key := by
  intro target hk
  rw [h] at hk
  simp at hk

def EndsAt (entries : Table BucketKey Entry) (key last : BucketKey) : Prop :=
  ∃ hops, hops < hopLimit ∧ Leads entries hops key last ∧ Rests entries last

/-- There are more redirects on the way than a lookup follows. -/
def GivesUp (entries : Table BucketKey Entry) (key : BucketKey) : Prop :=
  ∃ last, Leads entries hopLimit key last

def Home (entries : Table BucketKey Entry) (key home : BucketKey) : Prop :=
  EndsAt entries key home ∨ GivesUp entries key ∧ home = key

theorem EndsAt.not_givesUp (h : EndsAt entries key last) : ¬ GivesUp entries key := by
  rintro ⟨_, hg⟩
  obtain ⟨hops, hlt, hl, hr⟩ := h
  exact Nat.not_le_of_lt hlt (hl.le_of_rests hr hg)

theorem GivesUp.not_rests (h : GivesUp entries key) : ¬ Rests entries key := by
  obtain ⟨_, hg⟩ := h
  intro hr
  exact absurd ((Leads.here key).le_of_rests hr hg) (by decide)

theorem EndsAt.unique (h : EndsAt entries key last) (h' : EndsAt entries key other) :
    last = other := by
  obtain ⟨_, -, hl, hr⟩ := h
  obtain ⟨_, -, hl', hr'⟩ := h'
  exact hl.eq_of_rests hr hl' hr'

/-- The lane of a key, which gets one if it has none. -/
def laneOf (r : Registry) (key : BucketKey) (now : Instant) : Registry × Nat :=
  match r.entries.get? key with
  | some (.owned number) => (r, number)
  | _ => r.own key now

variable {r : Registry} {now : Instant} {number : Nat} {home : BucketKey}

theorem laneOf_of_owned (h : r.entries.get? key = some (.owned number)) (now : Instant) :
    r.laneOf key now = (r, number) := by
  simp [laneOf, h]

theorem laneOf_of_not_owned (h : ∀ number, r.entries.get? key ≠ some (.owned number))
    (now : Instant) : r.laneOf key now = r.own key now := by
  unfold laneOf
  split
  · next he => exact absurd he (h _)
  · rfl

theorem follow_eq (r : Registry) (bound : Nat) (key : BucketKey) (now : Instant) :
    (∃ hops last, hops < bound ∧ Leads r.entries hops key last ∧ Rests r.entries last ∧
        r.follow bound key now = ((r.laneOf last now).1, some (r.laneOf last now).2)) ∨
      (∃ last, Leads r.entries bound key last) ∧ r.follow bound key now = (r, none) := by
  induction bound generalizing key with
  | zero => exact Or.inr ⟨⟨key, .here key⟩, rfl⟩
  | succ bound ih =>
    cases he : r.entries.get? key with
    | none =>
      have hr : Rests r.entries key := fun _ hk => by simp [he] at hk
      exact Or.inl ⟨0, key, Nat.succ_pos bound, .here key, hr, by simp [follow, laneOf, he]⟩
    | some entry =>
      cases entry with
      | owned number =>
        exact Or.inl ⟨0, key, Nat.succ_pos bound, .here key, rests_of_owned he,
          by simp [follow, laneOf, he]⟩
      | redirect target =>
        have hf : r.follow (bound + 1) key now = r.follow bound target now := by simp [follow, he]
        rw [hf]
        rcases ih target with ⟨hops, last, hlt, hl, hr, h⟩ | ⟨⟨last, hl⟩, h⟩
        · exact Or.inl ⟨hops + 1, last, Nat.succ_lt_succ hlt, .hop he hl, hr, h⟩
        · exact Or.inr ⟨⟨last, .hop he hl⟩, h⟩

theorem exists_home (r : Registry) (key : BucketKey) (now : Instant) :
    ∃ home, Home r.entries key home ∧ r.resolve key now = r.laneOf home now := by
  unfold resolve
  rcases r.follow_eq hopLimit key now with ⟨hops, last, hlt, hl, hr, h⟩ | ⟨hg, h⟩
  · exact ⟨last, Or.inl ⟨hops, hlt, hl, hr⟩, by rw [h]⟩
  · refine ⟨key, Or.inr ⟨hg, rfl⟩, ?_⟩
    have hno : ∀ number, r.entries.get? key ≠ some (.owned number) :=
      fun _ ho => GivesUp.not_rests hg (rests_of_owned ho)
    rw [h, laneOf_of_not_owned hno]

theorem Home.unique (h : Home entries key home) (h' : Home entries key other) : home = other := by
  rcases h with h | ⟨hg, rfl⟩ <;> rcases h' with h' | ⟨hg', rfl⟩
  · exact h.unique h'
  · exact absurd hg' h.not_givesUp
  · exact absurd hg h'.not_givesUp
  · rfl

/-- A lookup that ends at a redirected key has given up there. -/
theorem Home.givesUp_of_redirect {target : BucketKey} (h : Home entries key home)
    (hk : entries.get? home = some (.redirect target)) : GivesUp entries home := by
  rcases h with ⟨_, -, -, hr⟩ | ⟨hg, rfl⟩
  · exact absurd hk (hr target)
  · exact hg

theorem resolve_of_home (h : Home r.entries key home) (now : Instant) :
    r.resolve key now = r.laneOf home now := by
  obtain ⟨found, hf, hr⟩ := r.exists_home key now
  rw [hr, hf.unique h]

theorem get?_laneOf (r : Registry) (home : BucketKey) (now : Instant) (k : BucketKey) :
    (r.laneOf home now).1.entries.get? k =
      if home = k then some (.owned (r.laneOf home now).2) else r.entries.get? k := by
  unfold laneOf
  split
  · next he =>
    split_ifs with hk
    · exact hk ▸ he
    · rfl
  · exact Table.get?_insert r.entries home k _

@[simp] theorem hashes_laneOf (r : Registry) (home : BucketKey) (now : Instant) :
    (r.laneOf home now).1.hashes = r.hashes := by
  unfold laneOf
  split <;> rfl

/-- The key has a lane, at the end of a way that a lookup follows. -/
def Serves (entries : Table BucketKey Entry) (key : BucketKey) (number : Nat) : Prop :=
  ∃ hops last, hops < hopLimit ∧ Leads entries hops key last ∧
    entries.get? last = some (.owned number)

theorem resolve_of_serves (h : Serves r.entries key number) (now : Instant) :
    r.resolve key now = (r, number) := by
  obtain ⟨hops, last, hlt, hl, ho⟩ := h
  have hh : Home r.entries key last := Or.inl ⟨hops, hlt, hl, rests_of_owned ho⟩
  rw [resolve_of_home hh, laneOf_of_owned ho]

theorem resolve_cases (r : Registry) (key : BucketKey) (now : Instant) :
    (∃ number, Serves r.entries key number ∧ r.resolve key now = (r, number)) ∨
      ∃ made, r.resolve key now = ((r.own made now).1, r.nextLane) := by
  obtain ⟨home, hh, hr⟩ := r.exists_home key now
  by_cases ho : ∃ number, r.entries.get? home = some (.owned number)
  · obtain ⟨number, ho⟩ := ho
    rw [laneOf_of_owned ho] at hr
    rcases hh with ⟨hops, hlt, hl, -⟩ | ⟨hg, rfl⟩
    · exact Or.inl ⟨number, ⟨hops, home, hlt, hl, ho⟩, hr⟩
    · exact absurd (rests_of_owned ho) hg.not_rests
  · rw [laneOf_of_not_owned (not_exists.mp ho)] at hr
    exact Or.inr ⟨home, hr⟩

/-- A lookup gives a lane that exists already exactly if that lane serves the key. -/
theorem resolve_eq_iff (hn : number < r.nextLane) :
    (r.resolve key now).2 = number ↔ Serves r.entries key number := by
  constructor
  · intro h
    rcases r.resolve_cases key now with ⟨found, hs, hr⟩ | ⟨made, hr⟩
    · rw [hr] at h
      exact h ▸ hs
    · rw [hr] at h
      simp only at h
      omega
  · intro h
    rw [resolve_of_serves h]

/-- The lane that a lookup gives serves the key from then on. -/
theorem serves_resolve (r : Registry) (key : BucketKey) (now : Instant) :
    Serves (r.resolve key now).1.entries key (r.resolve key now).2 := by
  obtain ⟨home, hh, hr⟩ := r.exists_home key now
  rw [hr]
  have ho : (r.laneOf home now).1.entries.get? home = some (.owned (r.laneOf home now).2) := by
    simp [get?_laneOf]
  have hother : ∀ k, k ≠ home → (r.laneOf home now).1.entries.get? k = r.entries.get? k := by
    intro k hk
    rw [get?_laneOf, if_neg (Ne.symm hk)]
  rcases hh with ⟨hops, hlt, hl, -⟩ | ⟨-, rfl⟩
  · rcases hl.change hother with hl | ⟨fewer, hfewer, hl⟩
    · exact ⟨hops, home, hlt, hl, ho⟩
    · exact ⟨fewer, home, Nat.lt_trans hfewer hlt, hl, ho⟩
  · exact ⟨0, home, by decide, .here home, ho⟩

end Registry

end Parley.Rest
