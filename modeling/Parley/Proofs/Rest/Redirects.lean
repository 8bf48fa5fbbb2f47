import Parley.Proofs.Rest.Traffic
import Parley.Proofs.Rest.Ways

/-! The shape of a registry that every edit keeps, and what a new redirect does to the ways from keys
to their lanes. -/
namespace Parley.Rest

namespace Registry

variable {r : Registry} {key : BucketKey} {number : Nat} {now : Instant}

def keyOf? (r : Registry) (number : Nat) : Option BucketKey :=
  (r.lane? number).map fun lane => lane.bucket.key

/-- A key that has a lane of its own has the one created for it, and numbers that are to come are
free. -/
structure WellFormed (r : Registry) : Prop where
  owned : ∀ key number, (key, Entry.owned number) ∈ r.entries.entries → r.keyOf? number = some key
  fresh : ∀ number, r.nextLane ≤ number → r.lane? number = none

theorem WellFormed.lt_nextLane (h : r.WellFormed) {lane : Lane} (hl : r.lane? number = some lane) :
    number < r.nextLane := by
  apply Nat.lt_of_not_le
  intro hle
  rw [h.fresh number hle] at hl
  simp at hl

theorem WellFormed.keyOf_eq (h : r.WellFormed) (ho : r.entries.get? key = some (.owned number)) :
    r.keyOf? number = some key :=
  h.owned key number (Table.mem_of_get? ho)

theorem wellFormed_create (backoff : Duration) : (create backoff).WellFormed :=
  ⟨fun _ _ h => absurd h List.not_mem_nil, fun _ _ => rfl⟩

theorem keyOf_setLane {lane lane' : Lane} (hl : r.lane? number = some lane)
    (hk : lane'.bucket.key = lane.bucket.key) (other : Nat) :
    (r.setLane number lane').keyOf? other = r.keyOf? other := by
  unfold keyOf?
  rw [lane?_setLane]
  split_ifs with h
  · rw [← h, hl]
    simp [hk]
  · rfl

theorem WellFormed.setLane (h : r.WellFormed) {lane lane' : Lane} (hl : r.lane? number = some lane)
    (hk : lane'.bucket.key = lane.bucket.key) : (r.setLane number lane').WellFormed := by
  refine ⟨?_, ?_⟩
  · intro key other he
    rw [keyOf_setLane hl hk]
    exact h.owned key other he
  · intro other hle
    have hne : number ≠ other := Nat.ne_of_lt (Nat.lt_of_lt_of_le (h.lt_nextLane hl) hle)
    rw [lane?_setLane, if_neg hne]
    exact h.fresh other hle

theorem lane?_own (r : Registry) (key : BucketKey) (now : Instant) (other : Nat) :
    (r.own key now).1.lane? other =
      if r.nextLane = other then some (.create (.create key r.backoff now)) else r.lane? other :=
  Table.get?_insert r.lanes r.nextLane other _

theorem keyOf_own_self (r : Registry) (key : BucketKey) (now : Instant) :
    (r.own key now).1.keyOf? r.nextLane = some key := by
  simp [keyOf?, lane?_own, Lane.create, Bucket.create]

theorem WellFormed.own (h : r.WellFormed) (key : BucketKey) (now : Instant) :
    (r.own key now).1.WellFormed := by
  refine ⟨?_, ?_⟩
  · intro other number he
    rcases Table.mem_insert he with he | he
    · simp only [Prod.mk.injEq, Entry.owned.injEq] at he
      rw [he.1, he.2]
      exact r.keyOf_own_self key now
    · have hk := h.owned other number he
      obtain ⟨lane, hl, -⟩ := Option.map_eq_some_iff.mp hk
      have hne : r.nextLane ≠ number := Nat.ne_of_gt (h.lt_nextLane hl)
      unfold keyOf? at hk ⊢
      rwa [lane?_own, if_neg hne]
  · intro number hle
    have hne : r.nextLane ≠ number := Nat.ne_of_lt hle
    rw [lane?_own, if_neg hne]
    exact h.fresh number (Nat.le_of_succ_le hle)

theorem WellFormed.laneOf (h : r.WellFormed) (home : BucketKey) (now : Instant) :
    (r.laneOf home now).1.WellFormed := by
  unfold Registry.laneOf
  split
  · exact h
  · exact h.own home now

theorem WellFormed.keyOf_laneOf_self (h : r.WellFormed) (home : BucketKey) (now : Instant) :
    (r.laneOf home now).1.keyOf? (r.laneOf home now).2 = some home := by
  refine (h.laneOf home now).keyOf_eq ?_
  rw [get?_laneOf, if_pos rfl]

theorem WellFormed.lane?_laneOf (h : r.WellFormed) {lane : Lane} (hl : r.lane? number = some lane)
    (home : BucketKey) (now : Instant) : (r.laneOf home now).1.lane? number = some lane := by
  unfold Registry.laneOf
  split
  · exact hl
  · have hne : r.nextLane ≠ number := Nat.ne_of_gt (h.lt_nextLane hl)
    rw [lane?_own, if_neg hne]
    exact hl

/-- A lookup gives a lane that exists only if it is in the table already. -/
theorem WellFormed.laneOf_eq_iff (h : r.WellFormed) (hk : r.keyOf? number = some key)
    (home : BucketKey) (now : Instant) :
    (r.laneOf home now).2 = number ↔ r.entries.get? home = some (.owned number) := by
  obtain ⟨lane, hl, -⟩ := Option.map_eq_some_iff.mp hk
  constructor
  · intro hn
    unfold Registry.laneOf at hn
    split at hn
    · next he => rw [he, ← hn]
    · exact absurd hn (Nat.ne_of_gt (h.lt_nextLane hl))
  · intro ho
    rw [laneOf_of_owned ho]

theorem WellFormed.resolve (h : r.WellFormed) (key : BucketKey) (now : Instant) :
    (r.resolve key now).1.WellFormed := by
  obtain ⟨home, -, hr⟩ := r.exists_home key now
  rw [hr]
  exact h.laneOf home now

/-- The lane that a lookup gives is the one that its own key has. -/
theorem WellFormed.resolve_owned (h : r.WellFormed) (key : BucketKey) (now : Instant) :
    ∃ last, (r.resolve key now).1.keyOf? (r.resolve key now).2 = some last ∧
      (r.resolve key now).1.entries.get? last = some (.owned (r.resolve key now).2) := by
  obtain ⟨home, -, hr⟩ := r.exists_home key now
  rw [hr]
  exact ⟨home, h.keyOf_laneOf_self home now, by rw [get?_laneOf, if_pos rfl]⟩

theorem WellFormed.lane?_resolve (h : r.WellFormed) {lane : Lane} (hl : r.lane? number = some lane)
    (key : BucketKey) (now : Instant) : (r.resolve key now).1.lane? number = some lane := by
  obtain ⟨home, -, hr⟩ := r.exists_home key now
  rw [hr]
  exact h.lane?_laneOf hl home now

/-- The lane that owns the hash which a lane has revealed, and the registry after the owner has been
looked up. A lane that reveals a new hash owns it. -/
def ownerOf (r : Registry) (number : Nat) (hash : BucketHash) (now : Instant) : Registry × Nat :=
  match r.lane? number, r.hashes.get? hash with
  | some lane, some ownerKey =>
    if ownerKey = lane.bucket.key then (r, number) else r.resolve ownerKey now
  | _, _ => (r, number)

theorem WellFormed.ownerOf (h : r.WellFormed) (number : Nat) (hash : BucketHash) (now : Instant) :
    (r.ownerOf number hash now).1.WellFormed := by
  unfold Registry.ownerOf
  split
  · split_ifs
    · exact h
    · exact h.resolve _ now
  · exact h

theorem WellFormed.lane?_ownerOf (h : r.WellFormed) {lane : Lane} (hl : r.lane? number = some lane)
    (used : Nat) (hash : BucketHash) (now : Instant) :
    (r.ownerOf used hash now).1.lane? number = some lane := by
  unfold Registry.ownerOf
  split
  · split_ifs
    · exact hl
    · exact h.lane?_resolve hl _ now
  · exact hl

/-- The key of a lane is redirected to the lane that owns its hash, which gives up a slot. -/
def merge (r : Registry) (lane : Lane) (owner : Nat) (ownerLane : Lane) : Registry :=
  { r with entries := r.entries.insert lane.bucket.key (.redirect ownerLane.bucket.key) }.setLane
    owner { ownerLane with bucket := ownerLane.bucket.consume }

@[simp] theorem entries_merge (r : Registry) (lane : Lane) (owner : Nat) (ownerLane : Lane) :
    (r.merge lane owner ownerLane).entries =
      r.entries.insert lane.bucket.key (.redirect ownerLane.bucket.key) := rfl

/-- A revealed hash changes nothing but the table of hashes, or merges two lanes. -/
theorem unify_cases (h : r.WellFormed) (number : Nat) (hash : BucketHash) (now : Instant) :
    ((r.ownerOf number hash now).2 = number ∧ ∃ hashes, r.unify number hash now =
        ({ (r.ownerOf number hash now).1 with hashes }, number)) ∨
      (r.ownerOf number hash now).2 ≠ number ∧ ∃ lane ownerLane,
        (r.ownerOf number hash now).1.lane? number = some lane ∧
        (r.ownerOf number hash now).1.lane? (r.ownerOf number hash now).2 = some ownerLane ∧
        (r.ownerOf number hash now).1.entries.get? ownerLane.bucket.key =
          some (.owned (r.ownerOf number hash now).2) ∧
        r.unify number hash now =
          ((r.ownerOf number hash now).1.merge lane (r.ownerOf number hash now).2 ownerLane,
            (r.ownerOf number hash now).2) := by
  unfold Registry.ownerOf unify
  cases hl : r.lane? number with
  | none => exact Or.inl ⟨rfl, r.hashes, rfl⟩
  | some lane =>
    cases hh : r.hashes.get? hash with
    | none => exact Or.inl ⟨rfl, _, rfl⟩
    | some ownerKey =>
      dsimp only
      by_cases hk : ownerKey = lane.bucket.key
      · rw [if_pos hk, if_pos hk]
        exact Or.inl ⟨rfl, r.hashes, rfl⟩
      · rw [if_neg hk, if_neg hk]
        by_cases ho : (r.resolve ownerKey now).2 = number
        · rw [if_pos ho]
          exact Or.inl ⟨ho, _, rfl⟩
        · obtain ⟨last, hlast, hentry⟩ := h.resolve_owned ownerKey now
          obtain ⟨ownerLane, hol, rfl⟩ := Option.map_eq_some_iff.mp hlast
          rw [if_neg ho]
          have hn := h.lane?_resolve hl ownerKey now
          refine Or.inr ⟨ho, lane, ownerLane, hn, hol, hentry, ?_⟩
          simp only [hol]
          rfl

theorem WellFormed.merge (h : r.WellFormed) {lane ownerLane : Lane}
    (ho : r.lane? number = some ownerLane) : (r.merge lane number ownerLane).WellFormed := by
  have hr : WellFormed { r with
      entries := r.entries.insert lane.bucket.key (.redirect ownerLane.bucket.key) } := by
    refine ⟨?_, h.fresh⟩
    intro key other he
    rcases Table.mem_insert he with he | he
    · simp at he
    · exact h.owned key other he
  exact hr.setLane ho (Bucket.key_consume ownerLane.bucket)

theorem keyOf_merge {owner : Nat} {ownerLane : Lane} (ho : r.lane? owner = some ownerLane)
    (lane : Lane) (other : Nat) : (r.merge lane owner ownerLane).keyOf? other = r.keyOf? other := by
  have hc : ({ ownerLane with bucket := ownerLane.bucket.consume } : Lane).bucket.key =
      ownerLane.bucket.key := Bucket.key_consume ownerLane.bucket
  exact keyOf_setLane ho hc other

theorem WellFormed.unify (h : r.WellFormed) (number : Nat) (hash : BucketHash) (now : Instant) :
    (r.unify number hash now).1.WellFormed := by
  have hf := h.ownerOf number hash now
  rcases unify_cases h number hash now with ⟨-, hashes, hu⟩ | ⟨-, lane, ownerLane, -, ho, -, hu⟩
  · rw [hu]
    exact ⟨hf.owned, hf.fresh⟩
  · rw [hu]
    exact hf.merge ho

/-- After a redirect, the owner serves the keys that it served before and those that led to the
redirected key, unless the way has become too long or a key was redirected to itself. -/
theorem serves_redirect_iff (h : r.WellFormed) {target : BucketKey}
    (ho : r.entries.get? target = some (.owned number)) (source key : BucketKey) :
    Serves (r.entries.insert source (.redirect target)) key number ↔
      target ≠ source ∧ (Serves r.entries key number ∨
        ∃ hops, hops + 1 < hopLimit ∧ Leads r.entries hops key source) := by
  have hother : ∀ k, k ≠ source →
      (r.entries.insert source (.redirect target)).get? k = r.entries.get? k :=
    fun k hk => Table.get?_insert_of_ne _ (Ne.symm hk) _
  have hself : (r.entries.insert source (.redirect target)).get? source = some (.redirect target) :=
    Table.get?_insert_self _ _ _
  constructor
  · rintro ⟨hops, last, hlt, hl, hlast⟩
    have hne : last ≠ source := by
      intro heq
      rw [heq, hself] at hlast
      simp at hlast
    rw [hother last hne] at hlast
    have hto : last = target := by
      have hk := h.keyOf_eq hlast
      rw [h.keyOf_eq ho] at hk
      exact (Option.some.inj hk).symm
    subst hto
    refine ⟨hne, ?_⟩
    rcases hl.change (fun k hk => (hother k hk).symm) with hl | ⟨fewer, hf, hl⟩
    · exact Or.inl ⟨hops, last, hlt, hl, ho⟩
    · exact Or.inr ⟨fewer, by omega, hl⟩
  · rintro ⟨hne, hs⟩
    have hto : (r.entries.insert source (.redirect target)).get? target = some (.owned number) := by
      rw [hother target hne]
      exact ho
    have hvia {fewer : Nat} (hf : fewer + 1 < hopLimit)
        (hl : Leads (r.entries.insert source (.redirect target)) fewer key source) :
        Serves (r.entries.insert source (.redirect target)) key number :=
      ⟨fewer + 1, target, hf, hl.snoc hself, hto⟩
    rcases hs with ⟨hops, last, hlt, hl, hlast⟩ | ⟨hops, hlt, hl⟩
    · rcases hl.change hother with hl' | ⟨fewer, hf, hl'⟩
      · have heq : last = target := by
          have hk := h.keyOf_eq hlast
          rw [h.keyOf_eq ho] at hk
          exact (Option.some.inj hk).symm
        exact ⟨hops, target, hlt, heq ▸ hl', hto⟩
      · exact hvia (by omega) hl'
    · rcases hl.change hother with hl' | ⟨fewer, hf, hl'⟩
      · exact hvia hlt hl'
      · exact hvia (by omega) hl'

theorem mem_dropDanglingRounds {rounds : Nat} {entries : Table BucketKey Entry}
    {entry : BucketKey × Entry} (h : entry ∈ (dropDanglingRounds rounds entries).entries) :
    entry ∈ entries.entries := by
  induction rounds generalizing entries with
  | zero => exact h
  | succ rounds ih => exact (List.mem_filter.mp (ih h)).1

theorem WellFormed.cleanup (h : r.WellFormed) (idle : Duration) (now : Instant) :
    (r.cleanup idle now).1.WellFormed := by
  refine ⟨?_, h.fresh⟩
  intro key number he
  have hk := mem_dropDanglingRounds he
  exact h.owned key number (List.mem_filter.mp hk).1

end Registry

namespace Queue

variable {q q' : Queue} {now : Instant}

theorem Edit.wellFormed (h : Edit now q q') (hw : q.registry.WellFormed) :
    q'.registry.WellFormed := by
  cases h with
  | look => exact hw
  | trip until_ => exact hw
  | resolve key => exact hw.resolve key now
  | unify number hash => exact hw.unify number hash now
  | serve hl hb => exact hw.setLane hl hb.key_eq

theorem Move.wellFormed (h : Move now q q') (hw : q.registry.WellFormed) :
    q'.registry.WellFormed := by
  cases h with
  | edits h =>
    induction h with
    | refl => exact hw
    | tail _ he ih => exact he.wellFormed ih
  | close reason => exact hw
  | cleanup idle => exact hw.cleanup idle now

end Queue

end Parley.Rest
