import Mathlib.Logic.Relation
import Parley.Proofs.Rest.BucketRuns
import Parley.Rest.Submission

/-! What a step of a request can do to the queue: a few kinds of edits, one after another. What
every edit preserves, every step of every request preserves. -/
namespace Parley.Rest

namespace Bucket

/-- The first bucket becomes the second by operations at one instant. -/
def Evolves (now : Instant) (b b' : Bucket) : Prop :=
  ∃ events : List Event, (∀ e ∈ events, e.time = now) ∧ b' = b.run events

variable {now : Instant} {b b' b'' : Bucket}

theorem Evolves.refl (now : Instant) (b : Bucket) : b.Evolves now b := ⟨[], by simp, rfl⟩

theorem Evolves.act (now : Instant) (b : Bucket) (act : Act) : b.Evolves now (b.next ⟨now, act⟩) :=
  ⟨[⟨now, act⟩], by simp, rfl⟩

theorem Evolves.trans (h : b.Evolves now b') (h' : b'.Evolves now b'') : b.Evolves now b'' := by
  obtain ⟨events, ht, rfl⟩ := h
  obtain ⟨events', ht', rfl⟩ := h'
  refine ⟨events ++ events', ?_, by simp [run]⟩
  intro e he
  rcases List.mem_append.mp he with he | he
  · exact ht e he
  · exact ht' e he

@[simp] theorem key_refill (b : Bucket) (now : Instant) : (b.refill now).key = b.key := by
  unfold refill
  split
  · split_ifs <;> rfl
  · rfl

@[simp] theorem key_tryAdmit (b : Bucket) (now : Instant) : (b.tryAdmit now).1.key = b.key := by
  unfold tryAdmit
  dsimp only
  split_ifs <;> simp

theorem key_absorb (b : Bucket) (info : RateLimit) (now : Instant) :
    (b.absorb info now).key = b.key := by
  rcases b.update?_cases info now with ⟨-, h⟩ | ⟨-, h | h | h⟩
  · rw [absorb_of_update h]
  · rw [absorb_of_update h]
  · rw [absorb_of_update h]
    rfl
  · rw [absorb_of_broken_off h]
    rfl

@[simp] theorem key_consume (b : Bucket) : b.consume.key = b.key := by
  unfold consume
  split_ifs <;> rfl

theorem key_next (b : Bucket) (e : Event) : (b.next e).key = b.key := by
  obtain ⟨time, act⟩ := e
  cases act with
  | ask => exact key_tryAdmit b time
  | learn info => exact key_absorb b info time
  | refusal wait => cases h : time.after? wait <;> simp [next, refused, h, refuse, drain]
  | consume => exact key_consume b
  | refund => simp only [next, refund]; split_ifs <;> rfl

theorem key_run (b : Bucket) (events : List Event) : (b.run events).key = b.key := by
  induction events generalizing b with
  | nil => rfl
  | cons e events ih => rw [run_cons, ih, key_next]

theorem Evolves.key_eq (h : b.Evolves now b') : b'.key = b.key := by
  obtain ⟨events, -, rfl⟩ := h
  exact key_run b events

end Bucket

namespace Lane

variable (l : Lane) (request : Nat) (terms : Terms) (signals : Signals) (now : Instant)

theorem evolves_ask : l.bucket.Evolves now (l.ask request terms signals now).1.bucket := by
  have ha : l.bucket.Evolves now (l.bucket.tryAdmit now).1 := .act now l.bucket .ask
  unfold ask
  split
  · exact .refl now l.bucket
  · split
    · next h =>
      rw [h] at ha
      exact ha
    · next h =>
      rw [h] at ha
      dsimp only
      split <;> exact ha

theorem evolves_arrive : l.bucket.Evolves now (l.arrive request terms signals now).1.bucket := by
  unfold arrive
  split
  · exact .refl now l.bucket
  · dsimp only
    split_ifs
    · exact evolves_ask { l with line := l.line ++ [request] } request terms signals now
    · exact .refl now l.bucket

end Lane

namespace Registry

def bucketOf? (r : Registry) (number : Nat) : Option Bucket := (r.lane? number).map Lane.bucket

theorem bucketOf?_eq_some {r : Registry} {number : Nat} {b : Bucket} :
    r.bucketOf? number = some b ↔ ∃ lane, r.lane? number = some lane ∧ lane.bucket = b :=
  Option.map_eq_some_iff

theorem backoff_follow (hops : Nat) (r : Registry) (key : BucketKey) (now : Instant) :
    (r.follow hops key now).1.backoff = r.backoff := by
  induction hops generalizing key with
  | zero => rfl
  | succ hops ih =>
    unfold follow
    split
    · rfl
    · rfl
    · next target _ => exact ih target

theorem backoff_resolve (r : Registry) (key : BucketKey) (now : Instant) :
    (r.resolve key now).1.backoff = r.backoff := by
  have h := backoff_follow hopLimit r key now
  unfold resolve
  split
  · next he => rwa [he] at h
  · next he => rwa [he] at h

theorem backoff_unify (r : Registry) (number : Nat) (hash : BucketHash) (now : Instant) :
    (r.unify number hash now).1.backoff = r.backoff := by
  unfold unify
  split
  · rfl
  · dsimp only
    split
    · rfl
    · next ownerKey _ =>
      have h := r.backoff_resolve ownerKey now
      split
      · rfl
      · split
        · exact h
        · split
          · exact h
          · exact h

end Registry

namespace Queue

/-- A change that a request makes to the queue at one instant. -/
inductive Edit (now : Instant) : Queue → Queue → Prop
  | look (q) : Edit now q { q with gate := (q.gate.blockedUntil now).1 }
  | trip (q until_) : Edit now q { q with gate := q.gate.trip until_ }
  | resolve (q key) : Edit now q { q with registry := (q.registry.resolve key now).1 }
  | unify (q number hash) : Edit now q { q with registry := (q.registry.unify number hash now).1 }
  | serve {q : Queue} {number : Nat} {lane lane' : Lane} (h : q.registry.lane? number = some lane)
      (hb : lane.bucket.Evolves now lane'.bucket) :
      Edit now q { q with registry := q.registry.setLane number lane' }

abbrev Edits (now : Instant) : Queue → Queue → Prop := Relation.ReflTransGen (Edit now)

inductive Touch (now : Instant) : Queue → Queue → Prop
  | look (q) : Touch now q { q with gate := (q.gate.blockedUntil now).1 }
  | resolve (q key) : Touch now q { q with registry := (q.registry.resolve key now).1 }
  | serve {q : Queue} {number : Nat} {lane lane' : Lane} (h : q.registry.lane? number = some lane)
      (hb : lane.bucket.Evolves now lane'.bucket) :
      Touch now q { q with registry := q.registry.setLane number lane' }

abbrev Touches (now : Instant) : Queue → Queue → Prop := Relation.ReflTransGen (Touch now)

variable {now : Instant} {q q' : Queue}

theorem Touch.edit (h : Touch now q q') : Edit now q q' := by
  cases h with
  | look => exact .look q
  | resolve key => exact .resolve q key
  | serve h hb => exact .serve h hb

theorem Touches.edits (h : Touches now q q') : Edits now q q' :=
  Relation.ReflTransGen.mono (fun _ _ ht => ht.edit) q q' h

theorem Touches.one (h : Touch now q q') : Touches now q q' := .single h

theorem Touches.modifyLane (q : Queue) (number : Nat) {f : Lane → Lane}
    (hf : ∀ lane : Lane, lane.bucket.Evolves now (f lane).bucket) :
    Touches now q { q with registry := q.registry.modifyLane number f } := by
  cases h : q.registry.lane? number with
  | none => rw [Registry.modifyLane_of_none h]
  | some lane =>
    rw [Registry.modifyLane_of_some h]
    exact .one (.serve h (hf lane))

theorem Edits.one (h : Edit now q q') : Edits now q q' := .single h

theorem Edits.setBucket {number : Nat} {lane : Lane} {b : Bucket}
    (h : q.registry.lane? number = some lane) (hb : lane.bucket.Evolves now b) :
    Edits now q (q.setBucket number b) := by
  unfold Queue.setBucket
  rw [Registry.modifyLane_of_some h]
  exact .one (.serve h hb)

/-- A response is one operation on the bucket of its lane, and a refusal a second one. -/
theorem Edits.charge (q : Queue) (number : Nat) (info : RateLimit) (isRefusal : Bool) :
    Edits now q (q.charge number info isRefusal now).1 := by
  unfold Queue.charge
  split
  · exact .refl
  · next lane hl =>
    have ha : lane.bucket.Evolves now (lane.bucket.absorb info now) := .act now _ (.learn info)
    split
    · next hu =>
      have hb : lane.bucket.absorb info now = lane.bucket.learnLimit info := by
        simp [Bucket.absorb, hu]
      exact Edits.setBucket hl (hb ▸ ha)
    · next bucket hu =>
      have hb : lane.bucket.absorb info now = bucket := by simp [Bucket.absorb, hu]
      rw [hb] at ha
      cases isRefusal with
      | false => exact Edits.setBucket hl ha
      | true =>
        have hw : lane.bucket.Evolves now
            (bucket.refused (info.backoff?.getD q.registry.backoff) now) :=
          ha.trans (.act now bucket (.refusal _))
        simp only [if_true]
        cases ho : now.after? (info.backoff?.getD q.registry.backoff) with
        | none =>
          rw [Bucket.refused, ho] at hw
          dsimp only
          split_ifs
          · exact Edits.setBucket hl ha
          · exact Edits.setBucket hl hw
        | some reset =>
          rw [Bucket.refused, ho] at hw
          dsimp only
          split_ifs
          · exact (Edits.one (.trip q reset)).trans (Edits.setBucket hl hw)
          · exact Edits.setBucket hl hw

theorem Edits.book (q : Queue) (number : Nat) (key : BucketKey) (response : Response) :
    Edits now q (q.book number key response now).1 := by
  unfold Queue.book
  dsimp only
  split
  · next hash _ =>
    refine (Edits.one (.unify q number ⟨hash, key.major⟩)).trans ?_
    exact Edits.charge _ _ _ _
  · exact Edits.charge q number _ _

end Queue

namespace Submission

open Queue (Edit Edits Touches)

variable (q : Queue) (id : Nat) (s : Submission) (now : Instant)

theorem touches_launch (lane : Nat) : Touches now q (s.launch q id lane now).1 := by
  have hr : Touches now q { q with registry := (q.registry.resolve s.key now).1 } :=
    .one (.resolve q s.key)
  have hl := hr.tail (.look _)
  unfold launch
  dsimp only
  split_ifs
  · exact hr.trans (Touches.modifyLane _ lane fun l => .act now l.bucket .refund)
  · exact hl.trans (Touches.modifyLane _ lane fun l => .act now l.bucket .refund)
  · exact hl.trans (Touches.modifyLane _ lane fun l => .refl now l.bucket)

theorem touches_settle {number : Nat} {lane : Lane} {place : Lane × Place}
    (h : q.registry.lane? number = some lane) (hb : lane.bucket.Evolves now place.1.bucket) :
    Touches now q (settle q id s number now place).1 := by
  have hs := Touches.one (.serve h hb)
  unfold settle
  dsimp only
  split
  · exact hs
  · exact hs
  · exact hs.trans (touches_launch _ id s now number)
  · exact hs

theorem touches_ask (number : Nat) : Touches now q (ask q id s number now).1 := by
  unfold ask
  split
  · next lane h => exact touches_settle q id s now h (lane.evolves_ask id _ _ now)
  · exact .refl

theorem touches_enter : Touches now q (enter q id s now).1 := by
  have hl : Touches now q { q with gate := (q.gate.blockedUntil now).1 } := .one (.look q)
  unfold enter
  split
  · exact .refl
  · dsimp only
    split
    · split
      · exact hl
      · exact hl
    · have hr := hl.tail (.resolve _ s.key)
      split
      · next lane h => exact hr.trans (touches_settle _ id s now h (lane.evolves_arrive id _ _ now))
      · exact hr

theorem touches_onFailure (lane : Nat) (e : ClientError) :
    Touches now q (onFailure q s lane e now).1 := by
  have hr : Touches now q { q with registry := q.registry.modifyLane lane .refund } :=
    Touches.modifyLane q lane fun l => .act now l.bucket .refund
  unfold onFailure
  dsimp only
  split_ifs
  · exact hr
  · exact hr

theorem onResponse_queue (lane : Nat) (r : Response) :
    (onResponse q s lane r now).1 = (q.book lane s.key r now).1 := by
  unfold onResponse
  split
  · next h => rw [h]
  · next h =>
    rw [h]
    split_ifs <;> rfl

theorem touches_land (lane : Nat) :
    Touches now q { q with registry := q.registry.modifyLane lane (·.land id) } :=
  Touches.modifyLane q lane fun l => .refl now l.bucket

theorem edits_land (lane : Nat) (r : Response) :
    Edits now q (land q id s lane (.ok r) now).1 := by
  simp only [land, onResponse_queue]
  exact (touches_land q id now lane).edits.trans (Edits.book _ lane s.key r)

theorem touches_land_error (lane : Nat) (e : ClientError) :
    Touches now q (land q id s lane (.error e) now).1 :=
  (touches_land q id now lane).trans (touches_onFailure _ s now lane e)

theorem touches_abort (e : ClientError) : Touches now q (abort q id s e now).1 := by
  have hl (lane : Nat) :
      Touches now q { q with registry := q.registry.modifyLane lane (·.leave id) } :=
    Touches.modifyLane q lane fun l => .refl now l.bucket
  unfold abort
  split
  · exact hl _
  · exact hl _
  · exact touches_land_error q id s now _ e
  · exact .refl

theorem touches_abandon : Touches now q (abandon q id s).1 := by
  unfold abandon
  dsimp only
  split
  · exact Touches.modifyLane q _ fun l => .refl now l.bucket
  · exact Touches.modifyLane q _ fun l => .refl now l.bucket
  · exact touches_land q id now _
  · exact .refl

/-- Only a response makes edits that are no touches. -/
theorem step_cases (wake : Wake) :
    Touches now q (step q id s now wake).1 ∨
      ∃ lane r, s.phase = .sending lane ∧ wake = .answered (.ok r) ∧
        step q id s now wake = land q id s lane (.ok r) now := by
  unfold step
  split
  · refine Or.inl ?_
    split <;> exact .refl
  · exact Or.inl (touches_enter q id s now)
  · exact Or.inl (touches_enter q id s now)
  · exact Or.inl (touches_ask q id s now _)
  · exact Or.inl (touches_ask q id s now _)
  · next lane outcome h =>
    cases outcome with
    | ok r => exact Or.inr ⟨lane, r, h, rfl, rfl⟩
    | error e => exact Or.inl (touches_land_error q id s now lane e)
  · exact Or.inl (touches_abort q id s now _)
  · refine Or.inl ?_
    split_ifs
    · exact touches_abort q id s now _
    · exact .refl
  · refine Or.inl ?_
    split
    · split_ifs
      · exact touches_abort q id s now _
      · exact .refl
    · exact .refl
  · exact Or.inl .refl

/-- Whatever a request does in a step, it does by edits. -/
theorem edits_step (wake : Wake) : Edits now q (step q id s now wake).1 := by
  rcases step_cases q id s now wake with h | ⟨lane, r, -, -, h⟩
  · exact h.edits
  · rw [h]
    exact edits_land q id s now lane r

end Submission

end Parley.Rest
