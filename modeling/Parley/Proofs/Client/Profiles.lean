import Mathlib.Data.List.Induction
import Parley.Proofs.Client.Authors

/-! Registered profiles as the history of deliveries tells them. A profile is registered with what
the latest delivery said that named its id; handles come and go, also within one delivery, and say
nothing of it. -/
namespace Parley

namespace Cache.Users

variable {α : Type} {u : Users α} {id : Snowflake} {slot : Slot} {x : α}

def registered? (u : Users α) (id : Snowflake) : Option α := (u.recordOf? id).bind u.records.get?

theorem registered?_setSlot (u : Users α) (id other : Snowflake) (slot : Option Slot) :
    (u.setSlot id slot).registered? other =
      if id = other then (slot.map Slot.record).bind u.records.get? else u.registered? other := by
  simp only [registered?, recordOf?_setSlot]
  split_ifs <;> rfl

theorem registered?_recount (hs : u.slots.get? id = some slot) (refs : Nat) (other : Snowflake) :
    (u.setSlot id (some { slot with refs })).registered? other = u.registered? other := by
  rw [registered?_setSlot]
  split_ifs with ho
  · simp [registered?, recordOf?, ← ho, hs]
  · rfl

theorem registered?_clone (u : Users α) (h : Handle) (other : Snowflake) :
    (u.clone h).1.registered? other = u.registered? other := by
  cases hs : u.slots.get? h.id with
  | none => simp [clone, hs]
  | some slot =>
    rw [clone_of_some u hs]
    exact registered?_recount hs _ other

theorem registered?_of_release {h : Handle} (hr : (u.release h).1.registered? id = some x) :
    u.registered? id = some x := by
  cases hs : u.slots.get? h.id with
  | none => simpa [release, hs] using hr
  | some slot =>
    rw [release_of_some u hs] at hr
    by_cases hlast : slot.refs ≤ 1
    · simp only [if_pos hlast, registered?_setSlot] at hr
      split_ifs at hr
      · cases hr
      · exact hr
    · simp only [if_neg hlast] at hr
      rwa [registered?_recount hs] at hr

end Cache.Users

namespace Client

open Cache (Users Handle)
open Gateway (Delivery)

theorem Own.registered? {users : Users Profile} (h : Own users) {id : Snowflake}
    (hc : users.contains id = true) : ∃ p, users.registered? id = some p ∧ p.id = id := by
  obtain ⟨slot, hs⟩ := Option.isSome_iff_exists.mp hc
  have hr : users.recordOf? id = some slot.record := congrArg (Option.map Cache.Slot.record) hs
  obtain ⟨p, hp, hid⟩ := h id slot.record hr
  refine ⟨p, ?_, hid⟩
  rw [Users.registered?, hr]
  exact hp

/-- A profile that is written takes the place of the one of its id only, since no record is that of
two ids. -/
theorem Own.registered?_write {users : Users Profile} (h : Own users) {p : Profile} {record : Nat}
    (hr : users.recordOf? p.id = some record) (id : Snowflake) :
    Users.registered? { users with records := users.records.modify record fun _ => p } id =
      if p.id = id then some p else users.registered? id := by
  obtain ⟨former, hformer, hown⟩ := h p.id record hr
  change (users.recordOf? id).bind (users.records.modify record fun _ => p).get? = _
  split_ifs with hid
  · rw [← hid, hr]
    simp [Table.get?_modify, hformer]
  · cases ho : users.recordOf? id with
    | none => simp [Users.registered?, ho]
    | some other =>
      obtain ⟨q, hq, hqid⟩ := h id other ho
      have hne : record ≠ other := by
        rintro rfl
        rw [hformer, Option.some.injEq] at hq
        exact hid (by rw [← hown, hq, hqid])
      simp [Users.registered?, ho, Table.get?_modify, hne]

namespace Balanced

variable {users : Users Profile} {handles : List Handle}

theorem registered?_author (b : Balanced users handles) (p : Profile) (id : Snowflake) :
    (Caches.author users p).1.registered? id =
      if p.id = id then some p else users.registered? id := by
  unfold Caches.author
  dsimp only
  cases hs : users.slots.get? p.id with
  | some slot =>
    have hr : users.recordOf? p.id = some slot.record := by simp [Users.recordOf?, hs]
    rw [Users.getOrCreate_of_some _ hs]
    refine (Own.registered?_write (b.own.setSlot ?_) ?_ id).trans ?_
    · simpa using hr
    · simp [Users.recordOf?_setSlot]
    · rw [Users.registered?_recount hs]
  | none =>
    rw [Users.getOrCreate_of_none _ hs]
    refine (Own.registered?_write (b.own.register fun id record hr => b.recordOf?_lt hr) ?_ id).trans
      ?_
    · simp [Users.recordOf?_setSlot]
    · rw [Users.registered?_setSlot]
      split_ifs with hid
      · rfl
      · -- The new record is none of those registered before.
        change (users.recordOf? id).bind (users.records.insert users.nextRecord p).get? = _
        cases ho : users.recordOf? id with
        | none => simp [Users.registered?, ho]
        | some other =>
          have hne : users.nextRecord ≠ other := Nat.ne_of_gt (b.recordOf?_lt ho)
          simp [Users.registered?, ho, Table.get?_insert, hne]

theorem registered?_update (b : Balanced users handles) (p : Profile) (id : Snowflake) :
    (users.update p.id fun _ => p).1.registered? id =
      if users.contains p.id = true ∧ p.id = id then some p else users.registered? id := by
  unfold Users.update
  cases hs : users.slots.get? p.id with
  | some slot =>
    have hr : users.recordOf? p.id = some slot.record := by simp [Users.recordOf?, hs]
    have hc : users.contains p.id = true := by simp [Users.contains, Table.contains, hs]
    simp only [hc, true_and]
    exact b.own.registered?_write hr id
  | none =>
    have hc : users.contains p.id = false := by simp [Users.contains, Table.contains, hs]
    simp [hc]

end Balanced

namespace Caches

variable {capacity : Nat} {c : Caches} {id : Snowflake} {d : Delivery} {data : Json} {p : Profile}

theorem registered?_of_forget {users : Users Profile} {m : StoredMessage}
    (h : (forget users m).registered? id = some p) : users.registered? id = some p := by
  unfold forget at h
  cases ha : m.author with
  | none => rwa [ha] at h
  | some handle =>
    rw [ha] at h
    exact Users.registered?_of_release h

theorem registered?_of_forget_all {users : Users Profile} {gone : List StoredMessage}
    (h : (gone.foldl forget users).registered? id = some p) : users.registered? id = some p := by
  induction gone generalizing users with
  | nil => exact h
  | cons m gone ih => exact registered?_of_forget (ih h)

def Passes : Delivery → Prop
  | .event e => e.kind ∉ ["MESSAGE_CREATE", "MESSAGE_UPDATE", "MESSAGE_DELETE", "USER_UPDATE"]
  | _ => True

/-- The caches after a delivery, by the kind of the event. -/
inductive Handled (c : Caches) : Delivery → Caches → Prop where
  | created {e : Gateway.Event} (hk : e.kind = "MESSAGE_CREATE") :
      Handled c (.event e) (c.messageCreated e.data)
  | updated {e : Gateway.Event} (hk : e.kind = "MESSAGE_UPDATE") :
      Handled c (.event e) (c.messageUpdated e.data)
  | deleted {e : Gateway.Event} (hk : e.kind = "MESSAGE_DELETE") :
      Handled c (.event e) (c.messageDeleted e.data)
  | renamed {e : Gateway.Event} (hk : e.kind = "USER_UPDATE") :
      Handled c (.event e) (c.userUpdated e.data)
  | passed {d : Delivery} (hd : Passes d) : Handled c d c

theorem handled_observe (c : Caches) (d : Delivery) : Handled c d (c.observe d) := by
  cases d with
  | event e =>
    unfold Caches.observe apply
    dsimp only
    split
    · next hk => exact .created hk
    · next hk => exact .updated hk
    · next hk => exact .deleted hk
    · next hk => exact .renamed hk
    · next hcreate hupdate hdelete hrename =>
      refine .passed ?_
      simp only [Passes, List.mem_cons, List.not_mem_nil, or_false, not_or]
      exact ⟨hcreate, hupdate, hdelete, hrename⟩
  | _ => exact .passed trivial

def authorOf? (data : Json) : Option Profile :=
  (data.field? "author").bind fun a => Profile.decode (.ofJson a)

/-- The profile that a delivery brings for a user: for the author of a message with an id, or for a
user who is registered. -/
def naming? (c : Caches) : Delivery → Option Profile
  | .event e =>
    match e.kind with
    | "MESSAGE_CREATE" => (idOf? e.data).bind fun _ => authorOf? e.data
    | "USER_UPDATE" =>
      (Profile.decode (.ofJson e.data)).filter fun p => c.users.contains p.id
    | _ => none
  | _ => none

theorem naming?_of_passes (hd : Passes d) : naming? c d = none := by
  cases d with
  | event e =>
    simp only [Passes, List.mem_cons, List.not_mem_nil, or_false, not_or] at hd
    obtain ⟨hcreate, -, -, hrename⟩ := hd
    dsimp only [naming?]
    split
    · next hk => exact absurd hk hcreate
    · next hk => exact absurd hk hrename
    · rfl
  | _ => rfl

theorem users_messageCreated (hid : idOf? data = some id) :
    ∃ gone : List StoredMessage, (c.messageCreated data).users = gone.foldl forget
      (match authorOf? data with
      | some p => (author c.users p).1
      | none => c.users) := by
  unfold messageCreated authorOf?
  rw [hid]
  dsimp only
  cases (data.field? "author").bind fun a => Profile.decode (.ofJson a) <;> exact ⟨_, rfl⟩

theorem registered?_messageCreated (k : Kept capacity c)
    (h : (c.messageCreated data).users.registered? id = some p) :
    (∃ own, idOf? data = some own ∧ authorOf? data = some p ∧ p.id = id) ∨
      c.users.registered? id = some p ∧
        ∀ own q, idOf? data = some own → authorOf? data = some q → q.id ≠ id := by
  cases hown : idOf? data with
  | none =>
    rw [messageCreated, hown] at h
    exact Or.inr ⟨h, by rintro _ _ ⟨⟩⟩
  | some own =>
    obtain ⟨gone, hu⟩ := users_messageCreated (c := c) hown
    rw [hu] at h
    have hr := registered?_of_forget_all h
    cases ha : authorOf? data with
    | none =>
      rw [ha] at hr
      exact Or.inr ⟨hr, by rintro _ _ _ ⟨⟩⟩
    | some q =>
      rw [ha] at hr
      dsimp only at hr
      rw [k.balanced.registered?_author] at hr
      split_ifs at hr with hq
      · obtain rfl := Option.some.inj hr
        exact Or.inl ⟨own, rfl, rfl, hq⟩
      · refine Or.inr ⟨hr, ?_⟩
        rintro _ _ _ ⟨⟩
        exact hq

theorem registered?_messageUpdated (h : (c.messageUpdated data).users.registered? id = some p) :
    c.users.registered? id = some p := by
  unfold messageUpdated at h
  cases hown : idOf? data with
  | none => rwa [hown] at h
  | some own =>
    rw [hown] at h
    dsimp only at h
    cases hg : c.messages.get? own with
    | none => rwa [hg] at h
    | some old =>
      rw [hg] at h
      have hr := registered?_of_forget h
      cases ha : old.author with
      | none => rwa [ha] at hr
      | some handle =>
        rw [ha] at hr
        dsimp only at hr
        rwa [Users.registered?_clone] at hr

theorem registered?_messageDeleted (h : (c.messageDeleted data).users.registered? id = some p) :
    c.users.registered? id = some p := by
  unfold messageDeleted at h
  cases hown : idOf? data with
  | none => rwa [hown] at h
  | some own =>
    rw [hown] at h
    exact registered?_of_forget_all h

theorem registered?_userUpdated (k : Kept capacity c)
    (h : (c.userUpdated data).users.registered? id = some p) :
    (Profile.decode (.ofJson data) = some p ∧ c.users.contains p.id = true ∧ p.id = id) ∨
      c.users.registered? id = some p ∧ ∀ q, Profile.decode (.ofJson data) = some q →
        c.users.contains q.id = true → q.id ≠ id := by
  unfold userUpdated at h
  cases hq : Profile.decode (.ofJson data) with
  | none =>
    rw [hq] at h
    exact Or.inr ⟨h, by rintro _ ⟨⟩⟩
  | some q =>
    rw [hq] at h
    dsimp only at h
    rw [k.balanced.registered?_update] at h
    split_ifs at h with hc
    · obtain rfl := Option.some.inj h
      exact Or.inl ⟨rfl, hc⟩
    · refine Or.inr ⟨h, ?_⟩
      rintro _ ⟨⟩ hreg hid
      exact hc ⟨hreg, hid⟩

/-- A profile after a delivery is what the delivery said of the user, or what was registered before
if it said nothing. -/
theorem registered?_observe (k : Kept capacity c)
    (h : (c.observe d).users.registered? id = some p) :
    naming? c d = some p ∧ p.id = id ∨
      c.users.registered? id = some p ∧ ∀ q, naming? c d = some q → q.id ≠ id := by
  have hunnamed (hn : naming? c d = none) (hr : c.users.registered? id = some p) :
      c.users.registered? id = some p ∧ ∀ q, naming? c d = some q → q.id ≠ id := by
    refine ⟨hr, fun q hq => ?_⟩
    rw [hn] at hq
    cases hq
  have hd := handled_observe c d
  generalize c.observe d = c' at hd h
  cases hd with
  | created hk =>
    simp only [naming?, hk, Option.bind_eq_some_iff]
    obtain ⟨own, hown, ha, hp⟩ | ⟨hr, hn⟩ := registered?_messageCreated k h
    · exact Or.inl ⟨⟨own, hown, ha⟩, hp⟩
    · refine Or.inr ⟨hr, ?_⟩
      rintro q ⟨own, hown, ha⟩
      exact hn own q hown ha
  | updated hk =>
    exact Or.inr (hunnamed (by simp [naming?, hk]) (registered?_messageUpdated h))
  | deleted hk =>
    exact Or.inr (hunnamed (by simp [naming?, hk]) (registered?_messageDeleted h))
  | renamed hk =>
    simp only [naming?, hk, Option.filter_eq_some_iff]
    obtain ⟨hq, hreg, hp⟩ | ⟨hr, hn⟩ := registered?_userUpdated k h
    · exact Or.inl ⟨⟨hq, hreg⟩, hp⟩
    · refine Or.inr ⟨hr, ?_⟩
      rintro q ⟨hq, hreg⟩
      exact hn q hq hreg
  | passed hd => exact Or.inr (hunnamed (naming?_of_passes hd) h)

def after (capacity : Nat) (history : List Delivery) : Caches :=
  history.foldl observe (create capacity)

variable {before history later : List Delivery}

theorem after_concat (capacity : Nat) (history : List Delivery) (d : Delivery) :
    after capacity (history ++ [d]) = (after capacity history).observe d :=
  List.foldl_append

theorem kept_after (capacity : Nat) (history : List Delivery) :
    Kept capacity (after capacity history) := (Kept.create capacity).run history

/-- A delivery brought the profile of a user, which is the one registered ever since: no later
delivery brought one. -/
structure Named (capacity : Nat) (id : Snowflake) (before : List Delivery) (d : Delivery)
    (later : List Delivery) (p : Profile) : Prop where
  named : naming? (after capacity before) d = some p
  own : p.id = id
  registered : ∀ part, part <+: later →
    (after capacity (before ++ d :: part)).users.registered? id = some p
  unnamed : ∀ part next, part ++ [next] <+: later → ∀ q,
    naming? (after capacity (before ++ d :: part)) next = some q → q.id ≠ id

theorem Named.first (hn : naming? (after capacity history) d = some p) (hid : p.id = id)
    (hr : (after capacity (history ++ [d])).users.registered? id = some p) :
    Named capacity id history d [] p where
  named := hn
  own := hid
  registered := by
    intro part hpart
    rwa [List.prefix_nil.mp hpart]
  unnamed := by
    intro part next hpart
    simp at hpart

theorem Named.next {d' : Delivery} (h : Named capacity id before d later p)
    (hn : ∀ q, naming? (after capacity (before ++ d :: later)) d' = some q → q.id ≠ id)
    (hr : (after capacity (before ++ d :: (later ++ [d']))).users.registered? id = some p) :
    Named capacity id before d (later ++ [d']) p where
  named := h.named
  own := h.own
  registered := by
    intro part hpart
    rcases List.prefix_concat_iff.mp hpart with rfl | hpart
    · exact hr
    · exact h.registered part hpart
  unnamed := by
    intro part next hpart
    rcases List.prefix_concat_iff.mp hpart with heq | hpart
    · obtain ⟨rfl, hlast⟩ := List.append_inj' heq rfl
      obtain rfl := List.singleton_inj.mp hlast
      exact hn
    · exact h.unnamed part next hpart

/-- Every registered profile goes back to the last delivery that brought one for its user. -/
theorem exists_named (h : (after capacity history).users.registered? id = some p) :
    ∃ before d later, history = before ++ d :: later ∧ Named capacity id before d later p := by
  induction history using List.reverseRecOn with
  | nil => cases h
  | append_singleton history d ih =>
    have hstep := h
    rw [after_concat] at hstep
    obtain ⟨hn, hid⟩ | ⟨hr, hn⟩ := registered?_observe (kept_after capacity history) hstep
    · exact ⟨history, d, [], rfl, Named.first hn hid h⟩
    · obtain ⟨before, first, later, rfl, hnamed⟩ := ih hr
      refine ⟨before, first, later ++ [d], by simp, hnamed.next hn ?_⟩
      simpa using h

end Caches

end Client

end Parley
