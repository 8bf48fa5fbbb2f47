import Parley.Client.Caches
import Parley.Proofs.Cache.Arrivals
import Parley.Proofs.Cache.Handles

/-! The two caches of a client hold each other up: the handles that the registry of profiles counts
are those of the authors of cached messages, and no others. Handles are taken before a message is
cached and given back by whatever takes it out, so each event is followed through both caches. -/
namespace Parley

namespace Cache.Holders.Exact

variable {α : Type} {users : Users α} {given given' : List Token} {t : Token}

theorem perm (hx : Exact ⟨users, given⟩) (hp : given.Perm given') : Exact ⟨users, given'⟩ where
  counted id := (hx.counted id).trans (hp.countP_eq _)
  present id := by
    have hl : live ⟨users, given'⟩ id = live ⟨users, given⟩ id := (hp.countP_eq _).symm
    rw [hl]
    exact hx.present id
  shared t hm ht := hx.shared t (hp.mem_iff.mpr hm) ht
  fresh t hm := hx.fresh t (hp.mem_iff.mpr hm)

/-- A handle that has been given back need not be kept in mind. -/
theorem dismiss (hx : Exact ⟨users, t :: given⟩) (ht : t.status ≠ .held) :
    Exact ⟨users, given⟩ := by
  have hl (id : Snowflake) : live ⟨users, t :: given⟩ id = live ⟨users, given⟩ id := by
    simp [live, ht]
  refine ⟨fun id => ?_, fun id => ?_, fun t hm ht => ?_, fun t hm => ?_⟩
  · rw [← hl id]
    exact hx.counted id
  · rw [← hl id]
    exact hx.present id
  · exact hx.shared t (List.mem_cons_of_mem _ hm) ht
  · exact hx.fresh t (List.mem_cons_of_mem _ hm)

end Cache.Holders.Exact

namespace Client

open Cache (Users Handle Holders Token Messages Arrivals Message)

/-- A registered profile is that of the id under which it is registered. -/
def Own (users : Users Profile) : Prop :=
  ∀ id record, users.recordOf? id = some record →
    ∃ p, users.records.get? record = some p ∧ p.id = id

namespace Own

variable {users : Users Profile} {id : Snowflake} {record : Nat} {p : Profile}

theorem setSlot (h : Own users) {slot : Option Cache.Slot}
    (hs : ∀ s ∈ slot, users.recordOf? id = some s.record) : Own (users.setSlot id slot) := by
  intro other record hr
  rw [Users.recordOf?_setSlot] at hr
  split_ifs at hr with ho
  · obtain ⟨s, hm, rfl⟩ := Option.map_eq_some_iff.mp hr
    rw [← ho]
    exact h id s.record (hs s hm)
  · exact h other record hr

/-- A profile takes the place of the one registered under its id. No other id shares the record,
since the profile in it has one id only. -/
theorem write (h : Own users) (hr : users.recordOf? p.id = some record) :
    Own { users with records := users.records.modify record fun _ => p } := by
  intro id other ho
  obtain ⟨q, hq, hid⟩ := h id other ho
  obtain ⟨q', hq', hid'⟩ := h p.id record hr
  simp only [Table.get?_modify]
  split_ifs with he
  · rw [← he, hq', Option.some.injEq] at hq
    refine ⟨p, by rw [hq']; rfl, ?_⟩
    rw [← hid', hq, hid]
  · exact ⟨q, hq, hid⟩

theorem register (h : Own users) (hf : ∀ id record, users.recordOf? id = some record →
      record < users.nextRecord) :
    Own (Users.setSlot { users with
        records := users.records.insert users.nextRecord p, nextRecord := users.nextRecord + 1 }
      p.id (some ⟨users.nextRecord, 1⟩)) := by
  intro id record hr
  rw [Users.recordOf?_setSlot] at hr
  simp only [Users.setSlot, Table.get?_insert]
  split_ifs at hr with ho
  · obtain rfl : users.nextRecord = record := Option.some.inj hr
    exact ⟨p, if_pos rfl, ho⟩
  · have hne : users.nextRecord ≠ record := Nat.ne_of_gt (hf id record hr)
    rw [if_neg hne]
    exact h id record hr

end Own

/-- A registry whose handles are held by somebody, in whatever order. -/
def holding (users : Users Profile) (handles : List Handle) : Holders Profile :=
  ⟨users, handles.map fun h => ⟨h, .held⟩⟩

structure Balanced (users : Users Profile) (handles : List Handle) : Prop where
  exact : (holding users handles).Exact
  own : Own users

namespace Balanced

variable {users : Users Profile} {handles handles' : List Handle} {h : Handle}

theorem perm (b : Balanced users handles) (hp : handles.Perm handles') : Balanced users handles' :=
  ⟨b.exact.perm (hp.map _), b.own⟩

theorem recordOf?_lt (b : Balanced users handles) {id : Snowflake} {record : Nat}
    (hr : users.recordOf? id = some record) : record < users.nextRecord := by
  obtain ⟨slot, hs, rfl⟩ := Option.map_eq_some_iff.mp hr
  exact (b.exact.registered hs).2

theorem recordOf?_of_mem (b : Balanced users handles) (hm : h ∈ handles) :
    users.recordOf? h.id = some h.record :=
  (b.exact.shared ⟨h, .held⟩ (List.mem_map_of_mem hm) rfl).1

theorem of_give {users' : Users Profile} (hx : ((holding users handles).give users' h).Exact)
    (ho : Own users') : Balanced users' (h :: handles) := by
  exact ⟨hx.perm (List.perm_append_singleton (Token.mk h .held) _), ho⟩

theorem author (b : Balanced users handles) (p : Profile) :
    Balanced (Caches.author users p).1 ((Caches.author users p).2 :: handles) := by
  have hgive := b.exact.getOrCreate p.id fun _ => p
  unfold Caches.author
  dsimp only
  cases hs : users.slots.get? p.id with
  | some slot =>
    -- The record is shared, and the profile written into it is again one of this id.
    have hr : users.recordOf? p.id = some slot.record := by simp [Users.recordOf?, hs]
    rw [show (holding users handles).users = users from rfl, Users.getOrCreate_of_some _ hs]
      at hgive
    rw [Users.getOrCreate_of_some _ hs]
    refine of_give (hgive.modify slot.record fun _ => p) ?_
    refine Own.write (b.own.setSlot ?_) ?_
    · simpa using hr
    · simp [Users.recordOf?_setSlot]
  | none =>
    rw [show (holding users handles).users = users from rfl, Users.getOrCreate_of_none _ hs]
      at hgive
    rw [Users.getOrCreate_of_none _ hs]
    refine of_give (hgive.modify users.nextRecord fun _ => p) ?_
    refine Own.write (b.own.register fun id record hr => b.recordOf?_lt hr) ?_
    simp [Users.recordOf?_setSlot]

theorem clone (b : Balanced users handles) (hm : h ∈ handles) :
    Balanced (users.clone h).1 (h :: handles) := by
  obtain ⟨id, record⟩ := h
  obtain ⟨slot, hs, rfl⟩ := Option.map_eq_some_iff.mp (b.recordOf?_of_mem hm)
  rw [Users.clone_of_some _ hs]
  refine of_give (b.exact.take hs) (b.own.setSlot ?_)
  simp [Users.recordOf?, hs]

theorem release (b : Balanced users (h :: handles)) : Balanced (users.release h).1 handles := by
  have hr := b.recordOf?_of_mem List.mem_cons_self
  obtain ⟨slot, hs, -⟩ := Option.map_eq_some_iff.mp hr
  have hn : (holding users (h :: handles)).given[0]? = some ⟨h, .held⟩ := rfl
  have hd : Cache.Status.dropped ≠ .held := by decide
  have hx := b.exact.release hn hd
  refine ⟨hx.dismiss hd, ?_⟩
  rw [Users.release_of_some _ hs]
  refine b.own.setSlot ?_
  intro s hm
  split_ifs at hm
  · cases hm
  · obtain rfl := Option.some.inj hm
    simp [Users.recordOf?, hs]

theorem forget {m : StoredMessage} (b : Balanced users (m.author.toList ++ handles)) :
    Balanced (Caches.forget users m) handles := by
  unfold Caches.forget
  cases ha : m.author with
  | none => simpa [ha] using b
  | some h =>
    rw [ha] at b
    exact b.release

theorem forget_all {gone : List StoredMessage}
    (b : Balanced users (gone.filterMap StoredMessage.author ++ handles)) :
    Balanced (gone.foldl Caches.forget users) handles := by
  induction gone generalizing users with
  | nil => exact b
  | cons m gone ih =>
    refine ih (forget ?_)
    cases ha : m.author with
    | none => simpa [ha] using b
    | some h => simpa [ha] using b

theorem update (b : Balanced users handles) (p : Profile) :
    Balanced (users.update p.id fun _ => p).1 handles := by
  unfold Users.update
  cases hs : users.slots.get? p.id with
  | some slot =>
    exact ⟨b.exact.modify slot.record fun _ => p, b.own.write (by simp [Users.recordOf?, hs])⟩
  | none => exact b

end Balanced

namespace Caches

def authorsOf (l : Arrivals StoredMessage) : List Handle := l.filterMap fun m => m.value.author

def authors (c : Messages StoredMessage) : List Handle := authorsOf c.arrivals

theorem authorsOf_append (l l' : Arrivals StoredMessage) :
    authorsOf (l ++ l') = authorsOf l ++ authorsOf l' := List.filterMap_append

theorem authorsOf_cons (m : Message StoredMessage) (l : Arrivals StoredMessage) :
    authorsOf (m :: l) = m.value.author.toList ++ authorsOf l := by
  unfold authorsOf
  rw [List.filterMap_cons]
  cases m.value.author <;> rfl

theorem filterMap_author (m : StoredMessage) :
    [m].filterMap StoredMessage.author = m.author.toList := by
  rw [List.filterMap_cons]
  cases m.author <;> rfl

/-- Nothing is lost when messages are pushed out. -/
theorem authorsOf_trim (capacity : Nat) (l : Arrivals StoredMessage) :
    (Arrivals.trim capacity l).2.filterMap StoredMessage.author ++
      authorsOf (Arrivals.trim capacity l).1 = authorsOf l := by
  induction l with
  | nil => rfl
  | cons m rest ih =>
    by_cases h : (m :: rest).length ≤ capacity
    · rw [Arrivals.trim_of_le h]
      rfl
    · rw [Arrivals.trim_of_not_le h, authorsOf_cons, ← ih, List.filterMap_cons]
      cases m.value.author <;> rfl

section Cached

variable {capacity : Nat} {c : Messages StoredMessage} {l : Arrivals StoredMessage}

/-- A list with the message of an id in it: there is no other of this id. -/
theorem arrivals_split (h : Messages.Mirrors capacity c l) {id : Snowflake} {old : StoredMessage}
    (hg : c.get? id = some old) :
    ∃ before timestamp after, l = before ++ ⟨id, timestamp, old⟩ :: after ∧
      ∀ m ∈ before ++ after, m.id ≠ id := by
  have hv := h.value? id
  rw [hg] at hv
  obtain ⟨⟨id', timestamp, value⟩, hm, rfl⟩ := Option.map_eq_some_iff.mp hv
  obtain ⟨hid, before, after, hl, hbefore⟩ := List.find?_eq_some_iff_append.mp hm
  obtain rfl : id' = id := by simpa using hid
  refine ⟨before, timestamp, after, hl, ?_⟩
  have hnodup : (l.map Message.id).Nodup := by
    rw [← h.arrivals_eq, Messages.arrivals, List.map_map]
    exact h.inLine.distinct
  rw [hl, List.map_append, List.map_cons] at hnodup
  intro m hm hmid
  rcases List.mem_append.mp hm with hm | hm
  · have hne := hbefore m hm
    simp [hmid] at hne
  · have hcons := (List.nodup_append.mp hnodup).2.1
    exact (List.nodup_cons.mp hcons).1 (List.mem_map.mpr ⟨m, hm, hmid⟩)

theorem perm_swap_outer (first middle last rest : List Handle) :
    (first ++ (middle ++ (last ++ rest))).Perm (last ++ (middle ++ (first ++ rest))) := by
  simp only [← List.append_assoc]
  refine List.Perm.append_right rest ?_
  rw [List.append_assoc last]
  exact List.perm_append_comm.trans (List.perm_append_comm.append_left last)

theorem mem_authors (h : Messages.Mirrors capacity c l) {id : Snowflake} {m : StoredMessage}
    (hg : c.get? id = some m) {handle : Handle} (ha : m.author = some handle) :
    handle ∈ authors c := by
  obtain ⟨before, timestamp, after, hl, -⟩ := arrivals_split h hg
  refine List.mem_filterMap.mpr ⟨⟨id, timestamp, m⟩, ?_, ha⟩
  rw [h.arrivals_eq, hl]
  exact List.mem_append_right _ List.mem_cons_self

/-- A message that comes in is cached or is not, and the messages that it pushes out are gone. -/
theorem authors_add (h : Messages.Mirrors capacity c l) (id : Snowflake) (timestamp : Timestamp)
    (message : StoredMessage) :
    let added := c.add id timestamp message
    let gone := if added.taken then added.evicted else [message]
    (message.author.toList ++ authors c).Perm
      (gone.filterMap StoredMessage.author ++ authors added.cache) := by
  obtain ⟨ha, hm⟩ := h.add id timestamp message
  simp only [Messages.perform, Arrivals.perform] at ha hm
  have hnew := hm.arrivals_eq
  dsimp only
  rw [authors, authors, hnew, h.arrivals_eq]
  by_cases hn : capacity = 0 ∨ (Arrivals.message? l id).isSome = true
  · rw [if_pos hn] at ha ⊢
    -- The message is not taken, so it is the one whose handle is given back.
    have ht : (c.add id timestamp message).taken = false := (Cache.Answer.added.inj ha).1
    rw [ht, if_neg Bool.false_ne_true, filterMap_author]
  · rw [if_neg hn] at ha ⊢
    obtain ⟨ht, he⟩ := Cache.Answer.added.inj ha
    rw [ht, he, if_pos rfl, authorsOf_trim, authorsOf_append, authorsOf_cons]
    simpa [authorsOf] using List.perm_append_comm

theorem authors_replace (h : Messages.Mirrors capacity c l) {id : Snowflake} {old : StoredMessage}
    (hg : c.get? id = some old) (message : StoredMessage) :
    (message.author.toList ++ authors c).Perm
      (old.author.toList ++ authors (c.replace id message).1) := by
  obtain ⟨before, timestamp, after, hl, hne⟩ := arrivals_split h hg
  have hnew := (h.replace id message).2.arrivals_eq
  have hkeep (l' : Arrivals StoredMessage) (hl' : ∀ m ∈ l', m ∈ before ++ after) :
      (l'.map fun m => if m.id = id then { m with value := message } else m) = l' := by
    refine (List.map_congr_left fun m hm => ?_).trans (List.map_id l')
    exact if_neg (hne m (hl' m hm))
  simp only [Messages.perform, Arrivals.perform] at hnew
  rw [authors, authors, hnew, h.arrivals_eq, hl, List.map_append, List.map_cons, if_pos rfl,
    hkeep before fun m hm => List.mem_append_left _ hm,
    hkeep after fun m hm => List.mem_append_right _ hm]
  simp only [authorsOf_append, authorsOf_cons]
  exact perm_swap_outer _ _ _ _

theorem authors_remove (h : Messages.Mirrors capacity c l) (id : Snowflake) :
    (authors c).Perm
      ((c.remove id).2.toList.filterMap StoredMessage.author ++ authors (c.remove id).1) := by
  have hnew := (h.remove id).2.arrivals_eq
  simp only [Messages.perform, Arrivals.perform] at hnew
  rw [authors, authors, hnew, h.arrivals_eq]
  change List.Perm _ ((c.get? id).toList.filterMap _ ++ _)
  cases hg : c.get? id with
  | none =>
    have hnone : Arrivals.message? l id = none := by
      have hv := h.value? id
      rwa [hg, Arrivals.value?, Option.map_eq_none_iff] at hv
    rw [List.filter_eq_self.mpr fun m hm => by simpa using List.find?_eq_none.mp hnone m hm]
    exact List.Perm.refl _
  | some old =>
    obtain ⟨before, timestamp, after, hl, hne⟩ := arrivals_split h hg
    have hkeep (l' : Arrivals StoredMessage) (hl' : ∀ m ∈ l', m ∈ before ++ after) :
        l'.filter (fun m => m.id ≠ id) = l' :=
      List.filter_eq_self.mpr fun m hm => by simpa using hne m (hl' m hm)
    rw [hl, List.filter_append, List.filter_cons_of_neg (by simp),
      hkeep before fun m hm => List.mem_append_left _ hm,
      hkeep after fun m hm => List.mem_append_right _ hm]
    simp only [authorsOf_append, authorsOf_cons]
    rw [Option.toList_some, filterMap_author]
    exact List.perm_append_comm_assoc _ _ _

end Cached

/-- The registry counts the handles of the cached messages and no others. -/
structure Kept (capacity : Nat) (c : Caches) : Prop where
  mirrors : c.messages.Mirrors capacity c.messages.arrivals
  balanced : Balanced c.users (authors c.messages)

namespace Kept

variable {capacity : Nat} {c : Caches}

theorem create (capacity : Nat) : Kept capacity (create capacity) where
  mirrors := Messages.mirrors_create capacity
  balanced := ⟨Holders.Exact.create, fun _ _ hr => by cases hr⟩

theorem mirrors_perform (k : Kept capacity c) (op : Cache.Op StoredMessage) :
    (c.messages.perform op).1.Mirrors capacity (c.messages.perform op).1.arrivals := by
  have hm := (k.mirrors.step op).2
  rwa [← hm.arrivals_eq] at hm

theorem messageCreated (k : Kept capacity c) (data : Json) :
    Kept capacity (c.messageCreated data) := by
  unfold Caches.messageCreated
  cases idOf? data with
  | none => exact k
  | some id =>
    dsimp only
    refine ⟨k.mirrors_perform (.add id _ _), Balanced.forget_all ?_⟩
    refine Balanced.perm ?_ (authors_add k.mirrors id _ _)
    cases (data.field? "author").bind fun a => Profile.decode (.ofJson a) with
    | none => exact k.balanced
    | some p => exact k.balanced.author p

theorem messageUpdated (k : Kept capacity c) (data : Json) :
    Kept capacity (c.messageUpdated data) := by
  unfold Caches.messageUpdated
  cases idOf? data with
  | none => exact k
  | some id =>
    dsimp only
    cases hg : c.messages.get? id with
    | none => exact k
    | some old =>
      dsimp only
      refine ⟨k.mirrors_perform (.replace id _), Balanced.forget ?_⟩
      refine Balanced.perm ?_ (authors_replace k.mirrors hg _)
      cases ha : old.author with
      | none => exact k.balanced
      | some h =>
        -- The former version still holds its handle, which keeps the record there to be cloned.
        dsimp only
        rw [Users.clone_snd]
        exact k.balanced.clone (mem_authors k.mirrors hg ha)

theorem messageDeleted (k : Kept capacity c) (data : Json) :
    Kept capacity (c.messageDeleted data) := by
  unfold Caches.messageDeleted
  cases idOf? data with
  | none => exact k
  | some id =>
    refine ⟨k.mirrors_perform (.remove id), Balanced.forget_all ?_⟩
    exact k.balanced.perm (authors_remove k.mirrors id)

theorem userUpdated (k : Kept capacity c) (data : Json) : Kept capacity (c.userUpdated data) := by
  unfold Caches.userUpdated
  cases Profile.decode (.ofJson data) with
  | none => exact k
  | some p => exact ⟨k.mirrors, k.balanced.update p⟩

theorem observe (k : Kept capacity c) (d : Gateway.Delivery) : Kept capacity (c.observe d) := by
  cases d with
  | event e =>
    unfold Caches.observe Caches.apply
    dsimp only
    split
    · exact k.messageCreated e.data
    · exact k.messageUpdated e.data
    · exact k.messageDeleted e.data
    · exact k.userUpdated e.data
    · exact k
  | _ => exact k

theorem run (k : Kept capacity c) (deliveries : List Gateway.Delivery) :
    Kept capacity (deliveries.foldl Caches.observe c) := by
  induction deliveries generalizing c with
  | nil => exact k
  | cons d deliveries ih => exact ih (k.observe d)

end Kept

def written (c : Caches) (id : Snowflake) : Nat :=
  c.messages.entries.entries.countP fun e => e.2.value.author.map Handle.id = some id

/-- Each cached message with an author leads to the record under which the author is registered. -/
def Attached (c : Caches) : Prop :=
  ∀ id m, c.messages.get? id = some m → ∀ h ∈ m.author,
    c.users.recordOf? h.id = some h.record

theorem live_eq_written (c : Caches) (id : Snowflake) :
    (holding c.users (authors c.messages)).live id = c.written id := by
  unfold Holders.live holding authors authorsOf Messages.arrivals written
  rw [List.countP_map, List.countP_filterMap, List.countP_map]
  refine List.countP_congr fun e _ => ?_
  simp only [Function.comp_apply, Messages.reading]
  cases e.2.value.author <;> simp

theorem Kept.attached {capacity : Nat} {c : Caches} (k : Kept capacity c) : c.Attached :=
  fun _ _ hg _ ha => k.balanced.recordOf?_of_mem (mem_authors k.mirrors hg ha)

/-- Whatever events come in and however many messages are kept, each user has as many handles as
there are cached messages that hold one of them for their author, and no other user is registered. A
message leads from its handle to the registered profile, and the profile registered under an id is the
one of that id. -/
theorem author_counts_are_exact (capacity : Nat) (deliveries : List Gateway.Delivery) :
    let c := deliveries.foldl observe (create capacity)
    (∀ id, c.users.refCount id = c.written id) ∧
    (∀ id, c.users.contains id = true ↔ 0 < c.written id) ∧
    c.Attached ∧ Own c.users := by
  have k := (Kept.create capacity).run deliveries
  refine ⟨fun id => ?_, fun id => ?_, k.attached, k.balanced.own⟩
  · rw [← live_eq_written _ id]
    exact k.balanced.exact.counted id
  · rw [← live_eq_written _ id]
    exact k.balanced.exact.present id

end Caches

end Client

end Parley
