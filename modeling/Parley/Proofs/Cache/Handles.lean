import Mathlib.Tactic.SplitIfs
import Parley.Cache.Users

/-! A registry of shared records with everybody who holds handles of it. Each step of a holder is
one step of the registry, and the steps of all holders may come in any order. -/
namespace Parley.Cache

variable {α : Type}

namespace Users

variable (u : Users α) (id other : Snowflake) (slot : Option Slot)

def recordOf? (u : Users α) (id : Snowflake) : Option Nat := (u.slots.get? id).map Slot.record

def setSlot (u : Users α) (id : Snowflake) (slot : Option Slot) : Users α where
  slots := match slot with
    | some slot => u.slots.insert id slot
    | none => u.slots.erase id
  records := u.records
  nextRecord := u.nextRecord

theorem get?_setSlot :
    (u.setSlot id slot).slots.get? other = if id = other then slot else u.slots.get? other := by
  cases slot with
  | some slot => exact Table.get?_insert u.slots id other slot
  | none => exact Table.get?_erase u.slots id other

theorem refCount_eq : u.refCount id = ((u.slots.get? id).map Slot.refs).getD 0 := by
  unfold refCount
  cases u.slots.get? id <;> rfl

theorem refCount_setSlot :
    (u.setSlot id slot).refCount other =
      if id = other then (slot.map Slot.refs).getD 0 else u.refCount other := by
  rw [refCount_eq, refCount_eq, get?_setSlot]
  split_ifs <;> rfl

theorem contains_setSlot :
    (u.setSlot id slot).contains other = if id = other then slot.isSome else u.contains other := by
  simp only [contains, Table.contains, get?_setSlot]
  split_ifs <;> rfl

theorem recordOf?_setSlot :
    (u.setSlot id slot).recordOf? other =
      if id = other then slot.map Slot.record else u.recordOf? other := by
  simp only [recordOf?, get?_setSlot]
  split_ifs <;> rfl

theorem get?_eq :
    u.get? id = (u.slots.get? id).map fun slot =>
      (u.setSlot id (some { slot with refs := slot.refs + 1 }), ⟨id, slot.record⟩) := rfl

theorem getOrCreate_of_some {id : Snowflake} {slot : Slot} (h : u.slots.get? id = some slot)
    (make : Unit → α) :
    u.getOrCreate id make =
      ⟨u.setSlot id (some { slot with refs := slot.refs + 1 }), ⟨id, slot.record⟩, false⟩ := by
  simp [getOrCreate, get?_eq, h]

theorem getOrCreate_of_none {id : Snowflake} (h : u.slots.get? id = none) (make : Unit → α) :
    u.getOrCreate id make =
      ⟨setSlot { u with
          records := u.records.insert u.nextRecord (make ()), nextRecord := u.nextRecord + 1 }
        id (some ⟨u.nextRecord, 1⟩), ⟨id, u.nextRecord⟩, true⟩ := by
  simp [getOrCreate, get?_eq, h, setSlot]

theorem id_getOrCreate (make : Unit → α) : (u.getOrCreate id make).handle.id = id := by
  cases h : u.slots.get? id with
  | some slot => rw [getOrCreate_of_some u h]
  | none => rw [getOrCreate_of_none u h]

theorem clone_snd (h : Handle) : (u.clone h).2 = h := by
  unfold clone
  split <;> rfl

theorem clone_of_some {h : Handle} {slot : Slot} (hs : u.slots.get? h.id = some slot) :
    u.clone h = (u.setSlot h.id (some { slot with refs := slot.refs + 1 }), h) := by
  simp [clone, hs, setSlot]

theorem release_of_some {h : Handle} {slot : Slot} (hs : u.slots.get? h.id = some slot) :
    u.release h =
      (u.setSlot h.id (if slot.refs ≤ 1 then none else some { slot with refs := slot.refs - 1 }),
        decide (slot.refs ≤ 1)) := by
  simp only [release, hs]
  split_ifs with h
  · simp [setSlot, h]
  · simp [setSlot, h]

end Users

inductive Status where
  | held
  /-- Given back explicitly. Its holder drops it later. -/
  | released
  | dropped
deriving DecidableEq

structure Token where
  handle : Handle
  status : Status
deriving DecidableEq

structure Holders (α : Type) where
  users : Users α
  given : List Token

namespace Holders

/-- A handle is named by its place in the order in which handles were given out. -/
inductive Act (α : Type) where
  | getOrCreate (id : Snowflake) (make : Unit → α)
  | get (id : Snowflake)
  | clone (number : Nat)
  | release (number : Nat)
  | drop (number : Nat)
  | write (number : Nat) (f : α → α)
  | update (id : Snowflake) (f : α → α)

inductive Answer where
  /-- A new handle, and whether its record has been made for it. -/
  | took (created : Bool)
  | released (last : Bool)
  | nothing
deriving DecidableEq

def create : Holders α := ⟨.empty, []⟩

def held? (x : Holders α) (number : Nat) : Option Handle :=
  x.given[number]?.bind fun t => if t.status = .held then some t.handle else none

def give (x : Holders α) (users : Users α) (h : Handle) : Holders α :=
  ⟨users, x.given ++ [⟨h, .held⟩]⟩

/-- Only a handle that is held can be cloned, released or written through. -/
def step (x : Holders α) : Act α → Holders α × Answer
  | .getOrCreate id make =>
    let taken := x.users.getOrCreate id make
    (x.give taken.users taken.handle, .took taken.created)
  | .get id =>
    match x.users.get? id with
    | some (users, h) => (x.give users h, .took false)
    | none => (x, .nothing)
  | .clone number =>
    match x.held? number with
    | some h =>
      let (users, h) := x.users.clone h
      (x.give users h, .took false)
    | none => (x, .nothing)
  | .release number =>
    match x.held? number with
    | some h =>
      let (users, last) := x.users.release h
      (⟨users, x.given.set number ⟨h, .released⟩⟩, .released last)
    | none => (x, .nothing)
  | .drop number =>
    match x.given[number]? with
    | some t =>
      let users := if t.status = .held then (x.users.release t.handle).1 else x.users
      (⟨users, x.given.set number { t with status := .dropped }⟩, .nothing)
    | none => (x, .nothing)
  | .write number f =>
    match x.held? number with
    | some h => ({ x with users := x.users.write h f }, .nothing)
    | none => (x, .nothing)
  | .update id f => ({ x with users := (x.users.update id f).1 }, .nothing)

def run (x : Holders α) (acts : List (Act α)) : Holders α :=
  acts.foldl (fun x act => (x.step act).1) x

def live (x : Holders α) (id : Snowflake) : Nat :=
  x.given.countP fun t => decide (t.status = .held ∧ t.handle.id = id)

/-- The registry counts the handles that are held, and all of them share its record. -/
structure Exact (x : Holders α) : Prop where
  counted : ∀ id, x.users.refCount id = x.live id
  present : ∀ id, x.users.contains id = true ↔ 0 < x.live id
  shared : ∀ t ∈ x.given, t.status = .held →
    x.users.recordOf? t.handle.id = some t.handle.record ∧ (x.users.read? t.handle).isSome
  fresh : ∀ t ∈ x.given, t.handle.record < x.users.nextRecord

variable {x : Holders α} {number : Nat} {h : Handle}

theorem held?_eq_some : x.held? number = some h ↔ x.given[number]? = some ⟨h, .held⟩ := by
  unfold held?
  cases x.given[number]? with
  | none => simp
  | some t =>
    obtain ⟨handle, status⟩ := t
    cases status <;> simp

theorem live_give (x : Holders α) (users : Users α) (h : Handle) (id : Snowflake) :
    (x.give users h).live id = x.live id + if h.id = id then 1 else 0 := by
  unfold live give
  rw [List.countP_append]
  by_cases hid : h.id = id <;> simp [hid]

theorem live_set {t : Token} {status : Status} (users : Users α) (hs : status ≠ .held)
    (hn : x.given[number]? = some t) (id : Snowflake) :
    live ⟨users, x.given.set number { t with status }⟩ id =
      x.live id - if t.status = .held ∧ t.handle.id = id then 1 else 0 := by
  obtain ⟨hlt, hget⟩ := List.getElem?_eq_some_iff.mp hn
  unfold live
  rw [List.countP_set hlt, hget]
  simp [hs]

theorem exists_held {id : Snowflake} (hl : 0 < x.live id) :
    ∃ t ∈ x.given, t.status = .held ∧ t.handle.id = id := by
  obtain ⟨t, hm, ht⟩ := List.countP_pos_iff.mp hl
  exact ⟨t, hm, by simpa using ht⟩

namespace Exact

variable {id : Snowflake} {slot : Slot}

theorem live_eq (hx : x.Exact) (hs : x.users.slots.get? id = some slot) :
    x.live id = slot.refs := by
  rw [← hx.counted, Users.refCount_eq, hs]
  rfl

theorem live_eq_zero (hx : x.Exact) (hs : x.users.slots.get? id = none) : x.live id = 0 := by
  rw [← hx.counted, Users.refCount_eq, hs]
  rfl

theorem live_pos (hx : x.Exact) (hs : x.users.slots.get? id = some slot) : 0 < x.live id := by
  apply (hx.present id).mp
  simp [Users.contains, Table.contains, hs]

theorem registered (hx : x.Exact) (hs : x.users.slots.get? id = some slot) :
    (x.users.records.get? slot.record).isSome ∧ slot.record < x.users.nextRecord := by
  obtain ⟨t, hm, ht, rfl⟩ := exists_held (hx.live_pos hs)
  obtain ⟨hr, hread⟩ := hx.shared t hm ht
  have heq : slot.record = t.handle.record := by simpa [Users.recordOf?, hs] using hr
  rw [heq]
  exact ⟨hread, hx.fresh t hm⟩

theorem slot_of_held (hx : x.Exact) (hn : x.given[number]? = some ⟨h, .held⟩) :
    ∃ slot, x.users.slots.get? h.id = some slot ∧ slot.record = h.record := by
  obtain ⟨hr, -⟩ := hx.shared _ (List.mem_of_getElem? hn) rfl
  exact Option.map_eq_some_iff.mp hr

theorem store (hx : x.Exact) {records : Table Nat α} {nextRecord : Nat}
    (hr : ∀ n, (x.users.records.get? n).isSome → (records.get? n).isSome)
    (hn : x.users.nextRecord ≤ nextRecord) :
    Exact { x with users := { x.users with records, nextRecord } } where
  counted := hx.counted
  present := hx.present
  shared t hm ht := ⟨(hx.shared t hm ht).1, hr _ (hx.shared t hm ht).2⟩
  fresh t hm := Nat.lt_of_lt_of_le (hx.fresh t hm) hn

/-- A new handle, counted under an id that is registered with its record or not at all. -/
theorem give (hx : x.Exact) {record refs : Nat} (hc : x.users.refCount id + 1 = refs)
    (hr : ∀ other ∈ x.users.recordOf? id, other = record)
    (hs : (x.users.records.get? record).isSome) (hf : record < x.users.nextRecord) :
    (x.give (x.users.setSlot id (some ⟨record, refs⟩)) ⟨id, record⟩).Exact := by
  refine ⟨?_, ?_, ?_, ?_⟩
  · intro other
    rw [live_give, ← hx.counted]
    simp only [Holders.give, Users.refCount_setSlot]
    split_ifs with ho
    · subst ho
      exact hc.symm
    · rfl
  · intro other
    rw [live_give]
    simp only [Holders.give, Users.contains_setSlot]
    split_ifs with ho
    · simp
    · exact hx.present other
  · intro t hm ht
    simp only [Holders.give, Users.recordOf?_setSlot] at hm ⊢
    rcases List.mem_append.mp hm with hm | hm
    · obtain ⟨hrec, hread⟩ := hx.shared t hm ht
      refine ⟨?_, hread⟩
      split_ifs with ho
      · rw [hr t.handle.record (ho ▸ hrec)]
        rfl
      · exact hrec
    · rw [List.mem_singleton.mp hm]
      exact ⟨by simp, hs⟩
  · intro t hm
    rcases List.mem_append.mp hm with hm | hm
    · exact hx.fresh t hm
    · rw [List.mem_singleton.mp hm]
      exact hf

theorem take (hx : x.Exact) (hs : x.users.slots.get? id = some slot) :
    (x.give (x.users.setSlot id (some { slot with refs := slot.refs + 1 }))
      ⟨id, slot.record⟩).Exact := by
  obtain ⟨hread, hfresh⟩ := hx.registered hs
  refine hx.give ?_ ?_ hread hfresh
  · rw [hx.counted, hx.live_eq hs]
  · intro other ho
    simpa [Users.recordOf?, hs, eq_comm] using ho

theorem getOrCreate (hx : x.Exact) (id : Snowflake) (make : Unit → α) :
    (x.give (x.users.getOrCreate id make).users (x.users.getOrCreate id make).handle).Exact := by
  cases hs : x.users.slots.get? id with
  | some slot =>
    rw [Users.getOrCreate_of_some _ hs]
    exact hx.take hs
  | none =>
    rw [Users.getOrCreate_of_none _ hs]
    have hstored : Exact { x with users := { x.users with
        records := x.users.records.insert x.users.nextRecord (make ())
        nextRecord := x.users.nextRecord + 1 } } := by
      apply hx.store
      · intro n hn
        rw [Table.get?_insert]
        split_ifs
        · rfl
        · exact hn
      · exact Nat.le_succ _
    refine hstored.give ?_ ?_ ?_ (Nat.lt_succ_self _)
    · simp [Users.refCount, hs]
    · intro other ho
      simp [Users.recordOf?, hs] at ho
    · simp

/-- A handle is given back. While others of its id are held, the slot stays. -/
theorem release (hx : x.Exact) (hn : x.given[number]? = some ⟨h, .held⟩) {status : Status}
    (hst : status ≠ .held) :
    Exact ⟨(x.users.release h).1, x.given.set number ⟨h, status⟩⟩ := by
  obtain ⟨slot, hs, hrec⟩ := hx.slot_of_held hn
  have hlive := hx.live_eq hs
  have hset := live_set (x.users.release h).1 hst hn
  simp only [true_and] at hset
  have hgiven (t : Token) (hm : t ∈ x.given.set number ⟨h, status⟩) :
      t ∈ x.given ∨ t = ⟨h, status⟩ := List.mem_or_eq_of_mem_set hm
  rw [Users.release_of_some _ hs] at hset ⊢
  refine ⟨?_, ?_, ?_, ?_⟩
  · intro other
    rw [hset, Users.refCount_setSlot, ← hx.counted]
    split_ifs with ho h1
    · rw [← ho, hx.counted, hlive]
      exact (Nat.sub_eq_zero_of_le h1).symm
    · rw [← ho, hx.counted, hlive]
      rfl
    · rfl
  · intro other
    rw [hset, Users.contains_setSlot]
    split_ifs with ho h1
    · rw [← ho, hlive]
      simp
      omega
    · rw [← ho, hlive]
      simp
      omega
    · exact hx.present other
  · intro t hm ht
    have hpos : 0 < live ⟨_, x.given.set number ⟨h, status⟩⟩ t.handle.id :=
      List.countP_pos_iff.mpr ⟨t, hm, by simp [ht]⟩
    rw [hset] at hpos
    rcases hgiven t hm with hm | rfl
    · obtain ⟨hr, hread⟩ := hx.shared t hm ht
      refine ⟨?_, hread⟩
      rw [Users.recordOf?_setSlot]
      split_ifs with ho h1
      · rw [← ho, hlive, if_pos rfl] at hpos
        omega
      · rw [← hr, ← ho, Users.recordOf?, hs]
        rfl
      · exact hr
    · exact absurd ht hst
  · intro t hm
    rcases hgiven t hm with hm | rfl
    · exact hx.fresh t hm
    · have hf := hx.fresh _ (List.mem_of_getElem? hn)
      exact hf

theorem drop (hx : x.Exact) {t : Token} (hn : x.given[number]? = some t) (ht : t.status ≠ .held) :
    Exact { x with given := x.given.set number { t with status := .dropped } } := by
  have hset := live_set x.users (show Status.dropped ≠ .held by decide) hn
  simp only [ht, false_and, if_false, Nat.sub_zero] at hset
  refine ⟨?_, ?_, ?_, ?_⟩
  · intro other
    rw [hset]
    exact hx.counted other
  · intro other
    rw [hset]
    exact hx.present other
  · intro other hm ho
    rcases List.mem_or_eq_of_mem_set hm with hm | rfl
    · exact hx.shared other hm ho
    · simp at ho
  · intro other hm
    rcases List.mem_or_eq_of_mem_set hm with hm | rfl
    · exact hx.fresh other hm
    · have hf := hx.fresh t (List.mem_of_getElem? hn)
      exact hf

theorem modify (hx : x.Exact) (record : Nat) (f : α → α) :
    Exact { x with users := { x.users with records := x.users.records.modify record f } } := by
  refine hx.store ?_ (Nat.le_refl _)
  intro n hn
  unfold Table.modify
  split
  · rw [Table.get?_insert]
    split_ifs
    · rfl
    · exact hn
  · exact hn

theorem step (hx : x.Exact) (act : Act α) : (x.step act).1.Exact := by
  unfold Holders.step
  cases act with
  | getOrCreate id make => exact hx.getOrCreate id make
  | get id =>
    dsimp only
    rw [Users.get?_eq]
    cases hs : x.users.slots.get? id with
    | some slot => exact hx.take hs
    | none => exact hx
  | clone number =>
    dsimp only
    cases hh : x.held? number with
    | some h =>
      obtain ⟨id, record⟩ := h
      obtain ⟨slot, hs, rfl⟩ := hx.slot_of_held (held?_eq_some.mp hh)
      dsimp only
      rw [Users.clone_of_some _ hs]
      exact hx.take hs
    | none => exact hx
  | release number =>
    dsimp only
    cases hh : x.held? number with
    | some h => exact hx.release (held?_eq_some.mp hh) (by decide)
    | none => exact hx
  | drop number =>
    dsimp only
    cases hn : x.given[number]? with
    | some t =>
      dsimp only
      split_ifs with ht
      · obtain ⟨h, status⟩ := t
        subst ht
        exact hx.release hn (by decide)
      · exact hx.drop hn ht
    | none => exact hx
  | write number f =>
    dsimp only
    cases x.held? number with
    | some h => exact hx.modify h.record f
    | none => exact hx
  | update id f =>
    simp only [Users.update]
    cases x.users.slots.get? id with
    | some slot => exact hx.modify slot.record f
    | none => exact hx

theorem create : (create : Holders α).Exact where
  counted _ := rfl
  present id := by simp [Holders.create, Holders.live, Users.contains, Users.empty, Table.contains,
    Table.get?, Table.empty, Table.lookup]
  shared _ hm := absurd hm List.not_mem_nil
  fresh _ hm := absurd hm List.not_mem_nil

theorem run (hx : x.Exact) (acts : List (Act α)) : (x.run acts).Exact := by
  induction acts generalizing x with
  | nil => exact hx
  | cons act acts ih => exact ih (hx.step act)

end Exact

variable {id : Snowflake}

theorem live_pos_of_held (hh : x.held? number = some h) : 0 < x.live h.id :=
  List.countP_pos_iff.mpr ⟨_, List.mem_of_getElem? (held?_eq_some.mp hh), by simp⟩

/-- A handle that is given back was the last one of its id if none of them is held any more. -/
theorem release_last_iff (hx : x.Exact) (hh : x.held? number = some h) :
    (x.users.release h).2 = true ↔
      live ⟨(x.users.release h).1, x.given.set number ⟨h, .released⟩⟩ h.id = 0 := by
  have hn := held?_eq_some.mp hh
  obtain ⟨slot, hs, -⟩ := hx.slot_of_held hn
  have hset := live_set (x.users.release h).1 (show Status.released ≠ .held by decide) hn h.id
  rw [hset, hx.live_eq hs, Users.release_of_some _ hs]
  simp
  omega

theorem created_iff (hx : x.Exact) (id : Snowflake) (make : Unit → α) :
    (x.users.getOrCreate id make).created = true ↔ x.live id = 0 := by
  cases hs : x.users.slots.get? id with
  | some slot =>
    have hpos := hx.live_pos hs
    rw [Users.getOrCreate_of_some _ hs]
    simp
    omega
  | none =>
    rw [Users.getOrCreate_of_none _ hs]
    simp [hx.live_eq_zero hs]

/-- Only a release tells whether a handle was the last one, and it tells the truth. -/
theorem answer_released_iff (hx : x.Exact) (act : Act α) :
    (x.step act).2 = .released true ↔
      ∃ number h, act = .release number ∧ x.held? number = some h ∧
        (x.step act).1.live h.id = 0 := by
  cases act with
  | release number =>
    cases hh : x.held? number with
    | some h =>
      have hlast := release_last_iff hx hh
      simp [step, hh, hlast]
    | none => simp [step, hh]
  | getOrCreate id make => simp [step]
  | get id => cases hg : x.users.get? id <;> simp [step, hg]
  | clone number => cases hh : x.held? number <;> simp [step, hh]
  | drop number => cases hn : x.given[number]? <;> simp [step, hn]
  | write number f => cases hh : x.held? number <;> simp [step, hh]
  | update id f => simp [step]

theorem rises_give_iff (x : Holders α) (users : Users α) (h : Handle) (id : Snowflake) :
    x.live id = 0 ∧ (x.give users h).live id = 1 ↔ h.id = id ∧ x.live h.id = 0 := by
  rw [live_give]
  by_cases hid : h.id = id
  · simp [hid]
  · rw [if_neg hid]
    constructor
    · intro hl
      omega
    · rintro ⟨hid', -⟩
      exact absurd hid' hid

/-- A count leaves zero only by a record that is made for it. -/
theorem answer_created_iff (hx : x.Exact) (act : Act α) (id : Snowflake) :
    x.live id = 0 ∧ (x.step act).1.live id = 1 ↔
      (∃ make, act = .getOrCreate id make) ∧ (x.step act).2 = .took true := by
  have hstay {y : Holders α} (hy : y.live id ≤ x.live id) : ¬ (x.live id = 0 ∧ y.live id = 1) := by
    omega
  have hset (number : Nat) (t : Token) (users : Users α) (status : Status)
      (hn : x.given[number]? = some t) (hs : status ≠ .held) :
      live ⟨users, x.given.set number { t with status }⟩ id ≤ x.live id := by
    rw [live_set users hs hn]
    exact Nat.sub_le _ _
  cases act with
  | getOrCreate other make =>
    have hc := created_iff hx other make
    have hid := x.users.id_getOrCreate other make
    have hr := rises_give_iff x (x.users.getOrCreate other make).users
      (x.users.getOrCreate other make).handle id
    simp only [hid] at hr
    simp only [step, hr, Act.getOrCreate.injEq, Answer.took.injEq, hc]
    constructor
    · rintro ⟨rfl, hl⟩
      exact ⟨⟨make, rfl, rfl⟩, hl⟩
    · rintro ⟨⟨_, rfl, rfl⟩, hl⟩
      exact ⟨rfl, hl⟩
  | get other =>
    cases hs : x.users.slots.get? other with
    | some slot =>
      have hr := rises_give_iff x (x.users.setSlot other
        (some { slot with refs := slot.refs + 1 })) ⟨other, slot.record⟩ id
      have hpos := hx.live_pos hs
      simp only [step, Users.get?_eq, hs, Option.map_some, hr]
      simp
      omega
    | none => simpa [step, Users.get?_eq, hs] using hstay (Nat.le_refl _)
  | clone number =>
    cases hh : x.held? number with
    | some h =>
      have hr := rises_give_iff x (x.users.clone h).1 h id
      have hpos := live_pos_of_held hh
      simp only [step, hh, Users.clone_snd, hr]
      simp
      omega
    | none => simpa [step, hh] using hstay (Nat.le_refl _)
  | release number =>
    cases hh : x.held? number with
    | some h =>
      have hy := hset number _ (x.users.release h).1 .released (held?_eq_some.mp hh) (by decide)
      simpa [step, hh] using hstay hy
    | none => simpa [step, hh] using hstay (Nat.le_refl _)
  | drop number =>
    cases hn : x.given[number]? with
    | some t =>
      have hy := hset number t (if t.status = .held then (x.users.release t.handle).1 else x.users)
        .dropped hn (by decide)
      simpa [step, hn] using hstay hy
    | none => simpa [step, hn] using hstay (Nat.le_refl _)
  | write number f =>
    have hy : (x.step (.write number f)).1.live id ≤ x.live id := by
      cases hh : x.held? number <;> simp [step, hh, live]
    simpa using hstay hy
  | update other f =>
    have hy : (x.step (.update other f)).1.live id ≤ x.live id := Nat.le_refl _
    simpa using hstay hy

/-- Whatever the holders have done: the registry counts the handles that are held and all of them
share its record; a release answers true exactly if no handle is left; and a record is made exactly
when a count rises from zero, under a number of its own. -/
theorem counts_are_exact (acts : List (Act α)) (act : Act α) :
    let x := (create : Holders α).run acts
    let y := x.step act
    x.Exact ∧
      (y.2 = .released true ↔
        ∃ number h, act = .release number ∧ x.held? number = some h ∧ y.1.live h.id = 0) ∧
      (∀ id, x.live id = 0 ∧ y.1.live id = 1 ↔
        (∃ make, act = .getOrCreate id make) ∧ y.2 = .took true) ∧
      ∀ id make,
        let taken := x.users.getOrCreate id make
        taken.handle.id = id ∧
          if taken.created then
            taken.users.read? taken.handle = some (make ()) ∧
              ∀ t ∈ x.given, t.handle.record ≠ taken.handle.record
          else
            x.users.recordOf? id = some taken.handle.record ∧
              taken.users.records = x.users.records := by
  have hx := Exact.run (Exact.create (α := α)) acts
  intro x y
  refine ⟨hx, answer_released_iff hx act, answer_created_iff hx act, ?_⟩
  intro id make
  refine ⟨x.users.id_getOrCreate id make, ?_⟩
  cases hs : x.users.slots.get? id with
  | some slot =>
    rw [Users.getOrCreate_of_some _ hs]
    simp [Users.recordOf?, hs, Users.setSlot]
  | none =>
    rw [Users.getOrCreate_of_none _ hs]
    refine ⟨Table.get?_insert_self _ _ _, ?_⟩
    intro t hm
    exact Nat.ne_of_lt (hx.fresh t hm)

end Holders

end Parley.Cache
