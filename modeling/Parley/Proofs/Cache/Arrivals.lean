import Mathlib.Tactic.SplitIfs
import Parley.Cache.Messages

/-! A cache of messages against the list of its messages in order of arrival. The order of the cache
also holds what removed messages have left behind; the arrivals in it that are live are the entries,
each of them once and in their order. -/
namespace Parley.Cache

variable {α : Type}

structure Message (α : Type) where
  id : Snowflake
  timestamp : Timestamp
  value : α
deriving DecidableEq

/-- Messages in order of arrival, the earliest first. -/
abbrev Arrivals (α : Type) := List (Message α)

inductive Op (α : Type) where
  | add (id : Snowflake) (timestamp : Timestamp) (value : α)
  | replace (id : Snowflake) (value : α)
  | remove (id : Snowflake)
  | get (id : Snowflake)
  | getEntry (id : Snowflake)
  | getMany (before : Option Snowflake) (limit : Nat)
  | clear

inductive Answer (α : Type) where
  /-- Whether the message was taken, and the values that it pushed out. -/
  | added (taken : Bool) (evicted : List α)
  | value (found : Option α)
  | message (found : Option (Message α))
  | page (messages : List (Message α))
  | cleared

def answers {σ : Type} (perform : σ → Op α → σ × Answer α) (s : σ) : List (Op α) → List (Answer α)
  | [] => []
  | op :: ops => (perform s op).2 :: answers perform (perform s op).1 ops

def final {σ : Type} (perform : σ → Op α → σ × Answer α) (s : σ) (ops : List (Op α)) : σ :=
  ops.foldl (fun s op => (perform s op).1) s

theorem final_concat {σ : Type} (perform : σ → Op α → σ × Answer α) (s : σ) (ops : List (Op α))
    (op : Op α) : final perform s (ops ++ [op]) = (perform (final perform s ops) op).1 :=
  List.foldl_append

namespace Arrivals

def message? (l : Arrivals α) (id : Snowflake) : Option (Message α) := l.find? fun m => m.id = id

def value? (l : Arrivals α) (id : Snowflake) : Option α := (message? l id).map Message.value

/-- Drops messages from the front while more than `capacity` are left. Also returns the values
dropped. -/
def trim (capacity : Nat) : Arrivals α → Arrivals α × List α
  | [] => ([], [])
  | m :: rest =>
    if (m :: rest).length ≤ capacity then (m :: rest, [])
    else
      let (kept, gone) := trim capacity rest
      (kept, m.value :: gone)

theorem trim_of_le {capacity : Nat} {l : Arrivals α} (h : l.length ≤ capacity) :
    trim capacity l = (l, []) := by
  cases l with
  | nil => rfl
  | cons m rest => simp only [trim, if_pos h]

theorem trim_of_not_le {capacity : Nat} {m : Message α} {rest : Arrivals α}
    (h : ¬ (m :: rest).length ≤ capacity) :
    trim capacity (m :: rest) =
      ((trim capacity rest).1, m.value :: (trim capacity rest).2) := by
  simp only [trim, if_neg h]

theorem length_trim_le (capacity : Nat) (l : Arrivals α) :
    (trim capacity l).1.length ≤ capacity := by
  induction l with
  | nil => exact Nat.zero_le capacity
  | cons m rest ih =>
    by_cases h : (m :: rest).length ≤ capacity
    · rw [trim_of_le h]
      exact h
    · rw [trim_of_not_le h]
      exact ih

theorem trim_arrival {capacity : Nat} {l : Arrivals α} (h : l.length ≤ capacity)
    (hz : capacity ≠ 0) (m : Message α) :
    (trim capacity (l ++ [m])).2 =
      if l.length = capacity then (l.head?.map Message.value).toList else [] := by
  by_cases hfull : l.length = capacity
  · cases l with
    | nil => exact absurd hfull.symm hz
    | cons first rest =>
      have hlen : (rest ++ [m]).length = capacity := by simpa using hfull
      have hmore : ¬ (first :: (rest ++ [m])).length ≤ capacity := by
        rw [List.length_cons]
        omega
      rw [if_pos hfull, List.cons_append, trim_of_not_le hmore, trim_of_le (Nat.le_of_eq hlen)]
      rfl
  · have hlen : (l ++ [m]).length ≤ capacity := by
      rw [List.length_append, List.length_singleton]
      omega
    rw [if_neg hfull, trim_of_le hlen]

def perform (capacity : Nat) (l : Arrivals α) : Op α → Arrivals α × Answer α
  | .add id timestamp value =>
    if capacity = 0 ∨ (message? l id).isSome then (l, .added false [])
    else
      let (kept, gone) := trim capacity (l ++ [⟨id, timestamp, value⟩])
      (kept, .added true gone)
  | .replace id value =>
    (l.map fun m => if m.id = id then { m with value } else m, .value (value? l id))
  | .remove id => (l.filter fun m => m.id ≠ id, .value (value? l id))
  | .get id => (l, .value (value? l id))
  | .getEntry id => (l, .message (message? l id))
  | .getMany before limit =>
    let matching := l.filter fun m =>
      match before with
      | some cursor => m.id < cursor
      | none => true
    (l, .page ((matching.mergeSort fun a b => b.id ≤ a.id).take limit))
  | .clear => ([], .cleared)

end Arrivals

namespace Messages

def reading (e : Snowflake × Entry α) : Message α := ⟨e.1, e.2.timestamp, e.2.value⟩

def arrivals (c : Messages α) : Arrivals α := c.entries.entries.map reading

def perform (c : Messages α) : Op α → Messages α × Answer α
  | .add id timestamp value =>
    let added := c.add id timestamp value
    (added.cache, .added added.taken added.evicted)
  | .replace id value =>
    let (c, former) := c.replace id value
    (c, .value former)
  | .remove id =>
    let (c, removed) := c.remove id
    (c, .value removed)
  | .get id => (c, .value (c.get? id))
  | .getEntry id => (c, .message ((c.getEntry? id).map fun e => reading (id, e)))
  | .getMany before limit => (c, .page ((c.getMany before limit).map reading))
  | .clear => (c.clear, .cleared)

def place (e : Snowflake × Entry α) : Snowflake × Nat := (e.1, e.2.arrival)

/-- The live arrivals of an order are the entries, each of them once and in their order. -/
structure InLine (entries : Table Snowflake (Entry α)) (order : List (Snowflake × Nat)) : Prop where
  distinct : entries.Distinct
  live : order.filter (isLive entries) = entries.entries.map place

variable {entries : Table Snowflake (Entry α)} {order : List (Snowflake × Nat)}
  {first : Snowflake × Nat}

theorem isLive_erase (entries : Table Snowflake (Entry α)) (id : Snowflake)
    (p : Snowflake × Nat) :
    isLive (entries.erase id) p = (isLive entries p && decide (p.1 ≠ id)) := by
  unfold isLive
  rw [Table.get?_erase]
  by_cases hid : id = p.1
  · simp [hid]
  · simp [hid, Ne.symm hid]

theorem entries_replace (hd : entries.Distinct) {id : Snowflake} {e : Entry α}
    (hg : entries.get? id = some e) (value : α) :
    (entries.insert id { e with value }).entries =
      entries.entries.map fun x => if x.1 = id then (x.1, { x.2 with value }) else x := by
  rw [Table.entries_insert_of_some hd hg]
  apply List.map_congr_left
  rintro ⟨k, old⟩ hx
  dsimp only
  split_ifs with hid
  · have he := Table.get?_of_mem hd hx
    rw [hid, hg, Option.some.injEq] at he
    rw [he, hid]
  · rfl

namespace InLine

theorem erase (h : InLine entries order) (id : Snowflake) : InLine (entries.erase id) order := by
  refine ⟨h.distinct.erase id, ?_⟩
  have he : isLive (entries.erase id) = fun p => decide (p.1 ≠ id) && isLive entries p := by
    funext p
    rw [isLive_erase, Bool.and_comm]
  rw [he, ← List.filter_filter, h.live, List.filter_map]
  rfl

theorem tail (h : InLine entries (first :: order)) (hd : isLive entries first = false) :
    InLine entries order := by
  refine ⟨h.distinct, ?_⟩
  rw [← h.live, List.filter_cons_of_neg (by simp [hd])]

theorem head (h : InLine entries (first :: order)) (hl : isLive entries first = true) :
    ∃ e, entries.entries = (first.1, e) :: (entries.erase first.1).entries ∧
      entries.get? first.1 = some e ∧ e.arrival = first.2 := by
  have hlive := h.live
  rw [List.filter_cons_of_pos hl] at hlive
  obtain ⟨⟨id, e⟩, rest, he, rfl, -⟩ := List.map_eq_cons_iff.mp hlive.symm
  refine ⟨e, ?_, Table.get?_of_mem h.distinct (by simp [he, place]), rfl⟩
  rw [he]
  exact congrArg _ (Table.entries_erase_first h.distinct he).symm

theorem erase_first (h : InLine entries (first :: order)) :
    InLine (entries.erase first.1) order := by
  refine (h.erase first.1).tail ?_
  rw [isLive_erase]
  simp

theorem compact (h : InLine entries order) : InLine entries (order.filter (isLive entries)) := by
  refine ⟨h.distinct, ?_⟩
  rw [List.filter_filter, ← h.live]
  simp

/-- A new id comes last, under a number that nothing in the order has. -/
theorem insert (h : InLine entries order) {id : Snowflake} (hn : entries.get? id = none)
    (e : Entry α) (hf : ∀ p ∈ order, p.2 < e.arrival) :
    InLine (entries.insert id e) (order ++ [(id, e.arrival)]) := by
  refine ⟨h.distinct.insert id e, ?_⟩
  have hold : order.filter (isLive (entries.insert id e)) = order.filter (isLive entries) := by
    apply List.filter_congr
    intro p hp
    unfold isLive
    rw [Table.get?_insert]
    split_ifs with hid
    · have hne : e.arrival ≠ p.2 := Nat.ne_of_gt (hf p hp)
      simp [← hid, hn, hne]
    · rfl
  have hnew : isLive (entries.insert id e) (id, e.arrival) = true := by simp [isLive]
  rw [List.filter_append, hold, h.live, List.filter_cons_of_pos hnew,
    Table.entries_insert_of_none hn, List.map_append]
  rfl

theorem replace (h : InLine entries order) {id : Snowflake} {e : Entry α}
    (hg : entries.get? id = some e) (value : α) :
    InLine (entries.insert id { e with value }) order := by
  refine ⟨h.distinct.insert id _, ?_⟩
  have hlive : isLive (entries.insert id { e with value }) = isLive entries := by
    funext p
    unfold isLive
    rw [Table.get?_insert]
    split_ifs with hid
    · simp [← hid, hg]
    · rfl
  rw [hlive, h.live, entries_replace h.distinct hg, List.map_map]
  apply List.map_congr_left
  intro x _
  simp only [Function.comp_apply]
  split_ifs <;> rfl

end InLine

theorem evict_of_live {capacity : Nat} {e : Entry α} (hs : ¬ entries.size ≤ capacity)
    (hg : entries.get? first.1 = some e) (ha : e.arrival = first.2) :
    evict capacity entries (first :: order) =
      ((evict capacity (entries.erase first.1) order).1,
        (evict capacity (entries.erase first.1) order).2.1,
        e.value :: (evict capacity (entries.erase first.1) order).2.2) := by
  simp [evict, hs, hg, ha]

theorem evict_of_not_live {capacity : Nat} (hs : ¬ entries.size ≤ capacity)
    (hl : isLive entries first = false) :
    evict capacity entries (first :: order) = evict capacity entries order := by
  unfold isLive at hl
  cases hg : entries.get? first.1 with
  | none => simp [evict, hs, hg]
  | some e =>
    have hne : e.arrival ≠ first.2 := by simpa [hg] using hl
    simp [evict, hs, hg, hne]

theorem evict_eq_trim (capacity : Nat) (h : InLine entries order) :
    let r := evict capacity entries order
    let t := Arrivals.trim capacity (entries.entries.map reading)
    InLine r.1 r.2.1 ∧ (∀ p ∈ r.2.1, p ∈ order) ∧ r.1.entries.map reading = t.1 ∧ r.2.2 = t.2 := by
  induction order generalizing entries with
  | nil =>
    have he : entries.entries = [] := by simpa using h.live.symm
    simp [evict, he, Arrivals.trim, h]
  | cons first order ih =>
    by_cases hsize : entries.size ≤ capacity
    · have hlen : (entries.entries.map reading).length ≤ capacity := by
        rw [List.length_map]
        exact hsize
      simp [evict, hsize, Arrivals.trim_of_le hlen, h]
    · have hlen : ¬ (entries.entries.map reading).length ≤ capacity := by
        rw [List.length_map]
        exact hsize
      cases hl : isLive entries first with
      | true =>
        obtain ⟨e, he, hg, ha⟩ := h.head hl
        obtain ⟨hline, hsub, hkept, hgone⟩ := ih h.erase_first
        rw [he, List.map_cons] at hlen ⊢
        rw [evict_of_live hsize hg ha, Arrivals.trim_of_not_le hlen]
        exact ⟨hline, fun p hp => List.mem_cons_of_mem _ (hsub p hp), hkept, by rw [hgone]; rfl⟩
      | false =>
        obtain ⟨hline, hsub, heq⟩ := ih (h.tail hl)
        rw [evict_of_not_live hsize hl]
        exact ⟨hline, fun p hp => List.mem_cons_of_mem _ (hsub p hp), heq⟩

/-- An insertion changes nothing, or the id is new and its arrival comes last. -/
theorem cache_add (c : Messages α) (id : Snowflake) (timestamp : Timestamp) (value : α) :
    (c.add id timestamp value).cache = c ∨ c.entries.get? id = none ∧
      let r := evict c.capacity (c.entries.insert id ⟨timestamp, value, c.nextArrival⟩)
        (c.order ++ [(id, c.nextArrival)])
      (c.add id timestamp value).cache =
        { c with entries := r.1, order := r.2.1, nextArrival := c.nextArrival + 1 } := by
  unfold add
  split_ifs with hz hc
  · exact Or.inl rfl
  · exact Or.inl rfl
  · exact Or.inr ⟨by simpa [contains, Table.contains] using hc, rfl⟩

theorem message?_arrivals (c : Messages α) (id : Snowflake) :
    Arrivals.message? c.arrivals id = (c.getEntry? id).map fun e => reading (id, e) := by
  unfold Arrivals.message? arrivals getEntry?
  rw [Table.get?_eq_find?, List.find?_map]
  change Option.map reading (c.entries.entries.find? fun e => e.1 = id) = _
  cases hf : c.entries.entries.find? fun e => e.1 = id with
  | none => rfl
  | some x =>
    obtain ⟨k, e⟩ := x
    have hk : k = id := by simpa using List.find?_some hf
    simp [hk]

theorem value?_arrivals (c : Messages α) (id : Snowflake) :
    Arrivals.value? c.arrivals id = c.get? id := by
  unfold Arrivals.value?
  rw [message?_arrivals, Option.map_map]
  rfl

theorem getMany_arrivals (c : Messages α) (capacity : Nat) (before : Option Snowflake)
    (limit : Nat) :
    (Arrivals.perform capacity c.arrivals (.getMany before limit)).2 =
      .page ((c.getMany before limit).map reading) := by
  simp only [Arrivals.perform, getMany, newestFirst, arrivals, List.map_take, List.filter_map]
  rw [List.map_mergeSort]
  · rfl
  · intro a _ b _
    rfl

theorem reading_replace (hd : entries.Distinct) {id : Snowflake} {e : Entry α}
    (hg : entries.get? id = some e) (value : α) :
    (entries.insert id { e with value }).entries.map reading =
      (entries.entries.map reading).map fun m => if m.id = id then { m with value } else m := by
  rw [entries_replace hd hg, List.map_map, List.map_map]
  apply List.map_congr_left
  intro x _
  simp only [Function.comp_apply, reading]
  split_ifs with hid
  · exact (if_pos hid).symm
  · exact (if_neg hid).symm

structure Mirrors (capacity : Nat) (c : Messages α) (l : Arrivals α) : Prop where
  capacity_eq : c.capacity = capacity
  arrivals_eq : c.arrivals = l
  inLine : InLine c.entries c.order
  fresh : ∀ p ∈ c.order, p.2 < c.nextArrival
  bounded : l.length ≤ capacity

namespace Mirrors

variable {capacity : Nat} {c : Messages α} {l : Arrivals α}

theorem size_eq (h : Mirrors capacity c l) : c.size = l.length := by
  rw [← h.arrivals_eq, arrivals, List.length_map]
  rfl

theorem message? (h : Mirrors capacity c l) (id : Snowflake) :
    Arrivals.message? l id = (c.getEntry? id).map fun e => reading (id, e) :=
  h.arrivals_eq ▸ message?_arrivals c id

theorem value? (h : Mirrors capacity c l) (id : Snowflake) : Arrivals.value? l id = c.get? id :=
  h.arrivals_eq ▸ value?_arrivals c id

/-- One operation on both: the same answer, and the cache goes on mirroring the list. -/
def Agrees (capacity : Nat) (c : Messages α) (l : Arrivals α) (op : Op α) : Prop :=
  (c.perform op).2 = (Arrivals.perform capacity l op).2 ∧
    Mirrors capacity (c.perform op).1 (Arrivals.perform capacity l op).1

theorem add (h : Mirrors capacity c l) (id : Snowflake) (timestamp : Timestamp) (value : α) :
    Agrees capacity c l (.add id timestamp value) := by
  unfold Agrees
  simp only [perform, Messages.add, h.capacity_eq, Arrivals.perform, h.message? id]
  have hcontains : c.contains id = (c.getEntry? id).isSome := rfl
  by_cases hz : capacity = 0
  · simp only [hz, if_true, true_or]
    exact ⟨trivial, hz ▸ h⟩
  · cases hg : c.getEntry? id with
    | some e =>
      simp only [hz, hcontains, hg, if_false]
      exact ⟨rfl, h⟩
    | none =>
      have hline := h.inLine.insert hg ⟨timestamp, value, c.nextArrival⟩ h.fresh
      obtain ⟨hkept, hsub, harr, hgone⟩ := evict_eq_trim capacity hline
      have harrivals : (c.entries.insert id ⟨timestamp, value, c.nextArrival⟩).entries.map reading =
          l ++ [⟨id, timestamp, value⟩] := by
        rw [Table.entries_insert_of_none hg, List.map_append, ← h.arrivals_eq]
        rfl
      rw [harrivals] at harr hgone
      simp only [hz, hcontains, hg, if_false, Option.map_none, Option.isSome_none, or_self,
        Bool.false_eq_true]
      refine ⟨by rw [hgone], rfl, harr, hkept, ?_, Arrivals.length_trim_le _ _⟩
      intro p hp
      rcases List.mem_append.mp (hsub p hp) with hp | hp
      · exact Nat.lt_succ_of_lt (h.fresh p hp)
      · rw [List.mem_singleton.mp hp]
        exact Nat.lt_succ_self _

theorem replace (h : Mirrors capacity c l) (id : Snowflake) (value : α) :
    Agrees capacity c l (.replace id value) := by
  unfold Agrees
  simp only [perform, Messages.replace, Arrivals.perform, h.value? id, get?]
  cases hg : c.getEntry? id with
  | some e =>
    refine ⟨rfl, h.capacity_eq, ?_, h.inLine.replace hg value, h.fresh, by simpa using h.bounded⟩
    rw [← h.arrivals_eq]
    exact reading_replace h.inLine.distinct hg value
  | none =>
    have hnone : Arrivals.message? l id = none := by rw [h.message?, hg, Option.map_none]
    have hl : (l.map fun m => if m.id = id then { m with value } else m) = l := by
      refine (List.map_congr_left ?_).trans (List.map_id l)
      intro m hm
      have hne : m.id ≠ id := by simpa using List.find?_eq_none.mp hnone m hm
      exact if_neg hne
    rw [hl]
    exact ⟨rfl, h⟩

theorem remove (h : Mirrors capacity c l) (id : Snowflake) :
    Agrees capacity c l (.remove id) := by
  have hline := h.inLine.erase id
  refine ⟨congrArg _ (h.value? id).symm, h.capacity_eq, ?_, ?_, ?_, ?_⟩
  · simp only [perform, Messages.remove, arrivals, Arrivals.perform, ← h.arrivals_eq, Table.erase,
      List.filter_map]
    rfl
  · simp only [perform, Messages.remove]
    split_ifs
    · exact hline.compact
    · exact hline
  · simp only [perform, Messages.remove]
    split_ifs
    · intro p hp
      exact h.fresh p (List.mem_filter.mp hp).1
    · exact h.fresh
  · exact Nat.le_trans (List.length_filter_le _ _) h.bounded

theorem clear (h : Mirrors capacity c l) : Agrees capacity c l .clear :=
  ⟨rfl, h.capacity_eq, rfl, ⟨Table.distinct_empty, rfl⟩, fun _ hp => absurd hp List.not_mem_nil,
    Nat.zero_le _⟩

theorem step (h : Mirrors capacity c l) (op : Op α) : Agrees capacity c l op := by
  cases op with
  | add id timestamp value => exact h.add id timestamp value
  | replace id value => exact h.replace id value
  | remove id => exact h.remove id
  | get id => exact ⟨congrArg _ (h.value? id).symm, h⟩
  | getEntry id => exact ⟨congrArg _ (h.message? id).symm, h⟩
  | getMany before limit =>
    refine ⟨?_, h⟩
    rw [← h.arrivals_eq, getMany_arrivals]
    rfl
  | clear => exact h.clear

end Mirrors

theorem mirrors_create (capacity : Nat) :
    Mirrors capacity (create capacity : Messages α) [] where
  capacity_eq := rfl
  arrivals_eq := rfl
  inLine := ⟨Table.distinct_empty, rfl⟩
  fresh _ hp := absurd hp List.not_mem_nil
  bounded := Nat.zero_le capacity

theorem Mirrors.run {capacity : Nat} {c : Messages α} {l : Arrivals α} (h : Mirrors capacity c l)
    (ops : List (Op α)) :
    answers perform c ops = answers (Arrivals.perform capacity) l ops ∧
      Mirrors capacity (final perform c ops) (final (Arrivals.perform capacity) l ops) := by
  induction ops generalizing c l with
  | nil => exact ⟨rfl, h⟩
  | cons op ops ih =>
    obtain ⟨ha, hm⟩ := h.step op
    obtain ⟨hrest, hlast⟩ := ih hm
    refine ⟨?_, hlast⟩
    rw [answers, answers, ha, hrest]

theorem Mirrors.evicted_add {capacity : Nat} {c : Messages α} {l : Arrivals α}
    (h : Mirrors capacity c l) (id : Snowflake) (timestamp : Timestamp) (value : α) :
    (c.add id timestamp value).evicted =
      if (c.add id timestamp value).taken ∧ c.size = capacity then
        (l.head?.map Message.value).toList
      else [] := by
  have ha := (h.add id timestamp value).1
  simp only [perform, Arrivals.perform] at ha
  by_cases hn : capacity = 0 ∨ (Arrivals.message? l id).isSome = true
  · rw [if_pos hn] at ha
    obtain ⟨ht, he⟩ := Answer.added.inj ha
    simp [ht, he]
  · rw [if_neg hn] at ha
    obtain ⟨ht, he⟩ := Answer.added.inj ha
    rw [he, ht, h.size_eq, Arrivals.trim_arrival h.bounded fun hz => hn (Or.inl hz)]
    simp

/-- A cache answers whatever the list of its messages in order of arrival answers, and holds that
list. It never holds more than its capacity, and a message that arrives pushes out the earliest one
if the cache is full. -/
theorem answers_like_arrivals (capacity : Nat) (ops : List (Op α)) :
    let c := final perform (create capacity : Messages α) ops
    let l := final (Arrivals.perform capacity) [] ops
    answers perform (create capacity : Messages α) ops =
        answers (Arrivals.perform capacity) [] ops ∧
      c.arrivals = l ∧ c.size ≤ capacity ∧
      ∀ id timestamp value,
        (c.add id timestamp value).evicted =
          if (c.add id timestamp value).taken ∧ c.size = capacity then
            (l.head?.map Message.value).toList
          else [] := by
  obtain ⟨hanswers, hm⟩ := (mirrors_create capacity).run ops
  intro c l
  refine ⟨hanswers, hm.arrivals_eq, ?_, hm.evicted_add⟩
  have hlen := hm.bounded
  rw [← hm.arrivals_eq, arrivals, List.length_map] at hlen
  exact hlen

end Messages

end Parley.Cache
