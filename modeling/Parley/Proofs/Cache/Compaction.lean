import Mathlib.Data.List.Induction
import Parley.Proofs.Cache.Arrivals

/-! How long the order of a cache of messages gets. Its arrivals are those of the entries and those
that removals have left behind. An insertion adds an arrival and an entry, an eviction takes off as
many arrivals as entries or more, and a removal that finds the order too long drops all that is left
behind; so the order exceeds the length that removals allow by the entries at most. -/
namespace Parley.Cache.Messages

variable {α : Type} {c : Messages α} {entries : Table Snowflake (Entry α)}
  {order : List (Snowflake × Nat)} {capacity : Nat} {l : Arrivals α}

theorem compactionLimit_le (capacity : Nat) : compactionLimit capacity ≤ 2 * capacity + 16 :=
  Nat.le_trans (Nat.mod_le _ _) (Nat.add_le_add_right (Nat.min_le_left _ _) 16)

theorem evict_suffix (capacity : Nat) (entries : Table Snowflake (Entry α))
    (order : List (Snowflake × Nat)) : (evict capacity entries order).2.1 <:+ order := by
  fun_induction evict capacity entries order with
  | case1 => exact List.suffix_rfl
  | case2 => exact List.suffix_rfl
  | case3 _ first order _ e _ _ _ _ _ heq ih =>
    rw [heq] at ih
    exact ih.trans (List.suffix_cons first order)
  | case4 _ first order _ _ _ _ ih => exact ih.trans (List.suffix_cons first order)
  | case5 _ first order _ _ ih => exact ih.trans (List.suffix_cons first order)

namespace InLine

theorem length_live (h : InLine entries order) :
    (order.filter (isLive entries)).length = entries.size := by
  rw [h.live, List.length_map]
  rfl

theorem size_erase_first {first : Snowflake × Nat} (h : InLine entries (first :: order))
    (hl : isLive entries first = true) : entries.size = (entries.erase first.1).size + 1 := by
  obtain ⟨e, he, -⟩ := h.head hl
  rw [Table.size, he, List.length_cons]
  rfl

/-- With each entry that leaves, its arrival leaves, and maybe some that were left behind. -/
theorem length_evict (h : InLine entries order) (capacity : Nat) :
    (evict capacity entries order).2.1.length + entries.size ≤
      order.length + (evict capacity entries order).1.size := by
  induction order generalizing entries with
  | nil => exact Nat.le_refl _
  | cons first order ih =>
    by_cases hsize : entries.size ≤ capacity
    · simp [evict, hsize]
    · cases hl : isLive entries first with
      | true =>
        obtain ⟨e, -, hg, ha⟩ := h.head hl
        have hone := h.size_erase_first hl
        have hrest := ih h.erase_first
        rw [evict_of_live hsize hg ha, List.length_cons]
        dsimp only
        omega
      | false =>
        have hrest := ih (h.tail hl)
        rw [evict_of_not_live hsize hl, List.length_cons]
        omega

theorem filter_number (h : InLine entries order) (hr : order.Pairwise fun p q => p.2 < q.2)
    {id : Snowflake} {e : Entry α} (hg : entries.get? id = some e) :
    order.filter (fun p => p.2 = e.arrival) = [(id, e.arrival)] := by
  have hm : (id, e.arrival) ∈ order.filter (isLive entries) := by
    rw [h.live]
    exact List.mem_map.mpr ⟨(id, e), Table.mem_of_get? hg, rfl⟩
  obtain ⟨before, after, rfl⟩ := List.append_of_mem (List.mem_filter.mp hm).1
  obtain ⟨-, hafter, hbefore⟩ := List.pairwise_append.mp hr
  have hb : before.filter (fun p => p.2 = e.arrival) = [] := by
    refine List.filter_eq_nil_iff.mpr fun p hp => ?_
    simpa using Nat.ne_of_lt (hbefore p hp _ List.mem_cons_self)
  have ha : after.filter (fun p => p.2 = e.arrival) = [] := by
    refine List.filter_eq_nil_iff.mpr fun p hp => ?_
    simpa using Nat.ne_of_gt ((List.pairwise_cons.mp hafter).1 p hp)
  rw [List.filter_append, hb, List.filter_cons_of_pos (by simp), ha]
  rfl

end InLine

structure Compact (c : Messages α) : Prop where
  rising : c.order.Pairwise fun p q => p.2 < q.2
  short : c.order.length ≤ compactionLimit c.capacity + c.size

namespace Compact

theorem add (h : c.Compact) (hm : Mirrors capacity c l) (id : Snowflake) (timestamp : Timestamp)
    (value : α) : (c.add id timestamp value).cache.Compact := by
  rcases cache_add c id timestamp value with hc | ⟨hn, hc⟩
  · rw [hc]
    exact h
  · rw [hc]
    have hline := hm.inLine.insert hn ⟨timestamp, value, c.nextArrival⟩ hm.fresh
    constructor
    · refine List.Pairwise.sublist (evict_suffix _ _ _).sublist ?_
      refine List.pairwise_append.mpr ⟨h.rising, List.pairwise_singleton _ _, fun p hp q hq => ?_⟩
      rw [List.mem_singleton.mp hq]
      exact hm.fresh p hp
    · have hevict := hline.length_evict c.capacity
      have hshort := h.short
      rw [Table.size, Table.entries_insert_of_none hn] at hevict
      simp only [List.length_append, List.length_singleton, size, Table.size] at hevict hshort ⊢
      omega

theorem replace (h : c.Compact) (hm : Mirrors capacity c l) (id : Snowflake) (value : α) :
    (c.replace id value).1.Compact := by
  unfold Messages.replace
  cases hg : c.getEntry? id with
  | none => exact h
  | some e =>
    refine ⟨h.rising, ?_⟩
    have hsize : (c.entries.insert id { e with value }).size = c.entries.size := by
      rw [Table.size, entries_replace hm.inLine.distinct hg, List.length_map]
      rfl
    simpa only [size, hsize] using h.short

theorem remove (h : c.Compact) (hm : Mirrors capacity c l) (id : Snowflake) :
    (c.remove id).1.Compact := by
  unfold Messages.remove
  split_ifs with hlong
  · refine ⟨h.rising.filter _, ?_⟩
    have hline := (hm.inLine.erase id).length_live
    dsimp only [size]
    omega
  · refine ⟨h.rising, ?_⟩
    dsimp only
    omega

theorem perform (h : c.Compact) (hm : Mirrors capacity c l) (op : Op α) :
    (c.perform op).1.Compact := by
  cases op with
  | add id timestamp value => exact h.add hm id timestamp value
  | replace id value => exact h.replace hm id value
  | remove id => exact h.remove hm id
  | get id => exact h
  | getEntry id => exact h
  | getMany before limit => exact h
  | clear => exact ⟨.nil, Nat.zero_le _⟩

end Compact

theorem compact_run (capacity : Nat) (ops : List (Op α)) :
    (final perform (create capacity : Messages α) ops).Compact := by
  induction ops using List.reverseRecOn with
  | nil => exact ⟨.nil, Nat.zero_le _⟩
  | append_singleton ops op ih =>
    rw [final_concat]
    exact ih.perform ((mirrors_create capacity).run ops).2 op

theorem nextArrival_perform_le (c : Messages α) (op : Op α) :
    (c.perform op).1.nextArrival ≤ c.nextArrival + 1 := by
  cases op with
  | add id timestamp value =>
    rcases cache_add c id timestamp value with hc | ⟨-, hc⟩
    · exact Nat.le_succ_of_le (Nat.le_of_eq (congrArg nextArrival hc))
    · exact Nat.le_of_eq (congrArg nextArrival hc)
  | replace id value =>
    simp only [perform, replace]
    split
    · exact Nat.le_succ _
    · exact Nat.le_succ _
  | remove | get | getEntry | getMany | clear => exact Nat.le_succ _

theorem nextArrival_run_le (capacity : Nat) (ops : List (Op α)) :
    (final perform (create capacity : Messages α) ops).nextArrival ≤ ops.length := by
  induction ops using List.reverseRecOn with
  | nil => exact Nat.le_refl _
  | append_singleton ops op ih =>
    rw [final_concat, List.length_append]
    exact Nat.le_trans (nextArrival_perform_le _ op) (Nat.succ_le_succ ih)

/-- However messages come and go, the order of a cache is no longer than twice the capacity, sixteen
more and the number of messages held. It lists the arrival of each of these under its number, and no
other arrival under that number; numbers rise from the front of the order to its end and stay below
the number of operations. -/
theorem order_stays_bounded (capacity : Nat) (ops : List (Op α)) :
    let c := final perform (create capacity : Messages α) ops
    c.order.length ≤ 2 * capacity + 16 + c.size ∧
      c.order.length ≤ 3 * capacity + 16 ∧
      (∀ id e, c.getEntry? id = some e →
        c.order.filter (fun p => p.2 = e.arrival) = [(id, e.arrival)]) ∧
      c.order.Pairwise (fun p q => p.2 < q.2) ∧
      ∀ p ∈ c.order, p.2 < ops.length := by
  intro c
  have hm := ((mirrors_create capacity).run ops).2
  have hc : c.Compact := compact_run capacity ops
  have hlimit := compactionLimit_le capacity
  have hshort := hc.short
  have hsize : c.size ≤ capacity := hm.size_eq ▸ hm.bounded
  rw [hm.capacity_eq] at hshort
  refine ⟨by omega, by omega, fun id e hg => hm.inLine.filter_number hc.rising hg, hc.rising, ?_⟩
  intro p hp
  exact Nat.lt_of_lt_of_le (hm.fresh p hp) (nextArrival_run_le capacity ops)

/-- The bound is reached: eighteen removals leave as many arrivals behind, and the insertion after
them finds nothing to evict. -/
example :
    let epoch := Timestamp.ofUnixMillis 0
    let churn : List (Op Unit) := [.add ⟨1⟩ epoch (), .remove ⟨1⟩]
    let c := final perform (create 1)
      ((List.replicate 18 churn).flatten ++ [.add ⟨2⟩ epoch ()])
    c.order.length = 3 * 1 + 16 := by
  decide +kernel

end Parley.Cache.Messages
