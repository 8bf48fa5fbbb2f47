import Mathlib.Data.List.Induction
import Mathlib.Data.List.Nodup
import Parley.Cache.Dedupe

/-! A set of the keys accepted last is a window over all keys accepted so far. Whatever is asked of
a set, its answers are read off the keys that it has accepted since it was last cleared. -/
namespace Parley.Cache.Dedupe

variable {κ : Type}

/-- The last of the accepted keys, the latest standing first here and below. -/
def window (capacity : Nat) (accepted : List κ) : List κ := accepted.take (max capacity 1)

inductive Call (κ : Type) where
  | tryAdd (key : κ)
  | contains (key : κ)
  | clear

/-- The keys accepted since the last clear, by the calls made so far and their answers. -/
def acceptedSince : List (Call κ × Option Bool) → List κ
  | [] => []
  | (.clear, _) :: _ => []
  | (.tryAdd key, some true) :: earlier => key :: acceptedSince earlier
  | (.tryAdd _, _) :: earlier | (.contains _, _) :: earlier => acceptedSince earlier

structure Holds (d : Dedupe κ) (capacity : Nat) (accepted : List κ) : Prop where
  capacity_eq : d.capacity = max capacity 1
  order_eq : d.order.reverse = window capacity accepted
  seen_perm : d.seen.Perm d.order
  distinct : d.order.Nodup

variable {d : Dedupe κ} {capacity : Nat} {accepted : List κ} {key : κ}

theorem window_cons (capacity : Nat) (key : κ) (accepted : List κ) :
    window capacity (key :: accepted) = key :: accepted.take (max capacity 1 - 1) := by
  have hpos : max capacity 1 ≠ 0 := by omega
  obtain ⟨n, hn⟩ := Nat.exists_eq_succ_of_ne_zero hpos
  simp [window, hn]

theorem holds_create (capacity : Nat) : (create capacity : Dedupe κ).Holds capacity [] where
  capacity_eq := rfl
  order_eq := by simp [create, window]
  seen_perm := .nil
  distinct := List.nodup_nil

section
variable [DecidableEq κ]

theorem tryAdd_of_room (hc : ¬ d.contains key = true) (hr : d.order.length < d.capacity) :
    d.tryAdd key = ({ d with seen := key :: d.seen, order := d.order ++ [key] }, true) := by
  have hlen : ¬ (d.order ++ [key]).length > d.capacity := by
    rw [List.length_append, List.length_singleton]
    omega
  rw [tryAdd, if_neg hc]
  exact congrArg (·, true) (if_neg hlen)

theorem tryAdd_of_full (hc : ¬ d.contains key = true) (hf : d.capacity ≤ d.order.length)
    {oldest : κ} {rest : List κ} (ho : d.order = oldest :: rest) :
    d.tryAdd key =
      ({ d with seen := (key :: d.seen).erase oldest, order := rest ++ [key] }, true) := by
  have hlen : (d.order ++ [key]).length > d.capacity := by
    rw [List.length_append, List.length_singleton]
    omega
  rw [tryAdd, if_neg hc]
  refine congrArg (·, true) ((if_pos hlen).trans ?_)
  simp [evictOldest, ho]

end

namespace Holds

theorem mem_order (h : d.Holds capacity accepted) :
    key ∈ d.order ↔ key ∈ window capacity accepted := by
  rw [← h.order_eq, List.mem_reverse]

theorem length_order (h : d.Holds capacity accepted) :
    d.order.length = min (max capacity 1) accepted.length := by
  rw [← List.length_reverse, h.order_eq, window, List.length_take]

theorem order_of_room (h : d.Holds capacity accepted) (hr : d.order.length < max capacity 1) :
    d.order.reverse = accepted.take (max capacity 1 - 1) := by
  have hlen := h.length_order
  rw [h.order_eq, window, List.take_of_length_le (by omega), List.take_of_length_le (by omega)]

/-- In a full window, the oldest key makes room. -/
theorem order_of_full (h : d.Holds capacity accepted) {oldest : κ} {rest : List κ}
    (ho : d.order = oldest :: rest) (hf : d.order.length = max capacity 1) :
    rest.reverse = accepted.take (max capacity 1 - 1) := by
  have hlen : rest.reverse.length = max capacity 1 - 1 := by
    rw [ho, List.length_cons] at hf
    rw [List.length_reverse]
    omega
  have horder := h.order_eq
  rw [ho, List.reverse_cons, window] at horder
  calc rest.reverse = (rest.reverse ++ [oldest]).take (max capacity 1 - 1) := by
        rw [← hlen, List.take_left]
    _ = accepted.take (max capacity 1 - 1) := by
        rw [horder, List.take_take, Nat.min_eq_left (Nat.sub_le _ _)]

theorem clear (h : d.Holds capacity accepted) : d.clear.Holds capacity [] where
  capacity_eq := h.capacity_eq
  order_eq := by simp [Dedupe.clear, window]
  seen_perm := .nil
  distinct := List.nodup_nil

variable [DecidableEq κ]

theorem contains_iff (h : d.Holds capacity accepted) :
    d.contains key = true ↔ key ∈ window capacity accepted := by
  rw [← h.mem_order, ← h.seen_perm.mem_iff]
  simp [contains]

theorem refuse (h : d.Holds capacity accepted) (hm : key ∈ window capacity accepted) :
    d.tryAdd key = (d, false) := by
  rw [tryAdd, if_pos (h.contains_iff.mpr hm)]

theorem accept (h : d.Holds capacity accepted) (hm : key ∉ window capacity accepted) :
    ∃ d', d.tryAdd key = (d', true) ∧ d'.Holds capacity (key :: accepted) := by
  have hc : ¬ d.contains key = true := fun hc => hm (h.contains_iff.mp hc)
  have hnew : key ∉ d.order := fun ho => hm (h.mem_order.mp ho)
  have hcap := h.capacity_eq
  by_cases hroom : d.order.length < d.capacity
  · refine ⟨_, tryAdd_of_room hc hroom, hcap, ?_, ?_, ?_⟩
    · rw [hcap] at hroom
      rw [window_cons, List.reverse_append, h.order_of_room hroom]
      rfl
    · exact (h.seen_perm.cons key).trans (List.perm_append_singleton key d.order).symm
    · simpa using h.distinct.concat hnew
  · have hfull : d.order.length = max capacity 1 := by
      have hlen := h.length_order
      omega
    cases ho : d.order with
    | nil =>
      rw [ho, List.length_nil] at hfull
      omega
    | cons oldest rest =>
      have hperm := h.seen_perm
      have hdistinct := h.distinct
      have hrest := h.order_of_full ho hfull
      have hne : key ≠ oldest := by
        rintro rfl
        exact hnew (ho ▸ List.mem_cons_self)
      rw [ho] at hnew hdistinct hperm
      refine ⟨_, tryAdd_of_full hc (Nat.le_of_not_lt hroom) ho, hcap, ?_, ?_, ?_⟩
      · rw [window_cons, List.reverse_append, hrest]
        rfl
      · have herase := (hperm.cons key).erase oldest
        have hleft : (key :: oldest :: rest).erase oldest = key :: rest := by
          rw [List.erase_cons_tail (by simpa using hne), List.erase_cons_head]
        rw [hleft] at herase
        exact herase.trans (List.perm_append_singleton key rest).symm
      · have hkey : key ∉ rest := fun hm => hnew (List.mem_cons_of_mem _ hm)
        simpa using hdistinct.of_cons.concat hkey

theorem tryAdd_iff (h : d.Holds capacity accepted) :
    (d.tryAdd key).2 = true ↔ key ∉ window capacity accepted := by
  by_cases hm : key ∈ window capacity accepted
  · rw [h.refuse hm]
    exact iff_of_false Bool.false_ne_true (not_not_intro hm)
  · obtain ⟨d', hadd, -⟩ := h.accept hm
    rw [hadd]
    exact iff_of_true rfl hm

end Holds

section
variable [DecidableEq κ]

def perform (d : Dedupe κ) : Call κ → Dedupe κ × Option Bool
  | .tryAdd key => ((d.tryAdd key).1, some (d.tryAdd key).2)
  | .contains key => (d, some (d.contains key))
  | .clear => (d.clear, none)

def record (x : Dedupe κ × List (Call κ × Option Bool)) (call : Call κ) :
    Dedupe κ × List (Call κ × Option Bool) :=
  ((x.1.perform call).1, (call, (x.1.perform call).2) :: x.2)

def run (capacity : Nat) (calls : List (Call κ)) : Dedupe κ × List (Call κ × Option Bool) :=
  calls.foldl record (create capacity, [])

variable {history : List (Call κ × Option Bool)}

theorem Holds.perform (h : d.Holds capacity (acceptedSince history)) (call : Call κ) :
    (d.perform call).1.Holds capacity (acceptedSince ((call, (d.perform call).2) :: history)) := by
  cases call with
  | tryAdd key =>
    by_cases hm : key ∈ window capacity (acceptedSince history)
    · rw [Dedupe.perform, h.refuse hm]
      exact h
    · obtain ⟨d', hadd, hd'⟩ := h.accept hm
      rw [Dedupe.perform, hadd]
      exact hd'
  | contains key => exact h
  | clear => exact h.clear

theorem holds_run (capacity : Nat) (calls : List (Call κ)) :
    (run capacity calls).1.Holds capacity (acceptedSince (run capacity calls).2) := by
  induction calls using List.reverseRecOn with
  | nil => exact holds_create capacity
  | append_singleton calls call ih =>
    rw [run, List.foldl_concat]
    exact ih.perform call

/-- Whatever has been asked of a set, it accepts exactly the keys that are not among the last ones
accepted since it was cleared, as many as it has places; it holds exactly these, and a key that it
refuses leaves it as it is. Membership and age are kept for the same keys, each of them once. -/
theorem answers_by_window (capacity : Nat) (calls : List (Call κ)) :
    let (d, history) := run capacity calls
    let accepted := acceptedSince history
    let recent := accepted.take (max capacity 1)
    (∀ key, ((d.tryAdd key).2 = true ↔ key ∉ recent) ∧ (key ∈ recent → (d.tryAdd key).1 = d) ∧
      (d.contains key = true ↔ key ∈ recent)) ∧
    d.size = min (max capacity 1) accepted.length ∧ d.order.reverse = recent ∧
    d.seen.Nodup ∧ d.order.Nodup ∧ ∀ key, key ∈ d.seen ↔ key ∈ d.order := by
  have h := holds_run capacity calls
  exact ⟨fun key => ⟨h.tryAdd_iff, fun hm => congrArg Prod.fst (h.refuse hm), h.contains_iff⟩,
    h.length_order, h.order_eq, h.seen_perm.nodup_iff.mpr h.distinct, h.distinct,
    fun key => h.seen_perm.mem_iff⟩

/-- A key that is refused does not grow younger. -/
example : (run 2 [.tryAdd 1, .tryAdd 2, .tryAdd 1, .tryAdd 3]).1.order = [2, 3] := by decide

end

end Parley.Cache.Dedupe
