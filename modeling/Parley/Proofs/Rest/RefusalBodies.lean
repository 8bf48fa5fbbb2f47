import Parley.Proofs.Json.Numbers
import Parley.Proofs.Json.Records
import Parley.Rest.RateLimit

/-! The bodies of refusals that can be read. They are read as a whole or not at all: the wait has to
be there, once and as a number, and the mark has to be there at most once and be true or false. -/
namespace Parley.Rest

open Json (Tree named)

/-- The body gives a wait of `x` seconds, and a mark or none. -/
inductive RefusalBody (x : Binary64) (isGlobal : Bool) : Tree → Prop
  | object {members : List (String × Tree)} {n : Number}
      (hw : named "retry_after" members = [.number (some n)]) (hx : n.toDouble? = some x)
      (hg : named "global" members = [] ∧ isGlobal = false ∨
        named "global" members = [.bool isGlobal]) :
      RefusalBody x isGlobal (.ofMembers members)
  | array {n : Number} {rest : List Tree} (hx : n.toDouble? = some x)
      (hg : rest = [] ∧ isGlobal = false ∨ rest = [.bool isGlobal]) :
      RefusalBody x isGlobal (.array (.number (some n) :: rest))

variable {x : Binary64} {isGlobal : Bool} {t : Tree}

theorem double_eq_some_iff :
    Json.Decoder.double t = some x ↔ ∃ n, t = .number (some n) ∧ n.toDouble? = some x := by
  cases t with
  | number n => cases n <;> simp [Json.Decoder.double]
  | _ => simp [Json.Decoder.double]

theorem bool_eq_some_iff : Json.Decoder.bool t = some isGlobal ↔ t = .bool isGlobal := by
  cases t <;> simp [Json.Decoder.bool]

namespace RateLimit

/-- The mark is false when it is missing. -/
theorem mark_eq_some_iff {r : Json.Record} :
    r.withDefault "global" false Json.Decoder.bool = some isGlobal ↔
      r.members.lookup "global" = none ∧ isGlobal = false ∨
        r.members.lookup "global" = some (.bool isGlobal) := by
  unfold Json.Record.withDefault
  cases r.members.lookup "global" with
  | none => simp [eq_comm]
  | some m => simp [bool_eq_some_iff]

theorem refusal_eq_some_iff_members : refusal t = some (x, isGlobal) ↔
    ∃ r, Json.Record.read? ["retry_after", "global"] t = some r ∧
      (∃ n, r.members.lookup "retry_after" = some (.number (some n)) ∧ n.toDouble? = some x) ∧
      (r.members.lookup "global" = none ∧ isGlobal = false ∨
        r.members.lookup "global" = some (.bool isGlobal)) := by
  simp only [refusal, Json.Record.required, Option.bind_eq_bind, Option.bind_eq_some_iff,
    double_eq_some_iff, mark_eq_some_iff, Option.some.injEq, Prod.mk.injEq]
  constructor
  · rintro ⟨r, hr, _, ⟨_, hl, n, rfl, hx⟩, _, hg, rfl, rfl⟩
    exact ⟨r, hr, ⟨n, hl, hx⟩, hg⟩
  · rintro ⟨r, hr, ⟨n, hl, hx⟩, hg⟩
    exact ⟨r, hr, x, ⟨_, hl, n, rfl, hx⟩, isGlobal, hg, rfl, rfl⟩

theorem eq_singleton_of_head {α : Type} {l : List α} {a : α} (h : l.head? = some a)
    (hl : l.length ≤ 1) : l = [a] := by
  rcases l with _ | ⟨b, _ | ⟨c, l⟩⟩
  · simp at h
  · simpa using h
  · simp at hl

theorem refusal_object_iff {fields : List (Option String × Tree)} :
    refusal (.object fields) = some (x, isGlobal) ↔ RefusalBody x isGlobal (.object fields) := by
  rw [refusal_eq_some_iff_members]
  constructor
  · rintro ⟨r, hr, ⟨n, hw, hx⟩, hg⟩
    obtain ⟨members, rfl, hone, rfl⟩ := Json.Record.read?_object_eq_some_iff.mp hr
    rw [Json.Record.lookup_filter_names (by simp)] at hw hg
    have hwait := hone "retry_after" (by simp)
    have hmark := hone "global" (by simp)
    refine .object (eq_singleton_of_head hw hwait) hx ?_
    rcases hg with ⟨hg, rfl⟩ | hg
    · exact Or.inl ⟨List.head?_eq_none_iff.mp hg, rfl⟩
    · exact Or.inr (eq_singleton_of_head hg hmark)
  · generalize ho : Tree.object fields = t
    intro h
    cases h with
    | array => simp at ho
    | @object members n hw hx hg =>
      obtain rfl := Tree.object.inj ho
      refine ⟨_, Json.Record.read?_object_eq_some_iff.mpr ⟨members, rfl, ?_, rfl⟩, ?_, ?_⟩
      · intro name hn
        rcases List.mem_cons.mp hn with rfl | hn
        · simp [hw]
        · obtain rfl := List.mem_singleton.mp hn
          rcases hg with ⟨hg, -⟩ | hg <;> simp [hg]
      · rw [Json.Record.lookup_filter_names (by simp), hw]
        exact ⟨n, rfl, hx⟩
      · rw [Json.Record.lookup_filter_names (by simp)]
        rcases hg with ⟨hg, rfl⟩ | hg <;> simp [hg]

theorem refusal_array_iff {items : List Tree} :
    refusal (.array items) = some (x, isGlobal) ↔ RefusalBody x isGlobal (.array items) := by
  rw [refusal_eq_some_iff_members]
  constructor
  · rintro ⟨r, hr, ⟨n, hw, hx⟩, hg⟩
    simp only [Json.Record.read?, Option.ite_none_right_eq_some, Option.some.injEq] at hr
    obtain ⟨hlen, rfl⟩ := hr
    rcases items with _ | ⟨first, _ | ⟨second, _ | ⟨third, rest⟩⟩⟩
    · simp at hw
    · obtain rfl : first = .number (some n) := by simpa using hw
      exact .array hx (by simpa [List.lookup_cons] using hg)
    · obtain rfl : first = .number (some n) := by simpa using hw
      exact .array hx (by simpa [List.lookup_cons] using hg)
    · simp at hlen
  · intro h
    cases h with
    | array hx hg =>
      rcases hg with ⟨rfl, rfl⟩ | rfl
      · exact ⟨_, rfl, ⟨_, rfl, hx⟩, Or.inl ⟨rfl, rfl⟩⟩
      · exact ⟨_, rfl, ⟨_, rfl, hx⟩, Or.inr rfl⟩

theorem refusal_eq_some_iff : refusal t = some (x, isGlobal) ↔ RefusalBody x isGlobal t := by
  cases t with
  | object fields => exact refusal_object_iff
  | array items => exact refusal_array_iff
  | _ =>
    constructor
    · intro h
      simp [refusal, Json.Record.read?] at h
    · rintro ⟨⟩

end RateLimit

/-- The wait has no more than 53 bits of mantissa, as it was read from a literal. -/
theorem RefusalBody.mantissa (h : RefusalBody x isGlobal t) {body : List UInt8}
    (hr : Tree.read? body = some t) : x.mantissa < 2 ^ 53 := by
  cases h with
  | @object members n hw hx hg =>
    have hm : ("retry_after", Tree.number (some n)) ∈ members := by
      have hin : Tree.number (some n) ∈ named "retry_after" members := by simp [hw]
      obtain ⟨⟨k, t⟩, hm, rfl⟩ := List.mem_map.mp hin
      obtain ⟨hm, hk⟩ := List.mem_filter.mp hm
      obtain rfl : k = "retry_after" := by simpa using hk
      exact hm
    exact Json.mantissa_of_read hr (.member (List.mem_map.mpr ⟨_, hm, rfl⟩) .here) hx
  | array hx hg => exact Json.mantissa_of_read hr (.item List.mem_cons_self .here) hx

end Parley.Rest
