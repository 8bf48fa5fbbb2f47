import Mathlib.Data.List.Nodup
import Mathlib.Tactic.SplitIfs
import Parley.Json.Decode

/-! Which objects a record can be read from: those whose keys are all text and that give each member
at most once. -/
namespace Parley.Json

def Tree.ofMembers (members : List (String × Tree)) : Tree :=
  .object (members.map fun (k, t) => (some k, t))

def named (name : String) (members : List (String × Tree)) : List Tree :=
  (members.filter fun m => m.1 = name).map Prod.snd

namespace Record

variable {members : List (String × Tree)} {fields : List (Option String × Tree)}
  {names : List String} {name : String}

theorem keyed?_ofMembers (members : List (String × Tree)) :
    keyed? (members.map fun (k, t) => (some k, t)) = some members := by
  induction members with
  | nil => rfl
  | cons m members ih =>
    unfold keyed? at ih ⊢
    simp [List.mapM_cons, ih]

theorem eq_of_keyed? (h : keyed? fields = some members) :
    fields = members.map fun (k, t) => (some k, t) := by
  induction fields generalizing members with
  | nil =>
    obtain rfl := Option.some.inj h
    rfl
  | cons f fields ih =>
    unfold keyed? at h ih
    obtain ⟨key, t⟩ := f
    cases key with
    | none => simp [List.mapM_cons] at h
    | some k =>
      simp only [List.mapM_cons, Option.map_some, Option.bind_eq_bind, Option.bind_some,
        Option.bind_eq_some_iff, Option.pure_def, Option.some.injEq] at h
      obtain ⟨rest, hrest, rfl⟩ := h
      rw [ih hrest]
      rfl

theorem count_filter_names (hn : name ∈ names) :
    ((members.filter fun (k, _) => names.contains k).map Prod.fst).count name =
      (named name members).length := by
  induction members with
  | nil => rfl
  | cons m members ih =>
    obtain ⟨k, t⟩ := m
    unfold named at ih ⊢
    by_cases hk : k = name
    · subst hk
      simpa [hn] using ih
    · by_cases hin : k ∈ names
      · simpa [hin, hk] using ih
      · simpa [hin, hk] using ih

theorem nodup_filter_names_iff :
    ((members.filter fun (k, _) => names.contains k).map Prod.fst).Nodup ↔
      ∀ name ∈ names, (named name members).length ≤ 1 := by
  rw [List.nodup_iff_count]
  constructor
  · intro h name hn
    rw [← count_filter_names hn]
    exact h name
  · intro h name
    by_cases hn : name ∈ names
    · rw [count_filter_names hn]
      exact h name hn
    · rw [List.count_eq_zero_of_not_mem]
      · exact Nat.zero_le 1
      · simp [hn]

theorem lookup_filter_names (hn : name ∈ names) :
    (members.filter fun (k, _) => names.contains k).lookup name =
      (named name members).head? := by
  induction members with
  | nil => rfl
  | cons m members ih =>
    obtain ⟨k, t⟩ := m
    unfold named at ih ⊢
    by_cases hk : k = name
    · subst hk
      simp [hn]
    · have hk' : (name == k) = false := by simpa using Ne.symm hk
      by_cases hin : k ∈ names
      · simpa [List.lookup_cons, hin, hk, hk'] using ih
      · simpa [hin, hk] using ih

/-- A record is read from an object exactly if its keys are text and no member is given twice. -/
theorem read?_object_eq_some_iff {r : Record} :
    read? names (.object fields) = some r ↔
      ∃ members, fields = (members.map fun (k, t) => (some k, t)) ∧
        (∀ name ∈ names, (named name members).length ≤ 1) ∧
        r = ⟨false, members.filter fun (k, _) => names.contains k⟩ := by
  constructor
  · intro h
    obtain ⟨members, hk, h⟩ := Option.bind_eq_some_iff.mp h
    dsimp only at h
    split_ifs at h with hd
    exact ⟨members, eq_of_keyed? hk, nodup_filter_names_iff.mp hd, (Option.some.inj h).symm⟩
  · rintro ⟨members, rfl, hone, rfl⟩
    simp only [read?, keyed?_ofMembers, Option.bind_eq_bind, Option.bind_some]
    exact if_pos (nodup_filter_names_iff.mpr hone)

end Record

end Parley.Json
