/-! Finite maps as lists of pairs, in the order in which their keys first came. -/
namespace Parley

structure Table (κ α : Type) where
  entries : List (κ × α)
deriving DecidableEq

namespace Table

variable {κ α β : Type} [DecidableEq κ]

def empty : Table κ α := ⟨[]⟩

instance : Inhabited (Table κ α) := ⟨empty⟩

def keys (t : Table κ α) : List κ := t.entries.map Prod.fst

def values (t : Table κ α) : List α := t.entries.map Prod.snd

def size (t : Table κ α) : Nat := t.entries.length

def lookup (key : κ) : List (κ × α) → Option α
  | [] => none
  | (k, v) :: rest => if k = key then some v else lookup key rest

def get? (t : Table κ α) (key : κ) : Option α := lookup key t.entries

def contains (t : Table κ α) (key : κ) : Bool := (t.get? key).isSome

def assign (key : κ) (value : α) : List (κ × α) → List (κ × α)
  | [] => [(key, value)]
  | (k, v) :: rest => if k = key then (key, value) :: rest else (k, v) :: assign key value rest

/-- Sets the value of a key, in place if the key is there. -/
def insert (t : Table κ α) (key : κ) (value : α) : Table κ α := ⟨assign key value t.entries⟩

def erase (t : Table κ α) (key : κ) : Table κ α :=
  ⟨t.entries.filter fun (k, _) => k ≠ key⟩

def filter (t : Table κ α) (keep : κ → α → Bool) : Table κ α :=
  ⟨t.entries.filter fun (k, v) => keep k v⟩

def modify (t : Table κ α) (key : κ) (f : α → α) : Table κ α :=
  match t.get? key with
  | some v => t.insert key (f v)
  | none => t

variable (t : Table κ α) (key : κ)

theorem lookup_assign (key other : κ) (value : α) (entries : List (κ × α)) :
    lookup other (assign key value entries) =
      if key = other then some value else lookup other entries := by
  induction entries with
  | nil => simp [assign, lookup]
  | cons entry rest ih =>
    obtain ⟨k, v⟩ := entry
    by_cases hk : k = key
    · subst hk
      by_cases ho : k = other <;> simp [assign, lookup, ho]
    · by_cases ho : k = other
      · subst ho
        simp [assign, lookup, hk, Ne.symm hk]
      · simp [assign, lookup, hk, ho, ih]

theorem get?_insert (other : κ) (value : α) :
    (t.insert key value).get? other = if key = other then some value else t.get? other :=
  lookup_assign key other value t.entries

@[simp] theorem get?_insert_self (value : α) : (t.insert key value).get? key = some value := by
  simp [get?_insert]

theorem get?_insert_of_ne {key other : κ} (h : key ≠ other) (value : α) :
    (t.insert key value).get? other = t.get? other := by
  simp [get?_insert, h]

theorem mem_of_get? {t : Table κ α} {key : κ} {value : α} (h : t.get? key = some value) :
    (key, value) ∈ t.entries := by
  obtain ⟨entries⟩ := t
  simp only [get?] at h
  induction entries with
  | nil => simp [lookup] at h
  | cons entry rest ih =>
    obtain ⟨k, v⟩ := entry
    by_cases hk : k = key
    · simp only [lookup, if_pos hk, Option.some.injEq] at h
      simp [hk, h]
    · simp only [lookup, if_neg hk] at h
      exact List.mem_cons_of_mem _ (ih h)

theorem mem_insert {t : Table κ α} {key : κ} {value : α} {entry : κ × α}
    (h : entry ∈ (t.insert key value).entries) : entry = (key, value) ∨ entry ∈ t.entries := by
  obtain ⟨entries⟩ := t
  simp only [insert] at h ⊢
  induction entries with
  | nil => simpa [assign] using h
  | cons first rest ih =>
    by_cases hk : first.1 = key
    · simp only [assign, if_pos hk, List.mem_cons] at h
      rcases h with h | h
      · exact Or.inl h
      · exact Or.inr (List.mem_cons_of_mem _ h)
    · simp only [assign, if_neg hk, List.mem_cons] at h
      rcases h with h | h
      · exact Or.inr (h ▸ List.mem_cons_self)
      · exact (ih h).imp id (List.mem_cons_of_mem _)

def Distinct (t : Table κ α) : Prop := t.keys.Nodup

omit [DecidableEq κ] in
theorem mem_keys {t : Table κ α} {key : κ} : key ∈ t.keys ↔ ∃ value, (key, value) ∈ t.entries := by
  simp [keys]

theorem get?_eq_none_iff {t : Table κ α} {key : κ} : t.get? key = none ↔ key ∉ t.keys := by
  obtain ⟨entries⟩ := t
  simp only [get?, keys]
  induction entries with
  | nil => simp [lookup]
  | cons entry rest ih =>
    obtain ⟨k, v⟩ := entry
    by_cases hk : k = key
    · simp [lookup, hk]
    · simp [lookup, hk, Ne.symm hk, ih]

theorem get?_of_mem {t : Table κ α} (h : t.Distinct) {key : κ} {value : α}
    (hm : (key, value) ∈ t.entries) : t.get? key = some value := by
  obtain ⟨entries⟩ := t
  simp only [get?, Distinct, keys] at *
  induction entries with
  | nil => simp at hm
  | cons entry rest ih =>
    obtain ⟨k, v⟩ := entry
    obtain ⟨hk, hrest⟩ := List.nodup_cons.mp h
    rcases List.mem_cons.mp hm with he | hm
    · obtain ⟨rfl, rfl⟩ := Prod.mk.inj he
      simp [lookup]
    · have hne : k ≠ key := by
        intro he
        exact hk (List.mem_map.mpr ⟨(key, value), hm, he.symm⟩)
      simp only [lookup, if_neg hne]
      exact ih hrest hm

theorem entries_insert_of_none {t : Table κ α} {key : κ} (h : t.get? key = none) (value : α) :
    (t.insert key value).entries = t.entries ++ [(key, value)] := by
  obtain ⟨entries⟩ := t
  simp only [get?, insert] at h ⊢
  induction entries with
  | nil => rfl
  | cons entry rest ih =>
    obtain ⟨k, v⟩ := entry
    by_cases hk : k = key
    · simp [lookup, hk] at h
    · simp only [lookup, if_neg hk] at h
      simp [assign, hk, ih h]

theorem keys_insert_of_some {t : Table κ α} {key : κ} {old : α} (h : t.get? key = some old)
    (value : α) : (t.insert key value).keys = t.keys := by
  obtain ⟨entries⟩ := t
  simp only [get?, insert, keys] at h ⊢
  induction entries with
  | nil => simp [lookup] at h
  | cons entry rest ih =>
    obtain ⟨k, v⟩ := entry
    by_cases hk : k = key
    · simp [assign, hk]
    · simp only [lookup, if_neg hk] at h
      simp [assign, hk, ih h]

/-- Setting a key that is there changes the one entry that it has. -/
theorem entries_insert_of_some {t : Table κ α} (hd : t.Distinct) {key : κ} {old : α}
    (h : t.get? key = some old) (value : α) :
    (t.insert key value).entries = t.entries.map fun e => if e.1 = key then (key, value) else e := by
  obtain ⟨entries⟩ := t
  simp only [get?, insert, Distinct, keys] at *
  induction entries with
  | nil => simp [lookup] at h
  | cons entry rest ih =>
    obtain ⟨k, v⟩ := entry
    obtain ⟨hk, hrest⟩ := List.nodup_cons.mp hd
    by_cases he : k = key
    · have hsame : rest.map (fun e => if e.1 = key then (key, value) else e) = rest := by
        refine (List.map_congr_left ?_).trans (List.map_id rest)
        intro e hm
        refine if_neg ?_
        intro hek
        exact hk (List.mem_map.mpr ⟨e, hm, hek.trans he.symm⟩)
      simp [assign, he, hsame]
    · simp only [lookup, if_neg he] at h
      simp [assign, he, ih hrest h]

theorem get?_eq_find? (t : Table κ α) (key : κ) :
    t.get? key = (t.entries.find? fun e => e.1 = key).map Prod.snd := by
  obtain ⟨entries⟩ := t
  simp only [get?]
  induction entries with
  | nil => rfl
  | cons entry rest ih =>
    by_cases hk : entry.1 = key
    · simp [lookup, hk]
    · simp [lookup, hk, ih]

omit [DecidableEq κ] in
theorem distinct_empty : (empty : Table κ α).Distinct := List.nodup_nil

theorem Distinct.insert {t : Table κ α} (h : t.Distinct) (key : κ) (value : α) :
    (t.insert key value).Distinct := by
  unfold Distinct
  cases hg : t.get? key with
  | some old =>
    rw [keys_insert_of_some hg]
    exact h
  | none =>
    have hk := get?_eq_none_iff.mp hg
    rw [keys, entries_insert_of_none hg, List.map_append]
    refine List.nodup_append.mpr ⟨h, by simp, ?_⟩
    rintro k hm _ hl rfl
    rw [List.mem_singleton.mp hl] at hm
    exact hk hm

omit [DecidableEq κ] in
theorem Distinct.filter {t : Table κ α} (h : t.Distinct) (keep : κ → α → Bool) :
    (t.filter keep).Distinct :=
  List.Pairwise.sublist (List.filter_sublist.map Prod.fst) h

theorem Distinct.erase {t : Table κ α} (h : t.Distinct) (key : κ) : (t.erase key).Distinct :=
  h.filter fun k _ => k ≠ key

theorem entries_erase_first {t : Table κ α} (hd : t.Distinct) {key : κ} {value : α}
    {rest : List (κ × α)} (h : t.entries = (key, value) :: rest) :
    (t.erase key).entries = rest := by
  rw [Distinct, keys, h] at hd
  have hk := (List.nodup_cons.mp hd).1
  rw [erase, h, List.filter_cons_of_neg (by simp)]
  apply List.filter_eq_self.mpr
  intro e hm
  have hne : e.1 ≠ key := by
    intro he
    exact hk (List.mem_map.mpr ⟨e, hm, he⟩)
  simpa using hne

theorem get?_filter {t : Table κ α} (h : t.Distinct) (keep : κ → α → Bool) (key : κ) :
    (t.filter keep).get? key = (t.get? key).filter (keep key) := by
  cases hg : t.get? key with
  | none =>
    rw [Option.filter_none, get?_eq_none_iff]
    intro hm
    obtain ⟨value, hm⟩ := mem_keys.mp hm
    exact get?_eq_none_iff.mp hg (mem_keys.mpr ⟨value, (List.mem_filter.mp hm).1⟩)
  | some value =>
    cases hk : keep key value with
    | true =>
      rw [Option.filter_some_pos hk]
      exact get?_of_mem (h.filter keep) (List.mem_filter.mpr ⟨mem_of_get? hg, hk⟩)
    | false =>
      rw [Option.filter_some_neg (by simp [hk]), get?_eq_none_iff]
      intro hm
      obtain ⟨other, hm⟩ := mem_keys.mp hm
      obtain ⟨hm, hkeep⟩ := List.mem_filter.mp hm
      rw [get?_of_mem h hm] at hg
      rw [Option.some.inj hg] at hkeep
      simp [hk] at hkeep

theorem get?_erase (t : Table κ α) (key other : κ) :
    (t.erase key).get? other = if key = other then none else t.get? other := by
  obtain ⟨entries⟩ := t
  simp only [get?, erase]
  induction entries with
  | nil => simp [lookup]
  | cons entry rest ih =>
    obtain ⟨k, v⟩ := entry
    by_cases hk : k = key
    · subst hk
      by_cases ho : k = other <;> simp_all [lookup]
    · by_cases ho : key = other
      · subst ho
        simp_all [lookup]
      · simp_all [lookup]

theorem get?_modify (t : Table κ α) (key other : κ) (f : α → α) :
    (t.modify key f).get? other = if key = other then (t.get? key).map f else t.get? other := by
  unfold modify
  cases hg : t.get? key with
  | some v => exact get?_insert t key other (f v)
  | none =>
    by_cases ho : key = other
    · simp [← ho, hg]
    · simp [ho]

end Table

end Parley
