import Mathlib.Data.List.Sort
import Parley.Proofs.Cache.Arrivals
import Parley.Proofs.Snowflakes

/-! Reading a cache page by page, each page from below the last id of the one before it. The entries
left after a page are those behind it in the order of all, so a page boundary neither drops nor
repeats an entry. -/
namespace Parley.Cache.Messages

variable {α : Type} {c : Messages α} {limit : Nat} {before : Option Snowflake}

abbrev Page (α : Type) := List (Snowflake × Entry α)

/-- The pages of a reader who asks on below the last id that he has got, until a page is empty. -/
inductive Pages (c : Messages α) (limit : Nat) : Option Snowflake → List (Page α) → Prop where
  | empty {before : Option Snowflake} (h : c.getMany before limit = []) : Pages c limit before [[]]
  | more {before : Option Snowflake} {page : Page α} {bottom : Snowflake × Entry α}
      {pages : List (Page α)} (h : c.getMany before limit = page)
      (hb : page.getLast? = some bottom) (rest : Pages c limit (some bottom.1) pages) :
      Pages c limit before (page :: pages)

theorem Pages.unique {pages others : List (Page α)} (h : Pages c limit before pages)
    (h' : Pages c limit before others) : pages = others := by
  induction h generalizing others with
  | empty h =>
    cases h' with
    | empty => rfl
    | more hp hb =>
      rw [← hp, h] at hb
      simp at hb
  | more hp hb _ ih =>
    cases h' with
    | empty he =>
      rw [← hp, he] at hb
      simp at hb
    | more hp' hb' rest =>
      obtain rfl := hp.symm.trans hp'
      obtain rfl := Option.some.inj (hb.symm.trans hb')
      rw [ih rest]

def below (c : Messages α) (before : Option Snowflake) : Page α :=
  newestFirst (c.entries.entries.filter fun (id, _) =>
    match before with
    | some cursor => id < cursor
    | none => true)

theorem getMany_eq_take (c : Messages α) (before : Option Snowflake) (limit : Nat) :
    c.getMany before limit = (c.below before).take limit := rfl

theorem mem_below {e : Snowflake × Entry α} :
    e ∈ c.below before ↔ e ∈ c.entries.entries ∧ ∀ cursor ∈ before, e.1 < cursor := by
  rw [below, newestFirst, List.mem_mergeSort, List.mem_filter]
  cases before with
  | none => simp
  | some cursor => simp

theorem length_below_none (c : Messages α) : (c.below none).length = c.size := by
  rw [below, newestFirst, List.length_mergeSort, List.filter_eq_self.mpr fun _ _ => rfl]
  rfl

def Falling : Page α → Prop := List.Pairwise fun a b => b.1 < a.1

theorem falling_newestFirst {entries : List (Snowflake × Entry α)}
    (hd : (entries.map Prod.fst).Nodup) : Falling (newestFirst entries) := by
  have hle : (newestFirst entries).Pairwise fun a b => b.1 ≤ a.1 := by
    refine (List.pairwise_mergeSort ?_ ?_ entries).imp fun h => by simpa using h
    · intro a b c hab hbc
      simp only [decide_eq_true_eq, Snowflake.le_iff] at hab hbc ⊢
      omega
    · intro a b
      simp only [Bool.or_eq_true, decide_eq_true_eq, Snowflake.le_iff]
      omega
  have hne : (newestFirst entries).Pairwise fun a b => a.1 ≠ b.1 :=
    List.pairwise_map.mp (((List.mergeSort_perm entries _).map Prod.fst).nodup_iff.mpr hd)
  refine (hle.and hne).imp ?_
  rintro ⟨⟨a⟩, _⟩ ⟨⟨b⟩, _⟩ ⟨hab, hn⟩
  exact UInt64.lt_of_le_of_ne hab fun h => hn (congrArg Snowflake.mk h.symm)

theorem falling_below (hd : c.entries.Distinct) (before : Option Snowflake) :
    Falling (c.below before) :=
  falling_newestFirst (List.Nodup.sublist (List.filter_sublist.map Prod.fst) hd)

theorem Falling.eq_of_mem_iff {l l' : Page α} (h : Falling l) (h' : Falling l')
    (hm : ∀ e, e ∈ l ↔ e ∈ l') : l = l' := by
  have hirrefl : Std.Irrefl fun a b : Snowflake × Entry α => b.1 < a.1 :=
    ⟨fun a => UInt64.lt_irrefl a.1.value⟩
  have hantisymm : Std.Antisymm fun a b : Snowflake × Entry α => b.1 < a.1 :=
    ⟨fun _ _ hab hba => absurd hab (UInt64.lt_asymm hba)⟩
  exact List.Pairwise.eq_of_mem_iff h h' hm

theorem below_last (hd : c.entries.Distinct) {bottom : Snowflake × Entry α}
    (hb : ((c.below before).take limit).getLast? = some bottom) :
    c.below (some bottom.1) = (c.below before).drop limit := by
  have hfall := falling_below hd before
  obtain ⟨above, ha⟩ := List.getLast?_eq_some_iff.mp hb
  have hsplit : c.below before = above ++ [bottom] ++ (c.below before).drop limit := by
    rw [← ha, List.take_append_drop]
  refine (falling_below hd _).eq_of_mem_iff (hfall.sublist (List.drop_sublist _ _)) fun e => ?_
  rw [hsplit] at hfall
  obtain ⟨htaken, -, hleft⟩ := List.pairwise_append.mp hfall
  have hbottom : bottom ∈ c.below before := by
    rw [hsplit]
    simp
  constructor
  · intro he
    obtain ⟨hmem, hlt⟩ := mem_below.mp he
    have hlt := hlt bottom.1 rfl
    have hin : e ∈ c.below before := by
      refine mem_below.mpr ⟨hmem, fun cursor hc => ?_⟩
      exact UInt64.lt_trans hlt ((mem_below.mp hbottom).2 cursor hc)
    rw [hsplit, List.mem_append] at hin
    -- An entry of the page itself is its last or stands above that.
    refine hin.resolve_left fun hpage => ?_
    rcases List.mem_append.mp hpage with habove | hlast
    · have hgt := (List.pairwise_append.mp htaken).2.2 e habove bottom (List.mem_singleton_self _)
      exact UInt64.lt_asymm hgt hlt
    · rw [List.mem_singleton.mp hlast] at hlt
      exact UInt64.lt_irrefl _ hlt
  · intro he
    have hlt := hleft bottom (by simp) e he
    refine mem_below.mpr ⟨(mem_below.mp (List.mem_of_mem_drop he)).1, fun cursor hc => ?_⟩
    rwa [← Option.some.inj hc]

/-- Pages that hold some entries: full ones, then one with the rest, then an empty one. -/
structure Holds (limit : Nat) (entries : Page α) (pages : List (Page α)) : Prop where
  flatten : pages.flatten = entries
  full : ∀ page ∈ pages.dropLast.dropLast, page.length = limit
  ends : pages.getLast? = some []
  count : pages.length = (entries.length + limit - 1) / limit + 1

/-- Nothing takes no page but the empty one. -/
theorem count_zero (hl : 0 < limit) : (0 + limit - 1) / limit = 0 := by
  rw [Nat.zero_add]
  exact Nat.div_eq_of_lt (Nat.sub_one_lt_of_lt hl)

theorem holds_nil (hl : 0 < limit) : Holds limit ([] : Page α) [[]] where
  flatten := rfl
  full _ h := by simp at h
  ends := rfl
  count := by
    rw [List.length_nil, count_zero hl]
    rfl

theorem Holds.cons (hl : 0 < limit) {entries : Page α} {pages : List (Page α)} (hne : entries ≠ [])
    (h : Holds limit (entries.drop limit) pages) :
    Holds limit entries (entries.take limit :: pages) := by
  have hlen : 0 < entries.length := List.length_pos_iff.mpr hne
  have hpages : pages ≠ [] := by
    rintro rfl
    simpa using h.ends
  refine ⟨?_, ?_, ?_, ?_⟩
  · rw [List.flatten_cons, h.flatten, List.take_append_drop]
  · intro page hm
    rw [List.dropLast_cons_of_ne_nil hpages] at hm
    by_cases hlast : pages.dropLast = []
    · simp [hlast] at hm
    · rw [List.dropLast_cons_of_ne_nil hlast] at hm
      rcases List.mem_cons.mp hm with rfl | hm
      · -- A page follows that is not the empty one, so this page is not the rest.
        have hcount := h.count
        have htwo : 1 < pages.length := by
          have hpos := List.length_pos_iff.mpr hlast
          rw [List.length_dropLast] at hpos
          omega
        have hmore : limit < entries.length := by
          refine Nat.lt_of_not_le fun hle => ?_
          rw [List.length_drop, Nat.sub_eq_zero_of_le hle, count_zero hl] at hcount
          omega
        exact List.length_take_of_le (Nat.le_of_lt hmore)
      · exact h.full page hm
  · rw [List.getLast?_cons, h.ends]
    rfl
  · rw [List.length_cons, h.count, List.length_drop]
    by_cases hle : entries.length ≤ limit
    · rw [Nat.sub_eq_zero_of_le hle, count_zero hl,
        Nat.div_eq_of_lt_le (k := 1) (by omega) (by omega)]
    · have hsum : entries.length + limit - 1 = entries.length - limit + limit - 1 + limit := by
        omega
      rw [hsum, Nat.add_div_right _ hl]

theorem exists_pages (hd : c.entries.Distinct) (hl : 0 < limit) (before : Option Snowflake) :
    ∃ pages, c.Pages limit before pages ∧ Holds limit (c.below before) pages := by
  -- Each page takes entries off those that are left.
  induction hn : (c.below before).length using Nat.strong_induction_on generalizing before with
  | _ n ih =>
    by_cases hempty : c.below before = []
    · rw [hempty]
      exact ⟨[[]], .empty (by rw [getMany_eq_take, hempty, List.take_nil]), holds_nil hl⟩
    · have hpos := List.length_pos_iff.mpr hempty
      have htake : (c.below before).take limit ≠ [] := by
        rw [ne_eq, List.take_eq_nil_iff]
        exact not_or.mpr ⟨Nat.ne_of_gt hl, hempty⟩
      obtain ⟨bottom, hb⟩ := Option.isSome_iff_exists.mp (List.getLast?_isSome.mpr htake)
      have hrest := below_last hd hb
      obtain ⟨pages, hpages, hholds⟩ := ih (n - limit) (by omega) (some bottom.1) (by
        rw [hrest, List.length_drop, hn])
      rw [hrest] at hholds
      exact ⟨_, .more (getMany_eq_take c before limit) hb hpages, hholds.cons hl hempty⟩

/-- Whatever a cache holds, reading it page by page comes to an end with an empty page. The pages
list each entry once, the ids falling throughout, and all of them are full but the last two. -/
theorem pages_cover_cache (capacity limit : Nat) (ops : List (Op α)) (hl : 0 < limit) :
    let c := final perform (create capacity : Messages α) ops
    ∃ pages, (∀ others, c.Pages limit none others ↔ others = pages) ∧
      pages.getLast? = some [] ∧
      pages.flatten.Pairwise (fun a b => b.1 < a.1) ∧
      (∀ id e, (id, e) ∈ pages.flatten ↔ c.getEntry? id = some e) ∧
      (∀ page ∈ pages.dropLast.dropLast, page.length = limit) ∧
      pages.length = (c.size + limit - 1) / limit + 1 := by
  intro c
  have hd : c.entries.Distinct := ((mirrors_create capacity).run ops).2.inLine.distinct
  obtain ⟨pages, hpages, hholds⟩ := exists_pages hd hl none
  refine ⟨pages, fun others => ⟨fun h => h.unique hpages, fun h => h ▸ hpages⟩, hholds.ends, ?_,
    fun id e => ?_, hholds.full, ?_⟩
  · rw [hholds.flatten]
    exact falling_below hd none
  · rw [hholds.flatten, mem_below]
    constructor
    · rintro ⟨hm, -⟩
      exact Table.get?_of_mem hd hm
    · intro hg
      exact ⟨Table.mem_of_get? hg, fun _ h => by cases h⟩
  · rw [hholds.count, length_below_none]

def unordered : List (Op Nat) :=
  [3, 1, 5, 2, 4].map fun n => .add ⟨n⟩ (Timestamp.ofUnixMillis 0) n.toNat

theorem unordered_in_four_pages :
    0 < 2 ∧ ∃ pages,
      (∀ others, (final perform (create 5 : Messages Nat) unordered).Pages 2 none others ↔
        others = pages) ∧
      (∀ page ∈ pages.dropLast.dropLast, page.length = 2) ∧ pages.length = 4 := by
  have hl : 0 < 2 := by decide
  obtain ⟨pages, hall, -, -, -, hfull, hcount⟩ := pages_cover_cache 5 2 unordered hl
  exact ⟨hl, pages, hall, hfull, hcount⟩

end Parley.Cache.Messages
