import Parley.Proofs.Client.Profiles
import Parley.Proofs.Json.Codecs

/-! Cached messages as the history of deliveries tells them. A cached message is that of the creation
which found its id absent, with the updates since then laid over it one after another; all else about
it is as it was when it came in. -/
namespace Parley

namespace Json

variable {fields changes : List (String × Json)}

theorem lookup_assign (key other : String) (value : Json) (fields : List (String × Json)) :
    lookup other (assign key value fields) =
      if key = other then some value else lookup other fields := by
  induction fields with
  | nil => rfl
  | cons f fields ih =>
    obtain ⟨k, v⟩ := f
    by_cases hk : k = key
    · subst hk
      by_cases ho : k = other <;> simp [assign, lookup, ho]
    · by_cases ho : k = other
      · subst ho
        simp [assign, lookup, hk, Ne.symm hk]
      · simp [assign, lookup, hk, ho, ih]

theorem lookup_eq_none_iff {key : String} : lookup key fields = none ↔ key ∉ fields.map Prod.fst := by
  induction fields with
  | nil => simp [lookup]
  | cons f fields ih =>
    obtain ⟨k, v⟩ := f
    by_cases hk : k = key
    · simp [lookup, hk]
    · simp [lookup, hk, ih, Ne.symm hk]

theorem lookup_assign_all (hn : (changes.map Prod.fst).Nodup) (key : String)
    (fields : List (String × Json)) :
    lookup key (changes.foldl (fun fields (k, v) => assign k v fields) fields) =
      (lookup key changes).or (lookup key fields) := by
  induction changes generalizing fields with
  | nil => rfl
  | cons change changes ih =>
    obtain ⟨k, v⟩ := change
    obtain ⟨hk, hrest⟩ := List.nodup_cons.mp hn
    rw [List.foldl_cons, ih hrest, lookup_assign, lookup]
    split_ifs with hkey
    · rw [lookup_eq_none_iff.mpr (hkey ▸ hk)]
      rfl
    · rfl

end Json

namespace Cache.Messages

variable {α : Type} {c : Messages α} {id other : Snowflake} {e : Entry α}

theorem get?_evict {capacity : Nat} {entries : Table Snowflake (Entry α)}
    {order : List (Snowflake × Nat)} (h : (evict capacity entries order).1.get? id = some e) :
    entries.get? id = some e := by
  induction order generalizing entries with
  | nil => exact h
  | cons first order ih =>
    by_cases hsize : entries.size ≤ capacity
    · simpa [evict, hsize] using h
    · cases hg : entries.get? first.1 with
      | none =>
        simp only [evict, hsize, hg, if_false] at h
        exact ih h
      | some old =>
        by_cases ha : old.arrival = first.2
        · simp only [evict, hsize, hg, ha, if_false, if_true] at h
          have herased := ih h
          rw [Table.get?_erase] at herased
          split_ifs at herased
          exact herased
        · simp only [evict, hsize, hg, ha, if_false] at h
          exact ih h

theorem getEntry?_add {timestamp : Timestamp} {value : α}
    (h : (c.add id timestamp value).cache.getEntry? other = some e) :
    c.getEntry? other = some e ∨
      id = other ∧ c.getEntry? other = none ∧ e = ⟨timestamp, value, c.nextArrival⟩ := by
  rcases cache_add c id timestamp value with hc | ⟨hn, hc⟩
  · rw [hc] at h
    exact Or.inl h
  · rw [hc] at h
    have hg := get?_evict h
    rw [Table.get?_insert] at hg
    split_ifs at hg with hid
    · exact Or.inr ⟨hid, hid ▸ hn, (Option.some.inj hg).symm⟩
    · exact Or.inl hg

theorem getEntry?_replace (c : Messages α) (id other : Snowflake) (value : α) :
    getEntry? (c.replace id value).1 other =
      if id = other then (c.getEntry? other).map fun e => { e with value }
      else c.getEntry? other := by
  unfold replace
  cases hg : c.getEntry? id with
  | none =>
    split_ifs with hid
    · rw [← hid, hg, Option.map_none]
    · rfl
  | some old =>
    change (c.entries.insert id { old with value }).get? other = _
    rw [Table.get?_insert]
    split_ifs with hid
    · rw [← hid, hg]
      rfl
    · rfl

theorem getEntry?_remove (c : Messages α) (id other : Snowflake) :
    getEntry? (c.remove id).1 other = if id = other then none else c.getEntry? other :=
  Table.get?_erase c.entries id other

end Cache.Messages

namespace Client.Caches

open Cache (Entry Messages)
open Gateway (Delivery)

variable {capacity : Nat} {c : Caches} {id : Snowflake} {d : Delivery} {data : Json}
  {p : Profile}

theorem exists_object (h : idOf? data = some id) : ∃ fields, data = .object fields := by
  cases data with
  | object fields => exact ⟨fields, rfl⟩
  | _ => cases h

theorem exists_overlay (fields : List (String × Json)) (updates : List Json) :
    ∃ fields', updates.foldl overlay (.object fields) = .object fields' := by
  induction updates generalizing fields with
  | nil => exact ⟨fields, rfl⟩
  | cons u updates ih =>
    cases u with
    | object changes => exact ih _
    | _ => exact ih fields

theorem field?_overlay {update : Json} (hu : update.WellFormed) (fields : List (String × Json))
    (key : String) :
    (overlay (.object fields) update).field? key =
      (update.field? key).or (Json.lookup key fields) := by
  cases update with
  | object changes => exact Json.lookup_assign_all hu.1 key fields
  | _ => rfl

theorem field?_foldl_overlay {updates : List Json} (hu : ∀ u ∈ updates, u.WellFormed)
    (fields : List (String × Json)) (key : String) :
    (updates.foldl overlay (.object fields)).field? key =
      (updates.reverse.findSome? (Json.field? key)).or (Json.lookup key fields) := by
  induction updates using List.reverseRecOn with
  | nil => rfl
  | append_singleton updates u ih =>
    obtain ⟨fields', heq⟩ := exists_overlay fields updates
    have ih := ih fun u hm => hu u (List.mem_append_left _ hm)
    rw [heq] at ih
    rw [List.foldl_concat, heq, field?_overlay (hu u (by simp)), List.reverse_concat,
      List.findSome?_cons]
    cases u.field? key with
    | some v => rfl
    | none => exact ih

def creation? (id : Snowflake) : Delivery → Option Json
  | .event e => if e.kind = "MESSAGE_CREATE" ∧ idOf? e.data = some id then some e.data else none
  | _ => none

def revision? (id : Snowflake) : Delivery → Option Json
  | .event e => if e.kind = "MESSAGE_UPDATE" ∧ idOf? e.data = some id then some e.data else none
  | _ => none

theorem revision?_of_passes (hd : Passes d) : revision? id d = none := by
  cases d with
  | event e =>
    refine if_neg ?_
    rintro ⟨hk, -⟩
    exact hd (by simp [hk])
  | _ => rfl

theorem idOf?_of_creation? (h : creation? id d = some data) : idOf? data = some id := by
  cases d with
  | event e =>
    dsimp only [creation?] at h
    split_ifs at h with hc
    obtain rfl := Option.some.inj h
    exact hc.2
  | _ => cases h

def entryOf (c : Caches) (id : Snowflake) (data : Json) : Entry StoredMessage where
  timestamp := timestampOf id data
  value := ⟨(authorOf? data).map fun p => (author c.users p).2, data⟩
  arrival := c.messages.nextArrival

/-- An entry with updates laid over its message, the earliest first. -/
def revise (e : Entry StoredMessage) (updates : List Json) : Entry StoredMessage :=
  { e with value := { e.value with data := updates.foldl overlay e.value.data } }

theorem revise_append (e : Entry StoredMessage) (updates more : List Json) :
    revise (revise e updates) more = revise e (updates ++ more) := by
  simp [revise]

theorem messages_messageCreated (hid : idOf? data = some id) :
    (c.messageCreated data).messages =
      (c.messages.add id (timestampOf id data) (c.entryOf id data).value).cache := by
  unfold messageCreated entryOf authorOf?
  rw [hid]
  dsimp only
  cases (data.field? "author").bind fun a => Profile.decode (.ofJson a) <;> rfl

theorem messageUpdated_of_absent (hid : idOf? data = some id)
    (hg : c.messages.getEntry? id = none) : c.messageUpdated data = c := by
  have hget : c.messages.get? id = none := by rw [Messages.get?, hg, Option.map_none]
  rw [messageUpdated, hid]
  simp only [hget]

theorem messages_messageUpdated (hid : idOf? data = some id) {e : Entry StoredMessage}
    (hg : c.messages.getEntry? id = some e) :
    (c.messageUpdated data).messages = (c.messages.replace id (revise e [data]).value).1 := by
  have hget : c.messages.get? id = some e.value := by rw [Messages.get?, hg, Option.map_some]
  unfold messageUpdated
  rw [hid]
  dsimp only
  rw [hget]
  dsimp only [revise, List.foldl]
  cases ha : e.value.author with
  | none => rfl
  | some h =>
    dsimp only
    rw [Cache.Users.clone_snd]

theorem getEntry?_messageCreated {e' : Entry StoredMessage}
    (h : (c.messageCreated data).messages.getEntry? id = some e') :
    c.messages.getEntry? id = some e' ∨
      idOf? data = some id ∧ c.messages.getEntry? id = none ∧ e' = c.entryOf id data := by
  cases hid : idOf? data with
  | none =>
    rw [messageCreated, hid] at h
    exact Or.inl h
  | some own =>
    rw [messages_messageCreated hid] at h
    refine Or.imp_right ?_ (Messages.getEntry?_add h)
    rintro ⟨rfl, hn, he⟩
    exact ⟨rfl, hn, he⟩

theorem getEntry?_messageUpdated {e' : Entry StoredMessage}
    (h : (c.messageUpdated data).messages.getEntry? id = some e') :
    ∃ e, c.messages.getEntry? id = some e ∧
      e' = revise e (if idOf? data = some id then [data] else []) := by
  cases hid : idOf? data with
  | none =>
    rw [messageUpdated, hid] at h
    exact ⟨e', h, by simp [revise]⟩
  | some own =>
    cases hg : c.messages.getEntry? own with
    | none =>
      rw [messageUpdated_of_absent hid hg] at h
      refine ⟨e', h, ?_⟩
      have hne : own ≠ id := by
        rintro rfl
        rw [hg] at h
        cases h
      simp [hne, revise]
    | some e =>
      rw [messages_messageUpdated hid hg, Messages.getEntry?_replace] at h
      split_ifs at h with ho
      · obtain rfl := ho
        rw [hg] at h
        obtain rfl := Option.some.inj h
        exact ⟨e, hg, by simp [revise]⟩
      · exact ⟨e', h, by simp [ho, revise]⟩

theorem getEntry?_messageDeleted {e : Entry StoredMessage}
    (h : (c.messageDeleted data).messages.getEntry? id = some e) :
    c.messages.getEntry? id = some e := by
  cases hid : idOf? data with
  | none => rwa [messageDeleted, hid] at h
  | some own =>
    rw [messageDeleted, hid] at h
    dsimp only at h
    rw [Messages.getEntry?_remove] at h
    split_ifs at h
    exact h

theorem messages_userUpdated (c : Caches) (data : Json) :
    (c.userUpdated data).messages = c.messages := by
  unfold userUpdated
  cases Profile.decode (.ofJson data) <;> rfl

/-- An entry after a delivery was there before, but for an update, or its message has just come in. -/
theorem getEntry?_observe {e' : Entry StoredMessage}
    (h : (c.observe d).messages.getEntry? id = some e') :
    (∃ e, c.messages.getEntry? id = some e ∧ e' = revise e (revision? id d).toList) ∨
      ∃ data, creation? id d = some data ∧ c.messages.getEntry? id = none ∧
        e' = c.entryOf id data := by
  have hkept (hr : revision? id d = none) (he : c.messages.getEntry? id = some e') :
      ∃ e, c.messages.getEntry? id = some e ∧ e' = revise e (revision? id d).toList := by
    rw [hr]
    exact ⟨e', he, rfl⟩
  have hd := handled_observe c d
  generalize c.observe d = c' at hd h
  cases hd with
  | @created e hk =>
    refine (getEntry?_messageCreated h).imp (hkept (by simp [revision?, hk])) ?_
    rintro ⟨hid, hn, he⟩
    exact ⟨e.data, by simp [creation?, hk, hid], hn, he⟩
  | @updated e hk =>
    refine Or.inl ?_
    obtain ⟨old, hg, he⟩ := getEntry?_messageUpdated h
    refine ⟨old, hg, he.trans (congrArg _ ?_)⟩
    by_cases hid : idOf? e.data = some id <;> simp [revision?, hk, hid]
  | deleted hk =>
    exact Or.inl (hkept (by simp [revision?, hk]) (getEntry?_messageDeleted h))
  | renamed hk =>
    rw [messages_userUpdated] at h
    exact Or.inl (hkept (by simp [revision?, hk]) h)
  | passed hd => exact Or.inl (hkept (revision?_of_passes hd) h)

def standing (m : Cache.Message StoredMessage) : Snowflake × Timestamp × Option Cache.Handle :=
  (m.id, m.timestamp, m.value.author)

/-- Updates keep the messages in their order, with their times and the handles of their authors. -/
theorem arrivals_messageUpdated (k : Kept capacity c) (data : Json) :
    (c.messageUpdated data).messages.arrivals.map standing =
      c.messages.arrivals.map standing := by
  cases hid : idOf? data with
  | none => rw [messageUpdated, hid]
  | some id =>
    cases hg : c.messages.getEntry? id with
    | none => rw [messageUpdated_of_absent hid hg]
    | some e =>
      have hd := k.mirrors.inLine.distinct
      have hentries := Messages.entries_replace hd hg (revise e [data]).value
      rw [messages_messageUpdated hid hg, Messages.replace, hg]
      dsimp only [Messages.arrivals]
      rw [hentries, List.map_map, List.map_map, List.map_map]
      refine List.map_congr_left fun entry hm => ?_
      dsimp only [Function.comp_apply]
      split_ifs with hkey
      · have he := Table.get?_of_mem hd hm
        rw [hkey] at he
        obtain rfl : e = entry.2 := Option.some.inj (hg.symm.trans he)
        rfl
      · rfl

variable {before history later : List Delivery}

/-- A message came in when its id was absent, and the id has been cached ever since. -/
structure Since (capacity : Nat) (id : Snowflake) (before : List Delivery) (d : Delivery)
    (later : List Delivery) (data : Json) : Prop where
  created : creation? id d = some data
  absent : (after capacity before).messages.contains id = false
  present : ∀ part, part <+: later →
    (after capacity (before ++ d :: part)).messages.contains id = true

/-- Every cached message goes back to the one delivery that brought it in, and is what the updates
since then have made of it. -/
theorem exists_since {e : Entry StoredMessage}
    (h : (after capacity history).messages.getEntry? id = some e) :
    ∃ before d later data, history = before ++ d :: later ∧
      Since capacity id before d later data ∧
      e = revise ((after capacity before).entryOf id data) (later.filterMap (revision? id)) := by
  induction history using List.reverseRecOn generalizing e with
  | nil => cases h
  | append_singleton history d ih =>
    have hpresent : (after capacity (history ++ [d])).messages.contains id = true :=
      Option.isSome_iff_exists.mpr ⟨e, h⟩
    rw [after_concat] at h
    obtain ⟨former, hformer, rfl⟩ | ⟨data, hcreated, hnone, rfl⟩ := getEntry?_observe h
    · obtain ⟨before, first, later, data, rfl, hsince, rfl⟩ := ih hformer
      refine ⟨before, first, later ++ [d], data, by simp, ⟨hsince.created, hsince.absent, ?_⟩, ?_⟩
      · intro part hpart
        rcases List.prefix_concat_iff.mp hpart with rfl | hpart
        · simpa using hpresent
        · exact hsince.present part hpart
      · rw [revise_append, List.filterMap_append]
        cases hr : revision? id d <;> simp [hr]
    · refine ⟨history, d, [], data, rfl, ⟨hcreated, ?_, ?_⟩, rfl⟩
      · exact Option.isSome_eq_false_iff.mpr (Option.isNone_iff_eq_none.mpr hnone)
      · intro part hpart
        rwa [List.prefix_nil.mp hpart]

/-- The id of the user whose profile some data are, as the member of that name or, in a list of
members, as the first. -/
def profileId? : Json → Option Snowflake
  | .array (first :: _) => Snowflake.decode (.ofJson first)
  | data => idOf? data

theorem profileId?_of_decode (h : Profile.decode (.ofJson data) = some p) :
    profileId? data = some p.id := by
  obtain ⟨r, hr, h⟩ := Option.bind_eq_some_iff.mp h
  obtain ⟨id, hid, h⟩ := Option.bind_eq_some_iff.mp h
  simp only [Option.bind_eq_bind, Option.bind_eq_some_iff] at h
  obtain ⟨username, -, globalName, -, avatar, -, bot, -, h⟩ := h
  obtain rfl := Option.some.inj h
  dsimp only
  cases data with
  | object fields =>
    rw [(Json.Record.holds_of_read? hr).required (by simp)] at hid
    exact hid
  | array items =>
    cases items with
    | nil =>
      obtain rfl := Option.some.inj hr
      cases hid
    | cons first items =>
      rw [Json.Tree.ofJson, Json.Tree.ofItems, Json.Record.read?] at hr
      split_ifs at hr
      obtain rfl := Option.some.inj hr
      exact hid
  | _ => cases hr

def subject? (e : Gateway.Event) : Option Snowflake :=
  if e.kind = "USER_UPDATE" then profileId? e.data else idOf? e.data

/-- An event that does not say what it is about changes nothing. -/
theorem observe_of_subject?_eq_none {e : Gateway.Event} (h : subject? e = none) (c : Caches) :
    c.observe (.event e) = c := by
  have hmessage (hk : e.kind ≠ "USER_UPDATE") : idOf? e.data = none := by
    rwa [subject?, if_neg hk] at h
  have hd := handled_observe c (.event e)
  generalize c.observe (.event e) = c' at hd
  cases hd with
  | created hk => rw [messageCreated, hmessage (by simp [hk])]
  | updated hk => rw [messageUpdated, hmessage (by simp [hk])]
  | deleted hk => rw [messageDeleted, hmessage (by simp [hk])]
  | renamed hk =>
    rw [subject?, if_pos hk] at h
    cases hp : Profile.decode (.ofJson e.data) with
    | none => rw [userUpdated, hp]
    | some p => simp [profileId?_of_decode hp] at h
  | passed => rfl

theorem foldl_call {σ : Type} (handler : σ → Delivery → σ) (w : Watched σ)
    (deliveries : List Delivery) :
    deliveries.foldl (Watched.call handler) w =
      ⟨deliveries.foldl observe w.caches, deliveries.foldl handler w.application⟩ := by
  induction deliveries generalizing w with
  | nil => rfl
  | cons d deliveries ih => exact ih (w.call handler d)

/-- The caches of a client are what its deliveries have made of them, one after another, and the
application behind them is called with every delivery as it came. -/
theorem caches_follow_deliveries (capacity : Nat) (history : List Delivery) :
    let c := after capacity history
    (∀ id e, c.messages.getEntry? id = some e →
      ∃ before d later data, history = before ++ d :: later ∧
        Since capacity id before d later data ∧
        let updates := later.filterMap (revision? id)
        e = revise ((after capacity before).entryOf id data) updates ∧
        ((∀ u ∈ updates, u.WellFormed) → ∀ key, e.value.data.field? key =
          (updates.reverse.findSome? (Json.field? key)).or (data.field? key))) ∧
    (∀ e, e.kind = "MESSAGE_UPDATE" → (c.observe (.event e)).messages.arrivals.map standing =
      c.messages.arrivals.map standing) ∧
    (∀ id, c.users.contains id = true →
      ∃ p before d later, c.users.registered? id = some p ∧ history = before ++ d :: later ∧
        Named capacity id before d later p) ∧
    (∀ e, subject? e = none → c.observe (.event e) = c) ∧
    ∀ (σ : Type) (handler : σ → Delivery → σ) (s : σ),
      history.foldl (Watched.call handler) ⟨create capacity, s⟩ = ⟨c, history.foldl handler s⟩ := by
  have k := kept_after capacity history
  refine ⟨fun id e he => ?_, fun e hk => ?_, fun id hc => ?_, fun e he => ?_, ?_⟩
  · obtain ⟨before, d, later, data, hh, hsince, he⟩ := exists_since he
    refine ⟨before, d, later, data, hh, hsince, he, fun hu key => ?_⟩
    obtain ⟨fields, rfl⟩ := exists_object (idOf?_of_creation? hsince.created)
    rw [he]
    exact field?_foldl_overlay hu fields key
  · have hobserve : (after capacity history).observe (.event e) =
        (after capacity history).messageUpdated e.data := by
      simp [Caches.observe, apply, hk]
    rw [hobserve]
    exact arrivals_messageUpdated k e.data
  · obtain ⟨p, hp, -⟩ := k.balanced.own.registered? hc
    obtain ⟨before, d, later, hh, hnamed⟩ := exists_named hp
    exact ⟨p, before, d, later, hp, hh, hnamed⟩
  · exact observe_of_subject?_eq_none he (after capacity history)
  · intro σ handler s
    exact foldl_call handler ⟨create capacity, s⟩ history

/-- A message, another one under its id by somebody else, an update, a new name for the author and
an update of nothing. -/
def edited : List Delivery :=
  let say (kind : String) (fields : List (String × Json)) := .event ⟨kind, none, .object fields⟩
  let user (id name : String) : Json := .object [("id", .string id), ("username", .string name)]
  [say "MESSAGE_CREATE"
      [("id", .string "5"), ("content", .string "one"), ("author", user "7" "ada")],
    say "MESSAGE_CREATE"
      [("id", .ofNat 5), ("content", .string "two"), ("author", user "8" "bob")],
    say "MESSAGE_UPDATE" [("id", .string "5"), ("content", .string "three")],
    say "USER_UPDATE" [("id", .string "7"), ("username", .string "eve")],
    say "MESSAGE_UPDATE" [("content", .string "four")]]

theorem edited_message_goes_back :
    ((after 2 edited).messages.get? ⟨5⟩).bind StoredMessage.content? = some "three" ∧
    ((after 2 edited).users.registered? ⟨7⟩).map Profile.username = some "eve" ∧
    (after 2 edited).users.contains ⟨8⟩ = false ∧
    (∃ before d later data, edited = before ++ d :: later ∧ Since 2 ⟨5⟩ before d later data) ∧
    ∃ p before d later, edited = before ++ d :: later ∧ Named 2 ⟨7⟩ before d later p := by
  obtain ⟨hmessages, -, husers, -⟩ := caches_follow_deliveries 2 edited
  refine ⟨by decide +kernel, by decide +kernel, by decide +kernel, ?_, ?_⟩
  · have hcached : ((after 2 edited).messages.getEntry? ⟨5⟩).isSome = true := by decide +kernel
    obtain ⟨e, he⟩ := Option.isSome_iff_exists.mp hcached
    obtain ⟨before, d, later, data, hh, hsince, -⟩ := hmessages ⟨5⟩ e he
    exact ⟨before, d, later, data, hh, hsince⟩
  · obtain ⟨p, before, d, later, -, hh, hnamed⟩ := husers ⟨7⟩ (by decide +kernel)
    exact ⟨p, before, d, later, hh, hnamed⟩

end Client.Caches

end Parley
