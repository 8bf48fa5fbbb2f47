import Parley.Proofs.Json.RoundTrip
import Parley.Proofs.Rest.Booking
import Parley.Proofs.Rest.GlobalLimit
import Parley.Proofs.Rest.Waits

/-! Which refusals are recognised as refusals of the whole account, and how long these block the gate.
Each header is read on its own, but a body is heard as a whole or not at all: a mark in it is lost
if the wait beside it is missing or cannot be read. -/
namespace Parley.Rest

/-- A body that can be read gives no second mark beside a true one. -/
theorem RefusalBody.eq_true_of_mem {x : Binary64} {isGlobal : Bool}
    {fields : List (Option String × Json.Tree)} (h : RefusalBody x isGlobal (.object fields))
    (hm : (some "global", .bool true) ∈ fields) : isGlobal = true := by
  generalize ht : Json.Tree.object fields = t at h
  cases h with
  | array => simp at ht
  | @object members n hw hx hg =>
    obtain rfl := Json.Tree.object.inj ht
    obtain ⟨⟨k, m⟩, hin, he⟩ := List.mem_map.mp hm
    obtain ⟨rfl, rfl⟩ : k = "global" ∧ m = .bool true := by simpa using he
    have hnamed : Json.Tree.bool true ∈ Json.named "global" members :=
      List.mem_map.mpr ⟨_, List.mem_filter.mpr ⟨hin, by simp⟩, rfl⟩
    rcases hg with ⟨hg, -⟩ | hg
    · simp [hg] at hnamed
    · simpa [hg, eq_comm] using hnamed

namespace RateLimit

variable {headers : Headers} {body : List UInt8}

def HeaderMarks (headers : Headers) : Prop :=
  ∃ v, headers.text? "x-ratelimit-global" = some v ∧ Headers.lowerAscii v = "true"

/-- The response marks the limit as that of the whole account, in its header or as a member of its
body. -/
inductive MarksGlobal (headers : Headers) (body : List UInt8) : Prop
  | header (h : HeaderMarks headers)
  | body {fields : List (Option String × Json.Tree)}
      (hr : Json.Tree.read? body = some (.object fields))
      (hm : (some "global", .bool true) ∈ fields)

/-- The client sees such a mark, in the header or in a body that it can read as a whole. -/
inductive SeesGlobal (headers : Headers) (body : List UInt8) : Prop
  | header (h : HeaderMarks headers)
  | body {t : Json.Tree} {x : Binary64} (hr : Json.Tree.read? body = some t)
      (h : RefusalBody x true t)

/-- The wait that a refusal imposes: that of the header, or else of the body, or else the time to the
end of the window, or else the client's own. -/
def imposed (headers : Headers) (body : List UInt8) (own : Duration) : Duration :=
  ((((number? headers "retry-after").bind Duration.ofSeconds?).or
    ((said? body).bind fun said => Duration.ofSeconds? said.1)).or
    ((number? headers "x-ratelimit-reset-after").bind Duration.ofSeconds?)).getD own

theorem said?_eq_some_iff {x : Binary64} {isGlobal : Bool} : said? body = some (x, isGlobal) ↔
    ∃ t, Json.Tree.read? body = some t ∧ RefusalBody x isGlobal t := by
  simp only [said?, Option.bind_eq_some_iff, refusal_eq_some_iff]

theorem isGlobal_mergeBody (info : RateLimit) (body : List UInt8) :
    (info.mergeBody body).isGlobal = (info.isGlobal || (said? body).any Prod.snd) := by
  unfold mergeBody said?
  split <;> next h => simp [h]

theorem isGlobal_iff :
    ((ofHeaders headers).mergeBody body).isGlobal = true ↔ SeesGlobal headers body := by
  have hheader : (ofHeaders headers).isGlobal = true ↔ HeaderMarks headers := by
    simp [ofHeaders, HeaderMarks, Option.any_eq_true]
  have hbody : (said? body).any Prod.snd = true ↔
      ∃ x t, Json.Tree.read? body = some t ∧ RefusalBody x true t := by
    simp [Option.any_eq_true, said?_eq_some_iff]
  rw [isGlobal_mergeBody, Bool.or_eq_true, hheader, hbody]
  constructor
  · rintro (h | ⟨x, t, hr, h⟩)
    · exact .header h
    · exact .body hr h
  · rintro (h | ⟨hr, h⟩)
    · exact Or.inl h
    · exact Or.inr ⟨_, _, hr, h⟩

/-- A mark in the body is seen exactly if the body can be read as a whole. -/
theorem seesGlobal_iff_of_marks (h : MarksGlobal headers body) :
    SeesGlobal headers body ↔ HeaderMarks headers ∨ (said? body).isSome := by
  constructor
  · rintro (h | ⟨hr, h⟩)
    · exact Or.inl h
    · exact Or.inr (Option.isSome_of_eq_some (said?_eq_some_iff.mpr ⟨_, hr, h⟩))
  · rintro (hh | hs)
    · exact .header hh
    · cases h with
      | header hh => exact .header hh
      | @body fields hr hm =>
        obtain ⟨⟨x, isGlobal⟩, hs⟩ := Option.isSome_iff_exists.mp hs
        obtain ⟨t, ht, hb⟩ := said?_eq_some_iff.mp hs
        obtain rfl := Option.some.inj (hr.symm.trans ht)
        obtain rfl := hb.eq_true_of_mem hm
        exact .body hr hb

theorem backoff_mergeBody (headers : Headers) (body : List UInt8) (own : Duration) :
    ((ofHeaders headers).mergeBody body).backoff?.getD own = imposed headers body own := by
  rw [backoff?, Option.orElse_eq_orElse, Option.orElse_eq_or, retryAfter_mergeBody,
    resetAfter_mergeBody, resetAfter_ofHeaders, retryAfter_ofHeaders]
  rfl

end RateLimit

namespace Queue

variable {q q' : Queue} {now : Instant}

theorem Edit.backoff_eq (h : Edit now q q') : q'.registry.backoff = q.registry.backoff := by
  cases h with
  | look => rfl
  | trip until_ => rfl
  | resolve key => exact q.registry.backoff_resolve key now
  | unify number hash => exact q.registry.backoff_unify number hash now
  | serve h hb => rfl

theorem Move.backoff_eq (h : Move now q q') : q'.registry.backoff = q.registry.backoff := by
  cases h with
  | edits h =>
    induction h with
    | refl => rfl
    | tail _ he ih => exact he.backoff_eq.trans ih
  | close reason => rfl
  | cleanup idle => rfl

end Queue

theorem Traffic.backoff_run (own : Duration) (events : List Event) :
    ((create own).run events).queue.registry.backoff = own := by
  refine run_keeps (P := fun q => q.registry.backoff = own) _ events rfl ?_
  intro e _ q q' hm hq
  exact hm.backoff_eq.trans hq

namespace Queue

variable {q : Queue} {lane : Nat} {b : Bucket}

/-- The gate is not touched before the last sum is made. -/
theorem gate_charge (hb : q.registry.bucketOf? lane = some b) (info : RateLimit) (now : Instant) :
    (info.isGlobal = true → b.Reaches info true q.registry.backoff now →
      (q.charge lane info true now).1.gate =
        q.gate.trip (now.plus (info.backoff?.getD q.registry.backoff))) ∧
    (¬ (info.isGlobal = true ∧ b.Reaches info true q.registry.backoff now) →
      (q.charge lane info true now).1.gate = q.gate) := by
  have hiff := charge_isSome_iff hb info true now
  obtain ⟨l, hl, rfl⟩ := Registry.bucketOf?_eq_some.mp hb
  rw [← hiff]
  unfold charge
  simp only [hl]
  cases hu : l.bucket.update? info now with
  | none => simp [setBucket]
  | some bucket =>
    cases ha : now.after? (info.backoff?.getD q.registry.backoff) with
    | none => simp [setBucket]
    | some reset =>
      have hreset := Instant.after?_eq_some ha
      cases hg : info.isGlobal with
      | false => simp [setBucket]
      | true => simp [setBucket, hreset]

end Queue

namespace Traffic

variable {x : Traffic} {e : Event} {a : Answer}

theorem charge_of_answer (h : x.answer? e = some a) :
    (x.next e).queue = ((a.merged x.queue e.time).1.charge (a.merged x.queue e.time).2
      (Queue.infoOf a.response) a.response.isRefusal e.time).1 := by
  rw [next_of_answer h, Queue.book_eq]
  rfl

/-- A refusal of the whole account is recognised if its header marks it, or if its body does and can
be read as a whole. Then it blocks the gate until the wait that it imposes is over, if the clock
reaches so far; and otherwise the gate stays as it is. -/
theorem gate_takes_seen_mark (own : Duration) (events : List Event) {id used : Nat} {s : Submission}
    (hs : ((create own).run events).submissions id = some s) (hp : s.phase = .sending used)
    (headers : Headers) (body : List UInt8) (now : Instant) :
    let x := (create own).run events
    let a : Answer := ⟨id, s, used, ⟨429, .ofHeaders headers, body⟩⟩
    let until_ := now.plus (RateLimit.imposed headers body own)
    let gate := (x.next ⟨now, .wake id (.answered (.ok a.response))⟩).queue.gate
    ∃ b, a.bucket? x.queue now = some b ∧
      (RateLimit.SeesGlobal headers body → b.Reaches (Queue.infoOf a.response) true own now →
        gate = x.queue.gate.trip until_ ∧ gate.Covers until_) ∧
      (¬ (RateLimit.SeesGlobal headers body ∧ b.Reaches (Queue.infoOf a.response) true own now) →
        gate = x.queue.gate) ∧
      (RateLimit.MarksGlobal headers body →
        (RateLimit.SeesGlobal headers body ↔
          RateLimit.HeaderMarks headers ∨ (RateLimit.said? body).isSome)) := by
  intro x a until_ gate
  have ha : x.answer? ⟨now, .wake id (.answered (.ok a.response))⟩ = some a :=
    answer?_of_sending rfl hs hp
  obtain ⟨b, hb⟩ := (sound_run own events).bucket?_isSome ha
  have hbooked : gate = ((a.merged x.queue now).1.charge (a.merged x.queue now).2
      (Queue.infoOf a.response) true now).1.gate :=
    congrArg Queue.gate (charge_of_answer ha)
  have hown : (a.merged x.queue now).1.registry.backoff = own :=
    (a.backoff_merged x.queue now).trans (backoff_run own events)
  have hinfo : Queue.infoOf a.response = (RateLimit.ofHeaders headers).mergeBody body := rfl
  -- the landing and the merge before the booking change the registry only
  have hsame : (a.merged x.queue now).1.gate = x.queue.gate := rfl
  obtain ⟨hseen, hunseen⟩ := Queue.gate_charge hb (Queue.infoOf a.response) now
  rw [← hbooked, hown, hsame, hinfo, RateLimit.isGlobal_iff] at hseen hunseen
  rw [RateLimit.backoff_mergeBody] at hseen
  refine ⟨b, hb, ?_, hunseen, RateLimit.seesGlobal_iff_of_marks⟩
  intro hs hr
  have htrip := hseen hs hr
  exact ⟨htrip, htrip ▸ Gate.covers_trip x.queue.gate until_⟩

def oneRequest : List Event := sendOf 0 (plainRequest .get "/users")

/-- The case of a header does not matter, neither of its name nor of its value. -/
theorem mark_in_capitals_blocks :
    let x := (create (.ofMillis 750)).run oneRequest
    let r : Response :=
      ⟨429, .ofHeaders [("X-RateLimit-Global", "TRUE"), ("Retry-After", "5")], []⟩
    ∃ s, x.submissions 0 = some s ∧ s.phase = .sending 0 ∧
      (x.next ⟨⟨10⟩, .wake 0 (.answered (.ok r))⟩).queue.gate.Covers
        (Instant.plus ⟨10⟩ (.ofSecs 5)) := by
  refine ⟨_, rfl, rfl, ?_⟩
  obtain ⟨b, hb, hseen, -⟩ := gate_takes_seen_mark (.ofMillis 750) oneRequest
    (show ((create (.ofMillis 750)).run oneRequest).submissions 0 = some _ from rfl) rfl
    [("X-RateLimit-Global", "TRUE"), ("Retry-After", "5")] [] ⟨10⟩
  have hs : RateLimit.SeesGlobal [("X-RateLimit-Global", "TRUE"), ("Retry-After", "5")] [] :=
    .header ⟨"TRUE", by decide +kernel, by decide +kernel⟩
  have hwait : RateLimit.imposed [("X-RateLimit-Global", "TRUE"), ("Retry-After", "5")] []
      (.ofMillis 750) = .ofSecs 5 := by
    decide +kernel
  have hnone : (Queue.infoOf ⟨429, .ofHeaders [("X-RateLimit-Global", "TRUE"),
      ("Retry-After", "5")], []⟩).resetAfter = none := by
    decide +kernel
  have hr : b.Reaches (Queue.infoOf ⟨429, .ofHeaders [("X-RateLimit-Global", "TRUE"),
      ("Retry-After", "5")], []⟩) true (.ofMillis 750) ⟨10⟩ := by
    refine ⟨fun _ wait hw => ?_, fun _ => by decide +kernel⟩
    rw [hnone] at hw
    exact nomatch hw
  exact hwait ▸ (hseen hs hr).2

/-- A body that marks the limit as global and gives no wait is not heard, although the header gives
the wait. -/
theorem mark_without_wait_lost :
    let x := (create (.ofMillis 750)).run oneRequest
    let headers : Headers := [("Retry-After", "5")]
    let body := (Json.object [("global", .bool true)]).render.toUTF8.toList
    let y := x.next ⟨⟨10⟩, .wake 0 (.answered (.ok ⟨429, .ofHeaders headers, body⟩))⟩
    (x.submissions 0).map Submission.phase = some (.sending 0) ∧
      RateLimit.MarksGlobal headers body ∧
      (y.submissions 0).map Submission.phase ≠ some .lost ∧
      ∀ until_, ¬ y.queue.gate.Covers until_ := by
  intro x headers body y
  have hgate : y.queue.gate = ⟨none⟩ := by decide +kernel
  refine ⟨rfl, ?_, by decide +kernel, ?_⟩
  · have hr : Json.Tree.read? body = some (.object [(some "global", .bool true)]) :=
      Json.Tree.read?_render (by simp [Json.Integral, Json.IntegralFields])
        (by simp [Json.WellFormed, Json.WellFormedFields])
    exact .body hr List.mem_cons_self
  · rintro until_ ⟨t, ht, -⟩
    simp [hgate] at ht

end Traffic

end Parley.Rest
