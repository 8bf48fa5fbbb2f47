import Parley.Proofs.Rest.Closing
import Parley.Proofs.Rest.Deadlines

/-! How often a request is sent. After each outcome its policy decides whether it is sent again, and
the first outcome that is not retried is what its caller gets. -/
namespace Parley.Rest

def retriedWith (retried : Nat) : Outcome → Nat
  | .ok r => if r.isBadGateway then retried + 1 else retried
  | .error _ => retried

def Reports (outcome result : Outcome) : Prop :=
  match outcome with
  | .ok r =>
    if r.isSuccess then result = .ok r
    else if r.isRefusal then
      ∃ label, result = .error (.rateLimited label (Queue.infoOf r).backoff?)
    else ∃ code reason, result = .error (.server r.status code reason)
  | .error e => result = .error e

namespace Response

variable {r : Response}

theorem not_isRefusal_of_isSuccess (h : r.isSuccess = true) : r.isRefusal = false := by
  simp only [isSuccess, isRefusal, Bool.and_eq_true, decide_eq_true_eq, beq_eq_false_iff_ne] at h ⊢
  rintro he
  rw [he] at h
  exact absurd h.2 (by decide)

theorem not_isBadGateway_of_isSuccess (h : r.isSuccess = true) : r.isBadGateway = false := by
  simp only [isSuccess, isBadGateway, Bool.and_eq_true, decide_eq_true_eq, Bool.and_eq_false_iff,
    decide_eq_false_iff_not, UInt16.le_iff_toNat_le, UInt16.lt_iff_toNat_lt] at h ⊢
  refine Or.inl ?_
  have hlt : r.status.toNat < 300 := h.2
  change ¬ 502 ≤ r.status.toNat
  omega

theorem not_isBadGateway_of_isRefusal (h : r.isRefusal = true) : r.isBadGateway = false := by
  have hs : r.status = 429 := by simpa [isRefusal] using h
  simp [isBadGateway, hs]

end Response

namespace Submission

variable {q : Queue} {id : Nat} {s : Submission} {now : Instant} {wake : Wake}

theorem again_of_not_failed {q' : Queue} (hc : q'.closed = q.closed)
    (hf : s.terms.failure? (s.signals q) now = none) :
    s.again q' now = { s with phase := .entering } := by
  have hsame : s.signals q' = s.signals q := by simp [signals, Queue.failure?, hc]
  simp only [again, hsame, hf]

inductive Answered (s : Submission) (outcome : Outcome) : Submission → Prop
  | retried (h : Retries s.terms.retry s.badGateways outcome) :
      Answered s outcome
        { s with badGateways := retriedWith s.badGateways outcome, phase := .entering }
  | returned (h : ¬ Retries s.terms.retry s.badGateways outcome) {result : Outcome}
      (hr : Reports outcome result) : Answered s outcome (s.finish result)

theorem answered_onFailure (hf : s.terms.failure? (s.signals q) now = none) (lane : Nat)
    (e : ClientError) : Answered s (.error e) (onFailure q s lane e now).2 := by
  unfold onFailure
  dsimp only
  split_ifs with hr
  · have ha : s.again { q with registry := q.registry.modifyLane lane .refund } now =
        { s with phase := .entering } := again_of_not_failed rfl hf
    rw [ha]
    exact .retried hr
  · have hno : ¬ Retries s.terms.retry s.badGateways (.error e) := hr
    exact .returned hno rfl

theorem answered_onResponse (hf : s.terms.failure? (s.signals q) now = none) {lane : Nat}
    {r : Response} (hb : (q.book lane s.key r now).2.isSome) :
    Answered s (.ok r) (onResponse q s lane r now).2 := by
  have hc : (q.book lane s.key r now).1.closed = q.closed :=
    (Queue.Edits.book q lane s.key r).closed_eq
  unfold onResponse
  split
  · next hn => simp [hn] at hb
  · next q' booked he =>
    rw [he] at hc
    have hinfo := Queue.info_of_book he
    have hagain {retried : Nat} : ({ s with badGateways := retried } : Submission).again q' now =
        { s with badGateways := retried, phase := .entering } := again_of_not_failed hc hf
    have hsame : s.again q' now = { s with phase := .entering } := again_of_not_failed hc hf
    by_cases hs : r.isSuccess = true
    · rw [if_pos hs]
      refine .returned ?_ (by simp [Reports, hs])
      simp [Retries, Response.not_isRefusal_of_isSuccess hs,
        Response.not_isBadGateway_of_isSuccess hs]
    rw [if_neg hs]
    by_cases hr : r.isRefusal = true
    · have hbad := Response.not_isBadGateway_of_isRefusal hr
      rw [if_pos hr]
      by_cases hp : s.terms.retry.rateLimits = true
      · have hret : Answered s (.ok r) _ := .retried (Or.inl ⟨hr, hp⟩)
        simp only [retriedWith, hbad, Bool.false_eq_true, if_false] at hret
        rw [if_pos hp, hsame]
        exact hret
      · rw [if_neg hp]
        refine .returned (by simp [Retries, hp, hbad]) ?_
        simp [Reports, hs, hr, hinfo]
    rw [if_neg hr]
    by_cases hg : r.isBadGateway = true ∧ s.terms.retry.badGateway = true ∧
        s.badGateways < badGatewayLimit
    · have hret : Answered s (.ok r) _ := .retried (Or.inr hg)
      simp only [retriedWith, hg.1, if_true] at hret
      rw [if_pos (by simpa [and_assoc] using hg), hagain]
      exact hret
    · rw [if_neg (by simpa [and_assoc] using hg)]
      refine .returned ?_ (by simp [Reports, hs, hr, Response.toError])
      rintro (⟨href, -⟩ | h)
      · exact hr href
      · exact hg h

theorem answered_land (hf : s.terms.failure? (s.signals q) now = none) {lane : Nat}
    {outcome : Outcome}
    (hb : ∀ r, outcome = .ok r → (Queue.book { q with
      registry := q.registry.modifyLane lane (·.land id) } lane s.key r now).2.isSome) :
    Answered s outcome (land q id s lane outcome now).2 := by
  cases outcome with
  | ok r =>
    have hf' : s.terms.failure? (s.signals { q with
      registry := q.registry.modifyLane lane (·.land id) }) now = none := hf
    exact answered_onResponse hf' (hb r rfl)
  | error e =>
    have hf' : s.terms.failure? (s.signals { q with
      registry := q.registry.modifyLane lane (·.land id) }) now = none := hf
    exact answered_onFailure hf' lane e

/-- Where a request stands with the transport; none if it is lost. -/
inductive Standing where
  | between
  | sending
  | returned (result : Outcome)

def standing? (s : Submission) : Option Standing :=
  match s.phase with
  | .sending _ => some .sending
  | .done result => some (.returned result)
  | .lost => none
  | _ => some .between

theorem standing?_of_isSending (h : s.isSending = true) : s.standing? = some .sending := by
  obtain ⟨lane, hp⟩ := exists_lane_of_isSending h
  simp only [standing?, hp]

theorem standing?_between (ho : s.isOver = false) (h : s.isSending = false) :
    s.standing? = some .between := by
  unfold isSending at h
  unfold isOver at ho
  unfold standing?
  cases hp : s.phase <;> simp_all

theorem blockedUntil_of_isOpen {g : Gate} (h : g.isOpen now = true) :
    ((g.blockedUntil now).1.blockedUntil now).2 = none := by
  unfold Gate.isOpen Gate.blockedUntil at h
  unfold Gate.blockedUntil
  cases hb : g.blocked with
  | none => simp [hb]
  | some until_ =>
    by_cases hlt : now < until_
    · simp [hb, hlt] at h
    · simp [hlt]

/-- A request that comes to the open gate and is granted a slot then is sent. -/
theorem isSending_of_knocks {a : Question} (h : knocks? q id s now = some a)
    (hg : a.answer.2 = .granted) : (enter q id s now).2.isSending = true := by
  rw [enter_of_knocks h]
  unfold knocks? at h
  split_ifs at h with hc
  obtain ⟨lane, hl, rfl⟩ := Option.map_eq_some_iff.mp h
  have hgate := blockedUntil_of_isOpen hc.2
  have hserves := q.registry.serves_resolve s.key now
  generalize lane.arrive id s.terms (s.signals q) now = answer at hg ⊢
  obtain ⟨lane', place⟩ := answer
  obtain rfl : place = .granted := hg
  have hres := Registry.resolve_of_serves
    (r := (passed q s now).registry.setLane (q.registry.resolve s.key now).2 lane') hserves now
  simp only [settle, launch, hres]
  simp [passed, hgate, isSending]

end Submission

inductive Mark where
  | sent
  | got (outcome : Outcome)

open Submission (Standing)

/-- Sends and outcomes as the policy wants them, with the count of retried bad gateways and where
the request stands after them. -/
inductive Follows (p : RetryPolicy) : List Mark → Nat → Standing → Prop
  | start : Follows p [] 0 .between
  | send {marks : List Mark} {retried : Nat} (h : Follows p marks retried .between) :
      Follows p (marks ++ [.sent]) retried .sending
  | retry {marks : List Mark} {retried : Nat} {outcome : Outcome}
      (h : Follows p marks retried .sending) (hr : Retries p retried outcome) :
      Follows p (marks ++ [.got outcome]) (retriedWith retried outcome) .between
  | finish {marks : List Mark} {retried : Nat} {outcome result : Outcome}
      (h : Follows p marks retried .sending) (hr : ¬ Retries p retried outcome)
      (hv : Reports outcome result) :
      Follows p (marks ++ [.got outcome]) retried (.returned result)

namespace Traffic

variable {x : Traffic} {e : Event} {events : List Event} {id : Nat} {s : Submission}

/-- The step that the request takes, with the state from which it takes it. -/
def stepOf? (x : Traffic) (id : Nat) (e : Event) : Option (Submission × Wake) :=
  match e.act, x.submissions id with
  | .wake other wake, some s =>
    if other = id ∧ s.allows x.queue id e.time wake = true then some (s, wake) else none
  | _, _ => none

theorem stepOf?_eq_some {wake : Wake} (h : x.stepOf? id e = some (s, wake)) :
    e.act = .wake id wake ∧ x.submissions id = some s ∧
      s.allows x.queue id e.time wake = true ∧
      x.next e = x.put id (s.step x.queue id e.time wake) := by
  unfold stepOf? at h
  split at h
  · next other wake' s' hact hs =>
    split_ifs at h with hc
    obtain ⟨rfl, hallow⟩ := hc
    obtain ⟨rfl, rfl⟩ := Prod.mk.inj (Option.some.inj h)
    refine ⟨hact, hs, hallow, ?_⟩
    simp only [next, hact, hs, hallow, if_true]
  · simp at h

theorem stepOf?_of_stepped {wake : Wake} (ha : e.act = .wake id wake)
    (hs : x.submissions id = some s) (hw : s.allows x.queue id e.time wake = true) :
    x.stepOf? id e = some (s, wake) := by
  simp [stepOf?, ha, hs, hw]

def marksOf (x : Traffic) (id : Nat) (e : Event) : List Mark :=
  match x.stepOf? id e with
  | some (_, .answered outcome) => [.got outcome]
  | some (s, wake) => if (s.step x.queue id e.time wake).2.isSending then [.sent] else []
  | none => []

def marks (id : Nat) : Traffic → List Event → List Mark
  | _, [] => []
  | x, e :: events => x.marksOf id e ++ marks id (x.next e) events

/-- Nobody gives the request up or closes the queue; its steps come before its deadline, and neither
the gate nor a bucket refuses it anything. -/
structure Spares (x : Traffic) (id : Nat) (e : Event) : Prop where
  not_canceled : e.act ≠ .cancel id
  not_abandoned : e.act ≠ .abandon id
  not_closed : ∀ reason, e.act ≠ .close reason
  in_time : ∀ s wake, x.stepOf? id e = some (s, wake) → e.time < s.terms.deadline
  admitted : ∀ s wake, x.stepOf? id e = some (s, wake) → s.isSending = false →
    (s.step x.queue id e.time wake).2.isOver = false

def Undisturbed (id : Nat) : Traffic → List Event → Prop
  | _, [] => True
  | x, e :: events => x.Spares id e ∧ Undisturbed id (x.next e) events

/-- The response that a request gets is booked, wherever it belongs. -/
def Books (x : Traffic) (id : Nat) (e : Event) : Prop :=
  ∀ a, x.answer? e = some a → a.id = id →
    ((a.landed x.queue).book a.lane a.submission.key a.response e.time).2.isSome

def BooksAll (id : Nat) : Traffic → List Event → Prop
  | _, [] => True
  | x, e :: events => x.Books id e ∧ BooksAll id (x.next e) events

theorem next_of_no_step (h : x.stepOf? id e = none) (hc : e.act ≠ .cancel id)
    (ha : e.act ≠ .abandon id) :
    (x.next e).submissions id = x.submissions id ∨
      x.submissions id = none ∧ ∃ request,
        (x.next e).submissions id = some (.create request e.time) := by
  cases hn : (x.next e).submissions id with
  | none =>
    refine Or.inl ?_
    cases ho : x.submissions id with
    | none => rfl
    | some old =>
      have hthere := isSome_next (Option.isSome_of_eq_some ho) e
      simp [hn] at hthere
  | some s' =>
    cases becomes_of_next hn with
    | stays ho => exact Or.inl ho.symm
    | created _ ho => exact Or.inr ⟨ho, _, rfl⟩
    | stepped hact ho hw _ =>
      rw [stepOf?_of_stepped hact ho hw] at h
      simp at h
    | canceled hact => exact absurd hact hc
    | abandoned hact => exact absurd hact ha

theorem marksOf_of_silent (h : x.stepOf? id e = none) : x.marksOf id e = [] := by
  simp [marksOf, h]

theorem marksOf_of_answer {outcome : Outcome} (h : x.stepOf? id e = some (s, .answered outcome)) :
    x.marksOf id e = [.got outcome] := by
  simp [marksOf, h]

theorem marksOf_of_unanswered {wake : Wake} (h : x.stepOf? id e = some (s, wake))
    (hno : ∀ outcome, wake ≠ .answered outcome) :
    x.marksOf id e =
      if (s.step x.queue id e.time wake).2.isSending then [.sent] else [] := by
  unfold marksOf
  rw [h]
  cases wake with
  | answered outcome => exact absurd rfl (hno outcome)
  | _ => rfl

/-- The sends and outcomes of a request are what its policy wants, as far as it has come. -/
def Obeys (s : Submission) (sofar : List Mark) : Prop :=
  ∃ standing ∈ s.standing?, Follows s.terms.retry sofar s.badGateways standing

structure Regular (x : Traffic) (id : Nat) (marks : List Mark) : Prop where
  is_open : x.queue.closed = none
  unsent : x.submissions id = none → marks = []
  not_canceled : ∀ s, x.submissions id = some s → s.canceled = false
  follows : ∀ s, x.submissions id = some s → Obeys s marks

variable {sofar : List Mark} {wake : Wake}

theorem obeys_answer (hstep : x.stepOf? id e = some (s, wake)) (hsend : s.isSending = true)
    (hs : x.Spares id e) (hb : x.Books id e) (hopen : x.queue.closed = none)
    (hcan : s.canceled = false) (ho : Obeys s sofar) :
    Obeys (s.step x.queue id e.time wake).2 (sofar ++ x.marksOf id e) := by
  obtain ⟨hact, hthere, hallow, -⟩ := stepOf?_eq_some hstep
  obtain ⟨standing, hstanding, hfollows⟩ := ho
  rw [Submission.standing?_of_isSending hsend] at hstanding
  obtain rfl := Option.some.inj hstanding
  obtain ⟨lane, hp⟩ := Submission.exists_lane_of_isSending hsend
  have hf : s.terms.failure? (s.signals x.queue) e.time = none :=
    Terms.failure?_eq_none.mpr ⟨hcan, by simp [Submission.signals, Queue.failure?, hopen],
      hs.in_time s wake hstep⟩
  cases wake with
  | answered outcome =>
    rw [marksOf_of_answer hstep]
    have hbook : ∀ r, outcome = .ok r → (Queue.book { x.queue with
        registry := x.queue.registry.modifyLane lane (·.land id) } lane s.key r
          e.time).2.isSome := by
      rintro r rfl
      have hbooked := hb _ (answer?_of_sending hact hthere hp) rfl
      simpa only [Answer.landed] using hbooked
    have hland : Submission.Answered s outcome (s.land x.queue id lane outcome e.time).2 :=
      Submission.answered_land hf hbook
    have heq : s.step x.queue id e.time (.answered outcome) =
        s.land x.queue id lane outcome e.time := by
      simp only [Submission.step, hp]
    rw [heq]
    generalize (s.land x.queue id lane outcome e.time).2 = s' at hland
    cases hland with
    | retried hr => exact ⟨.between, rfl, hfollows.retry hr⟩
    | returned hr hv => exact ⟨_, rfl, hfollows.finish hr hv⟩
  | canceled => simp [Submission.allows, hcan] at hallow
  | closed => simp [Submission.allows, Queue.isClosed, hopen] at hallow
  | _ => simp [Submission.allows, hp] at hallow

theorem obeys_unanswered (hstep : x.stepOf? id e = some (s, wake)) (hsend : s.isSending = false)
    (hs : x.Spares id e) (ho : Obeys s sofar) :
    Obeys (s.step x.queue id e.time wake).2 (sofar ++ x.marksOf id e) := by
  obtain ⟨-, -, hallow, -⟩ := stepOf?_eq_some hstep
  obtain ⟨standing, hstanding, hfollows⟩ := ho
  have hover : s.isOver = false := by
    by_contra hover
    rw [Submission.not_allows_of_isOver (by simpa using hover)] at hallow
    simp at hallow
  rw [Submission.standing?_between hover hsend] at hstanding
  obtain rfl := Option.some.inj hstanding
  have hno : ∀ outcome, wake ≠ .answered outcome := by
    rintro outcome rfl
    unfold Submission.isSending at hsend
    cases hp : s.phase <;> simp_all [Submission.allows]
  have hadmitted := hs.admitted s wake hstep hsend
  rw [marksOf_of_unanswered hstep hno]
  have hstepped := Submission.stepped_step hallow
  generalize (s.step x.queue id e.time wake).2 = s' at hstepped hadmitted
  cases hstepped with
  | comes hp => exact ⟨.between, rfl, by simpa [Submission.isSending] using hfollows⟩
  | goesOn _ hg =>
    have hterms := hg.alike.terms
    have hcount : s'.badGateways = s.badGateways := by rw [hg.only_phase]
    unfold Obeys
    rw [hterms, hcount]
    cases hnext : s'.isSending with
    | true => exact ⟨.sending, Submission.standing?_of_isSending hnext, hfollows.send⟩
    | false =>
      refine ⟨.between, Submission.standing?_between hadmitted hnext, ?_⟩
      simpa using hfollows
  | lands hsent _ => simp [hsend] at hsent

theorem Regular.next (h : x.Regular id sofar) (hs : x.Spares id e) (hb : x.Books id e) :
    (x.next e).Regular id (sofar ++ x.marksOf id e) := by
  have hopen : (x.next e).queue.closed = none := by
    have hno : e.act.closing? = none := by
      unfold Act.closing?
      split
      · next reason hact => exact absurd hact (hs.not_closed reason)
      · rfl
    rw [closed_next, h.is_open, hno]
    rfl
  cases hstep : x.stepOf? id e with
  | none =>
    rw [marksOf_of_silent hstep, List.append_nil]
    obtain hsame | ⟨hnone, request, hnew⟩ :=
      next_of_no_step hstep hs.not_canceled hs.not_abandoned
    · exact ⟨hopen, hsame ▸ h.unsent, hsame ▸ h.not_canceled, hsame ▸ h.follows⟩
    · refine ⟨hopen, by simp [hnew], ?_, ?_⟩
      · intro s hs
        obtain rfl := Option.some.inj (hnew.symm.trans hs)
        rfl
      · intro s hs
        obtain rfl := Option.some.inj (hnew.symm.trans hs)
        rw [h.unsent hnone]
        exact ⟨.between, rfl, .start⟩
  | some step =>
    obtain ⟨s, wake⟩ := step
    obtain ⟨-, hthere, hallow, hnext⟩ := stepOf?_eq_some hstep
    have hnew : (x.next e).submissions id = some (s.step x.queue id e.time wake).2 := by
      rw [hnext, submissions_put]
    have hcan := h.not_canceled s hthere
    refine ⟨hopen, by simp [hnew], ?_, ?_⟩
    · intro s' hs'
      obtain rfl := Option.some.inj (hnew.symm.trans hs')
      rw [(Submission.stepped_step hallow).alike.canceled, hcan]
    · intro s' hs'
      obtain rfl := Option.some.inj (hnew.symm.trans hs')
      cases hsend : s.isSending with
      | true => exact obeys_answer hstep hsend hs hb h.is_open hcan (h.follows s hthere)
      | false => exact obeys_unanswered hstep hsend hs (h.follows s hthere)

theorem Regular.run (h : x.Regular id sofar) (hu : Undisturbed id x events)
    (hb : BooksAll id x events) : (x.run events).Regular id (sofar ++ marks id x events) := by
  induction events generalizing x sofar with
  | nil => simpa [marks] using h
  | cons e events ih =>
    have hnext := ih (h.next hu.1 hb.1) hu.2 hb.2
    rw [List.append_assoc] at hnext
    exact hnext

theorem regular_create (backoff : Duration) (id : Nat) : (create backoff).Regular id [] := by
  refine ⟨rfl, fun _ => rfl, ?_, ?_⟩
  · intro s hs
    simp [create] at hs
  · intro s hs
    simp [create] at hs

theorem lost_of_unbooked (hb : ¬ x.Books id e) :
    ∃ s, (x.next e).submissions id = some s ∧ s.phase = .lost := by
  simp only [Books, not_forall] at hb
  obtain ⟨a, ha, rfl, hb⟩ := hb
  obtain ⟨hact, hs, hp⟩ := answer?_eq_some ha
  have hallow : a.submission.allows x.queue a.id e.time (.answered (.ok a.response)) = true := by
    simp [Submission.allows, hp]
  obtain ⟨-, -, -, hnext⟩ := stepOf?_eq_some (stepOf?_of_stepped hact hs hallow)
  refine ⟨_, by rw [hnext, submissions_put], ?_⟩
  have hnone : ((a.landed x.queue).book a.lane a.submission.key a.response e.time).2 = none := by
    simpa using hb
  simp only [Submission.step, hp, Submission.land]
  exact Submission.phase_onResponse_eq_lost_iff.mpr hnone

theorem lost_stays (hs : x.submissions id = some s) (hp : s.phase = .lost)
    (hu : Undisturbed id x events) : (x.run events).submissions id = some s := by
  induction events generalizing x with
  | nil => exact hs
  | cons e events ih =>
    have hover : s.isOver = true := by simp [Submission.isOver, hp]
    have hnext : (x.next e).submissions id = some s :=
      stays_of_not_allowed hs (fun _ => Submission.not_allows_of_isOver hover)
        hu.1.not_canceled hu.1.not_abandoned
    exact ih hnext hu.2

theorem Regular.booksAll (h : x.Regular id sofar) (hu : Undisturbed id x events) {s : Submission}
    (hs : (x.run events).submissions id = some s) {all : List Mark} (ho : Obeys s all) :
    BooksAll id x events := by
  induction events generalizing x sofar with
  | nil => trivial
  | cons e events ih =>
    by_cases hb : x.Books id e
    · exact ⟨hb, ih (h.next hu.1 hb) hu.2 hs⟩
    · obtain ⟨lost, hlost, hp⟩ := lost_of_unbooked hb
      have hend := lost_stays hlost hp hu.2
      obtain rfl := Option.some.inj (hend.symm.trans hs)
      obtain ⟨standing, hstanding, -⟩ := ho
      simp [Submission.standing?, hp] at hstanding

/-- The clock can represent what the booking of the response computes that a request gets. -/
def InRange (x : Traffic) (id : Nat) (e : Event) : Prop :=
  ∀ a b, x.answer? e = some a → a.id = id → a.bucket? x.queue e.time = some b →
    b.Reaches (Queue.infoOf a.response) a.response.isRefusal x.queue.registry.backoff e.time

theorem Sound.books_iff (h : x.Sound) : x.Books id e ↔ x.InRange id e := by
  constructor
  · intro hb a b ha hid hbucket
    exact (Answer.book_isSome_iff hbucket).mp (hb a ha hid)
  · intro hr a ha hid
    obtain ⟨b, hbucket⟩ := h.bucket?_isSome ha
    exact (Answer.book_isSome_iff hbucket).mpr (hr a b ha hid hbucket)

theorem Sound.booksAll_iff (h : x.Sound) : BooksAll id x events ↔
    ∀ before e after, events = before ++ e :: after → (x.run before).InRange id e := by
  induction events generalizing x with
  | nil => simp [BooksAll]
  | cons e events ih =>
    rw [BooksAll, h.books_iff, ih (h.next e)]
    constructor
    · rintro ⟨hfirst, hrest⟩ before d after he
      cases before with
      | nil =>
        obtain ⟨rfl, rfl⟩ := List.cons.inj he
        exact hfirst
      | cons c before =>
        obtain ⟨rfl, hafter⟩ := List.cons.inj he
        exact hrest before d after hafter
    · intro hall
      refine ⟨hall [] e events rfl, fun before d after he => ?_⟩
      exact hall (e :: before) d after (by rw [he]; rfl)

/-- As long as nobody gives a request up, its deadline has not come, and gate and bucket grant what
it asks for, it is sent, sent again, and ended exactly as its policy wants, if and only if all
responses that it gets are booked, that is, if the clock can represent all that their booking
computes. When the request comes to the open gate and is granted a slot then, it is sent. -/
theorem sends_follow_policy_iff (backoff : Duration) (events : List Event) {id : Nat}
    {s : Submission} (hs : ((create backoff).run events).submissions id = some s)
    (hu : Undisturbed id (create backoff) events) :
    let x := (create backoff).run events
    (Obeys s (marks id (create backoff) events) ↔ BooksAll id (create backoff) events) ∧
    (BooksAll id (create backoff) events ↔
      ∀ before e after, events = before ++ e :: after →
        ((create backoff).run before).InRange id e) ∧
    ∀ now a, s.knocks? x.queue id now = some a → a.answer.2 = .granted →
      (s.enter x.queue id now).2.isSending = true := by
  intro x
  have hregular := regular_create backoff id
  refine ⟨⟨hregular.booksAll hu hs, ?_⟩, (sound_create backoff).booksAll_iff, ?_⟩
  · intro hb
    exact (hregular.run hu hb).follows s hs
  · intro now a ha hg
    exact Submission.isSending_of_knocks ha hg

/-- A policy that retries everything meets a timeout and a bad gateway. -/
def sentThrice : List Event :=
  let get := plainRequest .get "/users"
  sendOf 0 { get with options := ⟨.ofSecs 15, .always⟩ } ++
    [⟨⟨1⟩, .wake 0 (.answered (.error .timeout))⟩, ⟨⟨1⟩, .wake 0 .ready⟩,
      ⟨⟨2⟩, .wake 0 (.answered (.ok ⟨502, .silent, []⟩))⟩, ⟨⟨2⟩, .wake 0 .ready⟩,
      ⟨⟨3⟩, .wake 0 (.answered (.ok ⟨204, .silent, []⟩))⟩]

theorem spares_wake {wake : Wake} (hact : e.act = .wake id wake) (hs : x.submissions id = some s)
    (hallow : s.allows x.queue id e.time wake = true) (ht : e.time < s.terms.deadline)
    (ho : s.isSending = false → (s.step x.queue id e.time wake).2.isOver = false) :
    x.Spares id e := by
  have hstep := stepOf?_of_stepped hact hs hallow
  refine ⟨by simp [hact], by simp [hact], by simp [hact], ?_, ?_⟩
  · intro s' wake' h
    obtain ⟨rfl, rfl⟩ := Prod.mk.inj (Option.some.inj (hstep.symm.trans h))
    exact ht
  · intro s' wake' h
    obtain ⟨rfl, rfl⟩ := Prod.mk.inj (Option.some.inj (hstep.symm.trans h))
    exact ho

theorem spares_submit {request : Request} (hact : e.act = .submit id request) : x.Spares id e := by
  have hstep : x.stepOf? id e = none := by simp [stepOf?, hact]
  exact ⟨by simp [hact], by simp [hact], by simp [hact], by simp [hstep], by simp [hstep]⟩

theorem sentThrice_follows_policy :
    let x := (create (.ofMillis 750)).run sentThrice
    ∃ s, x.submissions 0 = some s ∧ Undisturbed 0 (create (.ofMillis 750)) sentThrice ∧
      Obeys s [.sent, .got (.error .timeout), .sent, .got (.ok ⟨502, .silent, []⟩), .sent,
        .got (.ok ⟨204, .silent, []⟩)] ∧
      s.phase = .done (.ok ⟨204, .silent, []⟩) := by
  intro x
  have hu : Undisturbed 0 (create (.ofMillis 750)) sentThrice := by
    refine ⟨spares_submit rfl, ?_⟩
    refine ⟨spares_wake rfl rfl rfl (by decide) (fun _ => rfl), ?_⟩
    refine ⟨spares_wake rfl rfl rfl (by decide) (fun _ => rfl), ?_⟩
    refine ⟨spares_wake rfl rfl rfl (by decide) (fun h => by cases h), ?_⟩
    refine ⟨spares_wake rfl rfl rfl (by decide) (fun _ => rfl), ?_⟩
    refine ⟨spares_wake rfl rfl rfl (by decide) (fun h => by cases h), ?_⟩
    refine ⟨spares_wake rfl rfl rfl (by decide) (fun _ => rfl), ?_⟩
    exact ⟨spares_wake rfl rfl rfl (by decide) (fun h => by cases h), trivial⟩
  have hb : BooksAll 0 (create (.ofMillis 750)) sentThrice := by
    have hsilent {x : Traffic} {e : Event} (h : x.answer? e = none) : x.Books 0 e := by
      intro a ha
      simp [h] at ha
    refine ⟨hsilent rfl, hsilent rfl, hsilent rfl, hsilent rfl, hsilent rfl, ?_, hsilent rfl, ?_,
      trivial⟩
    · intro a ha _
      cases ha
      rfl
    · intro a ha _
      cases ha
      rfl
  have hmarks : marks 0 (create (.ofMillis 750)) sentThrice =
      [.sent, .got (.error .timeout), .sent, .got (.ok ⟨502, .silent, []⟩), .sent,
        .got (.ok ⟨204, .silent, []⟩)] := rfl
  obtain ⟨s, hs, hp⟩ : ∃ s, x.submissions 0 = some s ∧ s.phase = .done (.ok ⟨204, .silent, []⟩) :=
    ⟨_, rfl, rfl⟩
  obtain ⟨hobeys, -, -⟩ := sends_follow_policy_iff (.ofMillis 750) sentThrice hs hu
  exact ⟨s, hs, hu, hmarks ▸ hobeys.mpr hb, hp⟩

/-- A success that announces the end of its window for the year 317 billion, which no clock can
represent. -/
def farWindow : Response :=
  ⟨200, { RateLimit.silent with resetAfter := some (.ofSecs 10000000000000000000) }, []⟩

/-- Its caller should get it, but the request is lost. -/
theorem farWindow_is_not_returned :
    let events := sendOf 0 (plainRequest .get "/users") ++
      [⟨⟨1⟩, .wake 0 (.answered (.ok farWindow))⟩]
    ∃ s, ((create (.ofMillis 750)).run events).submissions 0 = some s ∧
      Undisturbed 0 (create (.ofMillis 750)) events ∧
      marks 0 (create (.ofMillis 750)) events = [.sent, .got (.ok farWindow)] ∧
      ¬ Retries s.terms.retry s.badGateways (.ok farWindow) ∧
      Reports (.ok farWindow) (.ok farWindow) ∧ s.phase = .lost := by
  refine ⟨_, rfl, ?_, rfl, ?_, rfl, rfl⟩
  · refine ⟨spares_submit rfl, ?_⟩
    refine ⟨spares_wake rfl rfl rfl (by decide) (fun _ => rfl), ?_⟩
    refine ⟨spares_wake rfl rfl rfl (by decide) (fun _ => rfl), ?_⟩
    exact ⟨spares_wake rfl rfl rfl (by decide) (fun h => by cases h), trivial⟩
  · rintro (⟨h, -⟩ | ⟨h, -⟩) <;> cases h

end Traffic

end Parley.Rest
