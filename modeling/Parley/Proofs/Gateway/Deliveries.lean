import Parley.Proofs.Gateway.Bracketing
import Parley.Proofs.Gateway.Endings

/-! The deliveries of a session: how they are bracketed, and that all of them have been handled by
the time when the session's task is over. -/
namespace Parley.Gateway

/-- The queue has let in what was pushed and let out what was handled, both listed with the latest
first. -/
structure DispatchQueue.Carries (q : DispatchQueue) (pushed handled : List Delivery) : Prop where
  order : pushed = (q.waiting ++ q.offered.toList).reverse ++ handled
  inline : q.mode = .inline → q.waiting = []

namespace DispatchQueue.Carries
variable {q q' : DispatchQueue} {pushed handled : List Delivery} {d : Delivery}

theorem push (h : q.Carries pushed handled) (ho : q.offered = none) (d : Delivery) :
    (q.push d).Carries (d :: pushed) handled := by
  obtain ⟨horder, hinline⟩ := h
  by_cases hm : q.mode = .inline
  · have hpush : q.push d = { q with offered := some d } := by
      simp [DispatchQueue.push, hm, hasRoom]
    rw [hpush]
    exact ⟨by simp [horder, ho], hinline⟩
  · unfold DispatchQueue.push
    simp only [if_neg hm]
    split
    · exact ⟨by simp [horder, ho], fun h => absurd h hm⟩
    · exact ⟨by simp [horder, ho], hinline⟩

theorem take (h : q.Carries pushed handled) (ht : q.take? = some (d, q')) :
    q'.Carries pushed (d :: handled) ∧ q'.offered = none := by
  obtain ⟨horder, hinline⟩ := h
  unfold take? at ht
  split at ht
  · cases ht
  split at ht
  · next hm =>
    obtain ⟨d, ho, ht⟩ := Option.map_eq_some_iff.1 ht
    obtain ⟨rfl, rfl⟩ := Prod.mk.inj ht
    exact ⟨⟨by simp [horder, hinline hm, ho], hinline⟩, rfl⟩
  · next hm =>
    split at ht
    · next d rest hw =>
      obtain ⟨rfl, rfl⟩ := Prod.mk.inj (Option.some.inj ht)
      exact ⟨⟨by simp [horder, hw], fun h => absurd h hm⟩, rfl⟩
    · cases ht

end DispatchQueue.Carries

theorem DispatchQueue.take?_of_empty {q : DispatchQueue} (hw : q.waiting = [])
    (ho : q.offered = none) : q.take? = none := by
  simp [take?, hw, ho]

namespace Session
variable {s : Session} {x : Surroundings} {w : Wake} {e : Effect} {n : Note}

theorem dispatch_perform (h : s.pushed? e = none) (x : Surroundings) :
    (s.perform x e).dispatch = s.dispatch := by
  cases e <;> simp only [perform, shake, send]
  case deliver event => rw [show s.deliver event = s from perform_dropped h x]
  case connected => cases h
  case disconnected => cases h
  case startHeartbeat => split <;> rfl
  case identify => split <;> rfl
  case resume => split <;> rfl

theorem seen_quiet (h : w = .proceed → s.effects = []) (hn : n ∈ s.seen x w) :
    n.pushed? = none ∧ n.handled? = none := by
  rw [seen, List.mem_append, List.mem_map] at hn
  obtain ⟨f, -, rfl⟩ | hn := hn
  · exact ⟨rfl, rfl⟩
  by_cases ho : w = .opened
  · subst ho
    rw [List.mem_singleton.1 hn]
    exact ⟨rfl, rfl⟩
  by_cases hw : w = .proceed
  · subst hw
    simp only [notes, h rfl] at hn
    split at hn
    · next he => cases he
    · obtain ⟨a, -, rfl⟩ := List.mem_map.1 hn
      exact ⟨rfl, rfl⟩
    · exact absurd hn List.not_mem_nil
  · obtain ⟨bytes, rfl⟩ := notes_read hw ho hn
    exact ⟨rfl, rfl⟩

end Session

structure Queued (s : Session) (log : List Note) : Prop where
  carries : s.dispatch.Carries (log.filterMap Note.pushed?) (log.filterMap Note.handled?)
  offered : s.dispatch.offered ≠ none → s.doing = .delivering
  stopped : s.doing = .stopped → s.dispatch.waiting = [] ∧ s.dispatch.offered = none

namespace Queued
variable {s s' : Session} {log : List Note} {x : Surroundings} {w : Wake}

theorem start (o : Options) (mode : DispatchMode) (x : Surroundings) :
    Queued (.start o mode x) [] :=
  ⟨⟨rfl, fun _ => rfl⟩, fun h => absurd rfl h, fun h => by cases h⟩

theorem congr (h : Queued s log) (hq : s'.dispatch = s.dispatch) (hd : s'.doing = s.doing) :
    Queued s' log := by
  obtain ⟨hc, ho, hs⟩ := h
  exact ⟨by rwa [hq], by rwa [hq, hd], by rwa [hq, hd]⟩

theorem offered_eq_none (h : Queued s log) (ha : s.Allowed x w) :
    s.dispatch.offered = none := by
  refine Classical.byContradiction fun ho => ?_
  have hd := h.offered ho
  cases ha <;> simp_all [DispatchQueue.isPushing]

theorem quiet (h : Queued s log) (ha : s.Allowed x w)
    (hq : (s.step x w).dispatch = s.dispatch)
    (hn : ∀ n ∈ s.seen x w, n.pushed? = none ∧ n.handled? = none) :
    Queued (s.step x w) (s.seen x w ++ log) := by
  have ho := h.offered_eq_none ha
  refine ⟨?_, fun h => absurd ho (hq ▸ h), fun hd => ?_⟩
  · rw [hq, List.filterMap_append, List.filterMap_append,
      List.filterMap_eq_nil_iff.2 fun n hm => (hn n hm).1,
      List.filterMap_eq_nil_iff.2 fun n hm => (hn n hm).2]
    exact h.carries
  · obtain rfl := (Session.doing_step ha).1 hd
    rw [hq]
    have hd := ha.isDrained
    simp only [DispatchQueue.isDrained, Bool.and_eq_true, List.isEmpty_iff] at hd
    exact ⟨hd.1.1, ho⟩

theorem perform {e : Effect} {effects : List Effect} (h : Queued s log)
    (ha : s.Allowed x .proceed) (he : s.effects = e :: effects) :
    Queued (s.step x .proceed) (s.seen x .proceed ++ log) := by
  have ho := h.offered_eq_none ha
  obtain ⟨hstep, hnotes⟩ := Session.perform_turn he x
  cases hp : s.pushed? e with
  | none =>
    refine h.quiet ha ?_ fun n hn => ?_
    · rw [hstep]
      exact Session.dispatch_perform (s := { s with effects }) hp x
    · rw [Session.seen, hnotes, hp] at hn
      obtain ⟨f, -, rfl⟩ := List.mem_map.1 ((List.mem_append.1 hn).resolve_right List.not_mem_nil)
      exact ⟨rfl, rfl⟩
  | some d =>
    obtain ⟨dedupe, hpush⟩ := Session.perform_push (s := { s with effects }) hp x
    have hd := ha.doing_proceed
    rw [hpush] at hstep
    have hdoing : (s.step x .proceed).doing =
        if (s.dispatch.push d).isPushing then .delivering else .working := by
      rw [hstep, ← hd]
      rfl
    have hseen : s.seen x .proceed = [.pushed d] := by
      rw [Session.seen, hnotes, hp, Session.writing?, hdoing]
      split
      · next hw => split at hw <;> cases hw
      · rfl
    have hq : (s.step x .proceed).dispatch = s.dispatch.push d := by rw [hstep]; rfl
    rw [hseen]
    refine ⟨?_, fun hn => ?_, fun hs => ?_⟩
    · rw [hq]
      exact h.carries.push ho d
    · have hpushing : (s.dispatch.push d).isPushing = true := by
        rw [hq] at hn
        simp [DispatchQueue.isPushing, Option.isSome_iff_ne_none.2 hn]
      rw [hdoing, if_pos hpushing]
    · rw [hdoing] at hs
      split at hs <;> cases hs

theorem step (h : Queued s log) (ha : s.Allowed x w) :
    Queued (s.step x w) (s.seen x w ++ log) := by
  by_cases hw : w = .proceed
  · subst hw
    cases he : s.effects with
    | cons e effects => exact h.perform ha he
    | nil =>
      refine h.quiet ha ?_ fun n => Session.seen_quiet fun _ => he
      simp only [Session.step, Session.proceed, he]
      split <;> simp_all
  · exact h.quiet ha (s.step_keeps x hw).2.2.1 fun n => Session.seen_quiet fun h => absurd h hw

end Queued

namespace Course

theorem queued_next {c : Course} (h : Queued c.session c.log) (a : Act) :
    Queued (c.next a).session (c.next a).log := by
  cases a with
  | wake x w => exact next_wake (P := fun c => Queued c.session c.log) h h.step
  | receive m => exact h.congr rfl rfl
  | endInbound => exact h.congr rfl rfl
  | leave => exact h.congr rfl rfl
  | call =>
    refine next_call (P := fun c => Queued c.session c.log) h fun d dispatch ht => ?_
    obtain ⟨hc, ho⟩ := h.carries.take ht
    refine ⟨hc, fun hn => absurd ho hn, fun hd => ?_⟩
    obtain ⟨hw, ho⟩ := h.stopped hd
    rw [DispatchQueue.take?_of_empty hw ho] at ht
    cases ht
  | finish => exact ⟨⟨h.carries.order, h.carries.inline⟩, h.offered, h.stopped⟩

theorem told_run (o : Options) (mode : DispatchMode) (x : Surroundings) (acts : List Act) :
    let c := (start o mode x).run acts
    Telling c.session c.log ∧ Queued c.session c.log := by
  have h := run_keeps (P := fun c => c.session.Steady ∧ Shaking c.session c.log ∧
      Telling c.session c.log ∧ Queued c.session c.log) (start o mode x) acts
    ⟨Session.steady_start o mode x, .start o mode x, .start o mode x, .start o mode x⟩
    fun a _ c ⟨hs, hk, ht, hq⟩ =>
      ⟨steady_next hs a, shaking_next hk hs a, telling_next ht hk hs a, queued_next hq a⟩
  exact h.2.2

/-- Events are delivered between the report of a connection and that of its end, and a resumed
session is reported only if the connection's hello called for a resume. If no timer is to beat at
intervals of zero, a task that is over has reported its end last, and all deliveries have been
handled in order. -/
theorem deliveries_are_bracketed (o : Options) (mode : DispatchMode) (x : Surroundings)
    (acts : List Act) :
    let c := (start o mode x).run acts
    (∀ later d earlier, c.pushed = later ++ d :: earlier →
      (∀ e, d = .event e → ∃ resumed, .connected resumed ∈ sinceClosed earlier) ∧
      (∀ resumed, d = .connected resumed →
        ∀ resumed', .connected resumed' ∉ sinceClosed earlier)) ∧
    (∀ later earlier, c.log = later ++ .pushed (.connected true) :: earlier →
      .opened ∈ earlier ∧ ∃ id sequence, .hello (.resume id sequence) ∈ sinceOpened earlier ∧
        ∀ h, .hello h ∈ sinceOpened earlier → h = .resume id sequence) ∧
    ((∀ bytes ∈ received acts, Input.ofMessage? bytes ≠ some (.hello .zero)) →
      c.session.isOver = true →
      c.handled = c.pushed ∧
        ∃ cause earlier, c.pushed = .closed cause :: earlier ∧ cause.next.isFinal = true ∧
          ∀ cause', .closed cause' ∈ earlier → cause'.next.isFinal = false) := by
  intro c
  obtain ⟨ht, hq⟩ : Telling c.session c.log ∧ Queued c.session c.log := told_run o mode x acts
  refine ⟨fun later d earlier hp => ?_, fun later earlier hl => ?_, fun hz ho => ?_⟩
  · have hf : Throughout Fits (later ++ d :: earlier) := hp ▸ ht.tells.fit.before
    have hd : Fits earlier d := hf.at_entry
    refine ⟨?_, ?_⟩
    · rintro e rfl
      exact isUp_iff.1 hd.1
    · rintro resumed rfl resumed' hm
      have hup := hd.1.symm.trans (isUp_iff.2 ⟨resumed', hm⟩)
      cases hup
  · obtain ⟨id, sequence, hc⟩ := (hl ▸ ht.marked).at_entry rfl
    exact ⟨hc.opened, id, sequence, hc.hello, hc.only⟩
  · have hd : c.session.doing = .stopped := by
      have ha : c.session.doing ≠ .crashed := (beating_run o mode x acts hz).alive
      simpa [Session.isOver, ha] using ho
    obtain ⟨he, -, hs, -⟩ := (steady_run o mode x acts).of_ended (.inr hd)
    obtain ⟨hw, hoff⟩ := hq.stopped hd
    refine ⟨?_, Tells.settle (s := c.session.state) ?_ hs⟩
    · have h := hq.carries.order
      simp only [hw, hoff, Option.toList_none, List.append_nil, List.reverse_nil,
        List.nil_append] at h
      exact h.symm
    · have h := ht.tells
      rw [show c.session.effects = [] from he] at h
      exact h

/-- A session's connection breaks off. It resumes over another one, until somebody ends it. -/
def visit (x later : Surroundings) : List Act :=
  greeting x ++ turns x [.sent, .proceed] ++
    hear x (.dispatch "READY" 1 (.object [("session_id", .string "session")])) ++
    .endInbound :: turns x (.inbound :: List.replicate 4 .proceed ++
      [.disconnected, .proceed, .proceed, .proceed]) ++
    turns later [.reconnectDue, .proceed, .proceed, .opened, .proceed, .proceed] ++
    hear later (.hello 45000) ++ turns later [.sent, .proceed] ++
    hear later (.dispatch "RESUMED" 2 .null) ++
    .leave :: turns later
      (.shutdown :: List.replicate 3 .proceed ++ [.disconnected, .proceed, .proceed]) ++
    (List.replicate 6 [.call, .finish]).flatten ++ turns later [.drained]

theorem deliveries_are_bracketed_of_visit :
    let x := Rehearsal.Play.surroundingsAt 0 true
    let later := Rehearsal.Play.surroundingsAt 60000 true
    let c := (start (.create "wss://gateway.test" "token" .unprivileged) .unbounded x).run
      (visit x later)
    (c.pushed = c.pushed.take 2 ++ .connected true :: c.pushed.drop 3 ∧
      ∀ resumed, .connected resumed ∉ sinceClosed (c.pushed.drop 3)) ∧
    (c.log = c.log.take 8 ++ .pushed (.connected true) :: c.log.drop 9 ∧
      ∃ id sequence, .hello (.resume id sequence) ∈ sinceOpened (c.log.drop 9) ∧
        ∀ h, .hello h ∈ sinceOpened (c.log.drop 9) → h = .resume id sequence) ∧
    (c.session.isOver = true ∧ c.handled = c.pushed ∧
      ∃ cause earlier, c.pushed = .closed cause :: earlier ∧ cause.next.isFinal = true ∧
        ∀ cause', .closed cause' ∈ earlier → cause'.next.isFinal = false) := by
  have h := deliveries_are_bracketed (.create "wss://gateway.test" "token" .unprivileged) .unbounded
    (Rehearsal.Play.surroundingsAt 0 true)
    (visit (Rehearsal.Play.surroundingsAt 0 true) (Rehearsal.Play.surroundingsAt 60000 true))
  dsimp only at h ⊢
  obtain ⟨hf, hm, he⟩ := h
  refine ⟨(and_iff_left_of_imp fun hp => ?_).2 (by decide +kernel),
    (and_iff_left_of_imp fun hl => ?_).2 (by decide +kernel), by decide +kernel, ?_⟩
  · exact (hf _ _ _ hp).2 true rfl
  · exact (hm _ _ hl).2
  · exact he (by decide +kernel) (by decide +kernel)

end Course

end Parley.Gateway
