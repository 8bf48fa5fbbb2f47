import Parley.Proofs.Gateway.Handshakes

/-! Which connections have had their handshake. A live session has written it, or it is pending: held
back by a limit, or due in the turns that follow. -/
namespace Parley.Gateway

variable {s s' : Session} {x : Surroundings} {w : Wake} {log notes : List Note}

/-- The present connection has had its handshake. -/
def Shaken (log : List Note) : Prop := ∃ f, .wrote f ∈ sinceOpened log ∧ f.isHandshake = true

theorem Shaken.append (h : Shaken log) (hn : .opened ∉ notes) : Shaken (notes ++ log) := by
  induction notes with
  | nil => exact h
  | cons n notes ih =>
    obtain ⟨f, hf, hs⟩ := ih fun hm => hn (List.mem_cons_of_mem n hm)
    have hne : n ≠ .opened := by
      rintro rfl
      exact hn List.mem_cons_self
    refine ⟨f, ?_, hs⟩
    rw [List.cons_append, sinceOpened_cons hne]
    exact List.mem_cons_of_mem n hf

theorem shaken_of_wrote {f : Frame} (hf : f.isHandshake = true) (log : List Note) :
    Shaken (.wrote f :: log) := by
  refine ⟨f, ?_, hf⟩
  rw [sinceOpened_cons (by simp)]
  exact List.mem_cons_self

namespace Session

def IsPending (s : Session) : Prop := s.held.isSome ∨ ∃ h : Handshake, h.effect ∈ s.effects

/-- The handshake of a live connection has been written or is still to be. -/
def Shakes (s : Session) (log : List Note) : Prop :=
  s.state.isLive = true → Shaken log ∨ s.IsPending

theorem isHandshake_frameOf (s : Session) (h : Handshake) : (s.frameOf h).isHandshake = true := by
  cases h <;> rfl

theorem opened_not_mem_seen (hw : w ≠ .opened) (s : Session) (x : Surroundings) :
    .opened ∉ s.seen x w := by
  intro hm
  rcases List.mem_append.1 hm with hm | hm
  · obtain ⟨f, -, hf⟩ := List.mem_map.1 hm
    cases hf
  · by_cases hp : w = .proceed
    · subst hp
      simp only [notes] at hm
      split at hm
      · obtain ⟨d, -, hd⟩ := List.mem_map.1 hm
        cases hd
      · obtain ⟨h, -, hh⟩ := List.mem_map.1 hm
        cases hh
      · exact absurd hm List.not_mem_nil
    · obtain ⟨bytes, hb⟩ := notes_read hp hw hm
      cases hb

theorem Shakes.keep (h : s.Shakes log) (hl : s'.state.isLive = true → s.state.isLive = true)
    (hp : s'.state.isLive = true → s.IsPending → s'.IsPending) (hn : .opened ∉ notes) :
    s'.Shakes (notes ++ log) := by
  intro hlive
  rcases h (hl hlive) with hs | hpend
  · exact Or.inl (hs.append hn)
  · exact Or.inr (hp hlive hpend)

end Session

theorem Sources.Suit.not_isLive {v : Sources} {state : State} (h : v.Suit state)
    (hv : v.inbox = false) : state.isLive = false := by
  cases hl : state.isLive with
  | false => rfl
  | true =>
    obtain rfl | rfl | rfl := State.isLive_cases hl
    · simp [h.1] at hv
    · simp [h.1] at hv
    · simp [h.1] at hv

/-- A connection is given up only in states that are not live. -/
theorem Sources.Lead.not_isLive {v : Sources} {state : State} {effects : List Effect}
    (h : v.Lead state effects) (hv : v.inbox = false) : state.isLive = false := by
  induction effects generalizing v with
  | nil => exact Suit.not_isLive h hv
  | cons e effects ih =>
    cases e with
    | openUrl url => rw [h.2.1]; rfl
    | identify => exact h.2.2.not_isLive hv
    | resume id sequence => exact h.2.2.not_isLive hv
    | heartbeat sequence => exact h.2.2.not_isLive hv
    | startHeartbeat interval => exact ih h hv
    | stopHeartbeat => exact ih h hv
    | closeTransport code => exact ih h rfl
    | scheduleReconnect delay => exact ih h hv
    | deliver event => exact ih h hv
    | connected resumed => exact ih h hv
    | disconnected cause => exact ih h hv
    | fatal reason => exact ih h hv

/-- A state that is live follows on a live one or on a hello. -/
theorem Transition.isLive_cases {state state' : State} {i : Input} {effects : List Effect}
    (h : Transition state i state' effects) (hl : state'.isLive = true) :
    state.isLive = true ∨ ∃ a : Handshake, a.effect ∈ effects := by
  cases h with
  | stay hr => exact Or.inl hl
  | connect url => cases hl
  | reconnect url => cases hl
  | opened => cases hl
  | greet interval a => exact Or.inr ⟨a, by simp⟩
  | beat sequence hs hi => exact Or.inl hl
  | connected event ready hs => exact Or.inl (by obtain rfl | rfl := hs <;> rfl)
  | event event ready => exact Or.inl rfl
  | lose i code delay hs hc => cases hl
  | fail i code reason hs hc => cases hl
  | shutdown code hs hc => cases hl

/-- A handshake that is held back is forgotten only with its connection. -/
theorem Session.held_perform (s : Session) (x : Surroundings) {e : Effect}
    (hn : e.handshake? = none) (hc : ∀ code, e ≠ .closeTransport code) :
    (s.perform x e).held = s.held := by
  cases hp : s.pushed? e with
  | some d =>
    obtain ⟨dedupe, h⟩ := perform_push hp x
    rw [h]
    rfl
  | none =>
    cases e with
    | deliver event => rw [perform_dropped hp]
    | startHeartbeat interval =>
      simp only [perform]
      split <;> rfl
    | identify => cases hn
    | resume id sequence => cases hn
    | closeTransport code => exact absurd rfl (hc code)
    | connected resumed => cases hp
    | disconnected cause => cases hp
    | openUrl url => rfl
    | heartbeat sequence => rfl
    | stopHeartbeat => rfl
    | scheduleReconnect delay => rfl
    | fatal reason => rfl

namespace Session.Shakes

theorem shake {a : Handshake} (he : s.effects = [a.effect])
    (x : Surroundings) (log : List Note) :
    (s.step x .proceed).Shakes (s.seen x .proceed ++ log) := by
  obtain ⟨hstep, hnotes⟩ := perform_turn he x
  have hshake : perform { s with effects := [] } x a.effect =
      Session.shake { s with effects := [] } x a := by cases a <;> rfl
  have hnone : s.pushed? a.effect = none := by cases a <;> rfl
  rw [hshake] at hstep
  rw [hnone] at hnotes
  intro _
  simp only [seen, hnotes, hstep, Session.shake]
  split
  · exact Or.inl (shaken_of_wrote (isHandshake_frameOf _ a) log)
  · exact Or.inr (Or.inl rfl)

theorem perform {e : Effect} {effects : List Effect} (h : s.Shakes log)
    (he : s.effects = e :: effects) (hx : s.sources.Lead s.state s.effects) :
    (s.step x .proceed).Shakes (s.seen x .proceed ++ log) := by
  obtain ⟨hstep, -⟩ := perform_turn he x
  obtain ⟨hm, hr, -, -⟩ := perform_keeps { s with effects } x e
  have hstate : (s.step x .proceed).state = s.state := by rw [hstep, state, hm]; rfl
  cases ha : e.handshake? with
  | some a =>
    obtain rfl := Effect.handshake?_eq_some.1 ha
    rw [he] at hx
    obtain rfl : effects = [] := by cases a <;> exact hx.1
    exact shake he x log
  | none =>
    by_cases hc : ∃ code, e = .closeTransport code
    · obtain ⟨code, rfl⟩ := hc
      rw [he] at hx
      have hx : Sources.Lead { s.sources with inbox := false, held := false } s.state effects := hx
      intro hl
      rw [hstate, hx.not_isLive rfl] at hl
      cases hl
    · have hheld := held_perform { s with effects } x ha fun code he => hc ⟨code, he⟩
      refine h.keep (by rw [hstate]; exact id) ?_ (opened_not_mem_seen (by simp) s x)
      rintro - (hp | ⟨a, ha'⟩)
      · exact Or.inl (by rw [hstep, hheld]; exact hp)
      · refine Or.inr ⟨a, ?_⟩
        rw [hstep, hr]
        rw [he] at ha'
        rcases List.mem_cons.1 ha' with rfl | ha'
        · rw [Effect.handshake?_eq_some.2 rfl] at ha
          cases ha
        · exact ha'

theorem apply {i : Input} (h : s.Shakes log) (hd : s.doing = .working) (he : s.effects = [])
    (hi : s.inputs = [i]) : (s.step x .proceed).Shakes (s.seen x .proceed ++ log) := by
  have hn := opened_not_mem_seen (w := .proceed) (by simp) s x
  obtain ⟨machine, effects, hstep, ht, -⟩ := apply_turn hd he hi x
  rw [hstep]
  intro hl
  rcases ht.isLive_cases hl with hlive | ⟨a, ha⟩
  · rcases h hlive with hs | hp | ⟨a, ha⟩
    · exact Or.inl (hs.append hn)
    · exact Or.inr (Or.inl hp)
    · simp [he] at ha
  · exact Or.inr (Or.inr ⟨a, ha⟩)

theorem proceed (h : s.Shakes log) (hst : s.Steady) (hd : s.doing = .working) :
    (s.step x .proceed).Shakes (s.seen x .proceed ++ log) := by
  obtain ⟨hi, hx⟩ | ⟨i, he, hi, -⟩ := hst.of_working hd
  · cases he : s.effects with
    | nil =>
      obtain ⟨hstep, hseen⟩ := wait_turn he hi x
      rw [hstep, hseen]
      exact h
    | cons e effects => exact h.perform he hx
  · exact h.apply hd he hi

/-- Whatever else wakes the task leaves a handshake that is held back, or writes it. -/
theorem wake (h : s.Shakes log) (hp : w ≠ .proceed) (ho : w ≠ .opened) :
    (s.step x w).Shakes (s.seen x w ++ log) := by
  obtain ⟨hm, he, -, -⟩ := s.step_keeps x hp
  have hn := opened_not_mem_seen ho s x
  by_cases ht : w = .throttleClear ∧ s.held.isSome
  · obtain ⟨rfl, hh⟩ := ht
    obtain ⟨a, hh⟩ := Option.isSome_iff_exists.1 hh
    intro _
    simp only [seen, step, hh]
    exact Or.inl (shaken_of_wrote (isHandshake_frameOf _ a) log)
  · have hheld : (s.step x w).held = s.held := by
      cases w
      case throttleClear =>
        simp only [true_and, Option.not_isSome_iff_eq_none] at ht
        simp only [step, ht]
      case inbound =>
        simp only [step, read]
        repeat' split
        all_goals rfl
      case proceed => exact absurd rfl hp
      all_goals rfl
    refine h.keep (by rw [state, hm]; exact id) ?_ hn
    rintro - (hheld' | hdue)
    · exact Or.inl (by rwa [hheld])
    · exact Or.inr (by rwa [he])

theorem step (h : s.Shakes log) (hst : s.Steady) (ha : s.Allowed x w) :
    (s.step x w).Shakes (s.seen x w ++ log) := by
  by_cases hp : w = .proceed
  · subst hp
    exact h.proceed hst ha.doing_proceed
  · by_cases ho : w = .opened
    · subst ho
      obtain ⟨url, hd⟩ := ha.doing_opened
      obtain ⟨-, -, hs, -⟩ := hst.of_connecting hd
      intro hl
      obtain ⟨hm, -⟩ := s.step_keeps x hp
      rw [state, hm] at hl
      rw [state] at hs
      rw [hs] at hl
      cases hl
    · exact h.wake hp ho

end Session.Shakes

namespace Course

theorem shakes_next {c : Course} (h : c.session.Shakes c.log) (hs : c.session.Steady) (a : Act) :
    (c.next a).session.Shakes (c.next a).log := by
  cases a with
  | wake x w => exact next_wake (P := fun c => c.session.Shakes c.log) h (h.step hs)
  | receive m => exact h
  | endInbound => exact h
  | leave => exact h
  | call =>
    refine next_call (P := fun c => c.session.Shakes c.log) h fun d dispatch _ => ?_
    have hk : Session.Shakes { c.session with dispatch } ([.handled d] ++ c.log) :=
      h.keep id (fun _ => id) (by simp)
    exact hk
  | finish => exact h

/-- An open connection has had its handshake exactly if the session is live and the handshake is not
held back. -/
theorem shaken_iff (o : Options) (mode : DispatchMode) (x : Surroundings) (acts : List Act)
    (ho : ((start o mode x).run acts).session.state.isOpen = true) :
    Shaken ((start o mode x).run acts).log ↔
      ((start o mode x).run acts).session.state.isLive = true ∧
        ¬ ((start o mode x).run acts).session.IsPending := by
  have hk := run_keeps (P := fun c => c.session.Steady ∧ Shaking c.session c.log ∧
      c.session.Shakes c.log) (start o mode x) acts
    ⟨Session.steady_start o mode x, .start o mode x, fun hl => by cases hl⟩
    fun a _ c ⟨hs, h, hd⟩ => ⟨steady_next hs a, shaking_next h hs a, shakes_next hd hs a⟩
  obtain ⟨-, hshaking, hshakes⟩ := hk
  generalize (start o mode x).run acts = c at *
  constructor
  · rintro ⟨f, hf, hh⟩
    refine ⟨?_, ?_⟩
    · cases hl : c.session.state.isLive with
      | true => rfl
      | false =>
        have hw : c.session.state = .awaitingHello := by simpa [State.isOpen, hl] using ho
        rw [(hshaking.waiting hw).unsent f hf] at hh
        cases hh
    · rintro (hp | ⟨a, ha⟩)
      · obtain ⟨a, ha⟩ := Option.isSome_iff_exists.1 hp
        rw [(hshaking.held a ha).unsent f hf] at hh
        cases hh
      · rw [(hshaking.owed a ha).1.unsent f hf] at hh
        cases hh
  · rintro ⟨hl, hp⟩
    exact (hshakes hl).resolve_right hp

end Course

end Parley.Gateway
