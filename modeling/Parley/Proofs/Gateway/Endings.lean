import Parley.Proofs.Gateway.Sources

/-! A session's task ends in good order, unless the server has asked for heartbeats at intervals of
zero. -/
namespace Parley.Gateway

namespace Session
variable {s : Session} {x : Surroundings} {w : Wake}

theorem Allowed.not_over (ha : s.Allowed x w) : s.doing ≠ .stopped ∧ s.doing ≠ .crashed := by
  cases ha <;> simp_all

/-- Performing an effect ends the task only if it is to beat at intervals of zero. -/
theorem doing_perform (hd : s.doing = .working) (x : Surroundings) (e : Effect) :
    (s.perform x e).doing ≠ .stopped ∧
      ((s.perform x e).doing = .crashed → e = .startHeartbeat .zero) := by
  cases hp : s.pushed? e with
  | some d =>
    obtain ⟨dedupe, h⟩ := perform_push hp x
    obtain hd' | hd' := doing_push { s with dedupe } d
    · rw [h, hd']
      simp [hd]
    · rw [h, hd']
      simp
  | none =>
    cases e <;> simp only [perform, shake, send]
    case deliver event => simp [show s.deliver event = s from perform_dropped hp x, hd]
    case connected => cases hp
    case disconnected => cases hp
    case startHeartbeat interval => split <;> simp_all
    case identify => split <;> simp [hd]
    case resume => split <;> simp [hd]
    all_goals simp [hd]

theorem doing_proceed (hd : s.doing = .working) (x : Surroundings) :
    (s.proceed x).doing ≠ .stopped ∧
      ((s.proceed x).doing = .crashed →
        ∃ effects, s.effects = .startHeartbeat .zero :: effects) := by
  unfold proceed
  split
  · next e effects he =>
    obtain ⟨hs, hc⟩ := doing_perform (s := { s with effects }) hd x e
    exact ⟨hs, fun h => ⟨effects, by rw [he, hc h]⟩⟩
  · simp [hd]
  · dsimp only
    split <;> simp

theorem doing_step (ha : s.Allowed x w) :
    ((s.step x w).doing = .stopped → w = .drained) ∧
      ((s.step x w).doing = .crashed →
        ∃ effects, s.effects = .startHeartbeat .zero :: effects) := by
  obtain ⟨hs, hc⟩ := ha.not_over
  cases w <;> simp only [step, resume]
  case proceed =>
    obtain ⟨hs, hc⟩ := doing_proceed ha.doing_proceed x
    exact ⟨fun h => absurd h hs, hc⟩
  case throttleClear => split <;> simp_all [send]
  case inbound =>
    unfold read
    repeat' split
    all_goals simp_all [resume]
  all_goals simp

end Session

theorem Transition.startHeartbeat {s s' : State} {i : Input} {effects : List Effect} {t : Duration}
    (ht : Transition s i s' effects) (h : .startHeartbeat t ∈ effects) : i = .hello t := by
  cases ht with
  | greet interval a =>
    cases a <;> simp_all [Handshake.effect]
  | _ => simp at h

theorem Session.inbox_perform (s : Session) (x : Surroundings) (e : Effect) :
    (s.perform x e).inbox = s.inbox ∨ (s.perform x e).inbox = none := by
  unfold perform shake deliver push send
  repeat' split
  all_goals first | exact .inl rfl | exact .inr rfl

structure Beating (s : Session) : Prop where
  unread : ∀ i bytes, s.inbox = some i → .message bytes ∈ i.unread →
    Input.ofMessage? bytes ≠ some (.hello .zero)
  inputs : .hello .zero ∉ s.inputs
  effects : .startHeartbeat .zero ∉ s.effects
  alive : s.doing ≠ .crashed

namespace Beating
variable {s s' : Session} {x : Surroundings} {w : Wake}

theorem start (o : Options) (mode : DispatchMode) (x : Surroundings) :
    Beating (.start o mode x) :=
  ⟨by simp [Session.start], by simp [Session.start],
    by simp [Session.start, Machine.handle, Machine.create], by simp [Session.start]⟩

theorem congr (h : Beating s) (hb : s'.inbox = s.inbox) (hi : s'.inputs = s.inputs)
    (he : s'.effects = s.effects) (hd : s'.doing = s.doing) : Beating s' := by
  obtain ⟨h₁, h₂, h₃, h₄⟩ := h
  exact ⟨by rwa [hb], by rwa [hi], by rwa [he], by rwa [hd]⟩

theorem proceed (h : Beating s) (ha : s.Allowed x .proceed) :
    Beating (s.step x .proceed) := by
  have halive : (s.step x .proceed).doing ≠ .crashed := fun hc => by
    obtain ⟨effects, he⟩ := (Session.doing_step ha).2 hc
    exact h.effects (by simp [he])
  simp only [Session.step, Session.proceed] at halive ⊢
  split at halive
  · next e effects he =>
    obtain ⟨-, hr, hi, -⟩ := Session.perform_keeps { s with effects } x e
    refine ⟨fun i bytes hb => ?_, by rw [hi]; exact h.inputs, ?_, halive⟩
    · obtain hbox | hbox := Session.inbox_perform { s with effects } x e
      · exact h.unread i bytes (hbox ▸ hb)
      · rw [hbox] at hb
        cases hb
    · rw [hr]
      exact fun hm => h.effects (by rw [he]; exact List.mem_cons_of_mem e hm)
  · next input inputs he hi =>
    refine ⟨h.unread, fun hm => h.inputs (by rw [hi]; exact List.mem_cons_of_mem input hm), ?_,
      halive⟩
    intro hm
    have hz := (s.machine.transition x.now x.roll input).startHeartbeat hm
    exact h.inputs (by simp [hi, hz])
  · exact ⟨h.unread, h.inputs, h.effects, halive⟩

theorem resume {inputs : List Input} (h : Beating s) (hz : .hello .zero ∉ inputs) :
    Beating (s.resume inputs) :=
  ⟨h.unread, fun hm => (List.mem_append.1 hm).elim h.inputs hz, h.effects,
    by simp [Session.resume]⟩

theorem read (h : Beating s) : Beating s.read := by
  have hclosed (info : CloseInfo) :
      Beating (Session.resume { s with inbox := none } [.closed info]) :=
    resume (s := { s with inbox := none }) ⟨by simp, h.inputs, h.effects, h.alive⟩ (by simp)
  unfold Session.read
  split
  · exact h
  · next i hb =>
    split
    · next bytes unread hu =>
      refine resume (s := { s with inbox := some { i with unread } })
        ⟨fun i' b hb' hm => ?_, h.inputs, h.effects, h.alive⟩ fun hm => ?_
      · obtain rfl := Option.some.inj hb'
        exact h.unread i b hb (by rw [hu]; exact List.mem_cons_of_mem _ hm)
      · exact h.unread i bytes hb (by simp [hu]) (Option.mem_toList.1 hm)
    · exact hclosed _
    · split
      · exact hclosed _
      · exact h

theorem step (h : Beating s) (ha : s.Allowed x w) : Beating (s.step x w) := by
  cases w with
  | proceed => exact h.proceed ha
  | inbound => exact h.read
  | opened =>
    refine resume (s := { s with inbox := some .empty }) ⟨fun i bytes hb hm => ?_, h.inputs,
      h.effects, h.alive⟩ (by simp)
    obtain rfl := Option.some.inj hb
    exact absurd hm List.not_mem_nil
  | throttleClear =>
    unfold Session.step
    dsimp only
    split
    · exact ⟨h.unread, h.inputs, h.effects, by simp [Session.send]⟩
    · exact h
  | _ =>
    exact ⟨h.unread, by simp [Session.step, Session.resume, h.inputs], h.effects,
      by simp [Session.step, Session.resume]⟩

end Beating

theorem Beating.receive {s : Session} {m : Inbound} (h : Beating s)
    (hz : ∀ bytes, m = .message bytes → Input.ofMessage? bytes ≠ some (.hello .zero)) :
    Beating (s.receive m) := by
  refine ⟨fun i bytes hb hm => ?_, h.inputs, h.effects, h.alive⟩
  obtain ⟨i, hi, rfl⟩ := Option.map_eq_some_iff.1 hb
  unfold Inbox.receive at hm
  split at hm
  · exact h.unread i bytes hi hm
  · obtain hm | hm := List.mem_append.1 hm
    · exact h.unread i bytes hi hm
    · exact hz bytes (List.mem_singleton.1 hm).symm

theorem Beating.endInbound {s : Session} (h : Beating s) : Beating s.endInbound := by
  refine ⟨fun i bytes hb hm => ?_, h.inputs, h.effects, h.alive⟩
  obtain ⟨i, hi, rfl⟩ := Option.map_eq_some_iff.1 hb
  exact h.unread i bytes hi hm

namespace Course

def received (acts : List Act) : List (List UInt8) :=
  acts.filterMap fun
    | .receive (.message bytes) => some bytes
    | _ => none

theorem beating_next {c : Course} (h : Beating c.session) (a : Act)
    (hz : ∀ bytes, a = .receive (.message bytes) → Input.ofMessage? bytes ≠ some (.hello .zero)) :
    Beating (c.next a).session := by
  cases a with
  | wake x w => exact next_wake (P := fun c => Beating c.session) h h.step
  | receive m => exact h.receive fun bytes hm => hz bytes (hm ▸ rfl)
  | endInbound => exact h.endInbound
  | leave => exact h.congr rfl rfl rfl rfl
  | call =>
    exact next_call (P := fun c => Beating c.session) h fun d dispatch _ => h.congr rfl rfl rfl rfl
  | finish => exact h.congr rfl rfl rfl rfl

theorem beating_run (o : Options) (mode : DispatchMode) (x : Surroundings) (acts : List Act)
    (hz : ∀ bytes ∈ received acts, Input.ofMessage? bytes ≠ some (.hello .zero)) :
    Beating ((start o mode x).run acts).session :=
  run_keeps (P := fun c => Beating c.session) (start o mode x) acts (.start o mode x)
    fun a ha _ h => beating_next h a fun bytes hm =>
      hz bytes (List.mem_filterMap.2 ⟨a, ha, by rw [hm]⟩)

end Course

end Parley.Gateway
