import Mathlib.Data.List.Induction
import Parley.Gateway.Errand
import Parley.Proofs.Gateway.Endings
import Parley.Proofs.Gateway.Handshakes
import Parley.Proofs.Gateway.Redeliveries

/-! What becomes of a session whose server asks for heartbeats at intervals of zero. No timer beats
like that: the task is gone, and those who wait for the session are left waiting. -/
namespace Parley.Gateway

def Hello.ofMessage? (bytes : List UInt8) : Option Hello :=
  (Frame.read bytes).toOption.bind fun f => f.asHello.toOption

theorem Hello.interval_eq_zero (h : Hello) : h.interval = .zero ↔ h = ⟨0⟩ := by
  obtain ⟨ms⟩ := h
  have hn : ms = 0 ↔ ms.toNat = 0 := UInt64.toNat_inj.symm
  simp only [interval, Duration.ofMillis, Duration.zero, Duration.mk.injEq, Hello.mk.injEq, hn]
  omega

theorem Frame.op_of_asHello {f : Frame} {h : Hello} (hf : f.asHello.toOption = some h) :
    f.op = .hello :=
  Decidable.byContradiction fun hne => by simp [asHello, payloadAs, hne, Except.toOption] at hf

theorem Input.ofFrame?_eq_hello {f : Frame} {t : Duration} :
    Input.ofFrame? f = some (.hello t) ↔ f.asHello.toOption.map Hello.interval = some t := by
  by_cases hop : f.op = .hello
  · simp [ofFrame?, hop]
  · have hn : f.asHello.toOption = none := by
      cases hf : f.asHello.toOption with
      | none => rfl
      | some h => exact absurd (Frame.op_of_asHello hf) hop
    simp only [hn, Option.map_none, reduceCtorEq, iff_false]
    intro hf
    unfold ofFrame? at hf
    split at hf
    · split at hf
      · cases hf
      · dsimp only at hf
        split at hf
        · obtain ⟨r, -, hr⟩ := Option.map_eq_some_iff.1 hf
          cases hr
        · cases hf
    all_goals first | exact hop ‹_› | cases hf

theorem Input.ofMessage?_eq_hello {bytes : List UInt8} {t : Duration} :
    Input.ofMessage? bytes = some (.hello t) ↔
      (Hello.ofMessage? bytes).map Hello.interval = some t := by
  unfold ofMessage? Hello.ofMessage?
  cases (Frame.read bytes).toOption with
  | none => simp
  | some f => exact ofFrame?_eq_hello

theorem Input.ofMessage?_eq_zero {bytes : List UInt8} :
    Input.ofMessage? bytes = some (.hello .zero) ↔ Hello.ofMessage? bytes = some ⟨0⟩ := by
  rw [ofMessage?_eq_hello]
  cases Hello.ofMessage? bytes with
  | none => simp
  | some h => simp [h.interval_eq_zero]

theorem Machine.onHello_cases (m : Machine) (t : Duration) :
    ∃ a : Handshake, (m.onHello t).1.state = a.state ∧
      (m.onHello t).2 = [.startHeartbeat t, a.effect] := by
  unfold onHello
  dsimp only
  split
  · exact ⟨.resume _ _, rfl, rfl⟩
  · exact ⟨.identify, rfl, rfl⟩

namespace Session

/-- Takes a hello off the connection that announces intervals of zero, where it waits for one. -/
structure HearsZero (s : Session) (x : Surroundings) : Prop where
  allowed : s.Allowed x .inbound
  state : s.state = .awaitingHello
  hello : ∃ bytes, s.notes x .inbound = [.read bytes] ∧ Hello.ofMessage? bytes = some ⟨0⟩

/-- The machine has asked for heartbeats at intervals of zero, or had before the task was gone. -/
def AsksForZero (s : Session) : Prop := .startHeartbeat .zero ∈ s.effects ∨ s.doing = .crashed

/-- From a hello that announces intervals of zero to the end of the task. -/
inductive Doomed (s : Session) : Prop
  | heard (hd : s.doing = .working) (hs : s.state = .awaitingHello) (he : s.effects = [])
      (hi : s.inputs = [.hello .zero])
  | asked (a : Handshake) (hd : s.doing = .working) (hs : s.state = a.state)
      (he : s.effects = [.startHeartbeat .zero, a.effect])
  | gone (a : Handshake) (hd : s.doing = .crashed) (hs : s.state = a.state)

variable {s s' : Session} {x : Surroundings} {w : Wake}

theorem Allowed.eq_proceed (ha : s.Allowed x w) (hd : s.doing = .working) : w = .proceed := by
  cases ha <;> simp_all

/-- Only the task's own turn finds an input that has not been applied. -/
theorem Steady.inputs_eq_nil (h : s.Steady) (ha : s.Allowed x w) (hw : w ≠ .proceed) :
    s.inputs = [] := by
  cases h with
  | applying i hd he hi h => exact absurd (ha.eq_proceed hd) hw
  | crashed hd => exact absurd hd ha.not_over.2
  | _ => assumption

theorem step_inbound {bytes : List UInt8} (hn : s.notes x .inbound = [.read bytes]) :
    ∃ i, s.step x .inbound = resume { s with inbox := some i } (Input.ofMessage? bytes).toList := by
  unfold notes at hn
  dsimp only at hn
  split at hn
  · next b unread hu =>
    obtain ⟨i, hb, hi⟩ := Option.map_eq_some_iff.1 hu
    obtain rfl : b = bytes := by simpa using hn
    exact ⟨{ i with unread }, by simp [step, read, hb, hi]⟩
  · cases hn

theorem HearsZero.doomed (h : s.HearsZero x) (hst : s.Steady) : (s.step x .inbound).Doomed := by
  obtain ⟨bytes, hn, hb⟩ := h.hello
  obtain ⟨i, hstep⟩ := step_inbound hn
  have hi : s.inputs = [] := hst.inputs_eq_nil h.allowed (by decide)
  obtain ⟨he, -⟩ := hst.of_listening h.allowed.doing_inbound
  rw [hstep, Input.ofMessage?_eq_zero.2 hb]
  exact .heard rfl h.state he (by simp [resume, hi])

theorem Doomed.congr (h : s.Doomed) (hm : s'.machine = s.machine) (hd : s'.doing = s.doing)
    (he : s'.effects = s.effects) (hi : s'.inputs = s.inputs) : s'.Doomed := by
  have hs : s'.state = s.state := congrArg Machine.state hm
  cases h with
  | heard h₁ h₂ h₃ h₄ =>
    exact .heard (hd.trans h₁) (hs.trans h₂) (he.trans h₃) (hi.trans h₄)
  | asked a h₁ h₂ h₃ => exact .asked a (hd.trans h₁) (hs.trans h₂) (he.trans h₃)
  | gone a h₁ h₂ => exact .gone a (hd.trans h₁) (hs.trans h₂)

theorem step_heard (hs : s.state = .awaitingHello) (he : s.effects = [])
    (hi : s.inputs = [.hello .zero]) (hd : s.doing = .working) (x : Surroundings) :
    ∃ a : Handshake, (s.step x .proceed).doing = .working ∧ (s.step x .proceed).state = a.state ∧
      (s.step x .proceed).effects = [.startHeartbeat .zero, a.effect] := by
  obtain ⟨a, hsa, hea⟩ := s.machine.onHello_cases .zero
  have hh : s.machine.handle x.now x.roll (.hello .zero) = s.machine.onHello .zero := by
    rw [Machine.handle_hello]
    exact if_pos hs
  have hstep : s.step x .proceed = { s with
      machine := (s.machine.onHello .zero).1, effects := (s.machine.onHello .zero).2,
      inputs := [] } := by
    simp [step, proceed, he, hi, hh]
  rw [hstep]
  exact ⟨a, hd, hsa, hea⟩

theorem step_asked {effects : List Effect} (he : s.effects = .startHeartbeat .zero :: effects)
    (x : Surroundings) :
    (s.step x .proceed).doing = .crashed ∧ (s.step x .proceed).state = s.state := by
  rw [(perform_turn he x).1]
  exact ⟨by simp [perform], congrArg Machine.state (perform_keeps _ x _).1⟩

theorem Doomed.step (h : s.Doomed) (ha : s.Allowed x w) : (s.step x w).Doomed := by
  cases h with
  | heard hd hs he hi =>
    obtain rfl := ha.eq_proceed hd
    obtain ⟨a, hd', hs', he'⟩ := step_heard hs he hi hd x
    exact .asked a hd' hs' he'
  | asked a hd hs he =>
    obtain rfl := ha.eq_proceed hd
    obtain ⟨hd', hs'⟩ := step_asked he x
    exact .gone a hd' (hs'.trans hs)
  | gone a hd hs => exact absurd hd ha.not_over.2

/-- The machine asks for the timer in the next turn. -/
theorem Doomed.asks (h : s.Doomed) (x : Surroundings) (hd : s.doing = .working) :
    (s.step x .proceed).AsksForZero := by
  cases h with
  | heard hd hs he hi =>
    obtain ⟨a, -, -, he'⟩ := step_heard hs he hi hd x
    exact .inl (he' ▸ List.mem_cons_self)
  | asked a hd hs he => exact .inr (step_asked he x).1
  | gone a hd' hs => cases hd.symm.trans hd'

/-- The task is gone in the turn after that. -/
theorem Doomed.crashes (h : s.Doomed) (hz : s.AsksForZero) (x : Surroundings)
    (hd : s.doing = .working) : (s.step x .proceed).doing = .crashed := by
  cases h with
  | heard hd hs he hi =>
    rw [AsksForZero, he, hd] at hz
    simp at hz
  | asked a hd hs he => exact (step_asked he x).1
  | gone a hd' hs => cases hd.symm.trans hd'

theorem Doomed.doing_cases (h : s.Doomed) : s.doing = .working ∨ s.doing = .crashed := by
  cases h with
  | heard hd => exact .inl hd
  | asked a hd => exact .inl hd
  | gone a hd => exact .inr hd

/-- A doomed session looks as if it were about to become ready. -/
theorem Doomed.state_cases (h : s.Doomed) :
    s.state = .awaitingHello ∨ s.state = .identifying ∨ s.state = .resuming := by
  have hshake (a : Handshake) : a.state = .identifying ∨ a.state = .resuming := by
    cases a
    · exact .inl rfl
    · exact .inr rfl
  cases h with
  | heard hd hs he hi => exact .inl hs
  | asked a hd hs he => exact .inr (hs ▸ hshake a)
  | gone a hd hs => exact .inr (hs ▸ hshake a)

theorem Doomed.readiness?_eq_none (h : s.Doomed) : s.readiness? = none := by
  unfold readiness?
  rcases h.state_cases with hs | hs | hs <;> rw [hs]

theorem Doomed.isStopped_eq_false (h : s.Doomed) : s.state.isStopped = false := by
  rcases h.state_cases with hs | hs | hs <;> rw [hs] <;> rfl

/-- A hello comes from a message that has just been read. -/
theorem inputs_hello_of_step {t : Duration} (hst : s.Steady) (ha : s.Allowed x w)
    (h : (s.step x w).inputs = [.hello t]) :
    w = .inbound ∧ ∃ bytes, s.notes x .inbound = [.read bytes] ∧
      Input.ofMessage? bytes = some (.hello t) := by
  by_cases hw : w = .proceed
  · subst hw
    obtain ⟨hi, -⟩ | ⟨i, he, hi, -⟩ := hst.of_working ha.doing_proceed
    · cases he : s.effects with
      | nil =>
        rw [(wait_turn he hi x).1] at h
        cases hi.symm.trans h
      | cons e effects =>
        rw [(perform_turn he x).1, (perform_keeps _ x e).2.2.1] at h
        cases hi.symm.trans h
    · obtain ⟨machine, effects, hstep, -⟩ := apply_turn ha.doing_proceed he hi x
      rw [hstep] at h
      cases h
  · have hi := hst.inputs_eq_nil ha hw
    cases w with
    | proceed => exact absurd rfl hw
    | inbound =>
      refine ⟨rfl, ?_⟩
      simp only [step, read] at h
      split at h
      · cases hi.symm.trans h
      · next i hb =>
        split at h
        · next bytes unread hu =>
          refine ⟨bytes, by simp [notes, hb, hu], ?_⟩
          simpa [resume, hi] using h
        · simp [resume, hi] at h
        · split at h
          · simp [resume, hi] at h
          · cases hi.symm.trans h
    | throttleClear =>
      simp only [step] at h
      split at h
      · cases hi.symm.trans h
      · cases hi.symm.trans h
    | _ => simp [step, resume, hi] at h

/-- The machine asks for intervals of zero only in answer to a hello that announces them. -/
theorem asksForZero_of_step (hst : s.Steady) (ha : s.Allowed x w)
    (h : (s.step x w).AsksForZero) : s.AsksForZero ∨ s.Doomed := by
  rcases h with h | h
  · by_cases hw : w = .proceed
    · subst hw
      obtain ⟨hi, -⟩ | ⟨i, he, hi, -⟩ := hst.of_working ha.doing_proceed
      · cases he : s.effects with
        | nil =>
          rw [(wait_turn he hi x).1] at h
          exact .inl (.inl h)
        | cons e effects =>
          rw [(perform_turn he x).1, (perform_keeps _ x e).2.1] at h
          refine .inl (.inl ?_)
          rw [he]
          exact List.mem_cons_of_mem e h
      · have hstep : (s.step x .proceed).effects = (s.machine.handle x.now x.roll i).2 := by
          simp [step, proceed, he, hi]
        rw [hstep] at h
        obtain rfl := (s.machine.transition x.now x.roll i).startHeartbeat h
        rw [Machine.handle_hello] at h
        split_ifs at h with hs
        · exact .inr (.heard ha.doing_proceed hs he hi)
        · cases h
    · rw [(s.step_keeps x hw).2.1] at h
      exact .inl (.inl h)
  · obtain ⟨effects, he⟩ := (doing_step ha).2 h
    exact .inl (.inl (he ▸ List.mem_cons_self))

theorem Doomed.of_step (hst : s.Steady) (ha : s.Allowed x w) (hasks : s.AsksForZero → s.Doomed)
    (h : (s.step x w).Doomed) : s.Doomed ∨ w = .inbound ∧ s.HearsZero x := by
  have hback (h : (s.step x w).AsksForZero) : s.Doomed :=
    (asksForZero_of_step hst ha h).elim hasks id
  cases h with
  | heard hd hs he hi =>
    -- The hello has just come in; the state is the one in which it was read.
    obtain ⟨hw, hread⟩ := inputs_hello_of_step hst ha hi
    subst hw
    have hk := s.step_keeps x (w := .inbound) (by decide)
    obtain ⟨bytes, hn, hb⟩ := hread
    exact .inr ⟨rfl, ha, (congrArg Machine.state hk.1).symm.trans hs, bytes, hn,
      Input.ofMessage?_eq_zero.1 hb⟩
  | asked a hd hs he => exact .inl (hback (.inl (he ▸ List.mem_cons_self)))
  | gone a hd hs => exact .inl (hback (.inr hd))

end Session

namespace Course
variable {c : Course}

/-- Only the task's turns change what it does and what it has still to do. -/
theorem next_cases (c : Course) (a : Act) :
    (∃ x w, a = .wake x w ∧ c.session.Allowed x w ∧
      (c.next a).session = c.session.step x w) ∨
    ((c.next a).session.machine = c.session.machine ∧
      (c.next a).session.doing = c.session.doing ∧
      (c.next a).session.effects = c.session.effects ∧
      (c.next a).session.inputs = c.session.inputs) := by
  cases a with
  | wake x w =>
    by_cases ha : c.session.allows x w = true
    · exact .inl ⟨x, w, rfl, Session.allowed_of_allows ha, by rw [next, if_pos ha]; rfl⟩
    · rw [next, if_neg ha]
      exact .inr ⟨rfl, rfl, rfl, rfl⟩
  | call =>
    unfold next
    dsimp only
    split <;> exact .inr ⟨rfl, rfl, rfl, rfl⟩
  | _ => exact .inr ⟨rfl, rfl, rfl, rfl⟩

theorem doomed_next (h : c.session.Doomed) (a : Act) : (c.next a).session.Doomed := by
  obtain ⟨x, w, -, ha, hs⟩ | ⟨hm, hd, he, hi⟩ := c.next_cases a
  · rw [hs]
    exact h.step ha
  · exact h.congr hm hd he hi

theorem doomed_run (h : c.session.Doomed) (acts : List Act) : (c.run acts).session.Doomed :=
  run_keeps (P := fun c => c.session.Doomed) c acts h fun a _ _ h => doomed_next h a

theorem doomed_of_asksForZero (o : Options) (mode : DispatchMode) (x : Surroundings)
    (acts : List Act) (h : ((start o mode x).run acts).session.AsksForZero) :
    ((start o mode x).run acts).session.Doomed := by
  revert h
  refine (run_keeps (P := fun c => c.session.Steady ∧ (c.session.AsksForZero → c.session.Doomed))
    _ acts ⟨Session.steady_start o mode x, fun h => ?_⟩ fun a _ c hc => ?_).2
  · have hfresh := Beating.start o mode x
    exact (h.elim hfresh.effects hfresh.alive).elim
  · obtain ⟨hst, hasks⟩ := hc
    refine ⟨steady_next hst a, fun h => ?_⟩
    obtain ⟨x, w, -, ha, hs⟩ | ⟨hm, hd, he, hi⟩ := c.next_cases a
    · rw [hs] at h ⊢
      exact ((Session.asksForZero_of_step hst ha h).elim hasks id).step ha
    · rw [Session.AsksForZero, he, hd] at h
      exact (hasks h).congr hm hd he hi

theorem hearsZero_of_doomed (o : Options) (mode : DispatchMode) (x : Surroundings)
    (acts : List Act) (h : ((start o mode x).run acts).session.Doomed) :
    ∃ earlier x' later, acts = earlier ++ .wake x' .inbound :: later ∧
      ((start o mode x).run earlier).session.HearsZero x' := by
  -- Back from the end: the last act has brought the doom about, or an earlier one.
  induction acts using List.reverseRecOn with
  | nil =>
    cases h with
    | heard hd hs he hi => cases hi
    | asked a hd hs he => cases he
    | gone a hd hs => cases hd
  | append_singleton acts a ih =>
    have hrun : (start o mode x).run (acts ++ [a]) = ((start o mode x).run acts).next a :=
      List.foldl_append
    have hbefore (h : ((start o mode x).run acts).session.Doomed) :
        ∃ earlier x' later, acts ++ [a] = earlier ++ .wake x' .inbound :: later ∧
          ((start o mode x).run earlier).session.HearsZero x' := by
      obtain ⟨earlier, x', later, rfl, hz⟩ := ih h
      exact ⟨earlier, x', later ++ [a], by simp, hz⟩
    rw [hrun] at h
    obtain ⟨x', w, rfl, ha, hs⟩ | ⟨hm, hd, he, hi⟩ := ((start o mode x).run acts).next_cases a
    · rw [hs] at h
      obtain h | ⟨rfl, hz⟩ := h.of_step (steady_run o mode x acts) ha
        (doomed_of_asksForZero o mode x acts)
      · exact hbefore h
      · exact ⟨acts, x', [], rfl, hz⟩
    · exact hbefore (h.congr hm.symm hd.symm he.symm hi.symm)

theorem doomed_of_hearsZero (o : Options) (mode : DispatchMode) (x : Surroundings)
    {earlier : List Act} {x' : Surroundings}
    (h : ((start o mode x).run earlier).session.HearsZero x') (later : List Act) :
    ((start o mode x).run (earlier ++ .wake x' .inbound :: later)).session.Doomed := by
  have hrun : (start o mode x).run (earlier ++ .wake x' .inbound :: later) =
      (((start o mode x).run earlier).next (.wake x' .inbound)).run later := List.foldl_append
  rw [hrun]
  refine doomed_run ?_ later
  rw [next, if_pos h.allowed.allows]
  exact h.doomed (steady_run o mode x earlier)

theorem next_proceed_of_doomed (h : c.session.Doomed) (x : Surroundings) :
    (c.next (.wake x .proceed)).session.AsksForZero ∧
      (c.session.AsksForZero → (c.next (.wake x .proceed)).session.doing = .crashed) := by
  rcases h.doing_cases with hd | hd
  · rw [next, if_pos (Session.Allowed.proceed hd).allows]
    exact ⟨h.asks x hd, fun hz => h.crashes hz x hd⟩
  · have hn : ¬ c.session.allows x .proceed = true := fun ha =>
      (Session.allowed_of_allows ha).not_over.2 hd
    rw [next, if_neg hn]
    exact ⟨.inr hd, fun _ => hd⟩

/-- The task of a session is gone, or will be within two turns, exactly from the turn in which it
reads, where it waits for a hello, one that announces intervals of zero: nothing else makes the
machine ask for such heartbeats. From then on the session is neither ready nor ended, whatever
happens, and everybody who waits for either waits for ever. -/
theorem doomed_iff_hears_zero (o : Options) (mode : DispatchMode) (x : Surroundings)
    (acts : List Act) :
    let c := (start o mode x).run acts
    (c.session.Doomed ↔ ∃ earlier x' later, acts = earlier ++ .wake x' .inbound :: later ∧
      ((start o mode x).run earlier).session.HearsZero x') ∧
    (c.session.AsksForZero → c.session.Doomed) ∧
    (c.session.Doomed → ∀ x₁ x₂,
      (c.run [.wake x₁ .proceed]).session.AsksForZero ∧
      (c.run [.wake x₁ .proceed, .wake x₂ .proceed]).session.doing = .crashed) ∧
    (c.session.Doomed → ∀ more (e : Errand) x', e.command ≠ .shutdown →
      (c.run more).session.doing ≠ .stopped ∧ e.look? (c.run more).session x' = none) := by
  intro c
  refine ⟨⟨hearsZero_of_doomed o mode x acts, ?_⟩, doomed_of_asksForZero o mode x acts,
    fun h x₁ x₂ => ?_, fun h more e x' hc => ?_⟩
  · rintro ⟨earlier, x', later, rfl, hz⟩
    exact doomed_of_hearsZero o mode x hz later
  · obtain ⟨hasks, -⟩ := next_proceed_of_doomed h x₁
    obtain ⟨-, hgone⟩ := next_proceed_of_doomed (doomed_next h (.wake x₁ .proceed)) x₂
    exact ⟨hasks, hgone hasks⟩
  · have hdoomed := doomed_run h more
    refine ⟨fun hs => ?_, ?_⟩
    · rcases hdoomed.doing_cases with hd | hd <;> cases hs.symm.trans hd
    · unfold Errand.look?
      cases hcommand : e.command <;>
        simp_all [hdoomed.readiness?_eq_none, hdoomed.isStopped_eq_false]

def greetedWithZero (x : Surroundings) : List Act :=
  turns x [.proceed, .opened, .proceed, .proceed] ++
    .receive (.message (Frame.hello 0).render.toUTF8.toList) :: turns x [.inbound, .proceed]

theorem greetedWithZero_ends_task :
    let x := Rehearsal.Play.surroundingsAt 0 true
    let c := (start (.create "wss://gateway.test" "token" .unprivileged) .unbounded x).run
      (greetedWithZero x)
    c.session.effects = [.startHeartbeat .zero, .identify] ∧
      (c.next (.wake x .proceed)).session.doing = .crashed ∧
      (c.next (.wake x .proceed)).session.state = .identifying := by
  decide +kernel

end Course

end Parley.Gateway
