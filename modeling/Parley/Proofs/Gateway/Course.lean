import Parley.Proofs.Gateway.StateGraph
import Parley.Rehearsal.Play

/-! The course of a session among its server, its application and its users, any of whom may act
between any two turns of the session's task. Along with it goes a log of what can be seen of the
session from outside. -/
namespace Parley.Gateway

inductive Note where
  | opened
  | read (bytes : List UInt8)
  | hello (h : Handshake)
  | wrote (frame : Frame)
  | pushed (d : Delivery)
  | handled (d : Delivery)
deriving DecidableEq

namespace Note

def pushed? : Note → Option Delivery
  | pushed d => some d
  | _ => none

def handled? : Note → Option Delivery
  | handled d => some d
  | _ => none

end Note

/-- The notes of the present connection, the latest standing first. -/
def sinceOpened (log : List Note) : List Note := log.takeWhile (· ≠ .opened)

/-- Of each entry, the latest standing first, and those before it. -/
def Throughout {α : Type} (P : List α → α → Prop) : List α → Prop
  | [] => True
  | a :: earlier => P earlier a ∧ Throughout P earlier

namespace Throughout
variable {α : Type} {P Q : List α → α → Prop} {later earlier : List α} {a : α}

theorem before (h : Throughout P (later ++ earlier)) : Throughout P earlier := by
  induction later with
  | nil => exact h
  | cons b later ih => exact ih h.2

theorem at_entry (h : Throughout P (later ++ a :: earlier)) : P earlier a := h.before.1

theorem mono (h : Throughout P later) (hpq : ∀ earlier a, P earlier a → Q earlier a) :
    Throughout Q later := by
  induction later with
  | nil => trivial
  | cons b later ih => exact ⟨hpq later b h.1, ih h.2⟩

end Throughout

def Effect.handshake? : Effect → Option Handshake
  | identify => some .identify
  | resume id sequence => some (.resume id sequence)
  | _ => none

namespace Session

def writing? (s : Session) : Option Frame :=
  match s.doing with
  | .sending frame => some frame
  | _ => none

/-- What an effect pushes. An event that was delivered before is dropped. -/
def pushed? (s : Session) : Effect → Option Delivery
  | .deliver e =>
    if e.dedupeKey?.all fun key => (s.dedupe.tryAdd key).2 then some (.event e) else none
  | .connected resumed => some (.connected resumed)
  | .disconnected cause => some (.closed cause)
  | _ => none

/-- What can be seen of a turn besides the frame that it writes. -/
def notes (s : Session) (x : Surroundings) : Wake → List Note
  | .opened => [.opened]
  | .inbound =>
    match s.inbox.map Inbox.unread with
    | some (.message bytes :: _) => [.read bytes]
    | _ => []
  | .proceed =>
    match s.effects, s.inputs with
    | e :: _, _ => (s.pushed? e).toList.map .pushed
    | [], .hello interval :: _ =>
      ((s.machine.handle x.now x.roll (.hello interval)).2.filterMap Effect.handshake?).map .hello
    | _, _ => []
  | _ => []

def seen (s : Session) (x : Surroundings) (w : Wake) : List Note :=
  (s.step x w).writing?.toList.map .wrote ++ s.notes x w

theorem perform_push {s : Session} {e : Effect} {d : Delivery} (h : s.pushed? e = some d)
    (x : Surroundings) : ∃ dedupe, s.perform x e = { s with dedupe }.push d := by
  cases e <;> simp only [pushed?, reduceCtorEq, Option.some.injEq] at h
  case deliver e =>
    simp only [perform, deliver]
    cases hk : e.dedupeKey? with
    | none =>
      obtain rfl : .event e = d := by simpa [hk] using h
      exact ⟨s.dedupe, rfl⟩
    | some key =>
      simp only [hk, Option.all_some, Option.ite_none_right_eq_some, Option.some.injEq] at h
      obtain ⟨hn, rfl⟩ := h
      exact ⟨(s.dedupe.tryAdd key).1, by simp [hn]⟩
  case connected => obtain rfl := h; exact ⟨s.dedupe, rfl⟩
  case disconnected => obtain rfl := h; exact ⟨s.dedupe, rfl⟩

theorem perform_dropped {s : Session} {e : Event} (h : s.pushed? (.deliver e) = none)
    (x : Surroundings) : s.perform x (.deliver e) = s := by
  simp only [perform, deliver]
  cases hk : e.dedupeKey? with
  | none => simp [pushed?, hk] at h
  | some key =>
    have hn : (s.dedupe.tryAdd key).2 = false := by simpa [pushed?, hk] using h
    simp [hn]

theorem doing_push (s : Session) (d : Delivery) :
    (s.push d).doing = s.doing ∨ (s.push d).doing = .delivering := by
  unfold push
  dsimp only
  split
  · exact .inr rfl
  · exact .inl rfl

/-- Performing an effect changes neither the machine nor what remains to be done. -/
theorem perform_keeps (s : Session) (x : Surroundings) (e : Effect) :
    (s.perform x e).machine = s.machine ∧ (s.perform x e).effects = s.effects ∧
      (s.perform x e).inputs = s.inputs ∧ (s.perform x e).payload = s.payload := by
  unfold perform shake deliver push send
  repeat' split
  all_goals exact ⟨rfl, rfl, rfl, rfl⟩

end Session

namespace Session

inductive Allowed (s : Session) (x : Surroundings) : Wake → Prop
  | proceed (hd : s.doing = .working) : Allowed s x .proceed
  | opened (url) (hd : s.doing = .connecting url) : Allowed s x .opened
  | refused (url e) (hd : s.doing = .connecting url) : Allowed s x (.refused e)
  | left (url) (hd : s.doing = .connecting url) (hl : s.isLeaving = true) : Allowed s x .shutdown
  | sent (frame) (hd : s.doing = .sending frame) : Allowed s x .sent
  | unsent (frame e) (hd : s.doing = .sending frame) : Allowed s x (.unsent e)
  | disconnected (code) (hd : s.doing = .disconnecting code) : Allowed s x .disconnected
  | delivered (hd : s.doing = .delivering) (hp : s.dispatch.isPushing = false) :
    Allowed s x .delivered
  | source {w} (hd : s.doing = .listening) (hs : s.source? x = some w) : Allowed s x w
  | drained (hd : s.doing = .draining) (hq : s.dispatch.isDrained = true) : Allowed s x .drained

theorem allowed_of_allows {s : Session} {x : Surroundings} {w : Wake}
    (h : s.allows x w = true) : s.Allowed x w := by
  unfold allows at h
  cases hd : s.doing with
  | working =>
    rw [hd] at h
    cases w with
    | proceed => exact .proceed hd
    | _ => cases h
  | connecting url =>
    rw [hd] at h
    cases w with
    | opened => exact .opened url hd
    | refused e => exact .refused url e hd
    | shutdown => exact .left url hd h
    | _ => cases h
  | sending frame =>
    rw [hd] at h
    cases w with
    | sent => exact .sent frame hd
    | unsent e => exact .unsent frame e hd
    | _ => cases h
  | disconnecting code =>
    rw [hd] at h
    cases w with
    | disconnected => exact .disconnected code hd
    | _ => cases h
  | delivering =>
    rw [hd] at h
    cases w with
    | delivered => exact .delivered hd (Bool.not_eq_true' _ ▸ h)
    | _ => cases h
  | listening =>
    rw [hd] at h
    exact .source hd (eq_of_beq h)
  | draining =>
    rw [hd] at h
    cases w with
    | drained => exact .drained hd h
    | _ => cases h
  | stopped =>
    rw [hd] at h
    cases h
  | crashed =>
    rw [hd] at h
    cases h

theorem Allowed.allows {s : Session} {x : Surroundings} {w : Wake} (h : s.Allowed x w) :
    s.allows x w = true := by
  unfold Session.allows
  cases h with
  | proceed hd => rw [hd]
  | opened url hd => rw [hd]
  | refused url e hd => rw [hd]
  | left url hd hl => rw [hd]; exact hl
  | sent frame hd => rw [hd]
  | unsent frame e hd => rw [hd]
  | disconnected code hd => rw [hd]
  | delivered hd hp => rw [hd]; exact congrArg not hp
  | source hd hs => rw [hd]; exact beq_iff_eq.2 hs
  | drained hd hq => rw [hd]; exact hq

/-- Only where it performs effects or applies inputs does a turn change more than what there is to
wait for. -/
theorem step_keeps (s : Session) (x : Surroundings) {w : Wake} (hw : w ≠ .proceed) :
    (s.step x w).machine = s.machine ∧ (s.step x w).effects = s.effects ∧
      (s.step x w).dispatch = s.dispatch ∧ (s.step x w).payload = s.payload := by
  cases w
  case proceed => exact absurd rfl hw
  case throttleClear =>
    unfold step
    dsimp only
    split <;> exact ⟨rfl, rfl, rfl, rfl⟩
  case inbound =>
    unfold step read
    dsimp only
    repeat' split
    all_goals exact ⟨rfl, rfl, rfl, rfl⟩
  all_goals exact ⟨rfl, rfl, rfl, rfl⟩

theorem notes_read {s : Session} {x : Surroundings} {w : Wake} {n : Note} (hw : w ≠ .proceed)
    (ho : w ≠ .opened) (hn : n ∈ s.notes x w) : ∃ bytes, n = .read bytes := by
  cases w <;> simp only [notes, List.not_mem_nil] at hn
  case proceed => exact absurd rfl hw
  case opened => exact absurd rfl ho
  case inbound =>
    split at hn
    · exact ⟨_, List.mem_singleton.1 hn⟩
    · exact absurd hn List.not_mem_nil

end Session

structure Course where
  session : Session
  log : List Note

namespace Course

inductive Act where
  /-- The task takes a turn, if what it waits for has come. -/
  | wake (x : Surroundings) (w : Wake)
  | receive (m : Inbound)
  | endInbound
  | leave
  | call
  | finish

def start (o : Options) (mode : DispatchMode) (x : Surroundings) : Course :=
  ⟨.start o mode x, []⟩

def turn (c : Course) (x : Surroundings) (w : Wake) : Course :=
  ⟨c.session.step x w, c.session.seen x w ++ c.log⟩

def next (c : Course) : Act → Course
  | .wake x w => if c.session.allows x w then c.turn x w else c
  | .receive m => { c with session := c.session.receive m }
  | .endInbound => { c with session := c.session.endInbound }
  | .leave => { c with session := c.session.leave }
  | .call =>
    match c.session.dispatch.take? with
    | some (d, dispatch) => ⟨{ c.session with dispatch }, .handled d :: c.log⟩
    | none => c
  | .finish =>
    { c with session := { c.session with dispatch := c.session.dispatch.finish } }

def run (c : Course) (acts : List Act) : Course := acts.foldl next c

/-- Deliveries pushed so far, the latest first. -/
def pushed (c : Course) : List Delivery := c.log.filterMap Note.pushed?

def handled (c : Course) : List Delivery := c.log.filterMap Note.handled?

@[simp] theorem run_nil (c : Course) : c.run [] = c := rfl

@[simp] theorem run_cons (c : Course) (a : Act) (acts : List Act) :
    c.run (a :: acts) = (c.next a).run acts := rfl

def turns (x : Surroundings) (wakes : List Wake) : List Act := wakes.map (.wake x)

/-- The server sends a frame, and the session deals with it, up to four turns long. -/
def hear (x : Surroundings) (f : Frame) : List Act :=
  .receive (.message f.render.toUTF8.toList) :: turns x (.inbound :: List.replicate 4 .proceed)

/-- A session connects, and the server says hello. The handshake is sent, or held back. -/
def greeting (x : Surroundings) : List Act :=
  turns x [.proceed, .opened, .proceed, .proceed] ++ hear x (.hello 45000)

section
variable {P : Course → Prop} {c : Course}

theorem next_wake {x : Surroundings} {w : Wake} (h : P c)
    (ht : c.session.Allowed x w → P (c.turn x w)) : P (c.next (.wake x w)) := by
  unfold next
  dsimp only
  split
  · next ha => exact ht (Session.allowed_of_allows ha)
  · exact h

theorem next_call (h : P c) (ht : ∀ d dispatch, c.session.dispatch.take? = some (d, dispatch) →
    P ⟨{ c.session with dispatch }, .handled d :: c.log⟩) : P (c.next .call) := by
  unfold next
  dsimp only
  split
  · next d dispatch hd => exact ht d dispatch hd
  · exact h

end

theorem run_keeps {P : Course → Prop} (c : Course) (acts : List Act) (h : P c)
    (hk : ∀ a ∈ acts, ∀ c, P c → P (c.next a)) : P (c.run acts) := by
  induction acts generalizing c with
  | nil => exact h
  | cons a acts ih =>
    exact ih (c.next a) (hk a List.mem_cons_self c h) fun b hb => hk b (List.mem_cons_of_mem a hb)

end Course

end Parley.Gateway

namespace Parley.Rehearsal.Play

open Gateway (Session Course)

/-- A rehearsal gives a session only turns that the session allows. -/
theorem allowed_of_wake? {p : Play} {now : Nat} {server : Server} {w : Gateway.Wake}
    (h : p.wake? now = (server, some w)) :
    p.client.session.Allowed (p.surroundings now) w := by
  unfold wake? at h
  dsimp only at h
  cases hd : p.client.session.doing with
  | working =>
    rw [hd] at h
    obtain ⟨⟩ := h
    exact .proceed hd
  | connecting url =>
    simp only [hd] at h
    split at h
    · next hl =>
      obtain ⟨⟩ := h
      exact .left url hd hl
    · split at h
      · cases h
      · revert h
        unfold Server.connect
        dsimp only
        split_ifs
        · rintro ⟨⟩
        · split
          · rintro ⟨⟩
            exact .opened url hd
          · rintro ⟨⟩
            exact .refused url _ hd
  | sending frame =>
    simp only [hd] at h
    split at h
    · obtain ⟨⟩ := h
      exact .sent frame hd
    · obtain ⟨⟩ := h
      exact .unsent frame _ hd
  | disconnecting code =>
    rw [hd] at h
    obtain ⟨⟩ := h
    exact .disconnected code hd
  | delivering =>
    simp only [hd, Prod.mk.injEq] at h
    obtain ⟨-, h⟩ := h
    split at h
    · cases h
    · next hp =>
      obtain ⟨⟩ := h
      exact .delivered hd (Bool.not_eq_true _ ▸ hp)
  | listening =>
    simp only [hd, Prod.mk.injEq] at h
    exact .source hd h.2
  | draining =>
    simp only [hd, Prod.mk.injEq] at h
    obtain ⟨-, h⟩ := h
    split at h
    · next hq =>
      obtain ⟨⟩ := h
      exact .drained hd hq
    · cases h
  | stopped => simp [hd] at h
  | crashed => simp [hd] at h

/-- Whatever a rehearsal makes a session do is a course of it. -/
theorem runSession_is_course (now turns : Nat) (p : Play) (c : Course)
    (hc : c.session = p.client.session) :
    ∃ acts, (c.run acts).session = (p.runSession now turns).client.session := by
  induction turns generalizing p c with
  | zero => exact ⟨[], hc⟩
  | succ turns ih =>
    unfold runSession
    dsimp only
    split
    · exact ⟨[], hc⟩
    · next server w hw =>
      have ha := (allowed_of_wake? hw).allows
      have hn : (c.next (.wake (p.surroundings now) w)).session =
          p.client.session.step (p.surroundings now) w := by
        simp [Course.next, Course.turn, hc, ha]
      obtain ⟨acts, h⟩ := ih
        ({ p with server }.withSession (p.client.session.step (p.surroundings now) w))
        (c.next (.wake (p.surroundings now) w)) hn
      exact ⟨.wake (p.surroundings now) w :: acts, h⟩

end Parley.Rehearsal.Play
