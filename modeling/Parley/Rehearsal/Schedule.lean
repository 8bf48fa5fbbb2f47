/-! A rehearsal runs parts of the client against a scripted server, on a clock of its own that counts
milliseconds and jumps to the next moment at which something happens. This module is the clock and
the order of the tasks: a task runs until it has to wait, and tasks that become able to go on do so
in the order in which they became able. -/
namespace Parley.Rehearsal

structure Schedule (τ σ : Type) where
  tasks : σ → List τ
  canRun : Nat → σ → τ → Bool
  run : Nat → σ → τ → σ
  /-- The first later millisecond at which a task that waits goes on. -/
  next? : Nat → σ → Option Nat

structure Scene (τ σ : Type) where
  now : Nat
  state : σ
  /-- The task that ran least recently first. -/
  rested : List τ
  ready : List τ

namespace Scene

variable {τ σ : Type} [BEq τ]

def start (now : Nat) (state : σ) : Scene τ σ := ⟨now, state, [], []⟩

/-- Turns that all tasks together may take in one millisecond. -/
def turnLimit : Nat := 100000

/-- Puts new tasks and tasks that have become able to go on in their places. -/
def refresh (x : Scene τ σ) (s : Schedule τ σ) : Scene τ σ :=
  let tasks := s.tasks x.state
  let known := x.rested.filter tasks.contains
  let rested := known ++ tasks.filter fun t => !known.contains t
  let still := x.ready.filter fun t => tasks.contains t && s.canRun x.now x.state t
  let woken := rested.filter fun t => s.canRun x.now x.state t && !still.contains t
  { x with rested, ready := still ++ woken }

def settle (s : Schedule τ σ) : Nat → Scene τ σ → Scene τ σ
  | 0, x => x
  | turns + 1, x =>
    let x := x.refresh s
    match x.ready with
    | [] => x
    | t :: _ =>
      settle s turns { x with state := s.run x.now x.state t, rested := x.rested.erase t ++ [t] }

def rest (x : Scene τ σ) (s : Schedule τ σ) : Scene τ σ := settle s turnLimit x

/-- Runs until `isDone` holds and all tasks wait, and at most everything that happens before the
millisecond `target`, which is then about to begin. -/
def runUntil (s : Schedule τ σ) (isDone : σ → Bool) (target : Nat) (x : Scene τ σ) : Scene τ σ :=
  let y := x.rest s
  if isDone y.state then { y with now := x.now }
  else
    match s.next? x.now y.state with
    | some t =>
      if _ : x.now < t ∧ t < target then runUntil s isDone target { y with now := t }
      else { y with now := max x.now target }.refresh s
    | none => { y with now := max x.now target }.refresh s
termination_by target - x.now
decreasing_by omega

def sleep (x : Scene τ σ) (s : Schedule τ σ) (millis : Nat) : Scene τ σ :=
  runUntil s (fun _ => false) (x.now + millis) x

def await (x : Scene τ σ) (s : Schedule τ σ) (millis : Nat) (isDone : σ → Bool) : Scene τ σ :=
  runUntil s isDone (x.now + millis) x

def act (x : Scene τ σ) (f : Nat → σ → σ) : Scene τ σ := { x with state := f x.now x.state }

end Scene

def earliest (now : Nat) (moments : List Nat) : Option Nat :=
  (moments.filter fun t => now < t).min?

end Parley.Rehearsal
