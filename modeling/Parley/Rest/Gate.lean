import Parley.Time.Instant

/-! The limit of the whole account, which holds back every request while it lasts. -/
namespace Parley.Rest

structure Gate where
  /-- End of the block that was set last and not yet seen to be over. -/
  blocked : Option Instant
deriving DecidableEq, Inhabited

namespace Gate

def label : String := "global"

def create : Gate := ⟨none⟩

/-- Blocks until an instant; a block that lasts longer stays. -/
def trip (g : Gate) (until_ : Instant) : Gate :=
  match g.blocked with
  | some current => if current < until_ then ⟨some until_⟩ else g
  | none => ⟨some until_⟩

/-- End of the block, if there is one at `now`. A block that is over is forgotten. -/
def blockedUntil (g : Gate) (now : Instant) : Gate × Option Instant :=
  match g.blocked with
  | some until_ => if now < until_ then (g, some until_) else (⟨none⟩, none)
  | none => (g, none)

def isOpen (g : Gate) (now : Instant) : Bool := (g.blockedUntil now).2.isNone

end Gate

end Parley.Rest
