import Parley.ClientError

/-! Where requests go and how they are authorized. -/
namespace Parley.Rest

structure Endpoint where
  /-- Without slashes at its end. -/
  baseUrl : String
deriving DecidableEq

namespace Endpoint

def trimSlashes (s : String) : String :=
  String.ofList (s.toList.reverse.dropWhile (· == '/')).reverse

def isHeaderChar (c : Char) : Bool := (32 ≤ c.toNat && c.toNat ≠ 127) || c == '\t'

/-- Refuses a token that cannot be sent in a header. -/
def create (baseUrl token : String) : Except ClientError Endpoint :=
  if token.toList.all isHeaderChar then .ok ⟨trimSlashes baseUrl⟩
  else .error (.config "token contains invalid header characters")

end Endpoint

end Parley.Rest
