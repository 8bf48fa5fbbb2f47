/-! Methods of requests. -/
namespace Parley.Rest

structure Method where
  name : String
deriving DecidableEq, Inhabited

namespace Method

def get : Method := ⟨"GET"⟩
def post : Method := ⟨"POST"⟩
def patch : Method := ⟨"PATCH"⟩
def delete : Method := ⟨"DELETE"⟩

def isTokenChar (c : Char) : Bool := c.isAlphanum || "!#$%&'*+-.^_`|~".toList.contains c

/-- Any token; case matters. -/
def ofText? (s : String) : Option Method :=
  if !s.isEmpty && s.toList.all isTokenChar then some ⟨s⟩ else none

end Method

end Parley.Rest
