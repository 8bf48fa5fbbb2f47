/-! Paths of requests, and the templates and major parameters that group them. -/
namespace Parley.Rest

/-- First segments whose parameter separates rate limits. -/
def majorResources : List String := ["channels", "guilds", "webhooks"]

structure Route where
  template : String
  path : String
  major : Option String
deriving DecidableEq, Inhabited

namespace Route

def expand : List Char → List String → List Char
  | '\x7b' :: '\x7d' :: rest, p :: params => p.toList ++ expand rest params
  | '\x7b' :: '\x7d' :: rest, [] => '\x7b' :: '\x7d' :: expand rest []
  | c :: rest, params => c :: expand rest params
  | [], _ => []

/-- Characters up to the first slash, and those after it; none if there is no slash. -/
def splitSlash : List Char → List Char × Option (List Char)
  | [] => ([], none)
  | c :: cs =>
    if c = '/' then ([], some cs)
    else
      let (segment, rest) := splitSlash cs
      (c :: segment, rest)

/-- The first parameter, if the template begins with a major resource and a pair of braces. -/
def majorOf (template : List Char) (params : List String) : Option String :=
  match splitSlash (template.dropWhile (· == '/')) with
  | (resource, some rest) =>
    if (splitSlash rest).1 = ['\x7b', '\x7d'] ∧ String.ofList resource ∈ majorResources then
      params.head?
    else none
  | (_, none) => none

def create (template : String) (params : List String) : Route :=
  ⟨template, String.ofList (expand template.toList params), majorOf template.toList params⟩

def fixed (path : String) : Route := ⟨path, path, none⟩

end Route

end Parley.Rest
