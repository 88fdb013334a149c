/-!
Request methods. Names are case-sensitive.
-/

namespace QueryRouting

structure Method where
  name : String
  deriving DecidableEq, Repr

namespace Method

def get : Method := ⟨"GET"⟩

def head : Method := ⟨"HEAD"⟩

def connect : Method := ⟨"CONNECT"⟩

def isTokenChar (c : Char) : Bool :=
  c.isAlphanum || "!#$%&'*+-.^_\x60|~".toList.contains c

/-- A method name is a token: one or more of its characters. -/
def ofName? (name : List Char) : Option Method :=
  if !name.isEmpty && name.all isTokenChar then some ⟨String.ofList name⟩ else none

end Method

end QueryRouting
