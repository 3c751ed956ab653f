import PageDispatch.Http.Token

/-!
This module contains request methods.
-/

namespace PageDispatch

def isMethodName (s : String) : Bool :=
  !s.toList.isEmpty && s.toList.all Http.isTokenChar

structure Method where
  name : String
  valid : isMethodName name = true
  deriving DecidableEq, Repr

namespace Method

def get : Method := ⟨"GET", by decide⟩

def parse (name : String) : Except Http.Malformed Method :=
  if h : isMethodName name = true then .ok ⟨name, h⟩ else .error .method

end Method
end PageDispatch
