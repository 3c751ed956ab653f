import PageDispatch.CauseChain

/-!
This module contains the characters of tokens, which methods and header names are made of, and the
ways in which parts of a message head can be malformed.
-/

namespace PageDispatch
namespace Http

def isTokenChar (c : Char) : Bool :=
  c.isAlphanum || ['!', '#', '$', '%', '&', '\'', '*', '+', '-', '.', '^', '_', '\x60', '|', '~'].contains c

inductive Malformed where
  | method
  | status
  | headerName
  | headerValue
  | headerText
  deriving DecidableEq, Repr

namespace Malformed

def message : Malformed → String
  | method => "invalid HTTP method"
  | status => "invalid status code"
  | headerName => "invalid HTTP header name"
  | headerValue => "failed to parse header value"
  | headerText => "failed to convert header to a str"

def toCauseChain (e : Malformed) : CauseChain := .of e.message

end Malformed
end Http
end PageDispatch
