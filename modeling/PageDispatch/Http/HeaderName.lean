import PageDispatch.Http.Token

/-!
This module contains header names. Letter case does not count in them, so they are kept lowered.
-/

namespace PageDispatch

/-- Whether a text is a lowered header name: a token without capitals, of limited length. -/
def isHeaderName (s : String) : Bool :=
  let cs := s.toList
  !cs.isEmpty && decide (cs.length ≤ 65535) && cs.all fun c => Http.isTokenChar c && !c.isUpper

structure HeaderName where
  text : String
  valid : isHeaderName text = true
  deriving DecidableEq, Repr

namespace HeaderName

def parse (s : String) : Except Http.Malformed HeaderName :=
  let lowered := String.ofList (s.toList.map Char.toLower)
  if h : isHeaderName lowered = true then .ok ⟨lowered, h⟩ else .error .headerName

def cacheControl : HeaderName := ⟨"cache-control", by decide⟩
def connection : HeaderName := ⟨"connection", by decide⟩
def contentLength : HeaderName := ⟨"content-length", by decide⟩
def contentType : HeaderName := ⟨"content-type", by decide⟩
def link : HeaderName := ⟨"link", by decide⟩
def location : HeaderName := ⟨"location", by decide⟩
def retryAfter : HeaderName := ⟨"retry-after", by decide⟩
def setCookie : HeaderName := ⟨"set-cookie", by decide⟩
def via : HeaderName := ⟨"via", by decide⟩
def warning : HeaderName := ⟨"warning", by decide⟩
def wwwAuthenticate : HeaderName := ⟨"www-authenticate", by decide⟩

def isMultiValued (name : HeaderName) : Bool :=
  [setCookie, wwwAuthenticate, warning, link, via].contains name

end HeaderName
end PageDispatch
