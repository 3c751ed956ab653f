import PageDispatch.Http.Method
import PageDispatch.Http.Query
import PageDispatch.RequestId

/-!
This module contains requests: an identifier, a method, a target split into path and query, header
fields as received and a body.
-/

namespace PageDispatch

structure Request where
  id : RequestId
  method : Method
  path : String
  query : List (String × String)
  headers : List (String × String)
  body : Option Bytes
  deriving Repr

namespace Request

def splitTarget (target : String) : String × Option String :=
  match target.toList.span (· ≠ '?') with
  | (path, _ :: query) => (String.ofList path, some (String.ofList query))
  | (path, []) => (String.ofList path, none)

def new (id : RequestId) (method : Method) (target : String) : Request :=
  let (path, query) := splitTarget target
  { id, method
    path := if path.isEmpty then "/" else path
    query := (query.map Query.parse).getD []
    headers := []
    body := none }

def sameName (a b : String) : Bool :=
  Lowercase.lowerAscii a == Lowercase.lowerAscii b

def withHeader (r : Request) (name value : String) : Request :=
  { r with
    id := if sameName name RequestId.headerName then (RequestId.ofHeader? value).getD r.id else r.id
    headers := r.headers ++ [(name, value)] }

def withBody (r : Request) (body : Bytes) : Request :=
  { r with body := some body }

def header? (r : Request) (name : String) : Option String :=
  (r.headers.find? fun (other, _) => sameName other name).map (·.2)

def queryParam? (r : Request) (name : String) : Option String :=
  ((r.query.filter fun (other, _) => other == name).getLast?).map (·.2)

def bodyText? (r : Request) : Option String :=
  r.body.bind Utf8.decode?

def insertHeader (name value : String) : List (String × String) → List (String × String)
  | [] => [(name, value)]
  | (other, old) :: rest =>
    if other = name then (name, value) :: rest else (other, old) :: insertHeader name value rest

/-- The header fields by lowered name; the last of several fields of one name counts. -/
def headerMap (r : Request) : List (String × String) :=
  r.headers.foldl (fun map (name, value) => insertHeader (Lowercase.lowerAscii name) value map) []

end Request
end PageDispatch
