import PageDispatch.Script.Writing

/-!
This module contains single operations on header sets as values.
-/

namespace PageDispatch

inductive HeaderWork where
  | insert (name : String) (value : Bytes)
  | set (name : String) (value : Bytes)
  | append (name : String) (value : Bytes)
  | appendRepeatable (name : String) (value : Bytes)
  | merge (other : HeaderSet)
  | remove (name : String)
  | get (name : String)
  | getText (name : String)
  | getAll (name : String)
  | contains (name : String)
  | isRepeatable (name : String)
  | isMultiValued (name : String)
  | size
  | equals (other : HeaderSet)

namespace HeaderWork

def write (f : HeaderName → HeaderValue → HeaderSet) (name : String) (value : Bytes) :
    Except CauseChain (Json × HeaderSet) := do
  let name ← Writing.parseName name
  let value ← (HeaderValue.ofBytes value).mapError (·.toCauseChain)
  return (.null, f name value)

def perform (w : HeaderWork) (h : HeaderSet) : Except CauseChain (Json × HeaderSet) := do
  match w with
  | insert name value => write h.insert name value
  | set name value => write h.set name value
  | append name value => write h.append name value
  | appendRepeatable name value => write h.appendRepeatable name value
  | merge other => return (.null, h.merge other)
  | remove name =>
    let name ← Writing.parseName name
    return (.ofNat (h.count name), h.erase name)
  | get name =>
    return (.ofOption (fun v => Utf8.toJson v.bytes) (h.get? (← Writing.parseName name)), h)
  | getText name => return (.ofOption .str (h.getText? name), h)
  | getAll name =>
    return (.arr ((h.getAll (← Writing.parseName name)).map fun v => Utf8.toJson v.bytes), h)
  | contains name => return (.bool (h.contains (← Writing.parseName name)), h)
  | isRepeatable name => return (.bool (h.isRepeatable (← Writing.parseName name)), h)
  | isMultiValued name => return (.bool (← Writing.parseName name).isMultiValued, h)
  | size => return (.arr [.ofNat h.size, .bool (h.size == 0)], h)
  | equals other => return (.bool (h == other), h)

end HeaderWork
end PageDispatch
