import PageDispatch.Http.HeaderName
import PageDispatch.Http.HeaderValue
import PageDispatch.Text.Lowercase

/-!
This module contains ordered sets of header entries. A name has one entry, unless it is repeatable:
multi-valued by itself, or declared so in the set.
-/

namespace PageDispatch

structure HeaderSet where
  entries : List (HeaderName × HeaderValue)
  declared : List HeaderName
  deriving DecidableEq, Repr

namespace HeaderSet

def empty : HeaderSet := ⟨[], []⟩

def isRepeatable (h : HeaderSet) (name : HeaderName) : Bool :=
  name.isMultiValued || h.declared.contains name

/-- Puts a value in the place of the first entry of its name and drops the others, or at the end. -/
def replace (name : HeaderName) (value : HeaderValue) :
    List (HeaderName × HeaderValue) → List (HeaderName × HeaderValue)
  | [] => [(name, value)]
  | (other, old) :: rest =>
    if other = name then (name, value) :: rest.filter (·.1 ≠ name)
    else (other, old) :: replace name value rest

def set (h : HeaderSet) (name : HeaderName) (value : HeaderValue) : HeaderSet :=
  { h with entries := replace name value h.entries }

def append (h : HeaderSet) (name : HeaderName) (value : HeaderValue) : HeaderSet :=
  { h with entries := h.entries ++ [(name, value)] }

def insert (h : HeaderSet) (name : HeaderName) (value : HeaderValue) : HeaderSet :=
  if h.isRepeatable name then h.append name value else h.set name value

def declare (h : HeaderSet) (name : HeaderName) : HeaderSet :=
  if h.isRepeatable name then h else { h with declared := h.declared ++ [name] }

def appendRepeatable (h : HeaderSet) (name : HeaderName) (value : HeaderValue) : HeaderSet :=
  (h.declare name).append name value

def getAll (h : HeaderSet) (name : HeaderName) : List HeaderValue :=
  (h.entries.filter (·.1 = name)).map (·.2)

def get? (h : HeaderSet) (name : HeaderName) : Option HeaderValue :=
  (h.getAll name).getLast?

def getText? (h : HeaderSet) (name : String) : Option String :=
  let lowered := Lowercase.lowerAscii name
  ((h.entries.filter (·.1.text = lowered)).getLast?).bind fun (_, value) => value.toText.toOption

def contains (h : HeaderSet) (name : HeaderName) : Bool :=
  h.entries.any (·.1 = name)

/-- Drops every entry of a name. A declaration stays. -/
def erase (h : HeaderSet) (name : HeaderName) : HeaderSet :=
  { h with entries := h.entries.filter (·.1 ≠ name) }

def count (h : HeaderSet) (name : HeaderName) : Nat :=
  (h.entries.filter (·.1 = name)).length

def size (h : HeaderSet) : Nat := h.entries.length

def merge (h other : HeaderSet) : HeaderSet :=
  other.entries.foldl (fun h (name, value) => h.insert name value)
    (other.declared.foldl declare h)

@[simp]
theorem entries_append (h : HeaderSet) (name : HeaderName) (value : HeaderValue) :
    (h.append name value).entries = h.entries ++ [(name, value)] := rfl

@[simp]
theorem declared_append (h : HeaderSet) (name : HeaderName) (value : HeaderValue) :
    (h.append name value).declared = h.declared := rfl

@[simp]
theorem declared_set (h : HeaderSet) (name : HeaderName) (value : HeaderValue) :
    (h.set name value).declared = h.declared := rfl

@[simp]
theorem declared_erase (h : HeaderSet) (name : HeaderName) :
    (h.erase name).declared = h.declared := rfl

@[simp]
theorem entries_declare (h : HeaderSet) (name : HeaderName) :
    (h.declare name).entries = h.entries := by
  unfold declare
  split <;> rfl

@[simp]
theorem declared_insert (h : HeaderSet) (name : HeaderName) (value : HeaderValue) :
    (h.insert name value).declared = h.declared := by
  unfold insert
  split <;> rfl

@[simp]
theorem merge_empty (h : HeaderSet) : h.merge empty = h := rfl

theorem any_replace (name other : HeaderName) (value : HeaderValue)
    (entries : List (HeaderName × HeaderValue)) :
    (replace name value entries).any (·.1 = other)
      =
    (decide (name = other) || entries.any (·.1 = other)) := by
  induction entries with
  | nil => simp [replace]
  | cons entry rest ih =>
    obtain ⟨first, old⟩ := entry
    unfold replace
    split
    . next h =>
      subst h
      cases Decidable.em (first = other) with
      | inl heq => simp [heq]
      | inr hne =>
        have hfilter : (rest.filter (·.1 ≠ first)).any (·.1 = other) = rest.any (·.1 = other) := by
          rw [List.any_filter]
          congr 1
          funext e
          cases Decidable.em (e.1 = other) with
          | inl he => simp [he, Ne.symm hne]
          | inr he => simp [he]
        rw [List.any_cons, hfilter, List.any_cons]
        simp
    . simp only [List.any_cons, ih]
      rw [Bool.or_left_comm]

theorem contains_insert (h : HeaderSet) (name other : HeaderName) (value : HeaderValue) :
    (h.insert name value).contains other = (decide (name = other) || h.contains other) := by
  unfold insert
  split
  . simp [contains, append, Bool.or_comm]
  . exact any_replace name other value h.entries

theorem entries_foldl_declare (h : HeaderSet) (names : List HeaderName) :
    (names.foldl declare h).entries = h.entries := by
  induction names generalizing h with
  | nil => rfl
  | cons name rest ih => rw [List.foldl_cons, ih, entries_declare]

theorem contains_foldl_insert (h : HeaderSet) (entries : List (HeaderName × HeaderValue))
    (name : HeaderName) :
    (entries.foldl (fun h (name, value) => h.insert name value) h).contains name
      =
    (h.contains name || entries.any (·.1 = name)) := by
  induction entries generalizing h with
  | nil => simp
  | cons entry rest ih =>
    rw [List.foldl_cons, ih, contains_insert, List.any_cons, Bool.or_assoc, Bool.or_left_comm]

theorem contains_merge (h other : HeaderSet) (name : HeaderName) :
    (h.merge other).contains name = (h.contains name || other.contains name) := by
  unfold merge
  rw [contains_foldl_insert]
  simp only [contains, entries_foldl_declare]

end HeaderSet
end PageDispatch
