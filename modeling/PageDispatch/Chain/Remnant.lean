import PageDispatch.Chain.Unit

/-!
This module contains the part of a chain that is still to be evaluated.
-/

namespace PageDispatch

structure Remnant where
  pending : List ChainElement
  cursor : Nat

namespace Remnant

def ofList (elements : List ChainElement) : Remnant := ⟨elements, 0⟩

def size (r : Remnant) : Nat := r.pending.length

def insertNext (r : Remnant) (element : ChainElement) : Remnant :=
  ⟨r.pending.take r.cursor ++ element :: r.pending.drop r.cursor, r.cursor + 1⟩

def append (r : Remnant) (element : ChainElement) : Remnant :=
  { r with pending := r.pending ++ [element] }

def edit (r : Remnant) : RemnantEdit → Remnant
  | .insertNext element => r.insertNext element
  | .append element => r.append element

def next? (r : Remnant) : Option (ChainElement × Remnant) :=
  match r.pending with
  | [] => none
  | element :: rest => some (element, ⟨rest, 0⟩)

def describe (r : Remnant) : List (Except PanicPayload String) :=
  r.pending.map ChainElement.describe

@[simp]
theorem pending_append (r : Remnant) (element : ChainElement) :
    (r.append element).pending = r.pending ++ [element] := rfl

@[simp]
theorem cursor_insertNext (r : Remnant) (element : ChainElement) :
    (r.insertNext element).cursor = r.cursor + 1 := rfl

end Remnant
end PageDispatch
