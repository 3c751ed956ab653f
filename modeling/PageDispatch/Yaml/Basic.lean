import PageDispatch.Text.Utf8

/-!
This module contains the values of YAML documents, as far as settings need them, and their text in
block style.
-/

namespace PageDispatch

inductive Yaml.Style where
  | plain
  | singleQuoted
  | doubleQuoted
  | literal
  | folded
  deriving DecidableEq, Repr, Inhabited

inductive Yaml where
  | scalar (tag : Option Bytes) (text : String) (style : Yaml.Style)
  | seq (items : List Yaml)
  | map (entries : List (Yaml × Yaml))
  | anchored (label : Nat) (value : Yaml)
  | reference (label : Nat)
  deriving Repr, Inhabited

namespace Yaml

def plain (text : String) : Yaml := scalar none text .plain

def blank : Yaml := plain ""

mutual

def labels : Yaml → List (Nat × Yaml)
  | scalar _ _ _ => []
  | seq items => itemLabels items
  | map entries => entryLabels entries
  | anchored label value => (label, value) :: labels value
  | reference _ => []

def itemLabels : List Yaml → List (Nat × Yaml)
  | [] => []
  | item :: rest => labels item ++ itemLabels rest

def entryLabels : List (Yaml × Yaml) → List (Nat × Yaml)
  | [] => []
  | (key, value) :: rest => labels key ++ labels value ++ entryLabels rest

end

/-- What a value within `root` stands for. Of several values with one label the last one counts. -/
def target (root : Yaml) : Yaml → Yaml
  | anchored _ value => value
  | reference label => (root.labels.reverse.lookup label).getD blank
  | value => value

@[simp]
theorem target_seq (root : Yaml) (items : List Yaml) : root.target (seq items) = seq items := rfl

@[simp]
theorem target_map (root : Yaml) (entries : List (Yaml × Yaml)) :
    root.target (map entries) = map entries := rfl

@[simp]
theorem target_anchored (root : Yaml) (label : Nat) (value : Yaml) :
    root.target (anchored label value) = value := rfl

/-- Names with values that are scalars or again such lists: the shape of settings. -/
inductive Settings where
  | leaf (name value : String)
  | group (name : String) (settings : List (String × String))

def ofSettings (settings : List Settings) : Yaml :=
  map (settings.map fun
    | .leaf name value => (plain name, plain value)
    | .group name inner =>
      (plain name, map (inner.map fun (name, value) => (plain name, plain value))))

def renderLeaf (indent : Nat) (name value : String) : String :=
  String.ofList (List.replicate indent ' ') ++ name ++ ": " ++ value ++ "\n"

def renderSettings (settings : List Settings) : String :=
  String.join (settings.map fun
    | .leaf name value => renderLeaf 0 name value
    | .group name inner =>
      name ++ ":\n" ++ String.join (inner.map fun (name, value) => renderLeaf 2 name value))

end Yaml
end PageDispatch
