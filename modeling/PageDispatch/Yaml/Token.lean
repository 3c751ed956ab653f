import PageDispatch.Yaml.Basic

/-!
This module contains the tokens of YAML documents: the marks that give a document its structure, and
the scalars, anchors and tags between them.
-/

namespace PageDispatch
namespace Yaml

inductive Token where
  | version (major minor : Nat)
  | handle (name : List Char) (start : Bytes)
  | documentStart
  | documentEnd
  | blockSequenceStart
  | blockMappingStart
  | blockEnd
  | flowSequenceStart
  | flowSequenceEnd
  | flowMappingStart
  | flowMappingEnd
  | blockEntry
  | flowEntry
  | key
  | value
  | anchor (name : List Char)
  | reference (name : List Char)
  /-- A tag; without a handle the suffix is all of it. -/
  | tag (handle : List Char) (suffix : Bytes)
  | scalar (text : List Char) (style : Style)
  deriving DecidableEq, Repr

end Yaml
end PageDispatch
