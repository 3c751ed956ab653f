import PageDispatch.Proofs.Yaml.Lines
import PageDispatch.Yaml.Document

/-!
This module contains that settings are read back from the text in which they are written, if their
names and values are words: first the tokens of that text, then the value of these tokens.
-/

namespace PageDispatch
namespace Yaml

/-! Values of tokens. -/

namespace Reader

variable {fuel : Nat} {rest : List Token} {handles : List (List Char × Bytes)}
  {anchors : List (List Char × Nat)}

/-- Whether the value of an entry is read from these tokens, with the fuel that `value` has. -/
def Gives (tokens : List Token) (value : Yaml) : Prop :=
  ∀ fuel rest handles anchors, 5 * tokens.length ≤ fuel →
    nodeBefore [.key, .value, .blockEnd] true fuel ⟨tokens ++ rest, handles, anchors⟩
      =
    some (value, ⟨rest, handles, anchors⟩)

theorem gives_scalar (text : String) :
    Gives [.scalar text.toList .plain] (plain text) := by
  intro fuel rest handles anchors hfuel
  rw [List.length_singleton] at hfuel
  obtain ⟨fuel, rfl⟩ := Nat.exists_eq_add_of_le' (show 3 ≤ fuel by omega)
  change some (plain (String.ofList text.toList), _) = some (plain text, _)
  rw [String.ofList_toList]
  rfl

/-- A name with the tokens of its value. -/
structure Entry where
  name : String
  tokens : List Token
  value : Yaml
  gives : Gives tokens value

namespace Entry

def tokensOf (e : Entry) : List Token :=
  .key :: .scalar e.name.toList .plain :: .value :: e.tokens

def toPair (e : Entry) : Yaml × Yaml := (plain e.name, e.value)

end Entry

def mappingTokens (entries : List Entry) : List Token :=
  .blockMappingStart :: (entries.flatMap Entry.tokensOf ++ [.blockEnd])

variable {e : Entry} {entries : List Entry}

theorem length_mappingTokens :
    (mappingTokens entries).length = (entries.flatMap Entry.tokensOf).length + 2 := by
  simp [mappingTokens]

theorem blockEntries_cons {found : List (Yaml × Yaml)} {r : Reading}
    (hfuel : 5 * e.tokens.length + 4 ≤ fuel)
    (h : blockEntries fuel ⟨rest, handles, anchors⟩ = some (found, r)) :
    blockEntries (fuel + 1) ⟨e.tokensOf ++ rest, handles, anchors⟩
      =
    some (e.toPair :: found, r) := by
  obtain ⟨fuel, rfl⟩ := Nat.exists_eq_add_of_le' (show 4 ≤ fuel by omega)
  have hvalue := e.gives (fuel + 3) rest handles anchors (by omega)
  change (nodeBefore _ true (fuel + 3) ⟨e.tokens ++ rest, handles, anchors⟩).bind _ = _
  rw [hvalue]
  change (blockEntries (fuel + 4) ⟨rest, handles, anchors⟩).bind _ = _
  rw [h]
  change some ((plain (String.ofList e.name.toList), e.value) :: found, r) = _
  rw [String.ofList_toList]
  rfl

theorem blockEntries_entries (hfuel : 5 * (entries.flatMap Entry.tokensOf).length + 1 ≤ fuel) :
    blockEntries fuel ⟨entries.flatMap Entry.tokensOf ++ .blockEnd :: rest, handles, anchors⟩
      =
    some (entries.map Entry.toPair, ⟨rest, handles, anchors⟩) := by
  -- An entry leaves all but one unit of the fuel to the rest, and needs four and those of its value.
  obtain ⟨fuel, rfl⟩ := Nat.exists_eq_add_of_le' (show 1 ≤ fuel by omega)
  induction entries generalizing fuel with
  | nil => rfl
  | cons e entries ih =>
    simp only [List.flatMap_cons, List.length_append] at hfuel
    have hlength : e.tokensOf.length = e.tokens.length + 3 := rfl
    obtain ⟨fuel, rfl⟩ := Nat.exists_eq_add_of_le' (show 1 ≤ fuel by omega)
    rw [List.flatMap_cons, List.append_assoc]
    exact blockEntries_cons (by omega) (ih fuel (by omega))

theorem node_mapping (loose : Bool) (hfuel : 5 * (mappingTokens entries).length ≤ fuel + 1) :
    node loose fuel ⟨mappingTokens entries ++ rest, handles, anchors⟩
      =
    some (map (entries.map Entry.toPair), ⟨rest, handles, anchors⟩) := by
  rw [length_mappingTokens] at hfuel
  obtain ⟨fuel, rfl⟩ := Nat.exists_eq_add_of_le' (show 2 ≤ fuel by omega)
  have hentries := @blockEntries_entries fuel rest handles anchors entries (by omega)
  unfold mappingTokens
  rw [List.cons_append, List.append_assoc]
  change ((blockEntries fuel ⟨_ ++ .blockEnd :: rest, handles, anchors⟩).bind _).bind _ = _
  rw [hentries]
  rfl

theorem gives_mapping : Gives (mappingTokens entries) (map (entries.map Entry.toPair)) := by
  intro fuel rest handles anchors hfuel
  have hlength := @length_mappingTokens entries
  obtain ⟨fuel, rfl⟩ := Nat.exists_eq_add_of_le' (show 1 ≤ fuel by omega)
  exact node_mapping true (by omega)

theorem document_mapping :
    document.run ⟨mappingTokens entries, [], []⟩
      =
    some (map (entries.map Entry.toPair), ⟨[], commonHandles, []⟩) := by
  have hnode := @node_mapping (5 * ((mappingTokens entries).length + 1)) [] commonHandles [] entries
    false (by omega)
  rw [List.append_nil] at hnode
  change (node false _ ⟨mappingTokens entries, commonHandles, []⟩).bind _ = _
  rw [hnode]
  rfl

end Reader

/-! Settings. -/

namespace Settings

def leafEntry (setting : String × String) : Reader.Entry where
  name := setting.1
  tokens := [.scalar setting.2.toList .plain]
  value := plain setting.2
  gives := Reader.gives_scalar setting.2

def entry : Settings → Reader.Entry
  | leaf name value => leafEntry (name, value)
  | group name inner => ⟨name, _, _, @Reader.gives_mapping (inner.map leafEntry)⟩

def leafLine (indent : Nat) (setting : String × String) : Line :=
  ⟨indent, setting.1.toList, some setting.2.toList⟩

def lines : Settings → List Line
  | leaf name value => [leafLine 0 (name, value)]
  | group name inner => ⟨0, name.toList, none⟩ :: inner.map (leafLine 2)

def IsName (name : String) : Prop := IsWord name.toList ∧ name.length ≤ keyLength

/-- Whether all names and values are words, and no group is empty. -/
def AreWords : Settings → Prop
  | leaf name value => IsName name ∧ IsWord value.toList
  | group name inner => IsName name ∧ inner ≠ [] ∧ ∀ p ∈ inner, IsName p.1 ∧ IsWord p.2.toList

theorem map_toPair_entry (settings : List Settings) :
    map ((settings.map entry).map Reader.Entry.toPair) = ofSettings settings := by
  unfold ofSettings
  rw [List.map_map]
  congr
  funext setting
  cases setting with
  | leaf name value => rfl
  | group name inner =>
    change (plain name, map ((inner.map leafEntry).map Reader.Entry.toPair)) = _
    rw [List.map_map]
    rfl

theorem toList_renderLeaf (indent : Nat) (p : String × String) :
    (renderLeaf indent p.1 p.2).toList = Line.render [leafLine indent p] := by
  simp [renderLeaf, Line.render, leafLine, Line.tail]

theorem toList_renderLeaves (inner : List (String × String)) :
    (String.join (inner.map fun (name, value) => renderLeaf 2 name value)).toList
      =
    Line.render (inner.map (leafLine 2)) := by
  rw [String.toList_join, List.flatMap_map]
  unfold Line.render
  rw [List.flatMap_map]
  congr
  funext p
  exact (toList_renderLeaf 2 p).trans (List.flatMap_singleton _ _)

theorem toList_renderSettings (settings : List Settings) :
    (renderSettings settings).toList = Line.render (settings.flatMap lines) := by
  have hlines : Line.render (settings.flatMap lines)
      = settings.flatMap fun s => Line.render s.lines := List.flatMap_assoc
  unfold renderSettings
  rw [hlines, String.toList_join, List.flatMap_map]
  congr
  funext setting
  cases setting with
  | leaf name value => exact toList_renderLeaf 0 (name, value)
  | group name inner =>
    have hinner := toList_renderLeaves inner
    simp only [String.toList_append, hinner]
    simp [lines, Line.render, Line.tail]

theorem fit_leafLines {inner : List (String × String)} {rest : List Line}
    (h : ∀ p ∈ inner, IsName p.1 ∧ IsWord p.2.toList) (hrest : Line.Fit rest)
    (hindent : Line.indentOf rest = 0) : Line.Fit (inner.map (leafLine 2) ++ rest) := by
  induction inner with
  | nil => exact hrest
  | cons p inner ih =>
    have ⟨⟨hname, hlength⟩, hvalue⟩ := h p List.mem_cons_self
    refine ⟨hname, hlength, ?_, ih fun q hq => h q (List.mem_cons_of_mem p hq)⟩
    rintro _ ⟨⟩
    refine ⟨hvalue, ?_⟩
    cases inner with
    | nil => exact hindent ▸ Nat.zero_le 2
    | cons q inner => exact Nat.le_refl _

theorem indentOf_lines (settings : List Settings) :
    Line.indentOf (settings.flatMap lines) = 0 := by
  cases settings with
  | nil => rfl
  | cons setting settings => cases setting <;> rfl

theorem fit_lines {settings : List Settings} (h : ∀ s ∈ settings, s.AreWords) :
    Line.Fit (settings.flatMap lines) := by
  induction settings with
  | nil => trivial
  | cons setting settings ih =>
    have hrest := ih fun s hs => h s (List.mem_cons_of_mem setting hs)
    have hsetting := h setting List.mem_cons_self
    have hindent := indentOf_lines settings
    rw [List.flatMap_cons]
    cases setting with
    | leaf name value =>
      have ⟨⟨hname, hlength⟩, hvalue⟩ := hsetting
      refine ⟨hname, hlength, ?_, hrest⟩
      rintro _ ⟨⟩
      exact ⟨hvalue, Nat.le_of_eq hindent⟩
    | group name inner =>
      have ⟨⟨hname, hlength⟩, _, hinner⟩ := hsetting
      exact ⟨hname, hlength, nofun, fit_leafLines hinner hrest hindent⟩

end Settings

namespace Margin

/-- Whether the tokens of the next line come behind these ones, in the block at the left. -/
def Stands (m : Margin) (tokens : List Token) : Prop :=
  m.goTo 0 = ⟨tokens, [0]⟩ ∧ m.finish = tokens.reverse ++ [.blockEnd]

variable {m : Margin} {tokens : List Token}

theorem foldl_leafLines (inner : List (String × String)) (tokens : List Token) :
    (inner.map (Settings.leafLine 2)).foldl after ⟨tokens, [2, 0]⟩
      =
    ⟨((inner.map Settings.leafEntry).flatMap (·.tokensOf)).reverse ++ tokens, [2, 0]⟩ := by
  induction inner generalizing tokens with
  | nil => rfl
  | cons p inner ih =>
    have hafter : after ⟨tokens, [2, 0]⟩ (Settings.leafLine 2 p)
        = ⟨(Settings.leafEntry p).tokensOf.reverse ++ tokens, [2, 0]⟩ := rfl
    rw [List.map_cons, List.foldl_cons, hafter, ih]
    simp

theorem after_of_indent {l : Line} (hl : l.indent = 0) (hm : m.goTo 0 = ⟨tokens, [0]⟩) :
    m.after l = after ⟨tokens, [0]⟩ l := by
  unfold after
  rw [hl, hm]
  rfl

theorem stands_leaf (name value : String) (hm : m.goTo 0 = ⟨tokens, [0]⟩) :
    ((Settings.leaf name value).lines.foldl after m).Stands
      ((Settings.leaf name value).entry.tokensOf.reverse ++ tokens) := by
  unfold Settings.lines
  rw [List.foldl_cons, after_of_indent rfl hm]
  exact ⟨rfl, rfl⟩

theorem stands_group (name : String) (p : String × String) (inner : List (String × String))
    (hm : m.goTo 0 = ⟨tokens, [0]⟩) :
    ((Settings.group name (p :: inner)).lines.foldl after m).Stands
      ((Settings.group name (p :: inner)).entry.tokensOf.reverse ++ tokens) := by
  let leaves := ((p :: inner).map Settings.leafEntry).flatMap (·.tokensOf)
  let opened : List Token :=
    .blockMappingStart :: .value :: .scalar name.toList .plain :: .key :: tokens
  have htokens : (Settings.group name (p :: inner)).entry.tokensOf
      = .key :: .scalar name.toList .plain :: .value :: .blockMappingStart ::
        (leaves ++ [.blockEnd]) := rfl
  have hfold : (Settings.group name (p :: inner)).lines.foldl after m
      = ⟨leaves.reverse ++ opened, [2, 0]⟩ := by
    unfold Settings.lines
    rw [List.foldl_cons, after_of_indent rfl hm]
    exact foldl_leafLines (p :: inner) opened
  rw [hfold, htokens]
  constructor
  . change Margin.mk (.blockEnd :: (leaves.reverse ++ opened)) [0] = _
    simp [opened]
  . simp [finish, opened]

theorem stands_lines {setting : Settings} (h : setting.AreWords)
    (hm : m.goTo 0 = ⟨tokens, [0]⟩) :
    (setting.lines.foldl after m).Stands (setting.entry.tokensOf.reverse ++ tokens) := by
  cases setting with
  | leaf name value => exact stands_leaf name value hm
  | group name inner =>
    cases inner with
    | nil => exact absurd rfl h.2.1
    | cons p inner => exact stands_group name p inner hm

theorem stands_foldl {settings : List Settings} (h : ∀ s ∈ settings, s.AreWords)
    (hm : m.Stands tokens) :
    ((settings.flatMap Settings.lines).foldl after m).Stands
      (((settings.map Settings.entry).flatMap (·.tokensOf)).reverse ++ tokens) := by
  induction settings generalizing m tokens with
  | nil => exact hm
  | cons setting settings ih =>
    have hsetting := stands_lines (h setting List.mem_cons_self) hm.1
    have hrest := ih (fun s hs => h s (List.mem_cons_of_mem setting hs)) hsetting
    rw [List.flatMap_cons, List.foldl_append]
    simpa using hrest

end Margin

theorem tokens?_renderSettings {setting : Settings} {settings : List Settings}
    (h : ∀ s ∈ setting :: settings, s.AreWords) :
    tokens? (renderSettings (setting :: settings)).toList
      =
    some (Reader.mappingTokens ((setting :: settings).map Settings.entry)) := by
  have htokens := tokens?_render (Settings.fit_lines h) (Settings.indentOf_lines _)
  have hfirst := Margin.stands_lines (h setting List.mem_cons_self)
    (show Margin.goTo ⟨[], []⟩ 0 = ⟨[.blockMappingStart], [0]⟩ from rfl)
  have hrest := Margin.stands_foldl (fun s hs => h s (List.mem_cons_of_mem setting hs)) hfirst
  rw [Settings.toList_renderSettings, htokens, List.flatMap_cons, List.foldl_append, hrest.2]
  simp [Reader.mappingTokens]

/-- Settings are read back from their text. -/
theorem read?_renderSettings {settings : List Settings} (hne : settings ≠ [])
    (h : ∀ s ∈ settings, s.AreWords) :
    read? (renderSettings settings) = some (ofSettings settings) := by
  cases settings with
  | nil => exact absurd rfl hne
  | cons setting settings =>
    unfold read?
    rw [tokens?_renderSettings h, ← Settings.map_toPair_entry]
    simp [Reader.document_mapping]

end Yaml
end PageDispatch
