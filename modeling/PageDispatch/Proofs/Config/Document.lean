import PageDispatch.Proofs.Config.Record
import PageDispatch.Proofs.Numeral.Digits
import PageDispatch.Proofs.Yaml.Entries
import Mathlib

/-!
This module contains that settings survive YAML: a configuration is read back from its document, and
from a part of it, whatever the order of its entries, what is there.
-/

namespace PageDispatch
namespace EngineConfig

variable {c : EngineConfig} {stated : Finset Field}

/-! Values in documents. -/

theorem isZeroPadded_toDigits (n : Nat) : isZeroPadded (Nat.toDigits 10 n) = false := by
  unfold isZeroPadded
  split
  . next heq =>
    have hn : n = 0 := by
      by_contra hn
      apply Natural.head?_toDigits_ne (Nat.pos_of_ne_zero hn)
      rw [heq]
      rfl
    rw [hn] at heq
    cases heq
  . rfl

theorem readYamlWord_of_isDigit {cs : List Char} (hdigits : ∀ ch ∈ cs, ch.isDigit)
    (hpadded : isZeroPadded cs = false) :
    readYamlWord cs = (Natural.readWordIn 10 cs).toOption := by
  have hplus : ∀ rest, cs = '+' :: rest → False := by
    rintro rest rfl
    exact absurd (hdigits '+' List.mem_cons_self) (by decide)
  have hmark : ∀ ch, ch.isDigit = false → ∀ rest, cs = '0' :: ch :: rest → False := by
    rintro ch hch rest rfl
    rw [hdigits ch (by simp)] at hch
    cases hch
  -- None of the forms with a mark applies, which the assumptions tell `simp`.
  have hhex := hmark 'x' (by decide)
  have hoctal := hmark 'o' (by decide)
  have hbinary := hmark 'b' (by decide)
  unfold readYamlWord
  simp [hpadded]

theorem readYamlWord_toDigits (n : UInt64) : readYamlWord (Nat.toDigits 10 n.toNat) = some n := by
  have hread := Natural.readWord_toDigits n
  unfold Natural.readWord at hread
  rw [String.toList_ofList] at hread
  rw [readYamlWord_of_isDigit, hread]
  . rfl
  . intro ch hch
    exact Nat.isDigit_of_mem_toDigits (by decide) (by decide) hch
  . exact isZeroPadded_toDigits n.toNat

theorem toList_toString (n : UInt64) : (toString n).toList = Nat.toDigits 10 n.toNat := by
  change (toString n.toNat).toList = _
  rw [Nat.toString_eq_ofList_toDigits, String.toList_ofList]

theorem yamlWord?_toString (n : UInt64) : yamlWord? (Yaml.plain (toString n)) = some n := by
  change readYamlWord (toString n).toList = some n
  rw [toList_toString, readYamlWord_toDigits]

def text (c : EngineConfig) : Field → String
  | .workers => toString c.pool.workers
  | .queueBound => toString c.pool.queueBound
  | .backpressure => c.pool.backpressure.name
  | .stackSize => toString c.pool.stackSize
  | .exposeDetails => toString c.exposeDetails

theorem gives_text (c : EngineConfig) (field : Field) :
    c.Gives field (Yaml.plain (c.text field)) := by
  cases field with
  | backpressure =>
    unfold Gives text
    cases c.pool.backpressure <;> rfl
  | exposeDetails =>
    unfold Gives text
    cases c.exposeDetails <;> rfl
  | _ => exact yamlWord?_toString _

theorem isWord_toString (n : UInt64) : Yaml.IsWord (toString n).toList := by
  rw [toList_toString]
  refine ⟨Nat.toDigits_ne_nil, ?_⟩
  intro ch hch
  have hdigit : ch.isDigit := Nat.isDigit_of_mem_toDigits (by decide) (by decide) hch
  simp [Yaml.isNameChar, Char.isAlphanum, hdigit]

theorem isWord_text (c : EngineConfig) (field : Field) : Yaml.IsWord (c.text field).toList := by
  cases field with
  | backpressure =>
    change Yaml.IsWord c.pool.backpressure.name.toList
    cases c.pool.backpressure <;> decide
  | exposeDetails =>
    change Yaml.IsWord (toString c.exposeDetails).toList
    cases c.exposeDetails <;> decide
  | _ => exact isWord_toString _

theorem isName_name (field : Field) : Yaml.Settings.IsName field.name := by
  unfold Yaml.Settings.IsName
  cases field <;> decide

/-! Documents in block style. -/

def setting (c : EngineConfig) (field : Field) : String × String := (field.name, c.text field)

def partSettings (c : EngineConfig) (fields : List Field) : Part → Yaml.Settings
  | .pool => .group Part.pool.name (fields.map c.setting)
  | .exposeDetails => .leaf Part.exposeDetails.name (c.text .exposeDetails)

def Field.all : Finset Field := {workers, queueBound, backpressure, stackSize, exposeDetails}

/-- An order in which a document states some fields, and nothing else. -/
structure Arrangement (stated : Finset Field) where
  fields : List Field
  parts : List Part
  nodup_fields : fields.Nodup
  mem_fields : ∀ field, field ∈ fields ↔ field ∈ stated ∧ field ≠ .exposeDetails
  nodup_parts : parts.Nodup
  mem_pool : Part.pool ∈ parts ↔ fields ≠ []
  mem_exposeDetails : Part.exposeDetails ∈ parts ↔ .exposeDetails ∈ stated

namespace Arrangement

/-- The order in which all documents are written. -/
def written (stated : Finset Field) : Arrangement stated where
  fields := [Field.workers, .queueBound, .backpressure, .stackSize].filter (· ∈ stated)
  parts := [Part.pool, .exposeDetails].filter fun
    | .pool => [Field.workers, .queueBound, .backpressure, .stackSize].any (· ∈ stated)
    | .exposeDetails => decide (.exposeDetails ∈ stated)
  nodup_fields := List.Nodup.filter _ (by decide)
  mem_fields field := by cases field <;> simp
  nodup_parts := List.Nodup.filter _ (by decide)
  mem_pool := by
    simp
    tauto
  mem_exposeDetails := by simp

def settings (a : Arrangement stated) (c : EngineConfig) : List Yaml.Settings :=
  a.parts.map (c.partSettings a.fields)

theorem areWords_settings (a : Arrangement stated) (c : EngineConfig) :
    ∀ s ∈ a.settings c, s.AreWords := by
  have hwords : ∀ field, Yaml.Settings.IsName (c.setting field).1 ∧
      Yaml.IsWord (c.setting field).2.toList :=
    fun field => ⟨isName_name field, isWord_text c field⟩
  intro s hs
  obtain ⟨part, hpart, rfl⟩ := List.mem_map.mp hs
  cases part with
  | pool =>
    have hne := a.mem_pool.mp hpart
    refine ⟨by unfold Yaml.Settings.IsName; decide, by simpa using hne, ?_⟩
    intro p hp
    obtain ⟨field, _, rfl⟩ := List.mem_map.mp hp
    exact hwords field
  | exposeDetails => exact hwords .exposeDetails

end Arrangement

theorem settings_written (c : EngineConfig) :
    (Arrangement.written Field.all).settings c = c.settings := by
  rfl

def partValue (c : EngineConfig) (fields : List Field) : Part → Yaml
  | .pool => .map (fields.map fun field => (Yaml.plain field.name, Yaml.plain (c.text field)))
  | .exposeDetails => Yaml.plain (c.text .exposeDetails)

theorem ofSettings_partSettings (c : EngineConfig) (fields : List Field) (parts : List Part) :
    Yaml.ofSettings (parts.map (c.partSettings fields))
      =
    .map (parts.map fun part => (Yaml.plain part.name, c.partValue fields part)) := by
  unfold Yaml.ofSettings
  rw [List.map_map]
  congr
  funext part
  cases part with
  | pool =>
    change (Yaml.plain Part.pool.name, Yaml.map ((fields.map c.setting).map _)) = _
    rw [List.map_map]
    rfl
  | exposeDetails => rfl

theorem isRecord_map {κ : Type} {root : Yaml} {label : κ → String} {holds : κ → Yaml → Prop}
    {keys : List κ} {value : κ → Yaml} (hnodup : (keys.map label).Nodup)
    (hvalue : ∀ key ∈ keys, holds key (root.target (value key))) :
    Yaml.IsRecord root label holds keys
      (.map (keys.map fun key => (Yaml.plain (label key), value key))) := by
  refine ⟨hnodup, Or.inl ⟨_, rfl, ?_⟩⟩
  rw [List.forall₂_map_right_iff, List.forall₂_same]
  intro key hkey
  exact ⟨⟨none, .plain, rfl⟩, hvalue key hkey⟩

theorem Field.name_injective : Function.Injective Field.name := by
  intro field other h
  cases field <;> cases other <;> first | rfl | exact absurd h (by decide)

theorem Part.name_injective : Function.Injective Part.name := by
  intro part other h
  cases part <;> cases other <;> first | rfl | exact absurd h (by decide)

theorem states_settings (a : Arrangement stated) (c : EngineConfig) :
    c.States stated (Yaml.ofSettings (a.settings c)) := by
  refine ⟨a.parts, a.fields, ?_, ?_⟩
  . unfold Arrangement.settings
    rw [ofSettings_partSettings]
    apply isRecord_map
    . exact a.nodup_parts.map Part.name_injective
    . intro part hpart
      cases part with
      | pool =>
        apply isRecord_map
        . exact a.nodup_fields.map Field.name_injective
        . intro field hfield
          exact ⟨((a.mem_fields field).mp hfield).2, gives_text c field⟩
      | exposeDetails => exact gives_text c .exposeDetails
  . intro field
    have hfields := a.mem_fields field
    have hpool : field ∈ a.fields → Part.pool ∈ a.parts := fun h =>
      a.mem_pool.mpr (List.ne_nil_of_mem h)
    have hdetails := a.mem_exposeDetails
    cases field with
    | exposeDetails => simp [hdetails]
    | _ =>
      simp at hfields ⊢
      tauto

/-! Documents as a whole. -/

theorem keep_all (c : EngineConfig) : c.keep Field.all = c := by
  simp [keep, Field.all]

theorem keep_empty (c : EngineConfig) : c.keep ∅ = default := by
  simp [keep, default, PoolConfig.default]

theorem fromYaml?_of_blank {document : String} (h : Blank.trim document = "") :
    fromYaml? document = some default := by
  unfold Blank.trim at h
  rw [String.ofList_eq_empty_iff] at h
  unfold fromYaml?
  simp [h]

theorem fromYaml?_of_states {document : String} {value : Yaml} (hblank : Blank.trim document ≠ "")
    (hread : Yaml.read? document = some value) (h : c.States stated value) :
    fromYaml? document = some (c.keep stated) := by
  unfold Blank.trim at hblank
  rw [ne_eq, String.ofList_eq_empty_iff] at hblank
  unfold fromYaml?
  simp [hblank, hread, ofYaml?_of_states h]

theorem trim_renderSettings_ne {settings : List Yaml.Settings} (h : settings ≠ []) :
    Blank.trim (Yaml.renderSettings settings) ≠ "" := by
  have hcolon : ':' ∈ (Yaml.renderSettings settings).toList := by
    rw [Yaml.Settings.toList_renderSettings]
    cases settings with
    | nil => exact absurd rfl h
    | cons setting settings =>
      cases setting <;> simp [Yaml.Settings.lines, Yaml.Line.render]
  unfold Blank.trim
  rw [ne_eq, String.ofList_eq_empty_iff]
  exact Blank.trimChars_ne_nil hcolon (by decide)

theorem fromYaml?_renderSettings (a : Arrangement stated) (c : EngineConfig) :
    fromYaml? (Yaml.renderSettings (a.settings c)) = some (c.keep stated) := by
  -- Without any fields the text is blank, and is not read as a document at all.
  by_cases hnil : a.settings c = []
  . have hparts : a.parts = [] := List.map_eq_nil_iff.mp hnil
    have hfields : a.fields = [] := by
      by_contra hne
      have := a.mem_pool.mpr hne
      simp [hparts] at this
    have hstated : stated = ∅ := by
      apply Finset.eq_empty_of_forall_notMem
      intro field hfield
      have hmem := a.mem_fields field
      have hdetails := a.mem_exposeDetails
      simp_all
    rw [hnil, hstated, keep_empty]
    rfl
  . have hread := Yaml.read?_renderSettings hnil (a.areWords_settings c)
    exact fromYaml?_of_states (trim_renderSettings_ne hnil) hread (states_settings a c)

/--
A configuration is read back from its document. A document that states some fields of it, whichever
they are and in any order, gives the configuration that has these fields from it, and all others
from the defaults. That holds of documents in block style, and of all others whose values read as
those of the configuration. A blank document states nothing.
-/
theorem survives_documents (c : EngineConfig) :
    fromYaml? c.toYaml = some c ∧
    (∀ stated, Nonempty (Arrangement stated) ∧ ∀ a : Arrangement stated,
      fromYaml? (Yaml.renderSettings (a.settings c)) = some (c.keep stated)) ∧
    (∀ stated document value, Blank.trim document ≠ "" → Yaml.read? document = some value →
      c.States stated value → fromYaml? document = some (c.keep stated)) ∧
    ∀ document, Blank.trim document = "" → fromYaml? document = some (c.keep ∅) := by
  refine ⟨?_, ?_, ?_, ?_⟩
  . have hwritten := fromYaml?_renderSettings (.written Field.all) c
    rw [settings_written, keep_all] at hwritten
    exact hwritten
  . intro stated
    constructor
    . exact ⟨.written stated⟩
    . intro a
      exact fromYaml?_renderSettings a c
  . intro stated document value hblank hread hstates
    exact fromYaml?_of_states hblank hread hstates
  . intro document hblank
    rw [keep_empty]
    exact fromYaml?_of_blank hblank

/-- A configuration without anything at its default. -/
def extreme : EngineConfig := ⟨⟨0, 0xFFFFFFFFFFFFFFFF, .shed, 1⟩, true⟩

/-- An order against the one in which documents are written. -/
def reversed : Arrangement {.queueBound, .backpressure, .exposeDetails} where
  fields := [.backpressure, .queueBound]
  parts := [.exposeDetails, .pool]
  nodup_fields := by decide
  mem_fields field := by cases field <;> decide
  nodup_parts := by decide
  mem_pool := by decide
  mem_exposeDetails := by decide

/-- The same fields in the same order, in brackets. -/
def bracketed : String :=
  "\x7bexpose_error_details: True, \"pool\": " ++
    "\x7bbackpressure_mode: shed, queue_bound: 0xffffffffffffffff\x7d\x7d"

def bracketedPool : Yaml := .map [
  (.plain "backpressure_mode", .plain "shed"),
  (.plain "queue_bound", .plain "0xffffffffffffffff")]

def bracketedValue : Yaml := .map [
  (.plain "expose_error_details", .plain "True"),
  (.scalar none "pool" .doubleQuoted, bracketedPool)]

theorem givesPool_bracketedPool :
    extreme.GivesPool bracketedValue reversed.fields bracketedPool := by
  have hword : yamlWord? (.plain "0xffffffffffffffff") = some extreme.pool.queueBound := by decide
  refine ⟨by decide, Or.inl ⟨_, rfl, ?_⟩⟩
  exact .cons ⟨⟨none, .plain, rfl⟩, by decide, rfl⟩
    (.cons ⟨⟨none, .plain, rfl⟩, by decide, hword⟩ .nil)

theorem states_bracketedValue :
    extreme.States {.queueBound, .backpressure, .exposeDetails} bracketedValue := by
  refine ⟨reversed.parts, reversed.fields, ⟨by decide, Or.inl ⟨_, rfl, ?_⟩⟩, ?_⟩
  . exact .cons ⟨⟨none, .plain, rfl⟩, rfl⟩
      (.cons ⟨⟨none, .doubleQuoted, rfl⟩, givesPool_bracketedPool⟩ .nil)
  . intro field
    cases field <;> decide

/-- Three of its fields, as they are written and in brackets, and no field at all. -/
theorem survives_of_extreme :
    fromYaml? ("expose_error_details: true\npool:\n" ++
        "  backpressure_mode: shed\n  queue_bound: 18446744073709551615\n")
      = some ⟨⟨4, 0xFFFFFFFFFFFFFFFF, .shed, 0x10000⟩, true⟩ ∧
    fromYaml? bracketed = some ⟨⟨4, 0xFFFFFFFFFFFFFFFF, .shed, 0x10000⟩, true⟩ ∧
    fromYaml? " \n" = some default := by
  have ⟨_, harranged, hstates, hblank⟩ := survives_documents extreme
  have hkept : extreme.keep {.queueBound, .backpressure, .exposeDetails}
      = ⟨⟨4, 0xFFFFFFFFFFFFFFFF, .shed, 0x10000⟩, true⟩ := by decide
  have hread : Yaml.read? bracketed = some bracketedValue := by cbv
  rw [← hkept]
  refine ⟨?_, ?_, ?_⟩
  . exact (harranged _).2 reversed
  . exact hstates _ bracketed bracketedValue (by decide) hread states_bracketedValue
  . exact hblank " \n" (by decide)

end EngineConfig
end PageDispatch
