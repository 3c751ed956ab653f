import PageDispatch.Config
import Mathlib.Data.Finset.Insert
import Mathlib.Data.List.Forall2

/-!
This module contains what is read from YAML documents that state some fields of the settings, in any
order: these fields are taken from the document, and all others keep their defaults.
-/

namespace PageDispatch

namespace Yaml

variable {κ : Type}

/-- Whether an entry of a mapping within `root` has this key, and a value that holds for it. -/
def IsEntry (root : Yaml) (label : κ → String) (holds : κ → Yaml → Prop) (key : κ)
    (entry : Yaml × Yaml) : Prop :=
  (∃ tag style, root.target entry.1 = scalar tag (label key) style) ∧
    holds key (root.target entry.2)

/-- Whether a record has these keys in this order, each once. Nothing at all stands for no keys. -/
def IsRecord (root : Yaml) (label : κ → String) (holds : κ → Yaml → Prop) (keys : List κ)
    (record : Yaml) : Prop :=
  (keys.map label).Nodup ∧
    ((∃ entries, record = map entries ∧ List.Forall₂ (IsEntry root label holds) keys entries) ∨
      (∃ tag, record = scalar tag "" .plain) ∧ keys = [])

end Yaml

namespace EngineConfig

section
variable {κ α : Type} {root : Yaml} {label : κ → String} {holds : κ → Yaml → Prop}
  {fields : List String} {set : α → String → Yaml → Option α} {put : α → κ → α}

theorem readRecord_go_of_isEntry {keys : List κ} {entries : List (Yaml × Yaml)}
    (hset : ∀ a key value, holds key value →
      label key ∈ fields ∧ set a (label key) value = some (put a key))
    (hentries : List.Forall₂ (Yaml.IsEntry root label holds) keys entries)
    (hnodup : (keys.map label).Nodup) (seen : List String) (hseen : ∀ key ∈ keys, label key ∉ seen)
    (a : α) :
    readRecord.go root fields set seen a entries = some (keys.foldl put a) := by
  induction hentries generalizing seen a with
  | nil => rfl
  | @cons key entry keys entries hentry hentries ih =>
    obtain ⟨⟨tag, style, hkey⟩, hvalue⟩ := hentry
    obtain ⟨hfield, hput⟩ := hset a key _ hvalue
    rw [List.map_cons, List.nodup_cons] at hnodup
    have hfresh := hseen key List.mem_cons_self
    have hrest := ih hnodup.2 (label key :: seen) ?_ (put a key)
    . unfold readRecord.go
      simp [hkey, hfield, hfresh, hput, hrest]
    . intro other hother
      have := hseen other (List.mem_cons_of_mem key hother)
      have hne : label other ≠ label key := fun heq =>
        hnodup.1 (heq ▸ List.mem_map_of_mem hother)
      simp [hne, this]

theorem readRecord_of_isRecord {keys : List κ} {record : Yaml} {start : α}
    (hset : ∀ a key value, holds key value →
      label key ∈ fields ∧ set a (label key) value = some (put a key))
    (h : Yaml.IsRecord root label holds keys record) :
    readRecord root fields set start record = some (keys.foldl put start) := by
  obtain ⟨hnodup, ⟨entries, rfl, hentries⟩ | ⟨⟨tag, rfl⟩, rfl⟩⟩ := h
  . exact readRecord_go_of_isEntry hset hentries hnodup [] (fun _ _ => List.not_mem_nil) start
  . rfl

end

/-- The fields of the settings. -/
inductive Field where
  | workers
  | queueBound
  | backpressure
  | stackSize
  | exposeDetails
  deriving DecidableEq, Repr

/-- What stands at the top of a document: the settings of the pool, and the field beside them. -/
inductive Part where
  | pool
  | exposeDetails
  deriving DecidableEq, Repr

def Field.name : Field → String
  | workers => "num_workers"
  | queueBound => "queue_bound"
  | backpressure => "backpressure_mode"
  | stackSize => "stack_size"
  | exposeDetails => "expose_error_details"

def Part.name : Part → String
  | pool => "pool"
  | exposeDetails => Field.exposeDetails.name

/-- The configuration that has some fields from `c`, and all others from the defaults. -/
def keep (c : EngineConfig) (kept : Finset Field) : EngineConfig where
  pool := {
    workers := if .workers ∈ kept then c.pool.workers else PoolConfig.default.workers
    queueBound := if .queueBound ∈ kept then c.pool.queueBound else PoolConfig.default.queueBound
    backpressure :=
      if .backpressure ∈ kept then c.pool.backpressure else PoolConfig.default.backpressure
    stackSize := if .stackSize ∈ kept then c.pool.stackSize else PoolConfig.default.stackSize }
  exposeDetails := if .exposeDetails ∈ kept then c.exposeDetails else default.exposeDetails

/-- Whether a value is a scalar that reads as what `c` has in a field. -/
def Gives (c : EngineConfig) : Field → Yaml → Prop
  | .workers, value => yamlWord? value = some c.pool.workers
  | .queueBound, value => yamlWord? value = some c.pool.queueBound
  | .backpressure, value => yamlBackpressure? value = some c.pool.backpressure
  | .stackSize, value => yamlWord? value = some c.pool.stackSize
  | .exposeDetails, value => yamlFlag? value = some c.exposeDetails

/-- Whether a value is a record of fields of the pool, as `c` has them. -/
def GivesPool (c : EngineConfig) (root : Yaml) (fields : List Field) (value : Yaml) : Prop :=
  Yaml.IsRecord root Field.name (fun field value => field ≠ .exposeDetails ∧ c.Gives field value)
    fields value

def GivesPart (c : EngineConfig) (root : Yaml) (fields : List Field) : Part → Yaml → Prop
  | .pool, value => c.GivesPool root fields value
  | .exposeDetails, value => c.Gives .exposeDetails value

/-- Whether the value of a document states these fields only, as `c` has them. -/
def States (c : EngineConfig) (stated : Finset Field) (root : Yaml) : Prop :=
  ∃ parts fields, Yaml.IsRecord root Part.name (c.GivesPart root fields) parts (root.target root) ∧
    ∀ field, field ∈ stated ↔
      field = .exposeDetails ∧ Part.exposeDetails ∈ parts ∨
        field ≠ .exposeDetails ∧ Part.pool ∈ parts ∧ field ∈ fields

variable {c : EngineConfig} {root value : Yaml} {fields : List Field}

def putPool (c : EngineConfig) (a : PoolConfig) : Field → PoolConfig
  | .workers => { a with workers := c.pool.workers }
  | .queueBound => { a with queueBound := c.pool.queueBound }
  | .backpressure => { a with backpressure := c.pool.backpressure }
  | .stackSize => { a with stackSize := c.pool.stackSize }
  | .exposeDetails => a

def putPart (c : EngineConfig) (fields : List Field) (a : EngineConfig) : Part → EngineConfig
  | .pool => { a with pool := fields.foldl c.putPool .default }
  | .exposeDetails => { a with exposeDetails := c.exposeDetails }

theorem foldl_putPool (c : EngineConfig) (fields : List Field) (a : PoolConfig) :
    fields.foldl c.putPool a
      =
    { workers := if .workers ∈ fields then c.pool.workers else a.workers
      queueBound := if .queueBound ∈ fields then c.pool.queueBound else a.queueBound
      backpressure := if .backpressure ∈ fields then c.pool.backpressure else a.backpressure
      stackSize := if .stackSize ∈ fields then c.pool.stackSize else a.stackSize } := by
  induction fields generalizing a with
  | nil => simp
  | cons field fields ih =>
    rw [List.foldl_cons, ih]
    cases field <;> simp [putPool]

theorem foldl_putPart (c : EngineConfig) (fields : List Field) (parts : List Part)
    (a : EngineConfig) :
    parts.foldl (c.putPart fields) a
      =
    { pool := if .pool ∈ parts then fields.foldl c.putPool .default else a.pool
      exposeDetails := if .exposeDetails ∈ parts then c.exposeDetails else a.exposeDetails } := by
  induction parts generalizing a with
  | nil => simp
  | cons part parts ih =>
    rw [List.foldl_cons, ih]
    cases part <;> simp [putPart]

theorem setPoolField_of_gives (a : PoolConfig) (field : Field) (value : Yaml)
    (h : field ≠ .exposeDetails ∧ c.Gives field value) :
    field.name ∈ poolFields ∧ setPoolField a field.name value = some (c.putPool a field) := by
  obtain ⟨hfield, h⟩ := h
  unfold Gives at h
  cases field with
  | exposeDetails => exact absurd rfl hfield
  | _ => exact ⟨by decide, by simp [setPoolField, Field.name, h, putPool]⟩

theorem readPool_of_givesPool (h : c.GivesPool root fields value) :
    readPool root value = some (fields.foldl c.putPool .default) :=
  readRecord_of_isRecord setPoolField_of_gives h

theorem setField_of_givesPart (a : EngineConfig) (part : Part) (value : Yaml)
    (h : c.GivesPart root fields part value) :
    part.name ∈ ["pool", "expose_error_details"] ∧
      setField root a part.name value = some (c.putPart fields a part) := by
  cases part with
  | pool =>
    have hpool := readPool_of_givesPool h
    exact ⟨by decide, by simp [setField, Part.name, hpool, putPart]⟩
  | exposeDetails =>
    have hflag : yamlFlag? value = some c.exposeDetails := h
    exact ⟨by decide, by simp [setField, Part.name, Field.name, hflag, putPart]⟩

theorem ofYaml?_of_states {stated : Finset Field} (h : c.States stated root) :
    ofYaml? root = some (c.keep stated) := by
  obtain ⟨parts, fields, hrecord, hstated⟩ := h
  refine (readRecord_of_isRecord setField_of_givesPart hrecord).trans ?_
  rw [foldl_putPart, foldl_putPool]
  unfold keep
  simp only [hstated]
  by_cases hpool : Part.pool ∈ parts <;> simp [hpool, default]

end EngineConfig
end PageDispatch
