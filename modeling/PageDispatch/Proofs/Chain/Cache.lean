import Mathlib.Data.List.Dedup
import Mathlib.Data.List.Induction
import PageDispatch.Proofs.Chain.Patterns

/-!
This module contains the verification that nothing can be told from the cache of path patterns. It
holds each text that was asked for and can be parsed, once and with what parsing gives, and a unit
that is made with its help is the unit that is made of the text itself.
-/

namespace PageDispatch

namespace PatternCache

/-- Whether a cache holds those of some texts that can be parsed, once each, and what they spell. -/
structure Holds (cache : PatternCache) (texts : List String) : Prop where
  nodup : (cache.map (·.1)).Nodup
  mem_iff : ∀ text pattern, (text, pattern) ∈ cache ↔
    text ∈ texts ∧ PathPattern.parse text = .ok pattern

variable {cache : PatternCache} {texts : List String} {text : String} {pattern : PathPattern}

theorem holds_nil : Holds [] [] where
  nodup := List.nodup_nil
  mem_iff _ _ := by simp

theorem Holds.sound (h : cache.Holds texts) : cache.Sound :=
  fun text pattern hmem => ((h.mem_iff text pattern).mp hmem).2

/-- The keys of such a cache are the different texts that can be parsed. -/
theorem Holds.keys_perm (h : cache.Holds texts) :
    (cache.map (·.1)).Perm (texts.filter fun text => (PathPattern.parse text).isOk).dedup := by
  rw [List.perm_ext_iff_of_nodup h.nodup (List.nodup_dedup _)]
  intro text
  rw [List.mem_dedup, List.mem_filter, List.mem_map]
  constructor
  . rintro ⟨⟨_, pattern⟩, hmem, rfl⟩
    obtain ⟨htext, hparse⟩ := (h.mem_iff _ pattern).mp hmem
    exact ⟨htext, by rw [hparse]; rfl⟩
  . rintro ⟨htext, hok⟩
    cases hparse : PathPattern.parse text with
    | ok pattern => exact ⟨(text, pattern), (h.mem_iff text pattern).mpr ⟨htext, hparse⟩, rfl⟩
    | error e =>
      rw [hparse] at hok
      cases hok

/-- What is added to the texts makes no difference if it is held already or cannot be parsed. -/
theorem Holds.concat (h : cache.Holds texts)
    (htext : ∀ pattern, PathPattern.parse text = .ok pattern → (text, pattern) ∈ cache) :
    cache.Holds (texts ++ [text]) where
  nodup := h.nodup
  mem_iff other pattern := by
    rw [h.mem_iff, List.mem_append, List.mem_singleton]
    constructor
    . rintro ⟨hmem, hparse⟩
      exact ⟨.inl hmem, hparse⟩
    . rintro ⟨hmem | rfl, hparse⟩
      . exact ⟨hmem, hparse⟩
      . exact (h.mem_iff other pattern).mp (htext pattern hparse)

theorem Holds.cons (h : cache.Holds texts) (hparse : PathPattern.parse text = .ok pattern)
    (hnew : cache.lookup text = none) : Holds ((text, pattern) :: cache) (texts ++ [text]) where
  nodup := by
    rw [List.map_cons, List.nodup_cons]
    refine ⟨?_, h.nodup⟩
    intro hmem
    obtain ⟨entry, hentry, heq⟩ := List.mem_map.mp hmem
    have := List.lookup_eq_none_iff.mp hnew entry hentry
    simp [heq] at this
  mem_iff other found := by
    rw [List.mem_cons, h.mem_iff, List.mem_append, List.mem_singleton]
    constructor
    . rintro (heq | ⟨hmem, hfound⟩)
      . cases heq
        exact ⟨.inr rfl, hparse⟩
      . exact ⟨.inl hmem, hfound⟩
    . rintro ⟨hmem | rfl, hfound⟩
      . exact .inr ⟨hmem, hfound⟩
      . rw [hparse] at hfound
        cases hfound
        exact .inl rfl

theorem Holds.getOrParse (h : cache.Holds texts) (text : String) :
    (cache.getOrParse text).2.Holds (texts ++ [text]) := by
  unfold PatternCache.getOrParse
  split
  . next hit heq =>
    apply h.concat
    intro pattern hparse
    have hmem := mem_of_lookup_eq_some heq
    have hhit := h.sound text hit hmem
    rw [hparse] at hhit
    cases hhit
    exact hmem
  . next hnew =>
    split
    . next fresh hparse => exact h.cons hparse hnew
    . next e hparse =>
      apply h.concat
      intro pattern hfound
      rw [hparse] at hfound
      cases hfound

/-- A text that cannot be parsed leaves a cache as it was. -/
theorem getOrParse_of_error {e : EmptyParameter} (he : PathPattern.parse text = .error e) :
    (cache.getOrParse text).2 = cache := by
  unfold getOrParse
  split
  . rfl
  . rw [he]

end PatternCache

namespace UnitSpec

def path (text : String) : UnitSpec := ⟨"path", .str text⟩

/-- The text of a pattern, in a spec of the unit that matches paths. -/
def pattern? : UnitSpec → Option String
  | ⟨name, .str text⟩ => if name = "path" then some text else none
  | _ => none

theorem eq_path_of_pattern? {spec : UnitSpec} {text : String} (h : spec.pattern? = some text) :
    spec = path text := by
  unfold pattern? at h
  split at h
  . split at h
    . next heq =>
      cases h
      rw [heq]
      rfl
    . cases h
  . cases h

end UnitSpec

namespace Registry

variable {r : Registry} {cache : PatternCache} {name : String}

/-- The stock registry, and what is made of it by registering constructors under other names. -/
inductive Stocked : Registry → Prop
  | builtins : Stocked builtins
  | register {r : Registry} (h : Stocked r) {name : String} (hname : name ≠ "path")
    (make : UnitSpec → Context → Attempt HandlerUnit) : Stocked (r.register name (.custom make))

theorem lookup_insertEntry (name key : String) (c : Constructor)
    (entries : List (String × Constructor)) :
    (insertEntry name c entries).lookup key
      =
    if key = name then some c else entries.lookup key := by
  induction entries with
  | nil => grind [insertEntry]
  | cons entry rest ih => grind [insertEntry]

theorem lookup_register (r : Registry) (name key : String) (c : Constructor) :
    (r.register name c).constructors.lookup key
      =
    if key = name then some c else r.constructors.lookup key :=
  lookup_insertEntry name key c r.constructors

/-- In such a registry, paths are made with the cache, and nothing else is. -/
theorem Stocked.lookup_eq_path_iff (h : Stocked r) :
    r.constructors.lookup name = some .path ↔ name = "path" := by
  induction h with
  | builtins =>
    simp only [Registry.builtins, lookup_register, Constructor.ofArgs]
    split
    . next heq => simp [heq]
    . split
      . next heq => simp [heq]
      . split
        . next heq => simp [heq]
        . split
          . next hmethod => simp [hmethod]
          . next hpath _ => simpa [empty] using hpath
  | register _ hname make ih =>
    rw [lookup_register]
    split
    . next heq => simp [heq, hname]
    . exact ih

section Path

variable {text : String} {pattern : PathPattern} {e : EmptyParameter} {context : Context}

theorem instantiate_path (h : r.Stocked) :
    r.instantiate cache (.path text) context
      =
    (blame (.path text)
      (.pure (((cache.getOrParse text).1.mapError EmptyParameter.toCauseChain).map
        HandlerUnit.pathMatch)),
      (cache.getOrParse text).2) := by
  unfold instantiate UnitSpec.path
  dsimp only
  rw [h.lookup_eq_path_iff.mpr rfl]
  simp only [Constructor.make, Constructor.makePathMatch]
  rcases cache.getOrParse text with ⟨_ | _, _⟩ <;> rfl

theorem instantiate_path_of_ok (h : r.Stocked) (hcache : cache.Sound)
    (hparse : PathPattern.parse text = .ok pattern) :
    (r.instantiate cache (.path text) context).1 = .pure (.ok (.pathMatch pattern)) := by
  rw [instantiate_path h, PatternCache.getOrParse_fst hcache, hparse]
  rfl

theorem instantiate_path_of_error (h : r.Stocked) (hcache : cache.Sound)
    (he : PathPattern.parse text = .error e) :
    r.instantiate cache (.path text) context
      =
    (.pure (.error
        (e.toCauseChain.within ("failed to instantiate unit " ++ (UnitSpec.path text).describe))),
      cache) := by
  rw [instantiate_path h, PatternCache.getOrParse_fst hcache, PatternCache.getOrParse_of_error he,
    he]
  rfl

theorem instantiate_snd_of_no_pattern (h : r.Stocked) {spec : UnitSpec}
    (hspec : spec.pattern? = none) : (r.instantiate cache spec context).2 = cache := by
  unfold instantiate
  split
  . rfl
  . next c hlookup =>
    cases c with
    | custom make => rfl
    | path =>
      obtain ⟨name, args⟩ := spec
      cases h.lookup_eq_path_iff.mp hlookup
      cases args with
      | str text => simp [UnitSpec.pattern?] at hspec
      | _ => rfl

end Path

end Registry

/-- One instantiation, through the stock registry or a copy of it that knows more names. -/
structure Instantiation where
  registry : Registry
  stocked : registry.Stocked
  spec : UnitSpec
  context : Context

namespace Instantiation

/-- What is made, and the cache that all copies of the registry have from then on. -/
def run (i : Instantiation) (cache : PatternCache) : Attempt HandlerUnit × PatternCache :=
  i.registry.instantiate cache i.spec i.context

def cacheAfter (is : List Instantiation) : PatternCache :=
  is.foldl (fun cache i => (i.run cache).2) []

/-- The patterns that were asked for. -/
def patterns (is : List Instantiation) : List String := is.filterMap (·.spec.pattern?)

theorem holds_cacheAfter (is : List Instantiation) : (cacheAfter is).Holds (patterns is) := by
  induction is using List.reverseRecOn with
  | nil => exact PatternCache.holds_nil
  | append_singleton rest i ih =>
    have hcache : cacheAfter (rest ++ [i]) = (i.run (cacheAfter rest)).2 := by
      unfold cacheAfter
      rw [List.foldl_append, List.foldl_cons, List.foldl_nil]
    have hpatterns : patterns (rest ++ [i]) = patterns rest ++ i.spec.pattern?.toList := by
      unfold patterns
      rw [List.filterMap_append]
      cases hspec : i.spec.pattern? <;> simp [hspec]
    rw [hcache, hpatterns]
    unfold run
    cases hspec : i.spec.pattern? with
    | none =>
      rw [Registry.instantiate_snd_of_no_pattern i.stocked hspec]
      simpa using ih
    | some text =>
      rw [UnitSpec.eq_path_of_pattern? hspec, Registry.instantiate_path i.stocked]
      exact ih.getOrParse text

/-- Only what succeeds can leave something in the cache. -/
theorem run_snd_of_failed (is : List Instantiation) (i : Instantiation)
    (hfailed : ∀ u, (i.run (cacheAfter is)).1.result ≠ .ok (.ok u)) :
    (i.run (cacheAfter is)).2 = cacheAfter is := by
  have hsound := (holds_cacheAfter is).sound
  unfold run at hfailed ⊢
  cases hspec : i.spec.pattern? with
  | none => exact Registry.instantiate_snd_of_no_pattern i.stocked hspec
  | some text =>
    rw [UnitSpec.eq_path_of_pattern? hspec] at hfailed ⊢
    cases hparse : PathPattern.parse text with
    | error e => rw [Registry.instantiate_path_of_error i.stocked hsound hparse]
    | ok pattern =>
      refine absurd ?_ (hfailed (.pathMatch pattern))
      rw [Registry.instantiate_path_of_ok i.stocked hsound hparse]
      rfl

/--
Whatever was instantiated before, through the stock registry or copies of it that know more names:
the unit of a path can be made exactly if its pattern can be parsed. It is the unit that matches
what was parsed, or else the error is that of parsing, in the words of the registry. The cache holds
each pattern that was asked for and could be parsed, once and with what parsing gives, and what
fails leaves it as it was.
-/
theorem cache_is_transparent (is : List Instantiation) :
    (∀ (i : Instantiation) (text : String), i.spec = .path text →
      let made := (i.run (cacheAfter is)).1
      ((∃ u, made.result = .ok (.ok u)) ↔ ∃ pattern, PathPattern.parse text = .ok pattern) ∧
      (∀ pattern, PathPattern.parse text = .ok pattern →
        made = .pure (.ok (.pathMatch pattern))) ∧
      (∀ e, PathPattern.parse text = .error e →
        made = .pure (.error
          (e.toCauseChain.within ("failed to instantiate unit " ++ i.spec.describe))))) ∧
    (cacheAfter is).Holds (patterns is) ∧
    ((cacheAfter is).map (·.1)).Perm
      ((patterns is).filter fun text => (PathPattern.parse text).isOk).dedup ∧
    (∀ i : Instantiation, (∀ u, (i.run (cacheAfter is)).1.result ≠ .ok (.ok u)) →
      (i.run (cacheAfter is)).2 = cacheAfter is) := by
  have hholds := holds_cacheAfter is
  refine ⟨?_, hholds, hholds.keys_perm, run_snd_of_failed is⟩
  intro i text hspec made
  have hok : ∀ pattern, PathPattern.parse text = .ok pattern →
      made = .pure (.ok (.pathMatch pattern)) := by
    intro pattern hparse
    simp only [made, run, hspec]
    exact Registry.instantiate_path_of_ok i.stocked hholds.sound hparse
  have herror : ∀ e, PathPattern.parse text = .error e →
      made = .pure (.error
        (e.toCauseChain.within ("failed to instantiate unit " ++ i.spec.describe))) := by
    intro e hparse
    simp only [made, run, hspec]
    rw [Registry.instantiate_path_of_error i.stocked hholds.sound hparse]
  refine ⟨⟨?_, ?_⟩, hok, herror⟩
  . rintro ⟨u, hu⟩
    cases hparse : PathPattern.parse text with
    | ok pattern => exact ⟨pattern, rfl⟩
    | error e =>
      rw [herror e hparse] at hu
      cases hu
  . rintro ⟨pattern, hparse⟩
    exact ⟨.pathMatch pattern, by rw [hok pattern hparse]; rfl⟩

def atRoot : Context := .forRequest (.new .zero .get "/")

/--
A pattern that is asked for twice, the second time through a copy that knows one more name, and in
between one whose parameter has no name.
-/
def asking : List Instantiation :=
  [⟨.builtins, .builtins, .path "/a/\x7bid\x7d", atRoot⟩,
    ⟨.builtins, .builtins, .path "/\x7b\x7d", atRoot⟩,
    ⟨Registry.builtins.register "audit" (.custom fun _ _ => .panic .other),
      .register .builtins (by decide) _, .path "/a/\x7bid\x7d", atRoot⟩]

theorem cache_of_asking :
    ((cacheAfter asking).map (·.1)).Perm ["/a/\x7bid\x7d"] ∧
    ("/\x7b\x7d", ⟨"/\x7b\x7d", []⟩) ∉ cacheAfter asking ∧
    ∀ i ∈ asking, i.spec = .path "/a/\x7bid\x7d" → (i.run (cacheAfter asking)).1
      = .pure (.ok (.pathMatch ⟨"/a/\x7bid\x7d", [.literal ['a'], .param "id"]⟩)) := by
  obtain ⟨hmade, hholds, hkeys, -⟩ := cache_is_transparent asking
  refine ⟨?_, ?_, ?_⟩
  . exact hkeys
  . rw [hholds.mem_iff]
    rintro ⟨-, hparse⟩
    cases hparse
  . intro i _ hspec
    exact (hmade i _ hspec).2.1 _ rfl

end Instantiation
end PageDispatch
