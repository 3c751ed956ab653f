import PageDispatch.Chain.Registry

/-!
This module contains the verification of the cache of path patterns: what is made of a spec does not
depend on what the cache holds, as long as it holds what parsing gives.
-/

namespace PageDispatch

namespace PatternCache

def Sound (cache : PatternCache) : Prop :=
  ∀ text pattern, (text, pattern) ∈ cache → PathPattern.parse text = .ok pattern

theorem sound_nil : Sound [] := by
  intro text pattern h
  cases h

theorem mem_of_lookup_eq_some {cache : PatternCache} {text : String} {pattern : PathPattern}
    (h : cache.lookup text = some pattern) : (text, pattern) ∈ cache := by
  have ⟨before, after, hsplit, _⟩ := List.lookup_eq_some_iff.mp h
  rw [hsplit]
  exact List.mem_append_right _ List.mem_cons_self

variable {cache : PatternCache} {text : String}

theorem getOrParse_fst (h : cache.Sound) : (cache.getOrParse text).1 = PathPattern.parse text := by
  unfold getOrParse
  split
  . next hit heq => rw [h text hit (mem_of_lookup_eq_some heq)]
  . split
    . next heq => rw [heq]
    . next heq => rw [heq]

theorem sound_getOrParse (h : cache.Sound) : (cache.getOrParse text).2.Sound := by
  unfold getOrParse
  split
  . exact h
  . split
    . next fresh heq =>
      intro other pattern hmem
      cases List.mem_cons.mp hmem with
      | inl hhead =>
        cases hhead
        exact heq
      | inr htail => exact h other pattern htail
    . exact h

end PatternCache

namespace Constructor

variable {cache : PatternCache} {args : Json}

theorem makePathMatch_str {text : String} : (makePathMatch cache (.str text)).1
      =
    match (cache.getOrParse text).1 with
    | .ok pattern => .ok (.pathMatch pattern)
    | .error e => .error e.toCauseChain := by
  simp only [makePathMatch]
  split
  . next h => rw [h]
  . next h => rw [h]

theorem makePathMatch_fst (h : cache.Sound) :
    (makePathMatch cache args).1 = (makePathMatch [] args).1 := by
  cases args with
  | str text =>
    rw [makePathMatch_str, makePathMatch_str, PatternCache.getOrParse_fst h,
      PatternCache.getOrParse_fst PatternCache.sound_nil]
  | _ => rfl

theorem sound_makePathMatch (h : cache.Sound) : (makePathMatch cache args).2.Sound := by
  unfold makePathMatch
  split
  . next text =>
    have hnext := @PatternCache.sound_getOrParse cache text h
    split
    . next heq =>
      rw [heq] at hnext
      exact hnext
    . next heq =>
      rw [heq] at hnext
      exact hnext
  . exact h

end Constructor

namespace Registry

variable {r : Registry} {cache : PatternCache} {spec : UnitSpec} {context : Context}

theorem instantiate_fst (h : cache.Sound) :
    (r.instantiate cache spec context).1 = (r.instantiate [] spec context).1 := by
  unfold instantiate
  split
  . rfl
  . next c _ =>
    cases c with
    | path => simp only [Constructor.make, Constructor.makePathMatch_fst h]
    | custom make => rfl

theorem sound_instantiate (h : cache.Sound) : (r.instantiate cache spec context).2.Sound := by
  unfold instantiate
  split
  . exact h
  . next c _ =>
    cases c with
    | path => exact Constructor.sound_makePathMatch h
    | custom make => exact h

end Registry
end PageDispatch
