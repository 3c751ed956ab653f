import PageDispatch.Accumulator
import PageDispatch.Proofs.Response.Headers

/-!
This module contains the algebra of merging: where the entries of two header sets end up when one is
laid over the other, and when the order of grouping several merges matters.
-/

namespace PageDispatch
namespace HeaderSet

variable {h other a b c : HeaderSet} {name n : HeaderName} {value : HeaderValue}

theorem replace_of_not_any {entries : List (HeaderName × HeaderValue)}
    (hany : entries.any (·.1 = name) = false) (value : HeaderValue) :
    replace name value entries = entries ++ [(name, value)] := by
  induction entries with
  | nil => rfl
  | cons entry rest ih =>
    have ⟨hentry, hrest⟩ := Bool.or_eq_false_iff.mp hany
    rw [replace, if_neg (of_decide_eq_false hentry), ih hrest]
    rfl

theorem replace_of_any {entries : List (HeaderName × HeaderValue)}
    (hany : entries.any (·.1 = name) = true)
    (hunique : (entries.filter (·.1 = name)).length ≤ 1) (value : HeaderValue) :
    replace name value entries
      =
    entries.map fun e => if e.1 = name then (name, value) else e := by
  induction entries with
  | nil => contradiction
  | cons entry rest ih =>
    rw [replace, List.map_cons]
    split
    . next heq =>
      rw [List.filter_cons_of_pos (by simpa using heq), List.length_cons] at hunique
      have hnil := List.length_eq_zero_iff.mp (by omega : (rest.filter (·.1 = name)).length = 0)
      have hnone : ∀ e ∈ rest, ¬e.1 = name := by simpa [List.filter_eq_nil_iff] using hnil
      rw [List.filter_eq_self.mpr (by simpa using hnone)]
      congr 1
      symm
      refine (List.map_congr_left (g := id) fun e he => ?_).trans (List.map_id rest)
      rw [if_neg (hnone e he)]
      rfl
    . next hne =>
      rw [List.filter_cons_of_neg (by simpa using hne)] at hunique
      rw [List.any_cons, decide_eq_false hne, Bool.false_or] at hany
      rw [ih hany hunique]

theorem entries_insert_of_new (hnew : h.isRepeatable name = true ∨ h.contains name = false)
    (value : HeaderValue) : (h.insert name value).entries = h.entries ++ [(name, value)] := by
  unfold insert
  split
  . rfl
  . next hr => exact replace_of_not_any (hnew.resolve_left hr) value

theorem entries_insert_of_known (hr : h.isRepeatable name = false) (hc : h.contains name = true)
    (hunique : h.count name ≤ 1) (value : HeaderValue) :
    (h.insert name value).entries
      =
    h.entries.map fun e => if e.1 = name then (name, value) else e := by
  rw [insert, if_neg (by simp [hr])]
  exact replace_of_any hc hunique value

/-- The value that counts for a name: that of its last entry. -/
def latest (entries : List (HeaderName × HeaderValue)) (name : HeaderName) : Option HeaderValue :=
  ((entries.filter (·.1 = name)).map (·.2)).getLast?

theorem latest_append_singleton (entries : List (HeaderName × HeaderValue)) (name n : HeaderName)
    (value : HeaderValue) :
    latest (entries ++ [(name, value)]) n = if name = n then some value else latest entries n := by
  unfold latest
  rw [List.filter_append, List.map_append]
  split
  . next heq => simp [heq]
  . next hne => simp [hne]

/-- An entry after others came in. -/
def overwrite (repeatable : HeaderName → Bool) (latest : HeaderName → Option HeaderValue)
    (e : HeaderName × HeaderValue) : HeaderName × HeaderValue :=
  if repeatable e.1 then e else (e.1, (latest e.1).getD e.2)

@[simp]
theorem fst_overwrite (repeatable : HeaderName → Bool) (latest : HeaderName → Option HeaderValue)
    (e : HeaderName × HeaderValue) : (overwrite repeatable latest e).1 = e.1 := by
  unfold overwrite
  split <;> rfl

theorem overwrite_of_repeatable {repeatable : HeaderName → Bool}
    {e : HeaderName × HeaderValue} (hr : repeatable e.1 = true)
    (latest : HeaderName → Option HeaderValue) : overwrite repeatable latest e = e :=
  if_pos hr

theorem overwrite_of_singular {repeatable : HeaderName → Bool}
    {e : HeaderName × HeaderValue} (hr : repeatable e.1 = false)
    (latest : HeaderName → Option HeaderValue) :
    overwrite repeatable latest e = (e.1, (latest e.1).getD e.2) :=
  if_neg (by simp [hr])

theorem overwrite_congr {repeatable : HeaderName → Bool}
    {latest₁ latest₂ : HeaderName → Option HeaderValue} {e : HeaderName × HeaderValue}
    (heq : repeatable e.1 = false → latest₁ e.1 = latest₂ e.1) :
    overwrite repeatable latest₁ e = overwrite repeatable latest₂ e := by
  unfold overwrite
  split
  . rfl
  . next hr => rw [heq (Bool.eq_false_iff.mpr hr)]

/--
Old entries with new ones laid over them. New entries of names that are not among the old ones, or
repeatable, go to the end in their order.
-/
def overlay (repeatable : HeaderName → Bool) (old new : List (HeaderName × HeaderValue)) :
    List (HeaderName × HeaderValue) :=
  old.map (overwrite repeatable (latest new))
    ++ new.filter fun e => repeatable e.1 || !old.any (·.1 = e.1)

theorem overlay_nil (repeatable : HeaderName → Bool) (old : List (HeaderName × HeaderValue)) :
    overlay repeatable old [] = old := by
  rw [overlay, List.filter_nil, List.append_nil]
  refine (List.map_congr_left (g := id) fun e _ => ?_).trans (List.map_id old)
  unfold overwrite
  split <;> rfl

variable {repeatable : HeaderName → Bool} {old new : List (HeaderName × HeaderValue)}

theorem overlay_append_of_new (hnew : (repeatable name || !old.any (·.1 = name)) = true)
    (value : HeaderValue) :
    overlay repeatable old (new ++ [(name, value)])
      =
    overlay repeatable old new ++ [(name, value)] := by
  unfold overlay
  rw [List.filter_append, List.append_assoc, List.filter_cons_of_pos (by exact hnew)]
  congr 1
  apply List.map_congr_left
  intro e he
  apply overwrite_congr
  intro hr
  rw [latest_append_singleton, if_neg]
  rintro rfl
  rw [hr, List.any_eq_true.mpr ⟨e, he, decide_eq_true rfl⟩] at hnew
  contradiction

theorem overlay_append_of_known (hr : repeatable name = false)
    (hold : old.any (·.1 = name) = true) (hnone : ∀ e ∈ new, ¬e.1 = name) (value : HeaderValue) :
    overlay repeatable old (new ++ [(name, value)])
      =
    (overlay repeatable old new).map fun e => if e.1 = name then (name, value) else e := by
  unfold overlay
  rw [List.filter_append, List.filter_cons_of_neg (by simp [hr, hold]), List.filter_nil,
    List.append_nil, List.map_append, List.map_map]
  congr 1
  . apply List.map_congr_left
    intro e _
    dsimp only [Function.comp]
    rw [fst_overwrite]
    split
    . next heq => simp [overwrite, heq, hr, latest_append_singleton]
    . next hne =>
      apply overwrite_congr
      intro _
      rw [latest_append_singleton, if_neg (Ne.symm hne)]
  . symm
    refine (List.map_congr_left (g := id) fun e he => ?_).trans (List.map_id _)
    rw [if_neg (hnone e (List.mem_filter.mp he).1)]
    rfl

theorem entries_foldl_insert (h : HeaderSet) {new : List (HeaderName × HeaderValue)}
    (hh : ∀ n, h.isRepeatable n = false → h.count n ≤ 1)
    (hunique : ∀ n, h.isRepeatable n = false → (new.filter (·.1 = n)).length ≤ 1) :
    (new.foldl (fun h (name, value) => h.insert name value) h).entries
      =
    overlay h.isRepeatable h.entries new := by
  induction new using List.reverseRecOn with
  | nil => exact (overlay_nil _ _).symm
  | append_singleton rest entry ih =>
    obtain ⟨name, value⟩ := entry
    simp only [List.filter_append, List.length_append] at hunique
    have hnone : h.isRepeatable name = false → ∀ e ∈ rest, ¬e.1 = name := by
      intro hr
      have hle := hunique name hr
      rw [List.filter_cons_of_pos (by simp), List.length_cons] at hle
      have hnil := List.length_eq_zero_iff.mp (by omega : (rest.filter (·.1 = name)).length = 0)
      simpa [List.filter_eq_nil_iff] using hnil
    have ih := ih fun n hn => Nat.le_trans (Nat.le_add_right _ _) (hunique n hn)
    rw [List.foldl_append, List.foldl_cons, List.foldl_nil]
    cases hr : h.isRepeatable name with
    | true =>
      rw [entries_insert_of_new, ih, overlay_append_of_new (by rw [hr]; rfl)]
      exact .inl ((isRepeatable_foldl_insert h rest name).trans hr)
    | false =>
      have hcontains : (rest.foldl (fun h (name, value) => h.insert name value) h).contains name
            =
          h.contains name := by
        rw [contains_foldl_insert, List.any_eq_false.mpr (by simpa using hnone hr), Bool.or_false]
      cases hc : h.contains name with
      | false =>
        rw [entries_insert_of_new, ih, overlay_append_of_new]
        . exact Bool.or_eq_true_iff.mpr (.inr (by rw [Bool.not_eq_true']; exact hc))
        . exact .inr (hcontains.trans hc)
      | true =>
        rw [entries_insert_of_known, ih, overlay_append_of_known hr hc (hnone hr)]
        . exact (isRepeatable_foldl_insert h rest name).trans hr
        . exact hcontains.trans hc
        . rw [count_eq_length_getAll, getAll_foldl_insert, if_neg (by simp [hr]),
            List.filter_eq_nil_iff.mpr (by simpa using hnone hr)]
          exact (count_eq_length_getAll h name) ▸ hh name hr

theorem entries_merge (hh : h.Tidy) (ho : other.Tidy) :
    (h.merge other).entries = overlay (h.merge other).isRepeatable h.entries other.entries := by
  have hr : (other.declared.foldl declare h).isRepeatable = (h.merge other).isRepeatable := by
    funext n
    exact (isRepeatable_foldl_insert _ other.entries n).symm
  refine (entries_foldl_insert _ (hh.foldl_declare other.declared).unique ?_).trans ?_
  . intro n hn
    rw [hr, isRepeatable_merge] at hn
    exact ho.unique n (Bool.or_eq_false_iff.mp hn).2
  . rw [hr, entries_foldl_declare]

theorem merge_declared_assoc (hb : b.Tidy) (hc : c.Tidy) (hbc : (b.merge c).Tidy) :
    ((a.merge b).merge c).declared = (a.merge (b.merge c)).declared := by
  rw [declared_merge hc, declared_merge hb, declared_merge hbc, declared_merge hc,
    List.filter_append, List.filter_filter, List.append_assoc]
  simp only [isRepeatable_merge, Bool.not_or]

/-- Whether a name is declared repeatable in the first set only, while the two others carry it. -/
structure Lone (a b c : HeaderSet) (name : HeaderName) : Prop where
  declared : name ∈ a.declared
  undeclared₁ : name ∉ b.declared
  undeclared₂ : name ∉ c.declared
  carried₁ : b.contains name = true
  carried₂ : c.contains name = true

theorem isRepeatable_eq_false_iff :
    h.isRepeatable n = false ↔ n.isMultiValued = false ∧ n ∉ h.declared := by
  simp [isRepeatable]

theorem Lone.isRepeatable (hl : Lone a b c n) (hn : n.isMultiValued = false) :
    a.isRepeatable n = true ∧ b.isRepeatable n = false ∧ c.isRepeatable n = false := by
  rw [isRepeatable_eq_false_iff, isRepeatable_eq_false_iff]
  refine ⟨?_, ⟨hn, hl.undeclared₁⟩, ⟨hn, hl.undeclared₂⟩⟩
  simp [HeaderSet.isRepeatable, hl.declared]

/-- If a name is repeatable in the first of three sets only, one of the others lacks it. -/
theorem lacks_of_not_lone (hnot : ¬∃ n, n.isMultiValued = false ∧ Lone a b c n)
    (ha : a.isRepeatable n = true) (hb : b.isRepeatable n = false) (hc : c.isRepeatable n = false) :
    b.contains n = false ∨ c.contains n = false := by
  rw [isRepeatable_eq_false_iff] at hb hc
  cases hcb : b.contains n with
  | false => exact .inl rfl
  | true =>
    cases hcc : c.contains n with
    | false => exact .inr rfl
    | true =>
      have hdeclared : n ∈ a.declared := by simpa [isRepeatable, hb.1] using ha
      exact absurd ⟨n, hb.1, ⟨hdeclared, hb.2, hc.2, hcb, hcc⟩⟩ hnot

section Assoc

variable (hfirst : ¬∃ n, n.isMultiValued = false ∧ Lone a b c n)
  (hlast : ¬∃ n, n.isMultiValued = false ∧ Lone c a b n)

include hlast in
theorem overwrite_overwrite {e : HeaderName × HeaderValue} (he : e ∈ a.entries) :
    overwrite ((a.merge b).merge c).isRepeatable c.get?
        (overwrite (a.merge b).isRepeatable b.get? e)
      =
    overwrite ((a.merge b).merge c).isRepeatable (b.merge c).get? e := by
  have hr : ((a.merge b).merge c).isRepeatable e.1
        =
      ((a.merge b).isRepeatable e.1 || c.isRepeatable e.1) := isRepeatable_merge _ _ _
  cases hab : (a.merge b).isRepeatable e.1 with
  | true =>
    rw [hab, Bool.true_or] at hr
    rw [overwrite_of_repeatable hab, overwrite_of_repeatable hr, overwrite_of_repeatable hr]
  | false =>
    have ⟨ha, hb⟩ := Bool.or_eq_false_iff.mp (isRepeatable_merge a b e.1 ▸ hab)
    rw [overwrite_of_singular hab]
    cases hc : c.isRepeatable e.1 with
    | true =>
      rw [hab, hc, Bool.false_or] at hr
      have hlacks := (lacks_of_not_lone hlast hc ha hb).resolve_left (by simp [contains_of_mem he])
      rw [get?_eq_none_of_not_contains hlacks, Option.getD_none, overwrite_of_repeatable hr,
        overwrite_of_repeatable hr]
    | false =>
      rw [hab, hc, Bool.false_or] at hr
      have hbc : (b.merge c).isRepeatable e.1 = false := by rw [isRepeatable_merge, hb, hc]; rfl
      rw [overwrite_of_singular (by exact hr), overwrite_of_singular hr, get?_merge hbc,
        Option.getD_or]

include hfirst hlast in
theorem map_filter_overwrite :
    (b.entries.filter fun e => (a.merge b).isRepeatable e.1 || !a.contains e.1).map
        (overwrite ((a.merge b).merge c).isRepeatable c.get?)
      =
    (b.entries.map (overwrite (b.merge c).isRepeatable c.get?)).filter
      fun e => ((a.merge b).merge c).isRepeatable e.1 || !a.contains e.1 := by
  rw [List.filter_map]
  have hfilter : b.entries.filter (fun e => (a.merge b).isRepeatable e.1 || !a.contains e.1)
        =
      b.entries.filter ((fun e => ((a.merge b).merge c).isRepeatable e.1 || !a.contains e.1)
        ∘ overwrite (b.merge c).isRepeatable c.get?) := by
    apply List.filter_congr
    intro e he
    dsimp only [Function.comp]
    rw [fst_overwrite, isRepeatable_merge (a.merge b)]
    cases hab : (a.merge b).isRepeatable e.1 with
    | true => rfl
    | false =>
      have ⟨ha, hb⟩ := Bool.or_eq_false_iff.mp (isRepeatable_merge a b e.1 ▸ hab)
      cases hc : c.isRepeatable e.1 with
      | false => rfl
      | true =>
        rw [(lacks_of_not_lone hlast hc ha hb).resolve_right (by simp [contains_of_mem he])]
        rfl
  rw [hfilter]
  apply List.map_congr_left
  intro e he
  have he := (List.mem_filter.mp he).1
  have hr : ((a.merge b).merge c).isRepeatable e.1
        =
      (a.isRepeatable e.1 || (b.merge c).isRepeatable e.1) := by
    simp only [isRepeatable_merge, Bool.or_assoc]
  cases hbc : (b.merge c).isRepeatable e.1 with
  | true =>
    rw [overwrite_of_repeatable hbc, overwrite_of_repeatable (by rw [hr, hbc, Bool.or_true])]
  | false =>
    have ⟨hb, hc⟩ := Bool.or_eq_false_iff.mp (isRepeatable_merge b c e.1 ▸ hbc)
    rw [overwrite_of_singular hbc]
    cases ha : a.isRepeatable e.1 with
    | false => rw [overwrite_of_singular (by rw [hr, ha, hbc]; rfl)]
    | true =>
      have hlacks := (lacks_of_not_lone hfirst ha hb hc).resolve_left (by simp [contains_of_mem he])
      rw [overwrite_of_repeatable (by rw [hr, ha]; rfl), get?_eq_none_of_not_contains hlacks]
      rfl

include hfirst in
theorem filter_filter_new :
    (c.entries.filter fun e =>
        ((a.merge b).merge c).isRepeatable e.1 || !(a.merge b).contains e.1)
      =
    (c.entries.filter fun e => (b.merge c).isRepeatable e.1 || !b.contains e.1).filter
      fun e => ((a.merge b).merge c).isRepeatable e.1 || !a.contains e.1 := by
  rw [List.filter_filter]
  apply List.filter_congr
  intro e he
  have hr : ((a.merge b).merge c).isRepeatable e.1
        =
      (a.isRepeatable e.1 || (b.merge c).isRepeatable e.1) := by
    simp only [isRepeatable_merge, Bool.or_assoc]
  rw [hr, contains_merge]
  cases hbc : (b.merge c).isRepeatable e.1 with
  | true => simp
  | false =>
    have ⟨hb, hc⟩ := Bool.or_eq_false_iff.mp (isRepeatable_merge b c e.1 ▸ hbc)
    cases ha : a.isRepeatable e.1 with
    | false => simp
    | true =>
      have hlacks := (lacks_of_not_lone hfirst ha hb hc).resolve_right (by simp [contains_of_mem he])
      simp [hlacks]

include hfirst hlast in
theorem merge_assoc (ha : a.Tidy) (hb : b.Tidy) (hc : c.Tidy) :
    (a.merge b).merge c = a.merge (b.merge c) := by
  have hr : (a.merge (b.merge c)).isRepeatable = ((a.merge b).merge c).isRepeatable := by
    funext n
    simp only [isRepeatable_merge, Bool.or_assoc]
  have hleft : ((a.merge b).merge c).entries
        =
      (a.entries.map (overwrite (a.merge b).isRepeatable b.get?)
          ++ b.entries.filter fun e => (a.merge b).isRepeatable e.1 || !a.contains e.1).map
        (overwrite ((a.merge b).merge c).isRepeatable c.get?)
      ++ c.entries.filter fun e =>
          ((a.merge b).merge c).isRepeatable e.1 || !(a.merge b).contains e.1 := by
    refine (entries_merge (ha.merge b) hc).trans ?_
    unfold overlay
    congr 2
    exact entries_merge ha hb
  have hright : (a.merge (b.merge c)).entries
        =
      a.entries.map (overwrite ((a.merge b).merge c).isRepeatable (b.merge c).get?)
        ++ (b.entries.map (overwrite (b.merge c).isRepeatable c.get?)
            ++ c.entries.filter fun e => (b.merge c).isRepeatable e.1 || !b.contains e.1).filter
          fun e => ((a.merge b).merge c).isRepeatable e.1 || !a.contains e.1 := by
    rw [← hr]
    refine (entries_merge ha (hb.merge c)).trans ?_
    unfold overlay
    congr 2
    exact entries_merge hb hc
  have hentries : ((a.merge b).merge c).entries = (a.merge (b.merge c)).entries := by
    rw [hleft, hright, List.map_append, List.map_map, List.filter_append, List.append_assoc,
      map_filter_overwrite hfirst hlast, filter_filter_new hfirst]
    congr 1
    apply List.map_congr_left
    intro e he
    exact overwrite_overwrite hlast he
  calc (a.merge b).merge c
    _ = ⟨((a.merge b).merge c).entries, ((a.merge b).merge c).declared⟩ := rfl
    _ = a.merge (b.merge c) := by rw [hentries, merge_declared_assoc hb hc (hb.merge c)]

end Assoc

/-- A name that a tidy set carries and does not repeat has one value. -/
theorem Tidy.count_eq_one (hh : h.Tidy) (hr : h.isRepeatable n = false)
    (hc : h.contains n = true) : h.count n = 1 := by
  have hle := hh.unique n hr
  have hne : h.count n ≠ 0 := by
    rw [count_eq_length_getAll, Ne, List.length_eq_zero_iff, ← contains_eq_false_iff, hc]
    simp
  omega

theorem count_merge_of_repeatable
    (hr : (h.isRepeatable n || other.isRepeatable n) = true) :
    (h.merge other).count n = h.count n + other.count n := by
  rw [count_eq_length_getAll, getAll_merge, if_pos hr, List.length_append,
    ← count_eq_length_getAll, ← count_eq_length_getAll]

theorem count_merge_of_singular (hh : h.isRepeatable n = false)
    (ho : other.isRepeatable n = false) (hc : other.contains n = true) :
    (h.merge other).count n = 1 := by
  obtain ⟨v, hv⟩ := exists_get?_of_contains hc
  rw [count_eq_length_getAll, getAll_merge, hh, ho, hv]
  rfl

theorem merge_ne_of_lone_first (hb : b.Tidy) (hc : c.Tidy) (hn : n.isMultiValued = false)
    (hl : Lone a b c n) : (a.merge b).merge c ≠ a.merge (b.merge c) := by
  have ⟨har, hbr, hcr⟩ := hl.isRepeatable hn
  have hleft : ((a.merge b).merge c).count n = a.count n + 1 + 1 := by
    rw [count_merge_of_repeatable (by rw [isRepeatable_merge, har]; rfl),
      count_merge_of_repeatable (by rw [har]; rfl), hb.count_eq_one hbr hl.carried₁,
      hc.count_eq_one hcr hl.carried₂]
  have hright : (a.merge (b.merge c)).count n = a.count n + 1 := by
    rw [count_merge_of_repeatable (by rw [har]; rfl),
      count_merge_of_singular hbr hcr hl.carried₂]
  intro heq
  rw [heq] at hleft
  omega

theorem merge_ne_of_lone_last (ha : a.Tidy) (hb : b.Tidy) (hn : n.isMultiValued = false)
    (hl : Lone c a b n) : (a.merge b).merge c ≠ a.merge (b.merge c) := by
  have ⟨hcr, har, hbr⟩ := hl.isRepeatable hn
  have hleft : ((a.merge b).merge c).count n = 1 + c.count n := by
    rw [count_merge_of_repeatable (by rw [hcr, Bool.or_true]),
      count_merge_of_singular har hbr hl.carried₂]
  have hright : (a.merge (b.merge c)).count n = 1 + (1 + c.count n) := by
    rw [count_merge_of_repeatable (by rw [isRepeatable_merge, hcr, Bool.or_true, Bool.or_true]),
      count_merge_of_repeatable (by rw [hcr, Bool.or_true]), ha.count_eq_one har hl.carried₁,
      hb.count_eq_one hbr hl.carried₂]
  intro heq
  rw [heq] at hleft
  omega

theorem merge_assoc_iff (ha : a.Tidy) (hb : b.Tidy) (hc : c.Tidy) :
    (a.merge b).merge c = a.merge (b.merge c)
      ↔
    ¬∃ n, n.isMultiValued = false ∧ (Lone a b c n ∨ Lone c a b n) := by
  constructor
  . rintro heq ⟨n, hn, hl⟩
    cases hl with
    | inl hfirst => exact merge_ne_of_lone_first hb hc hn hfirst heq
    | inr hlast => exact merge_ne_of_lone_last ha hb hn hlast heq
  . intro hnot
    apply merge_assoc _ _ ha hb hc
    . exact fun ⟨n, hn, hl⟩ => hnot ⟨n, hn, .inl hl⟩
    . exact fun ⟨n, hn, hl⟩ => hnot ⟨n, hn, .inr hl⟩

theorem empty_merge (hh : h.Tidy) : empty.merge h = h := by
  have hentries : (empty.merge h).entries = h.entries := by
    rw [entries_merge tidy_empty hh]
    exact List.filter_eq_self.mpr fun e _ => Bool.or_true _
  have hdeclared : (empty.merge h).declared = h.declared := by
    rw [declared_merge hh]
    exact List.filter_eq_self.mpr fun n hn => by simp [isRepeatable, hh.singular n hn, empty]
  calc empty.merge h
    _ = ⟨(empty.merge h).entries, (empty.merge h).declared⟩ := rfl
    _ = h := by rw [hentries, hdeclared]

end HeaderSet
end PageDispatch
