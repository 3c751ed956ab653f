import PageDispatch.Proofs.Response.Grouping

/-!
This module contains what comes of a succession of responses that are laid one over the other: which
of them each part is taken from, which values a header name has, and in which order the names come.
-/

namespace PageDispatch

namespace HeaderSet

variable {h other : HeaderSet} {n : HeaderName}

/-- The names of the entries, in order. -/
def names (h : HeaderSet) : List HeaderName := h.entries.map (·.1)

theorem contains_eq_elem_names (h : HeaderSet) (n : HeaderName) :
    h.contains n = h.names.elem n := by
  rw [Bool.eq_iff_iff]
  simp [contains, names]

theorem names_overlay (repeatable : HeaderName → Bool)
    (old new : List (HeaderName × HeaderValue)) :
    (overlay repeatable old new).map (·.1)
      =
    old.map (·.1) ++ (new.map (·.1)).filter fun n => repeatable n || !old.any (·.1 = n) := by
  unfold overlay
  rw [List.map_append, List.map_map, List.filter_map]
  congr 1
  apply List.map_congr_left
  intro e _
  exact fst_overwrite _ _ e

theorem names_merge (hh : h.Tidy) (ho : other.Tidy) :
    (h.merge other).names
      =
    h.names ++ other.names.filter fun n => (h.merge other).isRepeatable n || !h.contains n := by
  rw [names, entries_merge hh ho, names_overlay]
  rfl

/-- A merge leaves the names of a set in front; new ones come after them. -/
theorem eraseDups_names_merge (hh : h.Tidy) (ho : other.Tidy) :
    (h.merge other).names.eraseDups = (h.names ++ other.names).eraseDups := by
  have hnew : (other.names.filter fun n =>
      (h.merge other).isRepeatable n || !h.contains n).removeAll h.names
        =
      other.names.removeAll h.names := by
    unfold List.removeAll
    rw [List.filter_filter]
    apply List.filter_congr
    intro n _
    rw [contains_eq_elem_names]
    cases h.names.elem n <;> simp
  rw [names_merge hh ho, List.eraseDups_append, List.eraseDups_append, hnew]

/-- A name that is not repeatable has one value at most. -/
theorem Tidy.getAll_eq (hh : h.Tidy) (hn : h.isRepeatable n = false) :
    h.getAll n = (h.get? n).toList := by
  have hle := hh.unique n hn
  rw [count_eq_length_getAll] at hle
  rw [get?]
  cases hvalues : h.getAll n with
  | nil => rfl
  | cons value rest =>
    rw [hvalues, List.length_cons] at hle
    rw [List.length_eq_zero_iff.mp (by omega : rest.length = 0)]
    rfl

end HeaderSet

theorem eraseDups_append_congr {α : Type} [BEq α] [LawfulBEq α] {as bs : List α}
    (h : as.eraseDups = bs.eraseDups) (cs : List α) :
    (as ++ cs).eraseDups = (bs ++ cs).eraseDups := by
  have hremoved : cs.removeAll as = cs.removeAll bs := by
    unfold List.removeAll
    apply List.filter_congr
    intro x _
    have hmem : x ∈ as ↔ x ∈ bs := by rw [← List.mem_eraseDups, h, List.mem_eraseDups]
    rw [Bool.eq_iff_iff]
    simp [hmem]
  rw [List.eraseDups_append, List.eraseDups_append, h, hremoved]

namespace Accumulator

/-- A succession of responses, each one laid over those before it. -/
def mergeAll (as : List Accumulator) : Accumulator := as.foldl merge .empty

variable {a : Accumulator} {as before after : List Accumulator} {n : HeaderName}

theorem mergeAll_concat (as : List Accumulator) (a : Accumulator) :
    mergeAll (as ++ [a]) = (mergeAll as).merge a := by
  unfold mergeAll
  rw [List.foldl_append, List.foldl_cons, List.foldl_nil]

theorem tidy_mergeAll (as : List Accumulator) : (mergeAll as).headers.Tidy := by
  induction as using List.reverseRecOn with
  | nil => exact HeaderSet.tidy_empty
  | append_singleton rest a ih =>
    rw [mergeAll_concat, headers_merge]
    exact ih.merge _

section Parts

/-- What a merge takes from the last response that has it, a succession does too. -/
theorem mergeAll_eq_getLast? {α : Type} {f : Accumulator → Option α} (hempty : f .empty = none)
    (hmerge : ∀ a b, f (a.merge b) = (f b).or (f a)) (as : List Accumulator) :
    f (mergeAll as) = (as.filterMap f).getLast? := by
  induction as using List.reverseRecOn with
  | nil => exact hempty
  | append_singleton rest a ih =>
    rw [mergeAll_concat, hmerge, ih, List.filterMap_append, List.getLast?_append]
    cases ha : f a with
    | none => rw [List.filterMap_cons_none ha]; rfl
    | some x => rw [List.filterMap_cons_some ha]; rfl

theorem body_mergeAll (as : List Accumulator) :
    (mergeAll as).body = ((as.map body).filter (!·.isEmpty)).getLast?.getD .empty := by
  induction as using List.reverseRecOn with
  | nil => rfl
  | append_singleton rest a ih =>
    rw [mergeAll_concat, body_merge, List.map_append, List.filter_append, List.getLast?_append,
      Option.getD_or, ← ih, List.map_singleton]
    cases ha : a.body.isEmpty with
    | true => rw [List.filter_cons_of_neg (by simp [ha])]; rfl
    | false => rw [List.filter_cons_of_pos (by simp [ha])]; rfl

theorem modified_mergeAll (as : List Accumulator) :
    (mergeAll as).modified = as.any (·.modified) := by
  induction as using List.reverseRecOn with
  | nil => rfl
  | append_singleton rest a ih =>
    rw [mergeAll_concat, modified_merge, ih, List.any_append, List.any_cons, List.any_nil,
      Bool.or_false]

end Parts

section Values

theorem isRepeatable_mergeAll (as : List Accumulator) (n : HeaderName) :
    (mergeAll as).headers.isRepeatable n
      =
    (n.isMultiValued || as.any fun a => a.headers.isRepeatable n) := by
  induction as using List.reverseRecOn with
  | nil => simp [mergeAll, empty, HeaderSet.isRepeatable, HeaderSet.empty]
  | append_singleton rest a ih =>
    rw [mergeAll_concat, headers_merge, HeaderSet.isRepeatable_merge, ih, List.any_append,
      List.any_cons, List.any_nil, Bool.or_false, Bool.or_assoc]

/-- Once a name is repeatable, all values that follow are kept. -/
theorem getAll_foldl_merge (hn : a.headers.isRepeatable n = true) (as : List Accumulator) :
    (as.foldl merge a).headers.getAll n
      =
    a.headers.getAll n ++ as.flatMap fun b => b.headers.getAll n := by
  induction as generalizing a with
  | nil => simp
  | cons b rest ih =>
    have hrepeatable : (a.merge b).headers.isRepeatable n = true := by
      rw [headers_merge, HeaderSet.isRepeatable_merge, hn, Bool.true_or]
    have hvalues : (a.merge b).headers.getAll n = a.headers.getAll n ++ b.headers.getAll n := by
      rw [headers_merge, HeaderSet.getAll_merge, if_pos (by rw [hn, Bool.true_or])]
    rw [List.foldl_cons, ih hrepeatable, hvalues, List.flatMap_cons, List.append_assoc]

theorem getAll_mergeAll_of_multiValued (hn : n.isMultiValued = true) (as : List Accumulator) :
    (mergeAll as).headers.getAll n = as.flatMap fun a => a.headers.getAll n := by
  have hempty : Accumulator.empty.headers.isRepeatable n = true := by
    simp [HeaderSet.isRepeatable, hn]
  exact getAll_foldl_merge hempty as

/-- As long as a name is not declared repeatable, its last value replaces the others. -/
theorem getAll_mergeAll_of_undeclared (hn : n.isMultiValued = false)
    (has : ∀ a ∈ as, n ∉ a.headers.declared) :
    (mergeAll as).headers.getAll n
      =
    (as.filterMap fun a => a.headers.get? n).getLast?.toList := by
  have hsingular : ∀ a ∈ as, a.headers.isRepeatable n = false := by
    intro a ha
    exact HeaderSet.isRepeatable_eq_false_iff.mpr ⟨hn, has a ha⟩
  clear has
  induction as using List.reverseRecOn with
  | nil => rfl
  | append_singleton rest a ih =>
    have ⟨hrest, ha⟩ := List.forall_mem_append.mp hsingular
    have ha := ha a (List.mem_singleton_self a)
    have hall : (mergeAll rest).headers.isRepeatable n = false := by
      rw [isRepeatable_mergeAll, hn, Bool.false_or, List.any_eq_false]
      intro b hb
      rw [hrest b hb]
      exact Bool.false_ne_true
    rw [mergeAll_concat, headers_merge, HeaderSet.getAll_merge, if_neg (by simp [hall, ha]),
      ih hrest, List.filterMap_append, List.getLast?_append]
    cases hvalue : a.headers.get? n with
    | none => simp [hvalue]
    | some value => simp [hvalue]

/-- The first declaration keeps the value that counts by then, and all values from there on. -/
theorem getAll_mergeAll_of_declared (hn : n.isMultiValued = false)
    (hbefore : ∀ b ∈ before, n ∉ b.headers.declared) (ha : n ∈ a.headers.declared) :
    (mergeAll (before ++ a :: after)).headers.getAll n
      =
    (before.filterMap fun b => b.headers.get? n).getLast?.toList
      ++ (a :: after).flatMap fun b => b.headers.getAll n := by
  have hrepeatable : a.headers.isRepeatable n = true := by simp [HeaderSet.isRepeatable, ha]
  have hmerged : ((mergeAll before).merge a).headers.isRepeatable n = true := by
    rw [headers_merge, HeaderSet.isRepeatable_merge, hrepeatable, Bool.or_true]
  have hsplit :
      mergeAll (before ++ a :: after) = after.foldl merge ((mergeAll before).merge a) := by
    unfold mergeAll
    rw [List.foldl_append, List.foldl_cons]
  rw [hsplit, getAll_foldl_merge hmerged, headers_merge, HeaderSet.getAll_merge,
    if_pos (by rw [hrepeatable, Bool.or_true]), getAll_mergeAll_of_undeclared hn hbefore,
    List.flatMap_cons, List.append_assoc]

end Values

theorem eraseDups_names_mergeAll (h : ∀ a ∈ as, Reachable a) :
    (mergeAll as).headers.names.eraseDups = (as.flatMap fun a => a.headers.names).eraseDups := by
  induction as using List.reverseRecOn with
  | nil => rfl
  | append_singleton rest a ih =>
    have ⟨hrest, ha⟩ := List.forall_mem_append.mp h
    have ha := ha a (List.mem_singleton_self a)
    rw [mergeAll_concat, headers_merge,
      HeaderSet.eraseDups_names_merge (tidy_mergeAll rest) ha.tidy,
      eraseDups_append_congr (ih hrest), List.flatMap_append, List.flatMap_singleton]

/-- What a response takes from each of several others, if they were laid one over the other. -/
structure ComposedOf (result : Accumulator) (as : List Accumulator) : Prop where
  status : result.status = (as.filterMap (·.status)).getLast?
  chunked : result.chunked = (as.filterMap (·.chunked)).getLast?
  delay : result.delay = (as.filterMap (·.delay)).getLast?
  body : result.body = ((as.map (·.body)).filter (!·.isEmpty)).getLast?.getD .empty
  modified : result.modified = as.any (·.modified)
  single : ∀ n : HeaderName, n.isMultiValued = false → ∀ a ∈ as, n ∉ a.headers.declared →
    a.headers.getAll n = (a.headers.get? n).toList
  undeclared : ∀ n : HeaderName, n.isMultiValued = false → (∀ a ∈ as, n ∉ a.headers.declared) →
    result.headers.getAll n = (as.filterMap fun a => a.headers.get? n).getLast?.toList
  declared : ∀ n : HeaderName, n.isMultiValued = false → ∀ before a after,
    as = before ++ a :: after → (∀ b ∈ before, n ∉ b.headers.declared) → n ∈ a.headers.declared →
      result.headers.getAll n
        = (before.filterMap fun b => b.headers.get? n).getLast?.toList
          ++ (a :: after).flatMap fun b => b.headers.getAll n
  multiValued : ∀ n : HeaderName, n.isMultiValued = true →
    result.headers.getAll n = as.flatMap fun a => a.headers.getAll n
  /-- Each name comes where it first appears. -/
  order : result.headers.names.eraseDups = (as.flatMap fun a => a.headers.names).eraseDups

/-- However many responses are laid one over the other, this is what comes of them. -/
theorem mergeAll_composedOf (h : ∀ a ∈ as, Reachable a) : (mergeAll as).ComposedOf as where
  status := mergeAll_eq_getLast? (f := (·.status)) rfl status_merge as
  chunked := mergeAll_eq_getLast? (f := (·.chunked)) rfl chunked_merge as
  delay := mergeAll_eq_getLast? (f := (·.delay)) rfl delay_merge as
  body := body_mergeAll as
  modified := modified_mergeAll as
  single n hn a ha hundeclared :=
    (h a ha).tidy.getAll_eq (HeaderSet.isRepeatable_eq_false_iff.mpr ⟨hn, hundeclared⟩)
  undeclared n hn has := getAll_mergeAll_of_undeclared hn has
  declared n hn before a after heq hbefore ha := by
    rw [heq]
    exact getAll_mergeAll_of_declared hn hbefore ha
  multiValued n hn := getAll_mergeAll_of_multiValued hn as
  order := eraseDups_names_mergeAll h

/-- A tag that is replaced, one that the declaration keeps, and those from there on. -/
def tags : List Accumulator := [tagged 1, tagged 2, repeating, tagged 3]

theorem composed_of_tags :
    (mergeAll tags).headers.getAll tag
      = [.ofNat 2, ⟨Utf8.encode "a", by decide⟩, .ofNat 3] ∧
    (mergeAll (tags.take 2)).headers.getAll tag = [.ofNat 2] := by
  have hreachable : ∀ a ∈ tags, Reachable a := by
    simp [tags, reachable_tagged, reachable_repeating]
  have hall := mergeAll_composedOf hreachable
  have hfirst := @mergeAll_composedOf (tags.take 2) fun a ha =>
    hreachable a (List.mem_of_mem_take ha)
  refine ⟨?_, ?_⟩
  . rw [hall.declared tag (by decide) [tagged 1, tagged 2] repeating [tagged 3] rfl (by decide)
      (by decide)]
    rfl
  . rw [hfirst.undeclared tag (by decide) (by decide)]
    rfl

end Accumulator
end PageDispatch
