import Mathlib.Algebra.BigOperators.Finprod
import Mathlib.Data.List.Duplicate
import PageDispatch.Proofs.Response.Closing
import PageDispatch.Proofs.Response.Succession

/-!
This module contains what a header set stands for: a map from names to lists of values. Whatever is
written to a set is written to its map, and whatever is asked of it is answered from there. In the
sets of responses in the making, only names that are repeatable have several values.
-/

namespace PageDispatch

/-- The values of every name, in order, and which names add up instead of being replaced. -/
@[ext]
structure HeaderMap where
  values : HeaderName → List HeaderValue
  repeatable : HeaderName → Bool

/-- What can be written to a header set. -/
inductive HeaderEdit where
  | insert (name : HeaderName) (value : HeaderValue)
  | set (name : HeaderName) (value : HeaderValue)
  | append (name : HeaderName) (value : HeaderValue)
  | appendRepeatable (name : HeaderName) (value : HeaderValue)
  | erase (name : HeaderName)
  | merge (other : HeaderSet)

/-- The one name that an edit is about, unless it merges another set. -/
def HeaderEdit.name? : HeaderEdit → Option HeaderName
  | insert name _ | set name _ | append name _ | appendRepeatable name _ | erase name => some name
  | merge _ => none

/-- Whether a value is of visible ASCII, blanks and tabs, and what it says then. -/
def HeaderValue.Says (v : HeaderValue) (text : String) : Prop :=
  (∀ b ∈ v.bytes, (32 ≤ b ∧ b < 127) ∨ b = 9) ∧ text = String.ofList (v.bytes.map charOf)

namespace HeaderMap

def empty : HeaderMap := ⟨fun _ => [], HeaderName.isMultiValued⟩

def assign (m : HeaderMap) (name : HeaderName) (values : List HeaderValue) : HeaderMap :=
  { m with values := Function.update m.values name values }

def insert (m : HeaderMap) (name : HeaderName) (value : HeaderValue) : HeaderMap :=
  m.assign name ((if m.repeatable name then m.values name else []) ++ [value])

def append (m : HeaderMap) (name : HeaderName) (value : HeaderValue) : HeaderMap :=
  m.assign name (m.values name ++ [value])

def adopt (m : HeaderMap) (name : HeaderName) : HeaderMap :=
  { m with repeatable := Function.update m.repeatable name true }

def edit (m : HeaderMap) : HeaderEdit → HeaderMap
  | .insert name value => m.insert name value
  | .set name value => m.assign name [value]
  | .append name value => m.append name value
  | .appendRepeatable name value => (m.adopt name).append name value
  | .erase name => m.assign name []
  | .merge other =>
    other.entries.foldl (fun m (name, value) => m.insert name value) (other.declared.foldl adopt m)

end HeaderMap

namespace HeaderSet

variable {h h' : HeaderSet} {name n : HeaderName}

def edit (h : HeaderSet) : HeaderEdit → HeaderSet
  | .insert name value => h.insert name value
  | .set name value => h.set name value
  | .append name value => h.append name value
  | .appendRepeatable name value => h.appendRepeatable name value
  | .erase name => h.erase name
  | .merge other => h.merge other

/-- The set that comes of some edits. -/
def edited (edits : List HeaderEdit) : HeaderSet := edits.foldl edit empty

def toMap (h : HeaderSet) : HeaderMap := ⟨h.getAll, h.isRepeatable⟩

section Edits

theorem toMap_eq_assign {values : List HeaderValue}
    (hd : h'.declared = h.declared)
    (hv : ∀ n, h'.getAll n = if name = n then values else h.getAll n) :
    h'.toMap = h.toMap.assign name values := by
  apply HeaderMap.ext
  case values =>
    funext n
    refine (hv n).trans ?_
    unfold HeaderMap.assign
    dsimp only
    rw [Function.update_apply]
    simp only [eq_comm, toMap]
  case repeatable => exact funext (isRepeatable_congr hd)

theorem toMap_set (h : HeaderSet) (name : HeaderName) (value : HeaderValue) :
    (h.set name value).toMap = h.toMap.assign name [value] :=
  toMap_eq_assign (declared_set h name value) fun n => getAll_set h name n value

theorem toMap_append (h : HeaderSet) (name : HeaderName) (value : HeaderValue) :
    (h.append name value).toMap = h.toMap.append name value := by
  apply toMap_eq_assign (declared_append h name value)
  intro n
  rw [getAll_append]
  split
  . next heq => rw [heq]; rfl
  . rfl

theorem toMap_insert (h : HeaderSet) (name : HeaderName) (value : HeaderValue) :
    (h.insert name value).toMap = h.toMap.insert name value := by
  apply toMap_eq_assign (declared_insert h name value)
  intro n
  rw [getAll_insert]
  split
  . next heq => rw [heq]; rfl
  . rfl

theorem toMap_erase (h : HeaderSet) (name : HeaderName) :
    (h.erase name).toMap = h.toMap.assign name [] :=
  toMap_eq_assign (declared_erase h name) fun n => getAll_erase h name n

theorem toMap_declare (h : HeaderSet) (name : HeaderName) :
    (h.declare name).toMap = h.toMap.adopt name := by
  apply HeaderMap.ext
  case values => exact funext fun n => getAll_declare h name n
  case repeatable =>
    funext n
    refine (isRepeatable_declare h name n).trans ?_
    unfold HeaderMap.adopt
    dsimp only
    rw [Function.update_apply]
    cases Decidable.em (name = n) with
    | inl heq => simp [heq]
    | inr hne => simp [hne, Ne.symm hne, toMap]

theorem toMap_foldl_declare (h : HeaderSet) (names : List HeaderName) :
    (names.foldl declare h).toMap = names.foldl HeaderMap.adopt h.toMap := by
  induction names generalizing h with
  | nil => rfl
  | cons name rest ih => rw [List.foldl_cons, List.foldl_cons, ih, toMap_declare]

theorem toMap_foldl_insert (h : HeaderSet) (entries : List (HeaderName × HeaderValue)) :
    (entries.foldl (fun h (name, value) => h.insert name value) h).toMap
      =
    entries.foldl (fun m (name, value) => m.insert name value) h.toMap := by
  induction entries generalizing h with
  | nil => rfl
  | cons entry rest ih => rw [List.foldl_cons, List.foldl_cons, ih, toMap_insert]

/-- An edit of a set is the same edit of its map. -/
theorem toMap_edit (h : HeaderSet) (e : HeaderEdit) : (h.edit e).toMap = h.toMap.edit e := by
  cases e with
  | insert name value => exact toMap_insert h name value
  | set name value => exact toMap_set h name value
  | append name value => exact toMap_append h name value
  | appendRepeatable name value =>
    refine (toMap_append (h.declare name) name value).trans ?_
    rw [toMap_declare]
    rfl
  | erase name => exact toMap_erase h name
  | merge other =>
    refine (toMap_foldl_insert _ other.entries).trans ?_
    rw [toMap_foldl_declare]
    rfl

theorem toMap_foldl_edit (h : HeaderSet) (edits : List HeaderEdit) :
    (edits.foldl edit h).toMap = edits.foldl HeaderMap.edit h.toMap := by
  induction edits generalizing h with
  | nil => rfl
  | cons e rest ih => rw [List.foldl_cons, List.foldl_cons, ih, toMap_edit]

theorem toMap_empty : empty.toMap = .empty := by
  apply HeaderMap.ext
  case values => rfl
  case repeatable => exact funext fun n => Bool.or_false _

theorem toMap_edited (edits : List HeaderEdit) :
    (edited edits).toMap = edits.foldl HeaderMap.edit .empty := by
  rw [← toMap_empty]
  exact toMap_foldl_edit empty edits

end Edits

section Lookups

/-- The value that counts is the first one from behind. -/
theorem get?_eq_find? (h : HeaderSet) (name : HeaderName) :
    h.get? name = (h.entries.reverse.find? (·.1 = name)).map (·.2) := by
  unfold get? getAll
  rw [List.getLast?_map, List.getLast?_eq_head?_reverse, ← List.filter_reverse, List.head?_filter]

theorem parse_eq_ok_iff {s : String} :
    HeaderName.parse s = .ok name ↔ Lowercase.lowerAscii s = name.text := by
  unfold HeaderName.parse
  dsimp only
  constructor
  . intro h
    split at h
    . cases h
      rfl
    . cases h
  . intro h
    have hvalid : isHeaderName (Lowercase.lowerAscii s) = true := h ▸ name.valid
    refine (dif_pos hvalid).trans ?_
    congr 1
    cases name
    congr

theorem text_inj : n.text = name.text ↔ n = name := by
  cases n
  cases name
  rw [HeaderName.mk.injEq]

theorem toText_eq_ok_iff {v : HeaderValue} {text : String} :
    v.toText = .ok text ↔ v.Says text := by
  have hvisible : v.bytes.all Http.isVisibleByte = true
      ↔ ∀ b ∈ v.bytes, (32 ≤ b ∧ b < 127) ∨ b = 9 := by
    simp [Http.isVisibleByte]
  unfold HeaderValue.toText HeaderValue.Says
  rw [← hvisible]
  constructor
  . intro h
    split at h
    . next hall =>
      cases h
      exact ⟨hall, rfl⟩
    . cases h
  . rintro ⟨hall, rfl⟩
    exact if_pos hall

/-- A text that names a header, in any letter case, is looked up as that name. -/
theorem getText?_of_parse {s : String} (hs : HeaderName.parse s = .ok name) (h : HeaderSet) :
    h.getText? s = (h.get? name).bind fun v => v.toText.toOption := by
  unfold getText? get? getAll
  simp only [parse_eq_ok_iff.mp hs, text_inj]
  rw [List.getLast?_map, Option.bind_map]
  rfl

theorem getText?_eq_some_iff {s text : String} (hs : HeaderName.parse s = .ok name) :
    h.getText? s = some text ↔ ∃ v, h.get? name = some v ∧ v.Says text := by
  have htext : ∀ v : HeaderValue, v.toText.toOption = some text ↔ v.Says text := by
    intro v
    rw [← toText_eq_ok_iff]
    cases v.toText <;> simp [Except.toOption]
  rw [getText?_of_parse hs, Option.bind_eq_some_iff]
  simp only [htext]

theorem getText?_of_not_parse {s : String} {e : Http.Malformed}
    (hs : HeaderName.parse s = .error e) (h : HeaderSet) : h.getText? s = none := by
  have hnone : h.entries.filter (fun e => e.1.text = Lowercase.lowerAscii s) = [] := by
    rw [List.filter_eq_nil_iff]
    intro entry _ htext
    rw [parse_eq_ok_iff.mpr (of_decide_eq_true htext).symm] at hs
    cases hs
  unfold getText?
  dsimp only
  rw [hnone]
  rfl

theorem count_names (h : HeaderSet) (name : HeaderName) :
    h.names.count name = (h.getAll name).length := by
  unfold names getAll
  rw [List.length_map, List.count_eq_countP, List.countP_map, List.countP_eq_length_filter]
  congr 1

/-- A set has as many entries as its names have values. -/
theorem size_eq_finsum (h : HeaderSet) : h.size = ∑ᶠ name, (h.getAll name).length := by
  have hsupport : (Function.support fun name => (h.getAll name).length) ⊆ ↑h.names.toFinset := by
    intro name hname
    rw [List.coe_toFinset]
    refine List.count_pos_iff.mp ?_
    rw [count_names]
    exact Nat.pos_of_ne_zero hname
  calc h.size
    _ = h.names.length := (List.length_map _).symm
    _ = ∑ name ∈ h.names.toFinset, h.names.count name := h.names.sum_toFinset_count_eq_length.symm
    _ = ∑ name ∈ h.names.toFinset, (h.getAll name).length := by simp only [count_names]
    _ = ∑ᶠ name, (h.getAll name).length := (finsum_eq_sum_of_support_subset _ hsupport).symm

/-- What is asked of a header set, as it is answered by a map. -/
structure Reads (h : HeaderSet) (m : HeaderMap) : Prop where
  getAll : ∀ n, h.getAll n = m.values n
  isRepeatable : ∀ n, h.isRepeatable n = m.repeatable n
  get? : ∀ n, h.get? n = (m.values n).getLast?
  contains : ∀ n, h.contains n = true ↔ m.values n ≠ []
  count : ∀ n, h.count n = (m.values n).length
  size : h.size = ∑ᶠ n, (m.values n).length
  getText? : ∀ n s, HeaderName.parse s = .ok n → ∀ text, h.getText? s = some text ↔
    ∃ v, (m.values n).getLast? = some v ∧ v.Says text
  unnamed : ∀ s e, HeaderName.parse s = .error e → h.getText? s = none

theorem reads_toMap (h : HeaderSet) : h.Reads h.toMap where
  getAll _ := rfl
  isRepeatable _ := rfl
  get? _ := rfl
  contains n := by
    rw [← Bool.not_eq_false, contains_eq_false_iff]
    rfl
  count n := count_eq_length_getAll h n
  size := size_eq_finsum h
  getText? n s hs text := getText?_eq_some_iff hs
  unnamed s e hs := getText?_of_not_parse hs h

end Lookups

section Frame

theorem filter_ne_replace (name : HeaderName) (value : HeaderValue)
    (entries : List (HeaderName × HeaderValue)) :
    (replace name value entries).filter (·.1 ≠ name) = entries.filter (·.1 ≠ name) := by
  induction entries with
  | nil => simp [replace]
  | cons entry rest ih =>
    unfold replace
    split
    . next heq =>
      rw [List.filter_cons_of_neg (by simp), List.filter_cons_of_neg (by simpa using heq),
        List.filter_filter]
      simp only [Bool.and_self]
    . rw [List.filter_cons, List.filter_cons, ih]

theorem filter_ne_set (h : HeaderSet) (name : HeaderName) (value : HeaderValue) :
    (h.set name value).entries.filter (·.1 ≠ name) = h.entries.filter (·.1 ≠ name) :=
  filter_ne_replace name value h.entries

theorem filter_ne_append (h : HeaderSet) (name : HeaderName) (value : HeaderValue) :
    (h.append name value).entries.filter (·.1 ≠ name) = h.entries.filter (·.1 ≠ name) := by
  rw [entries_append, List.filter_append, List.filter_cons_of_neg (by simp), List.filter_nil,
    List.append_nil]

/-- What is written to one name leaves the entries of all others as they are, in their order. -/
theorem filter_ne_edit {e : HeaderEdit} (he : e.name? = some name) (h : HeaderSet) :
    (h.edit e).entries.filter (·.1 ≠ name) = h.entries.filter (·.1 ≠ name) := by
  cases e with
  | insert other value =>
    cases he
    unfold edit insert
    dsimp only
    split
    . exact filter_ne_append h name value
    . exact filter_ne_set h name value
  | set other value =>
    cases he
    exact filter_ne_set h name value
  | append other value =>
    cases he
    exact filter_ne_append h name value
  | appendRepeatable other value =>
    cases he
    refine (filter_ne_append (h.declare name) name value).trans ?_
    rw [entries_declare]
  | erase other =>
    cases he
    unfold edit erase
    dsimp only
    rw [List.filter_filter]
    simp only [Bool.and_self]
  | merge other => cases he

theorem getAll_of_filter_ne
    (heq : h'.entries.filter (·.1 ≠ name) = h.entries.filter (·.1 ≠ name)) (hn : n ≠ name) :
    h'.getAll n = h.getAll n := by
  have hothers : ∀ h : HeaderSet,
      h.entries.filter (·.1 = n) = (h.entries.filter (·.1 ≠ name)).filter (·.1 = n) := by
    intro h
    rw [List.filter_filter]
    apply List.filter_congr
    intro e _
    cases Decidable.em (e.1 = n) with
    | inl hen => simp [hen, hn]
    | inr hen => simp [hen]
  rw [getAll, hothers, heq, ← hothers]
  rfl

/-- As many entries are gone as were counted. -/
theorem count_add_size_erase (h : HeaderSet) (name : HeaderName) :
    h.count name + (h.erase name).size = h.size := by
  unfold count erase size
  rw [h.entries.length_eq_length_filter_add fun e => decide (e.1 = name)]
  simp only [ne_eq, decide_not]

end Frame

/--
A header set is a map from names to lists of values. Whatever was written to it, all that can be
asked of it is answered as by the map that the same was written to: an insertion adds a value to a
repeatable name and replaces those of another one, and a merge adopts the repeatable names of the
other set before it inserts its entries. Looking for a name from behind finds its last value. What
is written to one name leaves all other entries as they are, and a removal drops as many entries as
there were values.
-/
theorem refines_map (edits : List HeaderEdit) :
    (edited edits).Reads (edits.foldl HeaderMap.edit .empty) ∧
    (∀ name, (edited edits).get? name
      = ((edited edits).entries.reverse.find? (·.1 = name)).map (·.2)) ∧
    (∀ e name, e.name? = some name →
      ((edited edits).edit e).entries.filter (·.1 ≠ name)
        = (edited edits).entries.filter (·.1 ≠ name) ∧
      ∀ n, n ≠ name → ((edited edits).edit e).getAll n = (edited edits).getAll n) ∧
    (∀ name, (edited edits).count name + ((edited edits).erase name).size
      = (edited edits).size) := by
  refine ⟨?_, get?_eq_find? _, ?_, count_add_size_erase _⟩
  . rw [← toMap_edited]
    exact reads_toMap _
  . intro e name he
    have hframe := filter_ne_edit he (edited edits)
    exact ⟨hframe, fun n hn => getAll_of_filter_ne hframe hn⟩

/-- A name that was appended to twice, and another one in between. -/
def doubling : List HeaderEdit :=
  [.append Accumulator.tag (.ofNat 1), .append .location (.ofNat 7),
    .append Accumulator.tag (.ofNat 2)]

theorem map_of_doubling :
    (edited doubling).getText? "X-Tag" = some "2" ∧
    (edited (doubling ++ [.insert Accumulator.tag (.ofNat 3)])).getAll Accumulator.tag
      = [.ofNat 3] ∧
    ((edited doubling).edit (.insert Accumulator.tag (.ofNat 3))).getAll .location
      = [.ofNat 7] := by
  obtain ⟨hreads, -, hframe, -⟩ := refines_map doubling
  obtain ⟨hinserted, -⟩ := refines_map (doubling ++ [.insert Accumulator.tag (.ofNat 3)])
  refine ⟨?_, ?_, ?_⟩
  . refine (hreads.getText? Accumulator.tag "X-Tag" rfl "2").mpr ⟨.ofNat 2, rfl, ?_⟩
    exact toText_eq_ok_iff.mp rfl
  . rw [hinserted.getAll]
    rfl
  . rw [(hframe (.insert Accumulator.tag (.ofNat 3)) _ rfl).2 .location (by decide)]
    rfl

theorem eq_of_count_le_one {l : List HeaderName} (hcount : l.count n ≤ 1) {i j : Nat}
    (hi : l[i]? = some n) (hj : l[j]? = some n) : i = j := by
  wlog hle : i ≤ j
  . exact (this hcount hj hi (by omega)).symm
  by_contra hne
  obtain ⟨hilt, hieq⟩ := List.getElem?_eq_some_iff.mp hi
  obtain ⟨hjlt, hjeq⟩ := List.getElem?_eq_some_iff.mp hj
  have hlt : (⟨i, hilt⟩ : Fin l.length) < ⟨j, hjlt⟩ := Nat.lt_of_le_of_ne hle hne
  have htwice : List.Duplicate n l :=
    List.duplicate_iff_exists_distinct_get.mpr ⟨_, _, hlt, hieq.symm, hjeq.symm⟩
  rw [List.duplicate_iff_two_le_count] at htwice
  omega

/-- In a tidy set, two entries of a name that is not repeatable are one and the same. -/
theorem Tidy.eq_of_getElem? (hh : h.Tidy) {i j : Nat} {e f : HeaderName × HeaderValue}
    (hi : h.entries[i]? = some e) (hj : h.entries[j]? = some f) (heq : e.1 = f.1)
    (hr : h.isRepeatable e.1 = false) : i = j := by
  have hunique := hh.unique e.1 hr
  rw [count_eq_length_getAll, ← count_names] at hunique
  apply eq_of_count_le_one hunique
  . rw [names, List.getElem?_map, hi]
    rfl
  . rw [names, List.getElem?_map, hj, heq]
    rfl

end HeaderSet

namespace Accumulator

variable {a : Accumulator}

/--
Whatever was written to a response in the making, and laid over it, each name has one entry at most,
unless it is multi-valued by itself or was declared to be repeatable, and no name is declared twice
or without need. So it is in the response that is made of it.
-/
theorem Reachable.headers_unique (h : Reachable a) :
    ∀ headers ∈ [a.headers, a.toResponse.headers],
      (∀ (i j : Nat) e f, headers.entries[i]? = some e → headers.entries[j]? = some f →
        e.1 = f.1 → e.1.isMultiValued = false → e.1 ∉ headers.declared → i = j) ∧
      headers.declared.Nodup ∧
      ∀ name ∈ headers.declared, name.isMultiValued = false := by
  have hsame : ∀ headers ∈ [a.headers, a.toResponse.headers], headers.Tidy := by
    intro headers hmem
    simp only [List.mem_cons, List.not_mem_nil, or_false] at hmem
    obtain rfl | rfl := hmem
    . exact h.tidy
    . exact h.tidy
  intro headers hmem
  have htidy := hsame headers hmem
  refine ⟨?_, htidy.nodup, htidy.singular⟩
  intro i j e f hi hj heq hmulti hundeclared
  apply htidy.eq_of_getElem? hi hj heq
  exact HeaderSet.isRepeatable_eq_false_iff.mpr ⟨hmulti, hundeclared⟩

/-- A single tag and a place, under a tag that is declared to be repeatable. -/
def placed : Accumulator := ((tagged 1).insertRaw .location (.ofNat 7)).merge repeating

theorem headers_unique_of_placed :
    placed.toResponse.headers.declared = [tag] ∧
    tag.isMultiValued = false ∧
    ∀ (i : Nat) f, placed.toResponse.headers.entries[i]? = some f → f.1 = .location → i = 1 := by
  have hplaced : Reachable placed :=
    ((reachable_tagged 1).insertRaw .location (.ofNat 7)).merge reachable_repeating
  obtain ⟨hunique, -, hsingular⟩ := hplaced.headers_unique placed.toResponse.headers (by simp)
  refine ⟨rfl, hsingular tag (by decide), ?_⟩
  intro i f hi hf
  have hlocation : placed.toResponse.headers.entries[1]? = some (.location, .ofNat 7) := rfl
  exact hunique i 1 f _ hi hlocation hf (by rw [hf]; decide) (by rw [hf]; decide)

end Accumulator
end PageDispatch
