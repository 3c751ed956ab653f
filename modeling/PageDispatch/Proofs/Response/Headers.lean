import Mathlib.Data.List.Induction
import PageDispatch.Http.HeaderSet

/-!
This module contains the theory of header sets: what the operations do to the values of each name,
the sets that can be built, and which entries a merge leaves in which places.
-/

namespace PageDispatch
namespace HeaderSet

variable {h other : HeaderSet} {name n : HeaderName} {value : HeaderValue}

theorem count_eq_length_getAll (h : HeaderSet) (name : HeaderName) :
    h.count name = (h.getAll name).length := by
  rw [count, getAll, List.length_map]

theorem contains_eq_false_iff : h.contains name = false ↔ h.getAll name = [] := by
  simp [contains, getAll, List.filter_eq_nil_iff]

theorem get?_eq_none_of_not_contains (hc : h.contains name = false) : h.get? name = none := by
  rw [get?, contains_eq_false_iff.mp hc]
  rfl

theorem exists_get?_of_contains (hc : h.contains name = true) : ∃ v, h.get? name = some v := by
  cases hget : h.get? name with
  | some v => exact ⟨v, rfl⟩
  | none =>
    rw [get?, List.getLast?_eq_none_iff, ← contains_eq_false_iff, hc] at hget
    contradiction

theorem contains_of_mem {e : HeaderName × HeaderValue} (he : e ∈ h.entries) :
    h.contains e.1 = true :=
  List.any_eq_true.mpr ⟨e, he, decide_eq_true rfl⟩

theorem getAll_append (h : HeaderSet) (name n : HeaderName) (value : HeaderValue) :
    (h.append name value).getAll n = if name = n then h.getAll n ++ [value] else h.getAll n := by
  unfold getAll append
  rw [List.filter_append, List.map_append]
  split
  . next heq => simp [heq]
  . next hne => simp [hne]

theorem filter_replace (name : HeaderName) (value : HeaderValue)
    (entries : List (HeaderName × HeaderValue)) :
    (replace name value entries).filter (·.1 = name) = [(name, value)] := by
  induction entries with
  | nil => simp [replace]
  | cons entry rest ih =>
    unfold replace
    split
    . next heq =>
      have hrest : (rest.filter (·.1 ≠ name)).filter (·.1 = name) = [] := by
        rw [List.filter_filter, List.filter_eq_nil_iff]
        intro e _
        simp
      rw [List.filter_cons_of_pos (by simp), hrest]
    . next hne =>
      rw [List.filter_cons_of_neg (by simpa using hne)]
      exact ih

theorem filter_replace_of_ne (hne : name ≠ n) (value : HeaderValue)
    (entries : List (HeaderName × HeaderValue)) :
    (replace name value entries).filter (·.1 = n) = entries.filter (·.1 = n) := by
  induction entries with
  | nil => simp [replace, hne]
  | cons entry rest ih =>
    unfold replace
    split
    . next heq =>
      rw [List.filter_cons_of_neg (by simpa using hne),
        List.filter_cons_of_neg (by simpa [heq] using hne), List.filter_filter]
      apply List.filter_congr
      intro e _
      cases Decidable.em (e.1 = n) with
      | inl hen => simp [hen, Ne.symm hne]
      | inr hen => simp [hen]
    . rw [List.filter_cons, List.filter_cons, ih]

theorem getAll_set (h : HeaderSet) (name n : HeaderName) (value : HeaderValue) :
    (h.set name value).getAll n = if name = n then [value] else h.getAll n := by
  unfold getAll set
  split
  . next heq =>
    subst heq
    rw [filter_replace]
    rfl
  . next hne => rw [filter_replace_of_ne hne]

theorem getAll_insert (h : HeaderSet) (name n : HeaderName) (value : HeaderValue) :
    (h.insert name value).getAll n
      =
    if name = n then (if h.isRepeatable name then h.getAll n else []) ++ [value]
    else h.getAll n := by
  unfold insert
  split
  . rw [getAll_append]
  . rw [getAll_set]
    rfl

theorem getAll_erase (h : HeaderSet) (name n : HeaderName) :
    (h.erase name).getAll n = if name = n then [] else h.getAll n := by
  unfold getAll erase
  dsimp only
  rw [List.filter_filter]
  split
  . next heq => simp [heq]
  . next hne =>
    congr 1
    apply List.filter_congr
    intro e _
    cases Decidable.em (e.1 = n) with
    | inl hen => simp [hen, Ne.symm hne]
    | inr hen => simp [hen]

@[simp]
theorem getAll_declare (h : HeaderSet) (name n : HeaderName) :
    (h.declare name).getAll n = h.getAll n := by
  rw [getAll, entries_declare]
  rfl

theorem isRepeatable_congr (hd : h.declared = other.declared) (n : HeaderName) :
    h.isRepeatable n = other.isRepeatable n := by
  rw [isRepeatable, hd]
  rfl

theorem isRepeatable_declare (h : HeaderSet) (name n : HeaderName) :
    (h.declare name).isRepeatable n = (h.isRepeatable n || decide (name = n)) := by
  unfold declare
  split
  . next hr =>
    cases Decidable.em (name = n) with
    | inl heq => simp [← heq, hr]
    | inr hne => simp [hne]
  . simp only [isRepeatable, List.contains_append, Bool.or_assoc]
    congr 2
    simp [eq_comm]

theorem isRepeatable_foldl_declare (h : HeaderSet) (names : List HeaderName) (n : HeaderName) :
    (names.foldl declare h).isRepeatable n = (h.isRepeatable n || names.contains n) := by
  induction names generalizing h with
  | nil => simp
  | cons name rest ih =>
    rw [List.foldl_cons, ih, isRepeatable_declare, List.contains_cons, Bool.or_assoc]
    congr 2
    rw [Bool.beq_eq_decide_eq, decide_eq_decide]
    exact eq_comm

theorem declared_foldl_insert (h : HeaderSet) (entries : List (HeaderName × HeaderValue)) :
    (entries.foldl (fun h (name, value) => h.insert name value) h).declared = h.declared := by
  induction entries generalizing h with
  | nil => rfl
  | cons entry rest ih => rw [List.foldl_cons, ih, declared_insert]

theorem isRepeatable_foldl_insert (h : HeaderSet) (entries : List (HeaderName × HeaderValue))
    (n : HeaderName) :
    (entries.foldl (fun h (name, value) => h.insert name value) h).isRepeatable n
      =
    h.isRepeatable n :=
  isRepeatable_congr (declared_foldl_insert h entries) n

theorem isRepeatable_merge (h other : HeaderSet) (n : HeaderName) :
    (h.merge other).isRepeatable n = (h.isRepeatable n || other.isRepeatable n) := by
  unfold merge
  rw [isRepeatable_foldl_insert, isRepeatable_foldl_declare]
  unfold isRepeatable
  cases n.isMultiValued <;> simp

theorem getAll_foldl_insert (h : HeaderSet) (entries : List (HeaderName × HeaderValue))
    (n : HeaderName) :
    (entries.foldl (fun h (name, value) => h.insert name value) h).getAll n
      =
    if h.isRepeatable n then h.getAll n ++ (entries.filter (·.1 = n)).map (·.2)
    else (((entries.filter (·.1 = n)).map (·.2)).getLast?.map fun v => [v]).getD (h.getAll n) := by
  induction entries using List.reverseRecOn with
  | nil => simp
  | append_singleton rest entry ih =>
    obtain ⟨name, value⟩ := entry
    rw [List.foldl_append, List.foldl_cons, List.foldl_nil, getAll_insert,
      isRepeatable_foldl_insert, ih, List.filter_append, List.map_append]
    split
    . next heq =>
      subst heq
      cases h.isRepeatable name <;> simp
    . next hne => simp [hne]

theorem getAll_merge (h other : HeaderSet) (n : HeaderName) :
    (h.merge other).getAll n
      =
    if h.isRepeatable n || other.isRepeatable n then h.getAll n ++ other.getAll n
    else ((other.get? n).map fun v => [v]).getD (h.getAll n) := by
  have hentries : (other.declared.foldl declare h).getAll n = h.getAll n := by
    rw [getAll, entries_foldl_declare]
    rfl
  rw [← isRepeatable_merge]
  unfold merge
  rw [getAll_foldl_insert, hentries, isRepeatable_foldl_insert]
  rfl

theorem get?_merge (hn : (h.merge other).isRepeatable n = false) :
    (h.merge other).get? n = (other.get? n).or (h.get? n) := by
  rw [isRepeatable_merge] at hn
  rw [get?, getAll_merge, if_neg (by simp [hn])]
  cases other.get? n <;> rfl

theorem declared_foldl_declare (h : HeaderSet) {names : List HeaderName} (hnodup : names.Nodup) :
    (names.foldl declare h).declared
      =
    h.declared ++ names.filter fun n => !h.isRepeatable n := by
  induction names generalizing h with
  | nil => simp
  | cons name rest ih =>
    have ⟨hname, hrest⟩ := List.nodup_cons.mp hnodup
    have hfilter : rest.filter (fun n => !(h.declare name).isRepeatable n)
          =
        rest.filter fun n => !h.isRepeatable n := by
      apply List.filter_congr
      intro n hn
      have hne : name ≠ n := fun heq => hname (heq ▸ hn)
      rw [isRepeatable_declare, decide_eq_false hne, Bool.or_false]
    rw [List.foldl_cons, ih _ hrest, hfilter]
    unfold declare
    cases hr : h.isRepeatable name <;> simp [hr]

/--
Whether no name is declared twice or without need, and every name that is not repeatable has one
entry at most.
-/
structure Tidy (h : HeaderSet) : Prop where
  nodup : h.declared.Nodup
  singular : ∀ name ∈ h.declared, name.isMultiValued = false
  unique : ∀ name, h.isRepeatable name = false → h.count name ≤ 1

theorem tidy_empty : empty.Tidy where
  nodup := List.nodup_nil
  singular := nofun
  unique _ _ := Nat.zero_le 1

theorem declared_merge (ho : other.Tidy) :
    (h.merge other).declared = h.declared ++ other.declared.filter fun n => !h.isRepeatable n := by
  unfold merge
  rw [declared_foldl_insert, declared_foldl_declare h ho.nodup]

/-- A set is still tidy if it has the same declarations and no name has more entries than before. -/
theorem Tidy.of_getAll (hh : h.Tidy) (hd : other.declared = h.declared)
    (hcount : ∀ n, h.isRepeatable n = false →
      other.getAll n = h.getAll n ∨ (other.getAll n).length ≤ 1) :
    other.Tidy where
  nodup := hd ▸ hh.nodup
  singular := hd ▸ hh.singular
  unique n hn := by
    rw [isRepeatable_congr hd] at hn
    rw [count_eq_length_getAll]
    cases hcount n hn with
    | inl heq =>
      rw [heq, ← count_eq_length_getAll]
      exact hh.unique n hn
    | inr hle => exact hle

theorem Tidy.set (hh : h.Tidy) (name : HeaderName) (value : HeaderValue) :
    (h.set name value).Tidy := by
  apply hh.of_getAll (declared_set h name value)
  intro n _
  rw [getAll_set]
  split
  . exact .inr (Nat.le_refl 1)
  . exact .inl rfl

theorem Tidy.append (hh : h.Tidy) (hname : h.isRepeatable name = true) (value : HeaderValue) :
    (h.append name value).Tidy := by
  apply hh.of_getAll (declared_append h name value)
  intro n hn
  rw [getAll_append, if_neg]
  . exact .inl rfl
  . intro heq
    rw [← heq, hname] at hn
    contradiction

theorem Tidy.insert (hh : h.Tidy) (name : HeaderName) (value : HeaderValue) :
    (h.insert name value).Tidy := by
  unfold HeaderSet.insert
  split
  . next hr => exact hh.append hr value
  . exact hh.set name value

theorem Tidy.erase (hh : h.Tidy) (name : HeaderName) : (h.erase name).Tidy := by
  apply hh.of_getAll (declared_erase h name)
  intro n _
  rw [getAll_erase]
  split
  . exact .inr (Nat.zero_le 1)
  . exact .inl rfl

theorem Tidy.declare (hh : h.Tidy) (name : HeaderName) : (h.declare name).Tidy := by
  cases hr : h.isRepeatable name with
  | true =>
    rw [HeaderSet.declare, if_pos hr]
    exact hh
  | false =>
    have ⟨hmulti, hnot⟩ := Bool.or_eq_false_iff.mp hr
    have hd : (h.declare name).declared = h.declared ++ [name] := by
      rw [HeaderSet.declare, if_neg (by simp [hr])]
    constructor
    case nodup =>
      rw [hd]
      refine List.nodup_append.mpr ⟨hh.nodup, by simp, ?_⟩
      rintro n hn _ hm rfl
      rw [List.mem_singleton.mp hm] at hn
      simp [hn] at hnot
    case singular =>
      intro n hn
      rw [hd, List.mem_append, List.mem_singleton] at hn
      cases hn with
      | inl hold => exact hh.singular n hold
      | inr hnew => exact hnew ▸ hmulti
    case unique =>
      intro n hn
      rw [isRepeatable_declare] at hn
      rw [count_eq_length_getAll, getAll_declare, ← count_eq_length_getAll]
      exact hh.unique n (Bool.or_eq_false_iff.mp hn).1

theorem Tidy.appendRepeatable (hh : h.Tidy) (name : HeaderName) (value : HeaderValue) :
    (h.appendRepeatable name value).Tidy := by
  apply (hh.declare name).append
  simp [isRepeatable_declare]

theorem Tidy.foldl_declare (hh : h.Tidy) (names : List HeaderName) :
    (names.foldl HeaderSet.declare h).Tidy := by
  induction names generalizing h with
  | nil => exact hh
  | cons name rest ih => exact ih (hh.declare name)

theorem Tidy.foldl_insert (hh : h.Tidy) (entries : List (HeaderName × HeaderValue)) :
    (entries.foldl (fun h (name, value) => h.insert name value) h).Tidy := by
  induction entries generalizing h with
  | nil => exact hh
  | cons entry rest ih => exact ih (hh.insert entry.1 entry.2)

theorem Tidy.merge (hh : h.Tidy) (other : HeaderSet) : (h.merge other).Tidy :=
  (hh.foldl_declare other.declared).foldl_insert other.entries

end HeaderSet
end PageDispatch
