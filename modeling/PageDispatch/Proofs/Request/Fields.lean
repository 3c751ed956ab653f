import Mathlib.Data.List.Induction
import PageDispatch.Request

/-!
This module contains what the header fields of a request are found under. A field is found by its
name in any letter case, and the map of all fields knows it by the name in lower case. Of several
fields of one name the one takes the first and the other the last.
-/

namespace PageDispatch
namespace Request

variable {name : String}

/-- A request to which header fields were added, one after the other. -/
def withHeaders (r : Request) (fields : List (String × String)) : Request :=
  fields.foldl (fun r (name, value) => r.withHeader name value) r

/-- The values of all fields of a name, in any letter case, in their order. -/
def valuesOf (name : String) (fields : List (String × String)) : List String :=
  (fields.filter fun (other, _) => sameName other name).map (·.2)

theorem headers_withHeaders (r : Request) (fields : List (String × String)) :
    (r.withHeaders fields).headers = r.headers ++ fields := by
  unfold withHeaders
  induction fields generalizing r with
  | nil => exact (List.append_nil _).symm
  | cons field rest ih =>
    rw [List.foldl_cons, ih]
    exact List.append_assoc r.headers [field] rest

theorem header?_eq_head? (r : Request) (name : String) :
    r.header? name = (valuesOf name r.headers).head? := by
  unfold header? valuesOf
  rw [List.head?_map, List.head?_filter]

section Map

theorem lookup_insertHeader (name value key : String) (map : List (String × String)) :
    (insertHeader name value map).lookup key
      =
    if key = name then some value else map.lookup key := by
  induction map with
  | nil => grind [insertHeader]
  | cons entry rest ih => grind [insertHeader]

theorem keys_insertHeader (name value : String) (map : List (String × String)) :
    (insertHeader name value map).map (·.1)
      =
    if name ∈ map.map (·.1) then map.map (·.1) else map.map (·.1) ++ [name] := by
  induction map with
  | nil => rfl
  | cons entry rest ih =>
    obtain ⟨other, old⟩ := entry
    unfold insertHeader
    split
    . next heq => simp [heq]
    . next hne =>
      rw [List.map_cons, ih]
      simp only [List.map_cons, List.mem_cons, Ne.symm hne, false_or]
      split <;> rfl

theorem nodup_keys_headerMap (r : Request) : (r.headerMap.map (·.1)).Nodup := by
  unfold headerMap
  induction r.headers using List.reverseRecOn with
  | nil => exact List.nodup_nil
  | append_singleton rest field ih =>
    rw [List.foldl_append, List.foldl_cons, List.foldl_nil, keys_insertHeader]
    split
    . exact ih
    . next hnew =>
      refine List.nodup_append.mpr ⟨ih, by simp, ?_⟩
      rintro key hkey _ hlast rfl
      exact hnew (List.mem_singleton.mp hlast ▸ hkey)

/-- Under a name in lower case, the map has the last value of that name. -/
theorem lookup_headerMap (r : Request) (name : String) :
    r.headerMap.lookup (Lowercase.lowerAscii name) = (valuesOf name r.headers).getLast? := by
  unfold headerMap valuesOf
  induction r.headers using List.reverseRecOn with
  | nil => rfl
  | append_singleton rest field ih =>
    obtain ⟨other, value⟩ := field
    rw [List.foldl_append, List.foldl_cons, List.foldl_nil, lookup_insertHeader, ih,
      List.filter_append, List.map_append, List.getLast?_append]
    split
    . next heq => simp [sameName, heq]
    . next hne => simp [sameName, Ne.symm hne]

end Map

/--
However the header fields of a request were added: looked up by itself, a name gives the value of
its first field, and under the name in lower case the map has the value of its last. So the two
agree on a name exactly if its first and its last field have the same value, as they do if there is
one field of that name or none. The map has no key twice.
-/
theorem lookups_agree_iff (id : RequestId) (method : Method) (target : String)
    (fields : List (String × String)) (name : String) :
    let r := (new id method target).withHeaders fields
    r.header? name = (valuesOf name fields).head? ∧
    r.headerMap.lookup (Lowercase.lowerAscii name) = (valuesOf name fields).getLast? ∧
    (r.headerMap.lookup (Lowercase.lowerAscii name) = r.header? name ↔
      (valuesOf name fields).head? = (valuesOf name fields).getLast?) ∧
    ((valuesOf name fields).length ≤ 1 →
      r.headerMap.lookup (Lowercase.lowerAscii name) = r.header? name) ∧
    (r.headerMap.map (·.1)).Nodup := by
  intro r
  have hfields : r.headers = fields := by
    rw [headers_withHeaders]
    exact List.nil_append fields
  have hfirst : r.header? name = (valuesOf name fields).head? := by
    rw [header?_eq_head?, hfields]
  have hlast : r.headerMap.lookup (Lowercase.lowerAscii name)
      = (valuesOf name fields).getLast? := by
    rw [lookup_headerMap, hfields]
  have hiff : r.headerMap.lookup (Lowercase.lowerAscii name) = r.header? name ↔
      (valuesOf name fields).head? = (valuesOf name fields).getLast? := by
    rw [hfirst, hlast]
    exact eq_comm
  refine ⟨hfirst, hlast, hiff, ?_, nodup_keys_headerMap r⟩
  intro hone
  rw [hiff]
  rcases hvalues : valuesOf name fields with _ | ⟨value, _ | ⟨other, rest⟩⟩
  . rfl
  . rfl
  . rw [hvalues] at hone
    simp at hone

/-- A request with two tags, named in different letter case. -/
def taggedTwice : Request := (new .zero .get "/").withHeaders [("X-Tag", "1"), ("x-tag", "2")]

theorem lookups_differ_of_taggedTwice :
    taggedTwice.headerMap.lookup (Lowercase.lowerAscii "x-tag") ≠ taggedTwice.header? "x-tag" := by
  decide

end Request
end PageDispatch
