import PageDispatch.Proofs.Response.Typed

/-!
This module contains what the flag of a response in the making tells: whether anything was written
to it. It is set by every edit that writes, and by no other one, and stays set from then on. While
it is not, the response is blank, so that a merge that asks for it first loses nothing.
-/

namespace PageDispatch

/--
What can be done to a response in the making, be it in vain. What is merged into it comes of such
edits itself.
-/
inductive ResponseEdit : Type 1 where
  | setStatus (status : Status)
  | addHeader {α : Type} (codec : HeaderCodec α) (value : α)
  | insertRaw (name : HeaderName) (value : HeaderValue)
  | removeHeader (name : HeaderName)
  | setMessage (bytes : Bytes)
  | setWriter (writer : BodyWriter)
  | setChunked (chunked : Bool)
  | setDelay (delay : Duration)
  | merge (source : List ResponseEdit)

/--
Whether an edit is in vain on a blank response: its value cannot be written, there is nothing to
remove, or what it merges comes of such edits only.
-/
inductive ResponseEdit.IsIdle : ResponseEdit → Prop
  | addHeader {α : Type} {codec : HeaderCodec α} {value : α} {cause : CauseChain}
    (h : codec.write value = .error cause) : IsIdle (.addHeader codec value)
  | removeHeader (name : HeaderName) : IsIdle (.removeHeader name)
  | merge {source : List ResponseEdit} (h : ∀ e ∈ source, IsIdle e) : IsIdle (.merge source)

namespace Accumulator

mutual

def edit : Accumulator → ResponseEdit → Accumulator
  | a, .setStatus status => a.setStatus status
  | a, .addHeader codec value => a.afterHeader codec value
  | a, .insertRaw name value => a.insertRaw name value
  | a, .removeHeader name => (a.removeHeader name).2
  | a, .setMessage bytes => a.setMessage bytes
  | a, .setWriter writer => a.setWriter writer
  | a, .setChunked chunked => a.setChunked chunked
  | a, .setDelay delay => a.setDelay delay
  | a, .merge source => a.merge (editAll empty source)

def editAll : Accumulator → List ResponseEdit → Accumulator
  | a, [] => a
  | a, e :: rest => editAll (edit a e) rest

end

/-- The response that comes of some edits. -/
def edited (edits : List ResponseEdit) : Accumulator := editAll empty edits

end Accumulator

/-- Whether an edit is in vain: it fails, removes nothing, or merges what is not modified. -/
def ResponseEdit.Misses (a : Accumulator) : ResponseEdit → Prop
  | .addHeader codec value => ∃ cause, a.addHeader codec value = .error cause
  | .removeHeader name => (a.removeHeader name).1 = 0
  | .merge source => (Accumulator.edited source).modified = false
  | _ => False

theorem HeaderSet.erase_of_count_eq_zero {h : HeaderSet} {name : HeaderName}
    (hcount : h.count name = 0) : h.erase name = h := by
  have hentries : h.entries.filter (·.1 ≠ name) = h.entries := by
    rw [List.filter_eq_self]
    intro entry hentry
    have hnone := List.filter_eq_nil_iff.mp (List.length_eq_zero_iff.mp hcount) entry hentry
    simpa using hnone
  unfold erase
  rw [hentries]

namespace Accumulator

variable {a b : Accumulator} {e : ResponseEdit} {edits : List ResponseEdit}

section Step

theorem eq_empty_of_not_modified (h : a.modified = false) : a = empty := by
  have ⟨hstatus, hheaders, hbody, hchunked, hdelay⟩ := a.blank h
  exact Accumulator.ext hstatus hheaders hbody hchunked hdelay h

theorem modified_addHeader {α : Type} {codec : HeaderCodec α} {value : α}
    (h : a.addHeader codec value = .ok b) : b.modified = true := by
  unfold addHeader at h
  cases hw : codec.write value with
  | error cause =>
    rw [hw] at h
    cases h
  | ok rendered =>
    rw [hw] at h
    cases h
    rfl

theorem modified_removeHeader (a : Accumulator) (name : HeaderName) :
    (a.removeHeader name).2.modified = (a.modified || decide (0 < (a.removeHeader name).1)) := rfl

theorem removeHeader_of_none {name : HeaderName} (h : (a.removeHeader name).1 = 0) :
    (a.removeHeader name).2 = a := by
  apply Accumulator.ext
  case headers => exact HeaderSet.erase_of_count_eq_zero h
  case modified =>
    rw [modified_removeHeader, h]
    exact Bool.or_false _
  case status => rfl
  case body => rfl
  case chunked => rfl
  case delay => rfl

/-- An edit that is in vain changes nothing at all. -/
theorem edit_of_misses (h : e.Misses a) : a.edit e = a := by
  cases e with
  | addHeader codec value =>
    obtain ⟨cause, hcause⟩ := h
    simp only [edit, afterHeader, hcause]
  | removeHeader name => exact removeHeader_of_none h
  | merge source => exact merge_of_not_modified h
  | setStatus | insertRaw | setMessage | setWriter | setChunked | setDelay => cases h

/-- Every other edit sets the flag. -/
theorem modified_edit_of_not_misses (h : ¬e.Misses a) : (a.edit e).modified = true := by
  cases e with
  | addHeader codec value =>
    cases hb : a.addHeader codec value with
    | error cause => exact absurd ⟨cause, hb⟩ h
    | ok b =>
      simp only [edit, afterHeader, hb]
      exact modified_addHeader hb
  | removeHeader name =>
    rw [edit, modified_removeHeader, decide_eq_true (Nat.pos_of_ne_zero h)]
    exact Bool.or_true _
  | merge source =>
    have hsource : (editAll empty source).modified = true := Bool.eq_true_of_not_eq_false h
    rw [edit, modified_merge, hsource]
    exact Bool.or_true _
  | setStatus | insertRaw | setMessage | setWriter | setChunked | setDelay => rfl

theorem modified_edit (h : a.modified = true) (e : ResponseEdit) : (a.edit e).modified = true := by
  cases Classical.em (e.Misses a) with
  | inl hmisses =>
    rw [edit_of_misses hmisses]
    exact h
  | inr hmisses => exact modified_edit_of_not_misses hmisses

end Step

section Run

theorem modified_editAll (h : a.modified = true) (edits : List ResponseEdit) :
    (a.editAll edits).modified = true := by
  induction edits generalizing a with
  | nil => exact h
  | cons e rest ih => exact ih (modified_edit h e)

mutual

/-- On a blank response, what is in vain can be told from the edit alone. -/
theorem misses_empty_iff (e : ResponseEdit) : e.Misses empty ↔ e.IsIdle := by
  match e with
  | .addHeader codec value =>
    simp only [ResponseEdit.Misses, addHeader_eq_error_iff]
    constructor
    . rintro ⟨cause, h⟩
      exact .addHeader h
    . rintro (h | _)
      exact ⟨_, h⟩
  | .removeHeader name => exact ⟨fun _ => .removeHeader name, fun _ => rfl⟩
  | .merge source =>
    refine (not_modified_editAll_iff source).trans ⟨.merge, ?_⟩
    rintro (_ | _ | h)
    exact h
  | .setStatus _ | .insertRaw _ _ | .setMessage _ | .setWriter _ | .setChunked _ | .setDelay _ =>
    exact ⟨False.elim, nofun⟩

theorem not_modified_editAll_iff (edits : List ResponseEdit) :
    (editAll empty edits).modified = false ↔ ∀ e ∈ edits, e.IsIdle := by
  match edits with
  | [] => simp [editAll, empty]
  | e :: rest =>
    rw [editAll, List.forall_mem_cons, ← misses_empty_iff e]
    -- The first edit leaves a blank response, or sets the flag, which no later one takes back.
    cases Classical.em (e.Misses empty) with
    | inl hmisses =>
      rw [edit_of_misses hmisses, not_modified_editAll_iff rest]
      simp [hmisses]
    | inr hmisses =>
      rw [modified_editAll (modified_edit_of_not_misses hmisses) rest]
      simp [hmisses]

end

theorem editAll_append (a : Accumulator) (first second : List ResponseEdit) :
    a.editAll (first ++ second) = (a.editAll first).editAll second := by
  induction first generalizing a with
  | nil => rfl
  | cons e rest ih => exact ih (a.edit e)

theorem exists_edited_edit (h : ∃ edits, edited edits = a) (e : ResponseEdit) :
    ∃ edits, edited edits = a.edit e := by
  obtain ⟨edits, rfl⟩ := h
  exact ⟨edits ++ [e], editAll_append empty edits [e]⟩

mutual

theorem Reachable.edit {a : Accumulator} (h : Reachable a) (e : ResponseEdit) :
    Reachable (a.edit e) := by
  match e with
  | .setStatus status => exact h.setStatus status
  | .addHeader codec value =>
    rw [Accumulator.edit, afterHeader]
    split
    . next hwritten => exact h.addHeader hwritten
    . exact h
  | .insertRaw name value => exact h.insertRaw name value
  | .removeHeader name => exact h.removeHeader name
  | .setMessage bytes => exact h.setMessage bytes
  | .setWriter writer => exact h.setWriter writer
  | .setChunked chunked => exact h.setChunked chunked
  | .setDelay delay => exact h.setDelay delay
  | .merge source => exact h.merge (Reachable.empty.editAll source)

theorem Reachable.editAll {a : Accumulator} (h : Reachable a) (edits : List ResponseEdit) :
    Reachable (a.editAll edits) := by
  match edits with
  | [] => exact h
  | e :: rest => exact (h.edit e).editAll rest

end

/-- The responses that can be written are those that come of edits. -/
theorem reachable_iff : Reachable a ↔ ∃ edits, edited edits = a := by
  constructor
  . intro h
    induction h with
    | empty => exact ⟨[], rfl⟩
    | @addHeader a b _ α codec value hwritten ih =>
      have hedited := exists_edited_edit ih (.addHeader codec value)
      rwa [Accumulator.edit, afterHeader, hwritten] at hedited
    | merge _ _ iha ihb =>
      obtain ⟨source, rfl⟩ := ihb
      exact exists_edited_edit iha (.merge source)
    | setStatus _ status ih => exact exists_edited_edit ih (.setStatus status)
    | insertRaw _ name value ih => exact exists_edited_edit ih (.insertRaw name value)
    | removeHeader _ name ih => exact exists_edited_edit ih (.removeHeader name)
    | setMessage _ bytes ih => exact exists_edited_edit ih (.setMessage bytes)
    | setWriter _ writer ih => exact exists_edited_edit ih (.setWriter writer)
    | setChunked _ chunked ih => exact exists_edited_edit ih (.setChunked chunked)
    | setDelay _ delay ih => exact exists_edited_edit ih (.setDelay delay)
  . rintro ⟨edits, rfl⟩
    exact Reachable.empty.editAll edits

end Run

section Merge

/-- The same response with the flag set, so that no merge skips it. -/
def flagged (a : Accumulator) : Accumulator := { a with modified := true, blank := nofun }

/-- Whether two responses are the same but for the flag. -/
structure SameContent (a b : Accumulator) : Prop where
  status : a.status = b.status
  headers : a.headers = b.headers
  body : a.body = b.body
  chunked : a.chunked = b.chunked
  delay : a.delay = b.delay

/-- A response that is skipped as it is not modified would not have changed anything. -/
theorem sameContent_merge_flagged (a b : Accumulator) :
    (a.merge b).SameContent (a.merge b.flagged) where
  status := (status_merge a b).trans (status_merge a b.flagged).symm
  headers := (headers_merge a b).trans (headers_merge a b.flagged).symm
  body := (body_merge a b).trans (body_merge a b.flagged).symm
  chunked := (chunked_merge a b).trans (chunked_merge a b.flagged).symm
  delay := (delay_merge a b).trans (delay_merge a b.flagged).symm

end Merge

/--
A response is not modified exactly if all its edits are idle. It is blank then, and if the flag were
set, merging it would come to the same. Once the flag is set it stays so, whatever follows. A header
that cannot be written, the removal of one that is not there and the merge of what is not modified
change nothing at all; all other edits set the flag. And there is no response in the making that
does not come of edits.
-/
theorem modified_tells_edits (edits : List ResponseEdit) :
    let a := edited edits
    (a.modified = false ↔ ∀ e ∈ edits, e.IsIdle) ∧
    (a.modified = false → a = empty) ∧
    (∀ below : Accumulator, (below.merge a).SameContent (below.merge a.flagged)) ∧
    (a.modified = true → ∀ more, (edited (edits ++ more)).modified = true) ∧
    (∀ {α : Type} (codec : HeaderCodec α) (value : α) (cause : CauseChain),
      a.addHeader codec value = .error cause → a.edit (.addHeader codec value) = a) ∧
    (∀ name, (a.removeHeader name).1 = 0 → (a.removeHeader name).2 = a) ∧
    (∀ source, (edited source).modified = false → a.merge (edited source) = a) ∧
    (∀ e : ResponseEdit, ¬e.Misses a → (a.edit e).modified = true) ∧
    ∀ b : Accumulator, Reachable b ↔ ∃ edits, edited edits = b := by
  intro a
  refine ⟨not_modified_editAll_iff edits, eq_empty_of_not_modified,
    fun below => sameContent_merge_flagged below a, ?_, ?_, fun name => removeHeader_of_none,
    fun source => merge_of_not_modified, fun e => modified_edit_of_not_misses,
    fun b => reachable_iff⟩
  . intro h more
    rw [edited, editAll_append]
    exact modified_editAll h more
  . intro α codec value cause hcause
    exact edit_of_misses ⟨cause, hcause⟩

/-- Edits that are all in vain. -/
def vain : List ResponseEdit :=
  [.addHeader (.text tag) "a\nb", .removeHeader tag, .merge [.removeHeader tag, .merge []]]

/-- What was written and is removed again leaves the flag set. -/
theorem modified_of_vain :
    edited vain = empty ∧
    (edited [.insertRaw tag (.ofNat 1), .removeHeader tag]).modified = true ∧
    (edited [.setChunked false]).edit (.removeHeader tag) = edited [.setChunked false] ∧
    (edited [.setChunked false]).merge (edited vain) = edited [.setChunked false] := by
  have hidle : ∀ e ∈ vain, e.IsIdle := by
    have hnothing : ∀ e ∈ [ResponseEdit.removeHeader tag, .merge []], e.IsIdle :=
      List.forall_mem_cons.mpr
        ⟨.removeHeader tag, List.forall_mem_singleton.mpr (.merge (List.forall_mem_nil _))⟩
    rw [vain, List.forall_mem_cons, List.forall_mem_cons, List.forall_mem_singleton]
    exact ⟨.addHeader rfl, .removeHeader tag, .merge hnothing⟩
  have ⟨hvain, hblank, _⟩ := modified_tells_edits vain
  have ⟨_, _, _, hstays, _⟩ := modified_tells_edits [.insertRaw tag (.ofNat 1)]
  have ⟨_, _, _, _, _, hremove, hmerge, _⟩ := modified_tells_edits [.setChunked false]
  have hnot := hvain.mpr hidle
  exact ⟨hblank hnot, hstays rfl [.removeHeader tag], hremove tag rfl, hmerge vain hnot⟩

end Accumulator
end PageDispatch
