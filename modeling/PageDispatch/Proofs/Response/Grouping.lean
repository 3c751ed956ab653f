import PageDispatch.Proofs.Response.Overlay

/-!
This module contains the algebra of responses in the making: which of them can be written, that the
blank one is neutral on both sides, and exactly when several may be merged in any grouping.
-/

namespace PageDispatch

attribute [ext] Accumulator

theorem Body.isEmpty_iff {body : Body} : body.isEmpty = true ↔ body = .empty := by
  cases body <;> simp [isEmpty]

namespace Accumulator

/-- The responses that can be written, operation by operation. -/
inductive Reachable : Accumulator → Prop
  | empty : Reachable empty
  | setStatus {a : Accumulator} (h : Reachable a) (status : Status) : Reachable (a.setStatus status)
  | addHeader {a b : Accumulator} (h : Reachable a) {α : Type} {codec : HeaderCodec α} {value : α}
    (hwritten : a.addHeader codec value = .ok b) : Reachable b
  | insertRaw {a : Accumulator} (h : Reachable a) (name : HeaderName) (value : HeaderValue) :
    Reachable (a.insertRaw name value)
  | removeHeader {a : Accumulator} (h : Reachable a) (name : HeaderName) :
    Reachable (a.removeHeader name).2
  | setMessage {a : Accumulator} (h : Reachable a) (bytes : Bytes) : Reachable (a.setMessage bytes)
  | setWriter {a : Accumulator} (h : Reachable a) (writer : BodyWriter) :
    Reachable (a.setWriter writer)
  | setChunked {a : Accumulator} (h : Reachable a) (chunked : Bool) :
    Reachable (a.setChunked chunked)
  | setDelay {a : Accumulator} (h : Reachable a) (delay : Duration) : Reachable (a.setDelay delay)
  | merge {a b : Accumulator} (ha : Reachable a) (hb : Reachable b) : Reachable (a.merge b)

variable {a b c : Accumulator}

theorem status_merge (a b : Accumulator) : (a.merge b).status = b.status.or a.status := by
  cases h : b.modified with
  | true => rw [merge, if_pos h]
  | false =>
    rw [merge_of_not_modified h, (b.blank h).1]
    rfl

theorem headers_merge (a b : Accumulator) : (a.merge b).headers = a.headers.merge b.headers := by
  cases h : b.modified with
  | true => rw [merge, if_pos h]
  | false =>
    rw [merge_of_not_modified h, (b.blank h).2.1]
    rfl

theorem body_merge (a b : Accumulator) :
    (a.merge b).body = if b.body.isEmpty then a.body else b.body := by
  cases h : b.modified with
  | true => rw [merge, if_pos h]
  | false =>
    rw [merge_of_not_modified h, (b.blank h).2.2.1]
    rfl

theorem chunked_merge (a b : Accumulator) : (a.merge b).chunked = b.chunked.or a.chunked := by
  cases h : b.modified with
  | true => rw [merge, if_pos h]
  | false =>
    rw [merge_of_not_modified h, (b.blank h).2.2.2.1]
    rfl

theorem delay_merge (a b : Accumulator) : (a.merge b).delay = b.delay.or a.delay := by
  cases h : b.modified with
  | true => rw [merge, if_pos h]
  | false =>
    rw [merge_of_not_modified h, (b.blank h).2.2.2.2]
    rfl

theorem modified_merge (a b : Accumulator) :
    (a.merge b).modified = (a.modified || b.modified) := by
  cases h : b.modified with
  | true => rw [merge, if_pos h, Bool.or_true]
  | false => rw [merge_of_not_modified h, Bool.or_false]

theorem body_merge_merge (a b c : Accumulator) :
    ((a.merge b).merge c).body = (a.merge (b.merge c)).body := by
  simp only [body_merge]
  cases h : c.body.isEmpty <;> simp [h]

/-- Merging is associative but for the headers. -/
theorem merge_assoc_iff_headers :
    (a.merge b).merge c = a.merge (b.merge c)
      ↔
    (a.headers.merge b.headers).merge c.headers = a.headers.merge (b.headers.merge c.headers) := by
  rw [← headers_merge, ← headers_merge, ← headers_merge, ← headers_merge]
  constructor
  . intro h
    rw [h]
  . intro h
    apply Accumulator.ext
    case status => simp only [status_merge, Option.or_assoc]
    case headers => exact h
    case body => exact body_merge_merge a b c
    case chunked => simp only [chunked_merge, Option.or_assoc]
    case delay => simp only [delay_merge, Option.or_assoc]
    case modified => simp only [modified_merge, Bool.or_assoc]

theorem tidy_addHeader {α : Type} {codec : HeaderCodec α} {value : α} (h : a.headers.Tidy)
    (hwritten : a.addHeader codec value = .ok b) : b.headers.Tidy := by
  unfold addHeader at hwritten
  cases hw : codec.write value with
  | error e =>
    rw [hw] at hwritten
    contradiction
  | ok rendered =>
    rw [hw] at hwritten
    injection hwritten with hwritten
    subst hwritten
    dsimp only
    split
    . exact h.appendRepeatable _ _
    . exact h.set _ _

theorem Reachable.tidy (h : Reachable a) : a.headers.Tidy := by
  induction h with
  | empty => exact HeaderSet.tidy_empty
  | addHeader _ hwritten ih => exact tidy_addHeader ih hwritten
  | insertRaw _ name value ih => exact ih.insert name value
  | removeHeader _ name ih => exact ih.erase name
  | merge _ _ iha _ =>
    rw [headers_merge]
    exact iha.merge _
  | setStatus _ _ ih => exact ih
  | setMessage _ _ ih => exact ih
  | setWriter _ _ ih => exact ih
  | setChunked _ _ ih => exact ih
  | setDelay _ _ ih => exact ih

theorem empty_merge (h : a.headers.Tidy) : empty.merge a = a := by
  apply Accumulator.ext
  case status => rw [status_merge]; exact Option.or_none
  case headers => rw [headers_merge]; exact HeaderSet.empty_merge h
  case body =>
    rw [body_merge]
    split
    . next hempty => exact (Body.isEmpty_iff.mp hempty).symm
    . rfl
  case chunked => rw [chunked_merge]; exact Option.or_none
  case delay => rw [delay_merge]; exact Option.or_none
  case modified => rw [modified_merge]; exact Bool.false_or _

/--
The blank response is neutral. Three responses may be grouped either way, unless a name that is not
multi-valued by itself is declared repeatable at one end only while the other two carry it.
-/
theorem Reachable.merge_laws (ha : Reachable a) (hb : Reachable b) (hc : Reachable c) :
    Accumulator.empty.merge a = a
      ∧
    a.merge .empty = a
      ∧
    ((a.merge b).merge c = a.merge (b.merge c)
        ↔
      ¬∃ name : HeaderName, name.isMultiValued = false
        ∧ (HeaderSet.Lone a.headers b.headers c.headers name
            ∨ HeaderSet.Lone c.headers a.headers b.headers name)) := by
  refine ⟨empty_merge ha.tidy, merge_empty a, ?_⟩
  rw [merge_assoc_iff_headers]
  exact HeaderSet.merge_assoc_iff ha.tidy hb.tidy hc.tidy

def tag : HeaderName := ⟨"x-tag", by decide⟩

/-- One tag, of a kind that replaces others. -/
def tagged (n : Nat) : Accumulator := empty.insertRaw tag (.ofNat n)

/-- One tag, of a kind that adds up. -/
def repeating : Accumulator :=
  { empty with
    headers := empty.headers.appendRepeatable tag ⟨Utf8.encode "a", by decide⟩
    modified := true
    blank := nofun }

theorem reachable_tagged (n : Nat) : Reachable (tagged n) := .insertRaw .empty _ _

theorem reachable_repeating : Reachable repeating :=
  .addHeader .empty (show Accumulator.empty.addHeader (.repeatable tag) "a" = .ok repeating from rfl)

/--
A declaration before two single tags keeps both of them or the last one only. Between them it makes
no difference.
-/
theorem merge_laws_of_tags :
    Accumulator.empty.merge repeating = repeating
      ∧
    (repeating.merge (tagged 1)).merge (tagged 2) ≠ repeating.merge ((tagged 1).merge (tagged 2))
      ∧
    ((tagged 1).merge repeating).merge (tagged 2) = (tagged 1).merge (repeating.merge (tagged 2)) := by
  have ⟨hneutral, _, hfirst⟩ :=
    Reachable.merge_laws reachable_repeating (reachable_tagged 1) (reachable_tagged 2)
  have ⟨_, _, hmiddle⟩ :=
    Reachable.merge_laws (reachable_tagged 1) reachable_repeating (reachable_tagged 2)
  refine ⟨hneutral, ?_, ?_⟩
  . rw [Ne, hfirst, not_not]
    exact ⟨tag, by decide, .inl ⟨by decide, by decide, by decide, by decide, by decide⟩⟩
  . rw [hmiddle]
    rintro ⟨name, _, hl | hl⟩
    . exact absurd hl.declared List.not_mem_nil
    . exact absurd hl.declared List.not_mem_nil

end Accumulator
end PageDispatch
