import PageDispatch.Proofs.Response.Typed

/-!
This module contains that the head of a response can be taken apart again: its lines are where its
line ends are, whatever the header values hold, and names and values are on both sides of the first
colon and space.
-/

namespace PageDispatch

namespace Pieces

variable {c : Char} {mark cs front back : List Char}

/-- A text without its first part, which ends where a mark starts for the first time. -/
def cut? (mark : List Char) : List Char → Option (List Char × List Char)
  | [] => none
  | c :: rest =>
    if mark.isPrefixOf (c :: rest) then some ([], rest.drop (mark.length - 1))
    else (cut? mark rest).map fun (front, back) => (c :: front, back)

theorem length_cut?_lt (h : cut? mark cs = some (front, back)) : back.length < cs.length := by
  induction cs generalizing front with
  | nil => cases h
  | cons c rest ih =>
    unfold cut? at h
    split at h
    . cases h
      rw [List.length_drop, List.length_cons]
      omega
    . rw [Option.map_eq_some_iff] at h
      obtain ⟨⟨other, _⟩, hcut, heq⟩ := h
      cases heq
      have hlt := ih hcut
      simp
      omega

/-- The parts of a text between the places where a mark stands, from left to right. -/
def split (mark cs : List Char) : List (List Char) :=
  match _h : cut? mark cs with
  | none => [cs]
  | some (front, back) => front :: split mark back
termination_by cs.length
decreasing_by exact length_cut?_lt _h

theorem cut?_append (hfront : c ∉ front) :
    cut? (c :: mark) (front ++ c :: mark ++ back) = some (front, back) := by
  induction front with
  | nil => simp [cut?]
  | cons first rest ih =>
    rw [List.mem_cons, not_or] at hfront
    have hrest := ih hfront.2
    simp only [List.append_assoc, List.cons_append] at hrest
    simp [cut?, hfront.1, hrest]

theorem cut?_eq_none (hcs : c ∉ cs) : cut? (c :: mark) cs = none := by
  induction cs with
  | nil => rfl
  | cons first rest ih =>
    rw [List.mem_cons, not_or] at hcs
    simp [cut?, hcs.1, ih hcs.2]

theorem split_append (hfront : c ∉ front) :
    split (c :: mark) (front ++ c :: mark ++ back) = front :: split (c :: mark) back := by
  rw [split]
  split
  . next h =>
    rw [cut?_append hfront] at h
    cases h
  . next h =>
    rw [cut?_append hfront] at h
    cases h
    rfl

theorem split_eq_singleton (hcs : c ∉ cs) : split (c :: mark) cs = [cs] := by
  rw [split]
  split
  . rfl
  . next h =>
    rw [cut?_eq_none hcs] at h
    cases h

/-- Of lines that do not hold the start of a line end, all are parts of a text that ends them so. -/
theorem split_lines {lines : List (List Char)} (hlines : ∀ line ∈ lines, c ∉ line) :
    split (c :: mark) (lines.flatMap (· ++ c :: mark) ++ back)
      =
    lines ++ split (c :: mark) back := by
  induction lines with
  | nil => rfl
  | cons line rest ih =>
    rw [List.forall_mem_cons] at hlines
    rw [List.flatMap_cons, List.append_assoc, split_append hlines.1, ih hlines.2]
    rfl

theorem eq_of_cut? (hmark : mark ≠ []) (h : cut? mark cs = some (front, back)) :
    cs = front ++ mark ++ back := by
  induction cs generalizing front with
  | nil => cases h
  | cons c rest ih =>
    unfold cut? at h
    split at h
    . next hprefix =>
      cases h
      obtain ⟨back, hback⟩ := List.isPrefixOf_iff_prefix.mp hprefix
      cases mark with
      | nil => contradiction
      | cons d mark =>
        cases hback
        simp
    . rw [Option.map_eq_some_iff] at h
      obtain ⟨⟨other, _⟩, hcut, heq⟩ := h
      cases heq
      rw [ih hcut]
      rfl

theorem split_ne_nil (mark cs : List Char) : split mark cs ≠ [] := by
  rw [split]
  split <;> simp

/-- Nothing but the marks is lost. -/
theorem intercalate_split (hmark : mark ≠ []) (cs : List Char) :
    mark.intercalate (split mark cs) = cs := by
  induction cs using split.induct mark with
  | case1 cs h =>
    rw [split]
    split
    . simp
    . next h' => simp [h] at h'
  | case2 cs front back h ih =>
    rw [split]
    split
    . next h' => simp [h] at h'
    . next h' =>
      rw [h] at h'
      cases h'
      rw [List.intercalate_cons_of_ne_nil (split_ne_nil mark back), ih]
      exact (eq_of_cut? hmark h).symm

/-- The parts of a text as texts. -/
def texts (mark s : String) : List String := (split mark.toList s.toList).map String.ofList

def cutText? (mark s : String) : Option (String × String) :=
  (cut? mark.toList s.toList).map fun (front, back) => (String.ofList front, String.ofList back)

end Pieces

namespace Utf8

variable {b : UInt8} {bs rest : Bytes} {n acc : Nat} {c : Char}

/-! Malformed octets apart, a character is the octet it is read from, or lies outside of ASCII. -/

theorem tails_suffix (n acc : Nat) (bs : Bytes) : (tails n acc bs).2 <:+ bs := by
  induction n generalizing acc bs with
  | zero => exact List.suffix_refl bs
  | succ n ih =>
    cases bs with
    | nil => exact List.suffix_refl []
    | cons b rest =>
      unfold tails
      split
      . exact (ih _ rest).trans (List.suffix_cons b rest)
      . exact List.suffix_refl _

theorem front_suffix (b : UInt8) (bs : Bytes) : (front b bs).2 <:+ bs := by
  unfold front
  split
  . exact List.suffix_refl bs
  . split
    . exact List.suffix_refl bs
    . split
      . exact List.suffix_refl []
      . next second rest =>
        split
        . exact (tails_suffix _ _ rest).trans (List.suffix_cons second rest)
        . exact List.suffix_refl _

theorem tails_eq_some (h : (tails n acc bs).1 = some c) :
    ∃ m, acc * 64 ^ n ≤ m ∧ c = Char.ofNat m := by
  induction n generalizing acc bs with
  | zero =>
    cases h
    exact ⟨acc, by simp, rfl⟩
  | succ n ih =>
    cases bs with
    | nil => cases h
    | cons b rest =>
      unfold tails at h
      split at h
      . obtain ⟨m, hm, rfl⟩ := ih h
        refine ⟨m, Nat.le_trans ?_ hm, rfl⟩
        rw [Nat.pow_succ', ← Nat.mul_assoc]
        exact Nat.mul_le_mul_right _ (Nat.le_add_right _ _)
      . cases h

/-- No form announces a character of ASCII: the smallest second octets see to that. -/
theorem le_of_form {lead more : Nat} {lo hi : UInt8} (h : form b = some (lead, lo, hi, more)) :
    128 ≤ (lead * 64 + (lo.toNat - 0x80)) * 64 ^ more := by
  unfold form at h
  simp only [Bool.and_eq_true, decide_eq_true_eq, UInt8.le_iff_toNat_le] at h
  repeat' split at h
  all_goals simp only [Option.some.injEq, Prod.mk.injEq, reduceCtorEq] at h
  all_goals
    obtain ⟨rfl, rfl, -, rfl⟩ := h
    simp at *
  all_goals omega

theorem front_eq_some (h : (front b bs).1 = some c) :
    b < 0x80 ∧ c = charOf b ∨ ∃ m ≥ 128, c = Char.ofNat m := by
  unfold front at h
  split at h
  . next hascii =>
    cases h
    exact Or.inl ⟨hascii, rfl⟩
  . right
    split at h
    . cases h
    . next lead lo hi more hform =>
      split at h
      . cases h
      . next second rest =>
        split at h
        . next hsecond =>
          obtain ⟨m, hm, rfl⟩ := tails_eq_some h
          refine ⟨m, Nat.le_trans (le_of_form hform) (Nat.le_trans ?_ hm), rfl⟩
          apply Nat.mul_le_mul_right
          have hlo :=
            UInt8.le_iff_toNat_le.mp (of_decide_eq_true (Bool.and_eq_true_iff.mp hsecond).1)
          omega
        . cases h

theorem mem_decodeLossy (h : c ∈ (decodeLossy bs).toList) :
    (∃ b ∈ bs, c = charOf b) ∨ c = '\uFFFD' ∨ ∃ m ≥ 128, c = Char.ofNat m := by
  unfold decodeLossy at h
  rw [String.toList_ofList, List.mem_map] at h
  obtain ⟨scalar, hscalar, rfl⟩ := h
  induction bs using scalars.induct with
  | case1 => simp [scalars] at hscalar
  | case2 b rest ih =>
    rw [scalars, List.mem_cons] at hscalar
    rcases hscalar with rfl | hscalar
    . cases hfront : (front b rest).1 with
      | none => exact Or.inr (Or.inl rfl)
      | some c =>
        rcases front_eq_some hfront with ⟨_, hc⟩ | houtside
        . exact Or.inl ⟨b, List.mem_cons_self, hc⟩
        . exact Or.inr (Or.inr houtside)
    . rcases ih hscalar with ⟨other, hother, hc⟩ | houtside
      . have hmem := (front_suffix b rest).subset hother
        exact Or.inl ⟨other, List.mem_cons_of_mem b hmem, hc⟩
      . exact Or.inr houtside

/-- A character of ASCII is read from its own octet only. -/
theorem not_mem_decodeLossy (hpos : 0 < c.toNat) (hascii : c.toNat < 128)
    (hbs : ∀ b ∈ bs, b.toNat ≠ c.toNat) : c ∉ (decodeLossy bs).toList := by
  intro h
  rcases mem_decodeLossy h with ⟨b, hb, rfl⟩ | rfl | ⟨m, hm, rfl⟩
  . exact hbs b hb (toNat_charOf b).symm
  . simp at hascii
  . unfold Char.ofNat at hpos hascii
    by_cases hvalid : m.isValidChar
    . have hnat : (Char.ofNatAux m hvalid).toNat = m := rfl
      rw [dif_pos hvalid] at hascii
      omega
    . rw [dif_neg hvalid] at hpos
      exact absurd hpos (by decide)

theorem scalars_of_ascii (h : ∀ b ∈ bs, b < 0x80) :
    scalars bs = bs.map fun b => some (charOf b) := by
  induction bs with
  | nil => simp [scalars]
  | cons b rest ih =>
    rw [List.forall_mem_cons] at h
    rw [scalars, front, if_pos h.1, List.map_cons, ih h.2]
    rfl

/-- Octets of ASCII are the text that they are read as. -/
theorem encode_decodeLossy (h : ∀ b ∈ bs, b < 0x80) : encode (decodeLossy bs) = bs := by
  unfold decodeLossy encode
  rw [scalars_of_ascii h, String.toList_ofList, List.map_map, List.flatMap_map]
  induction bs with
  | nil => rfl
  | cons b rest ih =>
    rw [List.forall_mem_cons] at h
    have hascii : (charOf b).toNat < 128 := by
      rw [toNat_charOf]
      exact UInt8.lt_iff_toNat_lt.mp h.1
    rw [List.flatMap_cons, ih h.2]
    dsimp only [Function.comp, Option.getD_some]
    rw [utf8EncodeChar_of_ascii hascii, toNat_charOf]
    simp

end Utf8

/-- Whether no line ends within a text, not even with half of a line end. -/
def StaysInLine (s : String) : Prop := '\r' ∉ s.toList ∧ '\n' ∉ s.toList

theorem StaysInLine.append {s t : String} (hs : StaysInLine s) (ht : StaysInLine t) :
    StaysInLine (s ++ t) := by
  unfold StaysInLine at *
  rw [String.toList_append, List.mem_append, List.mem_append, not_or, not_or]
  exact ⟨⟨hs.1, ht.1⟩, ⟨hs.2, ht.2⟩⟩

instance (s : String) : Decidable (StaysInLine s) := inferInstanceAs (Decidable (_ ∧ _))

theorem staysInLine_of_all {s : String} {p : Char → Bool} (hs : s.toList.all p = true)
    (hreturn : p '\r' = false) (hfeed : p '\n' = false) : StaysInLine s := by
  rw [List.all_eq_true] at hs
  constructor
  . intro h
    exact absurd (hs _ h) (by simp [hreturn])
  . intro h
    exact absurd (hs _ h) (by simp [hfeed])

theorem staysInLine_toString (n : Nat) : StaysInLine (toString n) := by
  apply staysInLine_of_all (p := Char.isDigit) _ rfl rfl
  rw [List.all_eq_true]
  intro c hc
  rw [Nat.toString_eq_ofList_toDigits, String.toList_ofList] at hc
  exact Nat.isDigit_of_mem_toDigits (by decide) (by decide) hc

theorem Status.staysInLine_of_phrase? {status : Status} {phrase : String}
    (h : status.phrase? = some phrase) : StaysInLine phrase := by
  unfold Status.phrase? at h
  split at h <;> cases h <;> decide

namespace HeaderName

variable (name : HeaderName)

theorem all_text : name.text.toList.all (fun c => Http.isTokenChar c && !c.isUpper) = true := by
  have hvalid := name.valid
  unfold isHeaderName at hvalid
  simp only [Bool.and_eq_true] at hvalid
  exact hvalid.2

theorem staysInLine_text : StaysInLine name.text :=
  staysInLine_of_all name.all_text (by decide) (by decide)

theorem colon_not_mem_text : ':' ∉ name.text.toList := by
  intro h
  have hcolon := List.all_eq_true.mp name.all_text _ h
  revert hcolon
  decide

end HeaderName

theorem HeaderValue.staysInLine_decodeLossy (value : HeaderValue) :
    StaysInLine (Utf8.decodeLossy value.bytes) := by
  have hbyte : ∀ b ∈ value.bytes, b.toNat ≠ 13 ∧ b.toNat ≠ 10 := by
    intro b hb
    have hvalid := List.all_eq_true.mp value.valid b hb
    constructor
    all_goals
      intro heq
      rw [← UInt8.ofNat_toNat (x := b), heq] at hvalid
      revert hvalid
      decide
  constructor
  . apply Utf8.not_mem_decodeLossy (by decide) (by decide)
    exact fun b hb => (hbyte b hb).1
  . apply Utf8.not_mem_decodeLossy (by decide) (by decide)
    exact fun b hb => (hbyte b hb).2

namespace Response

variable (r : Response)

def statusLine : String := "HTTP/1.1 " ++ toString r.status.code ++ " " ++ r.reason

theorem staysInLine_statusLine : StaysInLine r.statusLine := by
  have hreason : StaysInLine r.reason := by
    unfold reason
    cases h : r.status.phrase? with
    | none => decide
    | some phrase => exact Status.staysInLine_of_phrase? h
  unfold statusLine
  apply StaysInLine.append _ hreason
  apply StaysInLine.append _ (by decide)
  exact StaysInLine.append (by decide) (staysInLine_toString _)

theorem staysInLine_headerLine (name : HeaderName) (value : HeaderValue) :
    StaysInLine (headerLine name value) := by
  unfold headerLine
  apply StaysInLine.append _ value.staysInLine_decodeLossy
  exact StaysInLine.append name.staysInLine_text (by decide)

theorem staysInLine_headLines : ∀ line ∈ r.headLines, StaysInLine line := by
  unfold headLines
  simp only [List.forall_mem_append, List.forall_mem_singleton, List.forall_mem_map]
  refine ⟨⟨r.staysInLine_statusLine, ?_⟩, ?_⟩
  . intro entry _
    exact staysInLine_headerLine entry.1 entry.2
  . split
    . decide
    . simp

/-- A line of a header field is cut where its name ends, even if its value holds such a mark. -/
theorem cutText?_headerLine (name : HeaderName) (value : HeaderValue) :
    Pieces.cutText? ": " (headerLine name value)
      =
    some (name.text, Utf8.decodeLossy value.bytes) := by
  have hcut : Pieces.cut? ": ".toList (headerLine name value).toList
      = some (name.text.toList, (Utf8.decodeLossy value.bytes).toList) := by
    unfold headerLine
    rw [String.toList_append, String.toList_append]
    exact Pieces.cut?_append name.colon_not_mem_text
  simp only [Pieces.cutText?, hcut, Option.map_some, String.ofList_toList]

theorem toList_head : r.head.toList
    =
    (r.headLines.map String.toList).flatMap (· ++ "\r\n".toList) ++ "\r\n".toList := by
  unfold head
  rw [String.toList_append, String.toList_join, List.flatMap_map, List.flatMap_map]
  simp

theorem texts_head : Pieces.texts "\r\n" r.head = r.headLines ++ ["", ""] := by
  have hmark : "\r\n".toList = ['\r', '\n'] := rfl
  have hlines : ∀ line ∈ r.headLines.map String.toList, '\r' ∉ line := by
    rw [List.forall_mem_map]
    intro line hline
    exact (r.staysInLine_headLines line hline).1
  have hend : Pieces.split ['\r', '\n'] ['\r', '\n'] = [[], []] :=
    (Pieces.split_append List.not_mem_nil).trans
      (congrArg _ (Pieces.split_eq_singleton List.not_mem_nil))
  unfold Pieces.texts
  rw [toList_head, hmark, Pieces.split_lines hlines, hend, List.map_append, List.map_map]
  simp [Function.comp_def]

/--
Split at its line ends, the head of a response is the status line, a line for every header entry in
order, one more if the body goes in chunks, and two empty texts. No part holds as much as half of a
line end, and nothing but the line ends is lost. Cut at the first colon and space, the line of an
entry gives back its name and what its value is read as; if that is of ASCII, it is the value.
-/
theorem head_is_split_as_written (r : Response) :
    Pieces.texts "\r\n" r.head
      =
    r.statusLine :: r.headers.entries.map (fun entry => headerLine entry.1 entry.2)
      ++ (if r.chunked then ["transfer-encoding: chunked"] else []) ++ ["", ""] ∧
    (∀ part ∈ Pieces.texts "\r\n" r.head, StaysInLine part) ∧
    "\r\n".intercalate (Pieces.texts "\r\n" r.head) = r.head ∧
    ∀ entry ∈ r.headers.entries,
      Pieces.cutText? ": " (headerLine entry.1 entry.2)
        =
      some (entry.1.text, Utf8.decodeLossy entry.2.bytes) ∧
      ((∀ b ∈ entry.2.bytes, b < 0x80) →
        Utf8.encode (Utf8.decodeLossy entry.2.bytes) = entry.2.bytes) := by
  have hparts : Pieces.texts "\r\n" r.head = r.headLines ++ ["", ""] := r.texts_head
  refine ⟨hparts, ?_, ?_, ?_⟩
  . rw [hparts, List.forall_mem_append]
    refine ⟨r.staysInLine_headLines, ?_⟩
    decide
  . rw [← String.toList_inj, String.toList_intercalate]
    unfold Pieces.texts
    rw [List.map_map, List.map_congr_left (g := id) (by simp), List.map_id]
    exact Pieces.intercalate_split (by decide) _
  . intro entry _
    exact ⟨cutText?_headerLine entry.1 entry.2, Utf8.encode_decodeLossy⟩

/-- A value that looks like a header field of its own. -/
def lookalike : HeaderValue := ⟨Utf8.encode ": x: y", by decide⟩

def moved : Response :=
  { (new .notFound).withHeader .location lookalike with chunked := true }

theorem head_of_moved :
    (.location, lookalike) ∈ moved.headers.entries ∧
    Pieces.texts "\r\n" moved.head
      =
    ["HTTP/1.1 404 Not Found", "location: : x: y", "transfer-encoding: chunked", "", ""] ∧
    Pieces.cutText? ": " "location: : x: y" = some ("location", ": x: y") ∧
    Utf8.encode (Utf8.decodeLossy lookalike.bytes) = lookalike.bytes := by
  have hentry : (.location, lookalike) ∈ moved.headers.entries := List.mem_singleton_self _
  have hsplit := head_is_split_as_written moved
  have hcut := hsplit.2.2.2 _ hentry
  have hstatus : moved.statusLine = "HTTP/1.1 404 Not Found" := by decide
  have hvalue : Utf8.decodeLossy lookalike.bytes = ": x: y" := by
    unfold Utf8.decodeLossy
    rw [Utf8.scalars_of_ascii (by decide +kernel)]
    decide
  have hline : headerLine .location lookalike = "location: : x: y" := by
    unfold headerLine
    rw [hvalue]
    decide
  rw [hstatus] at hsplit
  dsimp only at hcut
  rw [hline, hvalue] at hcut
  rw [hvalue]
  refine ⟨hentry, hsplit.1.trans ?_, hcut.1, hcut.2 (by decide +kernel)⟩
  rw [← hline]
  rfl

end Response
end PageDispatch
