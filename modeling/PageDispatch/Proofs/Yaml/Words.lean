import PageDispatch.Yaml.Lexer

/-!
This module contains how the lexer goes over gaps, and over words: letters, digits and underscores,
which need no quotes at any place.
-/

namespace PageDispatch
namespace Yaml

def isNameChar (c : Char) : Bool := c.isAlphanum || c == '_'

def IsWord (cs : List Char) : Prop := cs ≠ [] ∧ ∀ c ∈ cs, isNameChar c

instance (cs : List Char) : Decidable (IsWord cs) :=
  @instDecidableAnd _ _ inferInstance (List.decidableBAll _ cs)

variable {c d : Char} {cs word : List Char}

theorem ne_of_isNameChar (hc : isNameChar c) (hd : isNameChar d = false) : c ≠ d := by
  rintro rfl
  rw [hc] at hd
  cases hd

theorem toNat_of_isNameChar (hc : isNameChar c) : 0x30 ≤ c.toNat ∧ c.toNat ≤ 0x7A := by
  unfold isNameChar Char.isAlphanum Char.isAlpha Char.isUpper Char.isLower Char.isDigit at hc
  simp [UInt32.le_iff_toNat_le, -Char.toNat_val] at hc
  rcases hc with h | rfl
  . simp only [← Char.toNat_val]
    omega
  . decide

theorem isAllowed_of_isNameChar (hc : isNameChar c) : isAllowed c = true := by
  have ⟨hlow, hhigh⟩ := toNat_of_isNameChar hc
  unfold isAllowed
  simp
  omega

theorem isGap_of_isNameChar (hc : isNameChar c) : isGap c = false := by
  cases hgap : isGap c with
  | false => rfl
  | true =>
    unfold isGap isSpace isBreak at hgap
    simp at hgap
    rcases hgap with (rfl | rfl) | (((rfl | rfl) | rfl) | rfl) | rfl
    all_goals simp [isNameChar] at hc

/-- Whether no gap goes on here: neither blanks nor a comment, nor the mark of a byte order. -/
def Settled (cs : List Char) : Prop := ∀ c ∈ cs.head?, isGap c = false ∧ c ≠ '#' ∧ c ≠ '\ufeff'

theorem settled_nil : Settled [] := by
  intro c hc
  cases hc

theorem settled_cons (hgap : isGap c = false) (hmark : c ≠ '#') (hfirst : c ≠ '\ufeff')
    (cs : List Char) : Settled (c :: cs) := by
  rintro _ ⟨⟩
  exact ⟨hgap, hmark, hfirst⟩

theorem IsWord.settled (h : IsWord word) (cs : List Char) : Settled (word ++ cs) := by
  cases word with
  | nil => exact absurd rfl h.1
  | cons c rest =>
    have hc := h.2 c List.mem_cons_self
    apply settled_cons
    . exact isGap_of_isNameChar hc
    . exact ne_of_isNameChar hc (by decide)
    . exact ne_of_isNameChar hc (by decide)

namespace Cursor

theorem takeBreak?_of_settled {c : Cursor} (h : Settled c.rest) : c.takeBreak? = none := by
  unfold takeBreak?
  split
  . next heq =>
    rw [heq] at h
    have := (h _ rfl).1
    contradiction
  . next ch rest _ heq =>
    rw [heq] at h
    have hgap := Bool.or_eq_false_iff.mp (h ch rfl).1
    simp [hgap.2]
  . rfl

theorem takeBreak?_newline {line column index : Nat} :
    takeBreak? ⟨'\n' :: cs, line, column, index⟩ = some ('\n', ⟨cs, line + 1, 0, index + 1⟩) :=
  rfl

theorem skipWhile_eq_skip {c : Cursor} {p : Char → Bool} (hrest : c.rest = word ++ cs)
    (hword : ∀ ch ∈ word, p ch) (hcs : ∀ ch ∈ cs.head?, p ch = false) :
    c.skipWhile p = c.skip word.length := by
  have htake : cs.takeWhile p = [] := by
    cases cs with
    | nil => rfl
    | cons ch rest => simp [hcs ch rfl]
  unfold skipWhile
  rw [hrest, List.takeWhile_append_of_pos hword, htake, List.append_nil]

theorem skipComment_of_settled {c : Cursor} (h : Settled c.rest) : c.skipComment = c := by
  unfold skipComment
  rw [if_neg]
  exact fun heq => (h _ heq).2.1 rfl

theorem atMarker_of_ne {c : Cursor} {ch mark : Char} (hrest : c.rest = ch :: cs)
    (hne : ch ≠ mark) : c.atMarker mark = false := by
  unfold atMarker
  simp [hrest, hne.symm]

end Cursor

/-! Gaps between tokens. -/

namespace Lexer

variable {s : Lexer}

/-- Whether a key is allowed does not matter: it decides about tabs, and there are none. -/
theorem skipGaps_go_spaces (n fuel : Nat) (h : Settled cs)
    (hs : s.cursor.rest = List.replicate n ' ' ++ cs) :
    skipGaps.go (fuel + 1) s = { s with cursor := s.cursor.skip n } := by
  have hfirst : s.cursor.rest.head? ≠ some '\ufeff' := by
    rw [hs]
    cases n with
    | zero => exact fun heq => (h _ heq).2.2 rfl
    | succ n => simp [List.replicate_succ]
  have hsettled : Settled (s.cursor.skip n).rest := by
    simpa [hs] using h
  have hskip : (s.cursor.skipWhile fun ch =>
      ch == ' ' || ((s.inFlow || !s.keyAllowed) && ch == '\t')) = s.cursor.skip n := by
    rw [Cursor.skipWhile_eq_skip hs, List.length_replicate]
    . intro ch hch
      simp [List.eq_of_mem_replicate hch]
    . intro ch hch
      have hspace := (Bool.or_eq_false_iff.mp (h ch hch).1).1
      unfold isSpace at hspace
      simp_all
  unfold skipGaps.go
  simp only [hfirst, and_false, if_false, hskip, Cursor.skipComment_of_settled hsettled,
    Cursor.takeBreak?_of_settled hsettled]

theorem skipGaps_of_settled (h : Settled s.cursor.rest) : s.skipGaps = s :=
  skipGaps_go_spaces 0 _ h rfl

theorem skipGaps_space {line column index : Nat} (h : Settled cs)
    (hs : s.cursor = ⟨' ' :: cs, line, column, index⟩) :
    s.skipGaps = { s with cursor := ⟨cs, line, column + 1, index + 1⟩ } := by
  refine (skipGaps_go_spaces 1 _ h (by rw [hs]; rfl)).trans ?_
  rw [hs]
  rfl

theorem skipGaps_newline {line column index n : Nat} (h : Settled cs) (hflow : s.outer = [])
    (hs : s.cursor = ⟨'\n' :: (List.replicate n ' ' ++ cs), line, column, index⟩) :
    s.skipGaps
      =
    { s with cursor := ⟨cs, line + 1, n, index + 1 + n⟩, keyAllowed := true } := by
  have hskip : (s.cursor.skipWhile fun ch =>
      ch == ' ' || ((s.inFlow || !s.keyAllowed) && ch == '\t')) = s.cursor := by
    rw [hs]
    unfold Cursor.skipWhile
    simp
  have hcomment : s.cursor.skipComment = s.cursor := by
    rw [hs]
    rfl
  have hbreak := @Cursor.takeBreak?_newline (List.replicate n ' ' ++ cs) line column index
  have hfirst : s.cursor.rest.head? ≠ some '\ufeff' := by
    simp [hs]
  unfold skipGaps skipGaps.go
  simp only [hfirst, and_false, if_false, hskip, hcomment]
  simp only [hs, hbreak, List.length_cons]
  rw [skipGaps_go_spaces n _ h rfl]
  simp [Cursor.skip, inFlow, hflow]

end Lexer

theorem Gap.read?_go_settled {limit fuel : Nat} {gap : Gap} {c : Cursor} (h : Settled c.rest) :
    Gap.read?.go limit (fuel + 1) gap c = some (gap, c) := by
  have hbreak := Cursor.takeBreak?_of_settled h
  unfold Gap.read?.go
  split
  . rfl
  . next ch rest heq =>
    rw [heq] at h
    have hgap := Bool.or_eq_false_iff.mp (h ch rfl).1
    rw [if_neg (by simp [hgap.1]), hbreak]

theorem Gap.read?_go_spaces {limit line fuel : Nat} (first : Option Char) (h : Settled cs)
    (n column index : Nat) (hn : n < fuel) :
    Gap.read?.go limit fuel (.breaks first []) ⟨List.replicate n ' ' ++ cs, line, column, index⟩
      =
    some (.breaks first [], ⟨cs, line, column + n, index + n⟩) := by
  induction n generalizing column index fuel with
  | zero =>
    cases fuel with
    | zero => omega
    | succ fuel => exact Gap.read?_go_settled h
  | succ n ih =>
    obtain ⟨fuel, rfl⟩ := Nat.exists_eq_add_of_le' (Nat.one_le_of_lt hn)
    have hnext := @ih fuel (column + 1) (index + 1) (by omega)
    unfold Gap.read?.go
    simp only [List.replicate_succ, List.cons_append]
    rw [if_pos (by decide), if_neg (by simp)]
    refine hnext.trans ?_
    simp only [Nat.add_right_comm, Nat.add_assoc]

theorem Gap.read?_newline {limit line column index n : Nat} (h : Settled cs) :
    Gap.read? limit (.spaces []) ⟨'\n' :: (List.replicate n ' ' ++ cs), line, column, index⟩
      =
    some (.breaks (some '\n') [], ⟨cs, line + 1, n, index + 1 + n⟩) := by
  unfold Gap.read? Gap.read?.go
  simp only [Cursor.takeBreak?_newline]
  rw [if_neg (by decide)]
  refine (Gap.read?_go_spaces (some '\n') h n 0 (index + 1) ?_).trans ?_
  . rw [List.length_cons, List.length_append, List.length_replicate]
    omega
  . rw [Nat.zero_add]

/-! Scalars. -/

namespace Scalar

theorem plainChunk?_word {tail : List Char} (hword : ∀ c ∈ word, isNameChar c)
    (htail : plainChunk? false tail = some []) :
    plainChunk? false (word ++ tail) = some word := by
  induction word with
  | nil => exact htail
  | cons c rest ih =>
    have hc := hword c List.mem_cons_self
    have hcolon : c ≠ ':' := ne_of_isNameChar hc (by decide)
    have hrest := ih (fun d hd => hword d (List.mem_cons_of_mem c hd))
    rw [List.cons_append, plainChunk?, if_neg (by simp [isGap_of_isNameChar hc]),
      if_neg (by simp), if_neg (by simp [hcolon]), hrest]
    rfl

theorem plain?_word {limit : Nat} {c d : Cursor} {gap : Gap} {tail : List Char}
    (hword : IsWord word) (hrest : c.rest = word ++ tail) (htail : plainChunk? false tail = some [])
    (hgap : Gap.read? limit (.spaces []) (c.skip word.length) = some (gap, d))
    (hend : gap = .spaces [] ∨ d.column < limit) :
    plain? false limit c = some ⟨word, gap.isBroken, d⟩ := by
  obtain ⟨ch, rest, rfl⟩ := List.exists_cons_of_ne_nil hword.1
  have hch := hword.2 ch List.mem_cons_self
  have hchunk := plainChunk?_word hword.2 htail
  have hbound : c.atBoundary = false := by
    unfold Cursor.atBoundary
    rw [Cursor.atMarker_of_ne hrest (ne_of_isNameChar hch (by decide)),
      Cursor.atMarker_of_ne hrest (ne_of_isNameChar hch (by decide))]
    rfl
  have hcomment : (c.rest.head? == some '#') = false := by
    have : ch ≠ '#' := ne_of_isNameChar hch (by decide)
    simp [hrest, this]
  have hdone : (decide (gap = .spaces []) || !false && decide (d.column < limit)) = true := by
    simpa using hend
  unfold plain? plain?.go
  rw [hbound, hcomment, hrest]
  simp only [Bool.or_self, Bool.false_eq_true, if_false, hchunk, hgap, hdone, if_true]
  rfl

end Scalar

end Yaml
end PageDispatch
