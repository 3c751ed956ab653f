import PageDispatch.Proofs.Yaml.Words

/-!
This module contains the tokens of texts in which each line has a name and may have a value. Both
are words. A line closes the blocks right of its column, and opens one there unless it is open.
-/

namespace PageDispatch
namespace Yaml

variable {c : Char} {cs word : List Char}

/-! Texts of lines. -/

structure Line where
  indent : Nat
  name : List Char
  value : Option (List Char)

namespace Line

/-- What stands behind the colon. -/
def tail (l : Line) : List Char := l.value.elim ['\n'] fun value => ' ' :: (value ++ ['\n'])

def indentOf (lines : List Line) : Nat := lines.head?.elim 0 (·.indent)

def render (lines : List Line) : List Char :=
  lines.flatMap fun l => List.replicate l.indent ' ' ++ (l.name ++ ':' :: l.tail)

/-- The text behind the indentation of the first line. -/
def unindented : List Line → List Char
  | [] => []
  | l :: rest => l.name ++ ':' :: (l.tail ++ render rest)

/-- Whether names and values are words, and nothing is indented below a line with a value. -/
def Fit : List Line → Prop
  | [] => True
  | l :: rest =>
    IsWord l.name ∧ l.name.length ≤ keyLength ∧
      (∀ value ∈ l.value, IsWord value ∧ indentOf rest ≤ l.indent) ∧ Fit rest

theorem render_eq (lines : List Line) :
    render lines = List.replicate (indentOf lines) ' ' ++ unindented lines := by
  cases lines with
  | nil => rfl
  | cons l rest => simp [render, unindented, indentOf]

theorem settled_unindented {lines : List Line} (h : Fit lines) : Settled (unindented lines) := by
  cases lines with
  | nil => exact settled_nil
  | cons l rest => exact h.1.settled _

theorem isAllowed_of_mem_render {lines : List Line} (h : Fit lines) :
    ∀ c ∈ render lines, isAllowed c := by
  induction lines with
  | nil => exact nofun
  | cons l rest ih =>
    obtain ⟨hname, _, hvalue, hrest⟩ := h
    have hrest := ih hrest
    have htail : ∀ c ∈ l.tail, isAllowed c := by
      unfold tail
      cases hv : l.value with
      | none => simp [isAllowed]
      | some value =>
        have hword := (hvalue value hv).1.2
        intro c hc
        simp only [Option.elim_some, List.mem_cons, List.mem_append, List.not_mem_nil,
          or_false] at hc
        rcases hc with rfl | hc | rfl
        . decide
        . exact isAllowed_of_isNameChar (hword c hc)
        . decide
    intro c hc
    simp only [render, List.flatMap_cons, List.mem_append, List.mem_cons] at hc
    rcases hc with (hc | hc | rfl | hc) | hc
    . rw [List.eq_of_mem_replicate hc]
      decide
    . exact isAllowed_of_isNameChar (hname.2 c hc)
    . decide
    . exact htail c hc
    . exact hrest c hc

end Line

/-! Blocks at the start of a line. -/

/-- The tokens and the open blocks at the start of a line. -/
structure Margin where
  tokens : List Token
  blocks : List Nat

namespace Margin

def closeTo (m : Margin) (column : Nat) : Margin :=
  let closed := m.blocks.takeWhile (column < ·)
  ⟨List.replicate closed.length .blockEnd ++ m.tokens, m.blocks.drop closed.length⟩

def openAt (m : Margin) (column : Nat) : Margin :=
  if m.blocks.head?.any (column ≤ ·) then m
  else ⟨.blockMappingStart :: m.tokens, column :: m.blocks⟩

def goTo (m : Margin) (column : Nat) : Margin := (m.closeTo column).openAt column

def behindName (m : Margin) (name : List Char) : Margin :=
  ⟨.value :: .scalar name .plain :: .key :: m.tokens, m.blocks⟩

def behindValue (m : Margin) (value : List Char) : Margin :=
  ⟨.scalar value .plain :: m.tokens, m.blocks⟩

def after (m : Margin) (l : Line) : Margin :=
  let named := (m.goTo l.indent).behindName l.name
  l.value.elim named named.behindValue

def finish (m : Margin) : List Token :=
  m.tokens.reverse ++ List.replicate m.blocks.length .blockEnd

/-- The lexer at the start of a line, where a key may stand. -/
def start (m : Margin) (c : Cursor) : Lexer := ⟨c, m.tokens, m.blocks, none, [], true⟩

/-- The lexer behind a colon, where no key may stand. -/
def inside (m : Margin) (c : Cursor) : Lexer := ⟨c, m.tokens, m.blocks, none, [], false⟩

theorem head?_closeTo_le (m : Margin) (column : Nat) :
    ∀ i ∈ (m.closeTo column).blocks.head?, i ≤ column := by
  have hsplit := @List.takeWhile_append_dropWhile Nat (column < ·) m.blocks
  have hblocks : (m.closeTo column).blocks = m.blocks.dropWhile (column < ·) :=
    calc m.blocks.drop (m.blocks.takeWhile (column < ·)).length
      _ = (m.blocks.takeWhile (column < ·) ++ m.blocks.dropWhile (column < ·)).drop
          (m.blocks.takeWhile (column < ·)).length := by rw [hsplit]
      _ = m.blocks.dropWhile (column < ·) := List.drop_left
  have hhead := List.head?_dropWhile_not (fun i => decide (column < i)) m.blocks
  intro i hi
  rw [hblocks] at hi
  rw [Option.mem_def.mp hi] at hhead
  simpa using hhead

theorem head?_goTo (m : Margin) (column : Nat) : (m.goTo column).blocks.head? = some column := by
  have hle := m.head?_closeTo_le column
  unfold goTo openAt
  split
  . next hopen =>
    cases hhead : (m.closeTo column).blocks.head? with
    | none => simp [hhead] at hopen
    | some i =>
      have := hle i hhead
      simp [hhead] at hopen
      rw [Nat.le_antisymm this hopen]
  . rfl

end Margin

/-! Steps of the lexer. -/

namespace Lexer

variable {s t : Lexer} {m : Margin} {tokens all : List Token} {line column index : Nat}

theorem next?_of_isNameChar (hrest : s.cursor.rest = c :: cs) (hc : isNameChar c) :
    s.next? c = s.plain? := by
  have hne : ∀ d, isNameChar d = false → c ≠ d := fun d => ne_of_isNameChar hc
  have hdash := Cursor.atMarker_of_ne hrest (hne '-' (by decide))
  have hdot := Cursor.atMarker_of_ne hrest (hne '.' (by decide))
  have hpercent := hne '%' (by decide)
  unfold next?
  simp only [hdash, hdot, hpercent, and_false, if_false, Bool.false_eq_true]
  split
  all_goals first | rfl | exact absurd hc (by decide)

theorem next?_colon (hrest : s.cursor.rest = ':' :: cs) (hend : endsWord cs) :
    s.next? ':' = s.value? := by
  have hdash := Cursor.atMarker_of_ne hrest (show ':' ≠ '-' by decide)
  have hdot := Cursor.atMarker_of_ne hrest (show ':' ≠ '.' by decide)
  unfold next?
  simp [hdash, hdot, hrest, hend]

theorem closeBlocks_of_le (hblocks : ∀ i ∈ s.blocks.head?, i ≤ column) :
    s.closeBlocks (some column) = s := by
  have hclosed : (s.blocks.takeWhile fun block => (some column).all (· < block)) = [] := by
    cases hs : s.blocks with
    | nil => rfl
    | cons i outer =>
      have hle := hblocks i (by rw [hs]; rfl)
      simp [hle]
  unfold closeBlocks
  rw [hclosed]
  simp

theorem plain?_word {place : Option KeyPlace} {d : Cursor} {gap : Gap} {tail : List Char}
    (hword : IsWord word) (hrest : s.cursor.rest = word ++ tail) (hflow : s.outer = [])
    (htail : Scalar.plainChunk? false tail = some [])
    (hgap : Gap.read? (s.blocks.head?.elim 0 (· + 1)) (.spaces []) (s.cursor.skip word.length)
      = some (gap, d))
    (hend : gap = .spaces [] ∨ d.column < s.blocks.head?.elim 0 (· + 1))
    (hplace : s.noteKey? = some { s with place }) :
    s.plain?
      =
    some ⟨d, .scalar word .plain :: s.tokens, s.blocks, place, [], gap.isBroken⟩ := by
  have hplain := Scalar.plain?_word hword hrest htail hgap hend
  unfold plain?
  rw [hplace]
  simp [inFlow, hflow, hplain, takeTo, push]

theorem plain?_name (hword : IsWord word) (hend : endsWord cs) :
    (m.start ⟨word ++ ':' :: cs, line, column, index⟩).plain?
      =
    some ⟨⟨':' :: cs, line, column + word.length, index + word.length⟩,
      .scalar word .plain :: m.tokens, m.blocks,
      some ⟨m.blocks.head? == some column, m.tokens.length, line, column, index⟩, [], false⟩ := by
  have hskip : Cursor.skip ⟨word ++ ':' :: cs, line, column, index⟩ word.length
      = ⟨':' :: cs, line, column + word.length, index + word.length⟩ := by
    simp [Cursor.skip]
  refine plain?_word hword rfl rfl ?_ ?_ (Or.inl rfl) rfl
  . simp [Scalar.plainChunk?, isGap, isSpace, isBreak, hend]
  . refine (congrArg (Gap.read? _ _) hskip).trans ?_
    apply Gap.read?_go_settled
    apply settled_cons <;> decide

/-- A value takes the end of its line, and the blanks that the next line starts with. -/
theorem plain?_value {n i : Nat} (hword : IsWord word) (hsettled : Settled cs)
    (hblock : m.blocks.head? = some i) (hn : n ≤ i) :
    (m.inside ⟨word ++ '\n' :: (List.replicate n ' ' ++ cs), line, column, index⟩).plain?
      =
    some ((m.behindValue word).start ⟨cs, line + 1, n, index + word.length + 1 + n⟩) := by
  have hskip : Cursor.skip ⟨word ++ '\n' :: (List.replicate n ' ' ++ cs), line, column, index⟩
        word.length
      = ⟨'\n' :: (List.replicate n ' ' ++ cs), line, column + word.length,
        index + word.length⟩ := by
    simp [Cursor.skip]
  have hgap := (congrArg (Gap.read? (m.blocks.head?.elim 0 (· + 1)) (.spaces [])) hskip).trans
    (Gap.read?_newline hsettled)
  have hend : n < m.blocks.head?.elim 0 (· + 1) := by
    rw [hblock]
    exact Nat.lt_succ_of_le hn
  exact plain?_word (s := m.inside _) hword rfl rfl rfl hgap (Or.inr hend) rfl

theorem insert_append {later : List Token} (hs : s.tokens = later ++ tokens) (token : Token) :
    s.insert tokens.length token = { s with tokens := later ++ token :: tokens } := by
  have hlength : (later ++ tokens).length - tokens.length = later.length := by simp
  unfold insert
  rw [hs]
  simp only [hlength, List.take_left, List.drop_left]

/-- The key gets its tokens at the colon: where it started, a block opens if need be. -/
theorem value?_of_place {c : Cursor} {required : Bool} :
    value? ⟨c, .scalar word .plain :: m.tokens, m.blocks,
      some ⟨required, m.tokens.length, line, column, index⟩, [], false⟩
      =
    some (((m.openAt column).behindName word).inside (c.skip 1)) := by
  unfold value? openBlock Margin.openAt
  dsimp only
  rw [insert_append (show _ = [.scalar word .plain] ++ m.tokens from rfl)]
  split
  . next hopen =>
    have hopen : m.blocks.head?.any (column ≤ ·) := by simpa [inFlow] using hopen
    rw [if_pos hopen]
    rfl
  . next hopen =>
    have hopen : ¬m.blocks.head?.any (column ≤ ·) := by simpa [inFlow] using hopen
    rw [if_neg hopen, insert_append (show _ = [.scalar word .plain, .key] ++ m.tokens from rfl)]
    rfl

/-! Lines. -/

/-- Whether a lexer gives these tokens, with the fuel that `tokens?` has. -/
def Lexes (s : Lexer) (tokens : List Token) : Prop :=
  ∀ fuel, s.cursor.rest.length < fuel → tokens?.go fuel s = some tokens

theorem Lexes.of_skipGaps (hskip : s.skipGaps = t.skipGaps)
    (hlength : t.cursor.rest.length ≤ s.cursor.rest.length) (h : Lexes t all) : Lexes s all := by
  intro fuel hfuel
  have hgo := h fuel (by omega)
  cases fuel with
  | zero => omega
  | succ fuel =>
    unfold tokens?.go at hgo ⊢
    rw [hskip]
    exact hgo

theorem Lexes.of_next? (hsettled : Settled s.cursor.rest) (hflow : s.outer = [])
    (hplace : fresh? s.cursor s.place = some s.place) (hrest : s.cursor.rest = c :: cs)
    (hnext : (s.closeBlocks (some s.cursor.column)).next? c = some t)
    (hlength : t.cursor.rest.length < s.cursor.rest.length) (h : Lexes t all) : Lexes s all := by
  have hstale : s.dropStaleKeys? = some s := by
    cases s
    subst hflow
    simp_all [dropStaleKeys?]
  intro fuel hfuel
  cases fuel with
  | zero => omega
  | succ fuel =>
    have hgo := h fuel (by omega)
    unfold tokens?.go
    rw [skipGaps_of_settled hsettled, hstale]
    simp [hrest, hnext, hgo]

theorem Lexes.of_word (hword : IsWord word) (hrest : s.cursor.rest = word ++ cs)
    (hflow : s.outer = []) (hplace : s.place = none)
    (hplain : (s.closeBlocks (some s.cursor.column)).plain? = some t)
    (hlength : t.cursor.rest.length ≤ cs.length) (h : Lexes t all) : Lexes s all := by
  obtain ⟨c, rest, rfl⟩ := List.exists_cons_of_ne_nil hword.1
  have hc := hword.2 c List.mem_cons_self
  have hclosed : (s.closeBlocks (some s.cursor.column)).cursor.rest = c :: (rest ++ cs) := by
    unfold closeBlocks
    split <;> exact hrest
  refine Lexes.of_next? ?_ hflow ?_ hrest ?_ ?_ h
  . rw [hrest]
    exact hword.settled cs
  . rw [hplace]
    rfl
  . rw [next?_of_isNameChar hclosed hc]
    exact hplain
  . simp [hrest]
    omega

theorem Lexes.of_colon {start first : Nat} (required : Bool) (hend : endsWord cs)
    (hblocks : ∀ i ∈ m.blocks.head?, i ≤ column) (hindex : index ≤ first + keyLength)
    (h : Lexes (((m.openAt start).behindName word).inside ⟨cs, line, column + 1, index + 1⟩) all) :
    Lexes ⟨⟨':' :: cs, line, column, index⟩, .scalar word .plain :: m.tokens, m.blocks,
      some ⟨required, m.tokens.length, line, start, first⟩, [], false⟩ all := by
  refine Lexes.of_next? ?_ rfl ?_ rfl ?_ ?_ h
  . apply settled_cons <;> decide
  . unfold fresh?
    dsimp only
    rw [if_neg (by omega)]
  . rw [closeBlocks_of_le hblocks, next?_colon rfl hend, value?_of_place]
    rfl
  . simp [Margin.inside]

theorem Lexes.of_name (hword : IsWord word) (hlength : word.length ≤ keyLength)
    (hend : endsWord cs)
    (h : Lexes (((m.goTo column).behindName word).inside
      ⟨cs, line, column + word.length + 1, index + word.length + 1⟩) all) :
    Lexes (m.start ⟨word ++ ':' :: cs, line, column, index⟩) all := by
  have hblocks := m.head?_closeTo_le column
  refine Lexes.of_word hword rfl rfl rfl (plain?_name (m := m.closeTo column) hword hend)
    (Nat.le_refl _) (Lexes.of_colon _ hend ?_ (Nat.add_le_add_left hlength index) h)
  intro i hi
  have := hblocks i hi
  omega

theorem Lexes.of_value {n i : Nat} (hword : IsWord word) (hsettled : Settled cs)
    (hblock : m.blocks.head? = some i) (hle : i ≤ column) (hn : n ≤ i)
    (h : Lexes ((m.behindValue word).start ⟨cs, line + 1, n, index + 1 + word.length + 1 + n⟩)
      all) :
    Lexes (m.inside ⟨' ' :: (word ++ '\n' :: (List.replicate n ' ' ++ cs)), line, column, index⟩)
      all := by
  have hafter := hword.settled ('\n' :: (List.replicate n ' ' ++ cs))
  have hblocks : ∀ j ∈ m.blocks.head?, j ≤ column + 1 := by
    simp [hblock]
    omega
  have hword : Lexes (m.inside ⟨word ++ '\n' :: (List.replicate n ' ' ++ cs), line, column + 1,
      index + 1⟩) all := by
    refine Lexes.of_word hword rfl rfl rfl ?_ ?_ h
    . rw [closeBlocks_of_le hblocks]
      exact plain?_value hword hsettled hblock hn
    . simp [Margin.start]
      omega
  refine hword.of_skipGaps ?_ ?_
  . rw [skipGaps_space hafter rfl]
    exact (skipGaps_of_settled hafter).symm
  . simp [Margin.inside]

theorem Lexes.of_newline {n : Nat} (hsettled : Settled cs)
    (h : Lexes (m.start ⟨cs, line + 1, n, index + 1 + n⟩) all) :
    Lexes (m.inside ⟨'\n' :: (List.replicate n ' ' ++ cs), line, column, index⟩) all := by
  refine h.of_skipGaps ?_ ?_
  . rw [skipGaps_newline hsettled rfl rfl]
    exact (skipGaps_of_settled hsettled).symm
  . simp [Margin.start, Margin.inside]
    omega

theorem lexes_nil : Lexes (m.start ⟨[], line, column, index⟩) m.finish := by
  have hall := @List.takeWhile_append_of_pos Nat (fun _ => true) m.blocks [] fun _ _ => rfl
  rw [List.append_nil, List.takeWhile_nil, List.append_nil] at hall
  intro fuel hfuel
  cases fuel with
  | zero => omega
  | succ fuel =>
    unfold tokens?.go
    rw [skipGaps_of_settled settled_nil]
    simp [dropStaleKeys?, fresh?, Margin.start, closeBlocks, inFlow, forgetKey?, Margin.finish,
      hall]

theorem lexes_lines {lines : List Line} (h : Line.Fit lines) (m : Margin) (line index : Nat) :
    Lexes (m.start ⟨Line.unindented lines, line, Line.indentOf lines, index⟩)
      (lines.foldl Margin.after m).finish := by
  -- Where a line starts depends on the one before it, so all places and margins are considered.
  induction lines generalizing m line index with
  | nil => exact lexes_nil
  | cons l rest ih =>
    have hsettled := Line.settled_unindented h.2.2.2
    obtain ⟨hname, hlength, hvalue, hrest⟩ := h
    have htext : Line.unindented (l :: rest) = l.name ++ ':' :: (l.tail ++
        (List.replicate (Line.indentOf rest) ' ' ++ Line.unindented rest)) := by
      rw [← Line.render_eq]
      rfl
    have hafter := ih hrest (m.after l)
    unfold Line.tail at htext
    unfold Margin.after at hafter
    rw [htext, List.foldl_cons, Margin.after]
    cases hv : l.value with
    | none =>
      rw [hv] at hafter
      apply Lexes.of_name hname hlength rfl
      apply Lexes.of_newline hsettled
      exact hafter _ _
    | some value =>
      have ⟨hword, hle⟩ := hvalue value hv
      rw [hv] at hafter
      rw [Option.elim_some, List.cons_append, List.append_assoc]
      apply Lexes.of_name hname hlength rfl
      refine Lexes.of_value hword hsettled (m.head?_goTo l.indent) ?_ hle (hafter _ _)
      exact Nat.le_trans (Nat.le_add_right _ l.name.length) (Nat.le_succ _)

end Lexer

theorem tokens?_render {lines : List Line} (h : Line.Fit lines)
    (hindent : Line.indentOf lines = 0) :
    tokens? (Line.render lines) = some (lines.foldl Margin.after ⟨[], []⟩).finish := by
  have hlexes := Lexer.lexes_lines h ⟨[], []⟩ 0 0
  have hrender := Line.render_eq lines
  have hallowed := Line.isAllowed_of_mem_render h
  unfold tokens?
  rw [if_pos (List.all_eq_true.mpr hallowed)]
  rw [hindent] at hrender hlexes
  rw [hrender]
  exact hlexes _ (Nat.lt_succ_self _)

end Yaml
end PageDispatch
