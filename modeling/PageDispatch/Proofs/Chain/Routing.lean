import Mathlib.Data.List.Forall2
import Mathlib.Data.List.TakeWhile
import PageDispatch.Chain.PathPattern
import PageDispatch.Proofs.Chain.Regex

/-!
This module contains the verification of path patterns: which of them are refused, which paths the
others fit and what they capture, and that they do as their regular expressions do.
-/

namespace PageDispatch

namespace Segment

/-- Whether a piece of a path can stand for a segment, and what the segment captures then. -/
inductive Meets : Segment → List Char → List (String × String) → Prop
  | literal (text : List Char) : Meets (.literal text) text []
  | param (name : String) {piece : List Char} (hne : piece ≠ []) (hslash : '/' ∉ piece) :
    Meets (.param name) piece [(name, String.ofList piece)]

/-- Whether a segment can stand between two slashes. -/
def IsProper : Segment → Prop
  | literal text => '/' ∉ text
  | param _ => True

def name? : Segment → Option String
  | literal _ => none
  | param name => some name

/-- How a segment is written in a regular expression. -/
def expression : Segment → List Char
  | literal text => '/' :: Regex.escape text
  | param _ => ['/', '(', '[', '^', '/', ']', '+', ')']

def tokens : Segment → List Regex.Token
  | literal text => .item (.char '/') :: text.map fun c => .item (.char c)
  | param _ => [.item (.char '/'), .opens, .item (.otherThan '/'), .many, .closes]

/-- What a segment is in a regular expression. -/
def items : Segment → List Regex
  | literal text => .char '/' :: text.map .char
  | param _ => [.char '/', .group (Regex.series [.many (.otherThan '/')])]

end Segment

namespace PathPattern

/-- A piece of a path, and what it captures. -/
abbrev Piece := List Char × List (String × String)

variable {segment : Segment} {segments : List Segment} {piece path : List Char}
  {pairs : List (String × String)} {pattern : String} {p : PathPattern}

section Capturing

/-- Whether segments match the whole of a path, and what they capture then. -/
inductive Runs : List Segment → List Char → List (String × String) → Prop
  | stop {rest : List Char} (h : rest = [] ∨ rest = ['/']) : Runs [] rest []
  | meet {segment : Segment} {segments : List Segment} {piece rest : List Char}
    {here there : List (String × String)} (hmeets : segment.Meets piece here)
    (hrest : Runs segments rest there) :
    Runs (segment :: segments) ('/' :: (piece ++ rest)) (here ++ there)

theorem Runs.eq_nil_or_slash (h : Runs segments path pairs) :
    path = [] ∨ ∃ rest, path = '/' :: rest := by
  cases h with
  | stop h =>
    cases h with
    | inl hnil => exact .inl hnil
    | inr hslash => exact .inr ⟨[], hslash⟩
  | meet hmeets hrest => exact .inr ⟨_, rfl⟩

theorem not_mem_of_meets (hproper : segment.IsProper) (h : segment.Meets piece pairs) :
    '/' ∉ piece := by
  cases h with
  | literal text => exact hproper
  | param name hne hslash => exact hslash

theorem capture?_eq_some_iff (hslash : '/' ∉ piece) :
    segment.capture? piece = some pairs ↔ segment.Meets piece pairs := by
  constructor
  . intro h
    cases segment with
    | literal text =>
      simp only [Segment.capture?, Option.ite_none_right_eq_some, Option.some.injEq] at h
      obtain ⟨rfl, rfl⟩ := h
      exact .literal piece
    | param name =>
      simp only [Segment.capture?, Option.ite_none_left_eq_some, Option.some.injEq,
        List.isEmpty_iff] at h
      obtain ⟨hne, rfl⟩ := h
      exact .param name hne hslash
  . intro h
    cases h with
    | literal text => exact if_pos rfl
    | param name hne _ => exact if_neg (by simpa using hne)

/-- A piece without slashes before the end or a slash is what a segment is compared with. -/
theorem takeWhile_append {rest : List Char} (hslash : '/' ∉ piece)
    (hrest : rest = [] ∨ ∃ others, rest = '/' :: others) :
    (piece ++ rest).takeWhile (· ≠ '/') = piece ∧ (piece ++ rest).dropWhile (· ≠ '/') = rest := by
  have hpiece : ∀ c ∈ piece, decide (c ≠ '/') = true := by
    intro c hc
    exact decide_eq_true fun heq => hslash (heq ▸ hc)
  rw [List.takeWhile_append_of_pos hpiece, List.dropWhile_append_of_pos hpiece]
  obtain rfl | ⟨others, rfl⟩ := hrest
  . simp
  . simp

theorem slash_not_mem_takeWhile (cs : List Char) : '/' ∉ cs.takeWhile (· ≠ '/') := by
  intro hmem
  exact absurd (List.mem_takeWhile_imp hmem) (by simp)

theorem capture_eq_some_iff (hproper : ∀ s ∈ segments, s.IsProper) :
    capture segments path = some pairs ↔ Runs segments path pairs := by
  induction segments generalizing path pairs with
  | nil =>
    unfold capture
    constructor
    . intro h
      split at h
      . next hrest =>
        cases h
        exact .stop hrest
      . cases h
    . intro h
      cases h with
      | stop hrest => exact if_pos hrest
  | cons segment segments ih =>
    have hrestProper : ∀ s ∈ segments, s.IsProper := fun s hs =>
      hproper s (List.mem_cons_of_mem segment hs)
    constructor
    . intro h
      unfold capture at h
      split at h
      . next heq => cases heq
      . next first others rest heq =>
        cases heq
        obtain ⟨here, hhere, h⟩ := Option.bind_eq_some_iff.mp h
        obtain ⟨there, hthere, rfl⟩ := Option.map_eq_some_iff.mp h
        have hmeets := (capture?_eq_some_iff (slash_not_mem_takeWhile rest)).mp hhere
        have hruns := Runs.meet hmeets ((ih hrestProper).mp hthere)
        rwa [List.takeWhile_append_dropWhile] at hruns
      . cases h
    . intro h
      cases h with
      | @meet _ _ piece rest here there hmeets hrest =>
        have hslash := not_mem_of_meets (hproper segment List.mem_cons_self) hmeets
        -- What follows a piece starts with a slash or is empty, so a segment is compared with exactly
        -- that piece.
        have ⟨htake, hdrop⟩ := takeWhile_append hslash hrest.eq_nil_or_slash
        rw [capture, htake, hdrop, (capture?_eq_some_iff hslash).mpr hmeets, Option.bind_some,
          (ih hrestProper).mpr hrest]
        rfl

end Capturing

section Spelling

/-- What a pattern spells between its slashes, but for empty texts. -/
def spelled (pattern : String) : List (List Char) :=
  (pattern.toList.splitOn '/').filter (!·.isEmpty)

/--
Whether a piece of a path can stand for what is spelled between two slashes: a name in braces is for
any piece that is not empty, which is captured, and everything else for itself.
-/
inductive Stands : List Char → List Char → List (String × String) → Prop
  | literal {spelling : List Char}
    (h : ∀ name, name ≠ [] → spelling ≠ '\x7b' :: (name ++ ['\x7d'])) : Stands spelling spelling []
  | param {name piece : List Char} (hname : name ≠ []) (hne : piece ≠ []) (hslash : '/' ∉ piece) :
    Stands ('\x7b' :: (name ++ ['\x7d'])) piece [(String.ofList name, String.ofList piece)]

/-- The path of some pieces, each after a slash. Without pieces it is the root. -/
def route (pieces : List (List Char)) : List Char :=
  if pieces.isEmpty then ['/'] else pieces.flatMap ('/' :: ·)

/-- Whether a path is made of pieces that stand for what is spelled, but for one more slash. -/
structure Fits (spellings : List (List Char)) (pieces : List Piece)
    (path : List Char) (pairs : List (String × String)) : Prop where
  stands : List.Forall₂ (fun spelling m => Stands spelling m.1 m.2) spellings pieces
  path : path = route (pieces.map (·.1)) ∨ path = route (pieces.map (·.1)) ++ ['/']
  pairs : pairs = pieces.flatMap (·.2)

theorem pieces_eq_splitOn (cs : List Char) : pieces cs = cs.splitOn '/' := by
  induction cs with
  | nil => rw [List.splitOn_nil]; rfl
  | cons c rest ih =>
    rw [List.splitOn_cons_eq_if_modifyHead, pieces, ih]
    simp only [beq_iff_eq]
    split
    . rfl
    . cases h : rest.splitOn '/' with
      | nil => exact absurd h (List.splitOn_ne_nil _ _)
      | cons piece others => rfl

theorem slash_not_mem_pieces (cs : List Char) : ∀ piece ∈ pieces cs, '/' ∉ piece := by
  induction cs with
  | nil => simp [pieces]
  | cons c rest ih =>
    unfold pieces
    split
    . intro piece hmem
      cases List.mem_cons.mp hmem with
      | inl heq => simp [heq]
      | inr hmem => exact ih piece hmem
    . next hc =>
      split
      . next first others heq =>
        rw [heq] at ih
        intro piece hmem
        cases List.mem_cons.mp hmem with
        | inl hfirst =>
          rw [hfirst]
          simpa [Ne.symm hc] using ih first List.mem_cons_self
        | inr hmem => exact ih piece (List.mem_cons_of_mem _ hmem)
      . intro piece hmem
        rw [List.mem_singleton.mp hmem]
        simpa using Ne.symm hc

theorem braced?_eq_some_iff {spelling name : List Char} :
    braced? spelling = some name ↔ spelling = '\x7b' :: (name ++ ['\x7d']) := by
  constructor
  . intro h
    unfold braced? at h
    split at h
    . next rest =>
      split at h
      . next hlast =>
        cases h
        obtain ⟨name, rfl⟩ := List.getLast?_eq_some_iff.mp hlast
        rw [List.dropLast_concat]
      . cases h
    . cases h
  . rintro rfl
    simp [braced?]

theorem segment?_eq_none_iff {spelling : List Char} :
    segment? spelling = none ↔ spelling = ['\x7b', '\x7d'] := by
  unfold segment?
  constructor
  . intro h
    split at h
    . cases h
    . next hbraced => exact braced?_eq_some_iff.mp hbraced
    . cases h
  . rintro rfl
    rfl

theorem isProper_of_segment? {spelling : List Char} (h : segment? spelling = some segment)
    (hslash : '/' ∉ spelling) : segment.IsProper := by
  unfold segment? at h
  split at h
  . cases h
    exact hslash
  . cases h
  . cases h
    trivial

theorem stands_iff_meets {spelling : List Char} (h : segment? spelling = some segment) :
    Stands spelling piece pairs ↔ segment.Meets piece pairs := by
  constructor
  . intro hstands
    cases hstands with
    | literal hliteral =>
      unfold segment? at h
      split at h
      . cases h
        exact .literal _
      . cases h
      . next name hne hbraced => exact absurd (braced?_eq_some_iff.mp hbraced) (hliteral name hne)
    | @param name piece hname hne hslash =>
      have hbraced : braced? ('\x7b' :: (name ++ ['\x7d'])) = some name :=
        braced?_eq_some_iff.mpr rfl
      unfold segment? at h
      rw [hbraced] at h
      cases name with
      | nil => exact absurd rfl hname
      | cons c rest =>
        cases h
        exact .param _ hne hslash
  . intro hmeets
    unfold segment? at h
    split at h
    . next hbraced =>
      cases h
      cases hmeets
      refine .literal fun name _ heq => ?_
      rw [braced?_eq_some_iff.mpr heq] at hbraced
      cases hbraced
    . cases h
    . next name hname hbraced =>
      cases h
      cases hmeets with
      | param _ hne hslash =>
        rw [braced?_eq_some_iff.mp hbraced]
        exact .param hname hne hslash

end Spelling

section Parsing

/-- Whether texts between slashes are read as certain segments. -/
abbrev Spells (spellings : List (List Char)) (segments : List Segment) : Prop :=
  List.Forall₂ (fun spelling segment => segment? spelling = some segment) spellings segments

theorem mapM_segment?_eq_some_iff {spellings : List (List Char)} :
    spellings.mapM segment? = some segments ↔ Spells spellings segments := by
  unfold Spells
  induction spellings generalizing segments with
  | nil =>
    rw [List.mapM_nil, List.forall₂_nil_left_iff, Option.pure_def, Option.some.injEq]
    exact eq_comm
  | cons spelling rest ih =>
    rw [List.mapM_cons, List.forall₂_cons_left_iff]
    constructor
    . intro h
      obtain ⟨segment, hsegment, h⟩ := Option.bind_eq_some_iff.mp h
      obtain ⟨others, hothers, h⟩ := Option.bind_eq_some_iff.mp h
      cases h
      exact ⟨segment, others, hsegment, ih.mp hothers, rfl⟩
    . rintro ⟨segment, others, hsegment, hothers, rfl⟩
      rw [hsegment, ih.mpr hothers]
      rfl

theorem mapM_segment?_eq_none_iff {spellings : List (List Char)} :
    spellings.mapM segment? = none ↔ ['\x7b', '\x7d'] ∈ spellings := by
  induction spellings with
  | nil => simp
  | cons spelling rest ih =>
    rw [List.mapM_cons, List.mem_cons, ← ih, eq_comm (b := spelling), ← segment?_eq_none_iff]
    cases segment? spelling with
    | none => simp
    | some segment =>
      cases rest.mapM segment? with
      | none => simp
      | some segments => simp

theorem parse_eq (pattern : String) : parse pattern
      =
    match (spelled pattern).mapM segment? with
    | some segments => .ok ⟨pattern, segments⟩
    | none => .error ⟨pattern⟩ := by
  unfold spelled
  rw [← pieces_eq_splitOn]
  rfl

theorem parse_eq_error_iff {e : EmptyParameter} :
    parse pattern = .error e ↔ ['\x7b', '\x7d'] ∈ spelled pattern ∧ e = ⟨pattern⟩ := by
  rw [parse_eq, ← mapM_segment?_eq_none_iff]
  cases (spelled pattern).mapM segment? with
  | some segments => simp
  | none => simp [eq_comm]

theorem parse_eq_ok_iff : parse pattern = .ok p ↔
    p.source = pattern ∧ Spells (spelled pattern) p.segments := by
  rw [parse_eq, ← mapM_segment?_eq_some_iff]
  cases (spelled pattern).mapM segment? with
  | none => simp
  | some segments =>
    cases p
    simp [eq_comm]

theorem Spells.isProper {spellings : List (List Char)} (h : Spells spellings segments)
    (hspellings : ∀ spelling ∈ spellings, '/' ∉ spelling) : ∀ s ∈ segments, s.IsProper := by
  induction h with
  | nil => simp
  | cons hsegment _ ih =>
    rw [List.forall_mem_cons] at hspellings ⊢
    have ⟨hslash, hrest⟩ := hspellings
    exact ⟨isProper_of_segment? hsegment hslash, ih hrest⟩

theorem isProper_of_parse (h : parse pattern = .ok p) : ∀ s ∈ p.segments, s.IsProper := by
  apply (parse_eq_ok_iff.mp h).2.isProper
  intro spelling hmem
  have hpiece := List.mem_of_mem_filter hmem
  rw [← pieces_eq_splitOn] at hpiece
  exact slash_not_mem_pieces _ spelling hpiece

end Parsing

section Paths

variable {ms : List Piece}

theorem runs_iff_exists_pieces : Runs segments path pairs ↔
    ∃ ms : List Piece,
      List.Forall₂ (fun s m => s.Meets m.1 m.2) segments ms ∧
      (path = (ms.map (·.1)).flatMap ('/' :: ·) ∨
        path = (ms.map (·.1)).flatMap ('/' :: ·) ++ ['/']) ∧
      pairs = ms.flatMap (·.2) := by
  constructor
  . intro h
    induction h with
    | stop h => exact ⟨[], .nil, h, rfl⟩
    | @meet segment segments piece rest here there hmeets _ ih =>
      obtain ⟨ms, hms, hpath, rfl⟩ := ih
      refine ⟨(piece, here) :: ms, .cons hmeets hms, ?_, rfl⟩
      obtain rfl | rfl := hpath
      . exact .inl rfl
      . exact .inr (by simp)
  . rintro ⟨ms, hms, hpath, rfl⟩
    induction hms generalizing path with
    | nil => exact .stop hpath
    | @cons segment m segments ms hmeets _ ih =>
      obtain rfl | rfl := hpath
      . exact .meet hmeets (ih (.inl rfl))
      . have hruns := Runs.meet hmeets (ih (.inr rfl))
        simpa using hruns

/-- What stands for the segments of a pattern without segments. -/
def root (p : PathPattern) : List Char := if p.segments.isEmpty then ['/'] else []

theorem matches?_iff_runs (hproper : ∀ s ∈ p.segments, s.IsProper) {path : String}
    {params : PathParams} : p.matches? path = some params ↔
    ∃ rest, path.toList = p.root ++ rest ∧ Runs p.segments rest params.pairs := by
  unfold matches? root
  dsimp only
  cases hsegments : p.segments with
  | nil =>
    rw [if_pos List.isEmpty_nil, if_pos List.isEmpty_nil, Option.ite_none_right_eq_some,
      Option.some.injEq]
    constructor
    . rintro ⟨hpath, rfl⟩
      obtain hpath | hpath := hpath
      . exact ⟨[], hpath, .stop (.inl rfl)⟩
      . exact ⟨['/'], hpath, .stop (.inr rfl)⟩
    . rintro ⟨rest, hpath, hruns⟩
      cases params
      cases hruns with
      | stop hrest =>
        obtain rfl | rfl := hrest
        . exact ⟨.inl hpath, rfl⟩
        . exact ⟨.inr hpath, rfl⟩
  | cons segment segments =>
    rw [hsegments] at hproper
    rw [if_neg (by simp), if_neg (by simp), Option.map_eq_some_iff]
    simp only [capture_eq_some_iff hproper, List.nil_append, exists_eq_left']
    constructor
    . rintro ⟨pairs, hruns, rfl⟩
      exact hruns
    . intro hruns
      exact ⟨params.pairs, hruns, rfl⟩

theorem route_eq (h : List.Forall₂ (fun s m => s.Meets m.1 m.2) p.segments ms) :
    route (ms.map (·.1)) = p.root ++ (ms.map (·.1)).flatMap ('/' :: ·) := by
  unfold route root
  cases hsegments : p.segments with
  | nil =>
    rw [hsegments] at h
    cases h
    rfl
  | cons segment segments =>
    rw [hsegments] at h
    cases h with
    | cons hfirst hrest => rfl

theorem matches?_eq_some_iff (hproper : ∀ s ∈ p.segments, s.IsProper) {path : String}
    {params : PathParams} : p.matches? path = some params ↔
    ∃ ms : List Piece,
      List.Forall₂ (fun s m => s.Meets m.1 m.2) p.segments ms ∧
      (path.toList = route (ms.map (·.1)) ∨ path.toList = route (ms.map (·.1)) ++ ['/']) ∧
      params.pairs = ms.flatMap (·.2) := by
  rw [matches?_iff_runs hproper]
  simp only [runs_iff_exists_pieces]
  constructor
  . rintro ⟨rest, hpath, ms, hms, hrest, hpairs⟩
    refine ⟨ms, hms, ?_, hpairs⟩
    rw [route_eq hms, List.append_assoc, hpath]
    exact hrest.imp (congrArg (p.root ++ ·)) (congrArg (p.root ++ ·))
  . rintro ⟨ms, hms, hpath, hpairs⟩
    rw [route_eq hms, List.append_assoc] at hpath
    obtain hpath | hpath := hpath
    . exact ⟨_, hpath, ms, hms, .inl rfl, hpairs⟩
    . exact ⟨_, hpath, ms, hms, .inr rfl, hpairs⟩

theorem Spells.forall₂_stands_iff {spellings : List (List Char)} (h : Spells spellings segments) :
    List.Forall₂ (fun spelling m => Stands spelling m.1 m.2) spellings ms ↔
    List.Forall₂ (fun s m => s.Meets m.1 m.2) segments ms := by
  induction h generalizing ms with
  | nil => simp only [List.forall₂_nil_left_iff]
  | cons hsegment _ ih => simp only [List.forall₂_cons_left_iff, ih, stands_iff_meets hsegment]

theorem matches?_iff_fits (h : parse pattern = .ok p) (path : String) (params : PathParams) :
    p.matches? path = some params ↔
    ∃ pieces, Fits (spelled pattern) pieces path.toList params.pairs := by
  rw [matches?_eq_some_iff (isProper_of_parse h)]
  apply exists_congr
  intro ms
  rw [← (parse_eq_ok_iff.mp h).2.forall₂_stands_iff]
  exact ⟨fun ⟨hstands, hpath, hpairs⟩ => ⟨hstands, hpath, hpairs⟩,
    fun h => ⟨h.stands, h.path, h.pairs⟩⟩

/-- What patterns spell is all that counts. -/
theorem exists_parse_of_spelled_eq {other : String} (hspelled : spelled other = spelled pattern)
    (h : parse pattern = .ok p) :
    ∃ q, parse other = .ok q ∧ ∀ path, q.matches? path = p.matches? path := by
  refine ⟨⟨other, p.segments⟩, parse_eq_ok_iff.mpr ⟨rfl, ?_⟩, fun path => rfl⟩
  rw [hspelled]
  exact (parse_eq_ok_iff.mp h).2

end Paths

section Filling

def names (p : PathPattern) : List String := p.segments.filterMap Segment.name?

/-- The pieces of segments, with values in the place of parameters. -/
def filled : List Segment → List String → List (List Char)
  | [], _ => []
  | .literal text :: segments, values => text :: filled segments values
  | .param _ :: segments, value :: values => value.toList :: filled segments values
  | .param _ :: _, [] => []

def fill (p : PathPattern) (values : List String) : String :=
  String.ofList (route (filled p.segments values))

theorem exists_pieces_of_filled {values : List String}
    (hlength : values.length = (segments.filterMap Segment.name?).length)
    (hvalues : ∀ value ∈ values, value ≠ "" ∧ '/' ∉ value.toList) :
    ∃ ms : List Piece,
      List.Forall₂ (fun s m => s.Meets m.1 m.2) segments ms ∧
      ms.map (·.1) = filled segments values ∧
      ms.flatMap (·.2) = (segments.filterMap Segment.name?).zip values := by
  induction segments generalizing values with
  | nil => exact ⟨[], .nil, rfl, rfl⟩
  | cons segment segments ih =>
    cases segment with
    | literal text =>
      obtain ⟨ms, hms, hpieces, hpairs⟩ := ih hlength hvalues
      exact ⟨(text, []) :: ms, .cons (.literal text) hms, congrArg (text :: ·) hpieces, hpairs⟩
    | param name =>
      cases values with
      | nil => cases hlength
      | cons value values =>
        have ⟨⟨hne, hslash⟩, hrest⟩ := List.forall_mem_cons.mp hvalues
        obtain ⟨ms, hms, hpieces, hpairs⟩ := ih (Nat.succ.inj hlength) hrest
        have hmeets : (Segment.param name).Meets value.toList
            [(name, String.ofList value.toList)] := .param name (by simpa using hne) hslash
        rw [String.ofList_toList] at hmeets
        exact ⟨(value.toList, [(name, value)]) :: ms, .cons hmeets hms,
          congrArg (value.toList :: ·) hpieces, congrArg ((name, value) :: ·) hpairs⟩

theorem matches?_fill (hproper : ∀ s ∈ p.segments, s.IsProper) {values : List String}
    (hlength : values.length = p.names.length)
    (hvalues : ∀ value ∈ values, value ≠ "" ∧ '/' ∉ value.toList) :
    p.matches? (p.fill values) = some ⟨p.names.zip values⟩ := by
  obtain ⟨ms, hms, hpieces, hpairs⟩ := exists_pieces_of_filled hlength hvalues
  refine (matches?_eq_some_iff hproper).mpr ⟨ms, hms, .inl ?_, hpairs.symm⟩
  rw [hpieces, fill, String.toList_ofList]

end Filling

section Expression

/-- The regular expression that a pattern amounts to, from the start of a path to its end. -/
def expression (p : PathPattern) : String :=
  String.ofList ('^' :: (p.root ++ (p.segments.flatMap Segment.expression ++ ['/', '?', '$'])))

/-- The parameters of a pattern with what was captured for them. -/
def named (names : List String) (captures : Regex.Captures) : List (String × String) :=
  (names.zip captures).filterMap fun (name, capture) =>
    capture.map fun piece => (name, String.ofList piece)

open Regex

theorem tokens_expression (segment : Segment) (rest : List Char) :
    tokens (segment.expression ++ rest) = (tokens rest).map (segment.tokens ++ ·) := by
  cases segment with
  | literal text =>
    unfold Segment.expression Segment.tokens
    rw [List.cons_append, tokens_of_not_isMeta (by decide), tokens_escape, Option.map_map]
    rfl
  | param name =>
    cases h : tokens rest with
    | none => simp [Segment.expression, tokens, token?, isMeta, h]
    | some ts => simp [Segment.expression, Segment.tokens, tokens, token?, isMeta, h]

theorem tokens_flatMap_expression (segments : List Segment) (rest : List Char) :
    tokens (segments.flatMap Segment.expression ++ rest)
      =
    (tokens rest).map (segments.flatMap Segment.tokens ++ ·) := by
  induction segments with
  | nil => simp
  | cons segment segments ih =>
    rw [List.flatMap_cons, List.append_assoc, tokens_expression, ih, Option.map_map]
    congr 1
    funext ts
    exact (List.append_assoc _ _ _).symm

theorem assemble_segment (items : List Regex) (segment : Segment) (rest : List Token) :
    assemble [] items (segment.tokens ++ rest)
      =
    assemble [] (segment.items.reverse ++ items) rest := by
  cases segment with
  | literal text =>
    have htokens : (Segment.literal text).tokens = (Segment.literal text).items.map .item := by
      simp [Segment.tokens, Segment.items]
    rw [htokens, assemble_items]
  | param name => rfl

theorem assemble_segments (items : List Regex) (segments : List Segment) (rest : List Token) :
    assemble [] items (segments.flatMap Segment.tokens ++ rest)
      =
    assemble [] ((segments.flatMap Segment.items).reverse ++ items) rest := by
  induction segments generalizing items with
  | nil => rfl
  | cons segment segments ih =>
    rw [List.flatMap_cons, List.append_assoc, assemble_segment, ih, List.flatMap_cons,
      List.reverse_append, List.append_assoc]

/-- What the regular expression of a pattern consists of. -/
def items (p : PathPattern) : List Regex :=
  p.root.map .char ++ (p.segments.flatMap Segment.items ++ [.maybe (.char '/'), .finish])

theorem tokens_root (p : PathPattern) (rest : List Char) :
    tokens (p.root ++ rest) = (tokens rest).map ((p.root.map .char).map .item ++ ·) := by
  have hescape : escape p.root = p.root := by
    unfold root
    split <;> rfl
  have htokens := tokens_escape p.root rest
  rw [hescape] at htokens
  rw [htokens, List.map_map]
  rfl

theorem read_expression (p : PathPattern) :
    Regex.read p.expression = some (series (.start :: p.items)) := by
  have hhead : ∀ rest, tokens ('^' :: rest) = (tokens rest).map (.item .start :: ·) := by
    intro rest
    cases h : tokens rest with
    | none => simp [tokens, token?, h]
    | some ts => simp [tokens, token?, h]
  have htail : tokens ['/', '?', '$'] = some [.item (.char '/'), .maybe, .item .finish] := rfl
  have hend : ∀ items : List Regex,
      assemble [] items [.item (.char '/'), .maybe, .item .finish]
        = some (series (items.reverse ++ [.maybe (.char '/'), .finish])) := by
    intro items
    simp [assemble, repeated, isRepeatable]
  unfold Regex.read expression items
  rw [String.toList_ofList, hhead, tokens_root, tokens_flatMap_expression, htail, Option.map_some,
    Option.map_some, Option.map_some, Option.bind_some, assemble, assemble_items,
    assemble_segments, hend]
  simp

theorem spans_tail {before here after : List Char} {captures : Captures} :
    (series [.maybe (.char '/'), .finish]).Spans before here after captures ↔
    after = [] ∧ (here = [] ∨ here = ['/']) ∧ captures = [] := by
  rw [spans_series_cons]
  constructor
  . rintro ⟨first, _, _, _, rfl, rfl, hslash, hrest⟩
    cases spans_series_singleton.mp hrest
    cases hslash with
    | skip => exact ⟨rfl, .inl rfl, rfl⟩
    | take h =>
      cases h
      exact ⟨rfl, .inr rfl, rfl⟩
  . rintro ⟨rfl, hhere, rfl⟩
    refine ⟨here, [], [], [], by simp, rfl, ?_, spans_series_singleton.mpr .finish⟩
    obtain rfl | rfl := hhere
    . exact .skip
    . exact .take (.char '/')

theorem spans_segments {before here after : List Char} {captures : Captures} :
    (series (segments.flatMap Segment.items ++ [.maybe (.char '/'), .finish])).Spans before here
      after captures ↔
    after = [] ∧ ∃ pairs, Runs segments here pairs ∧
      captures = pairs.map fun e => some e.2.toList := by
  induction segments generalizing before here captures with
  | nil =>
    refine spans_tail.trans (and_congr_right fun _ => ?_)
    constructor
    . rintro ⟨hhere, rfl⟩
      exact ⟨[], .stop hhere, rfl⟩
    . rintro ⟨pairs, hruns, rfl⟩
      cases hruns with
      | stop h => exact ⟨h, rfl⟩
  | cons segment segments ih =>
    cases segment with
    | literal text =>
      have hitems : (Segment.literal text).items = ('/' :: text).map .char := rfl
      rw [List.flatMap_cons, hitems, List.append_assoc, spans_chars]
      simp only [ih]
      constructor
      . rintro ⟨rest, rfl, rfl, pairs, hruns, rfl⟩
        exact ⟨rfl, pairs, .meet (.literal text) hruns, rfl⟩
      . rintro ⟨rfl, pairs, hruns, rfl⟩
        cases hruns with
        | @meet _ _ piece rest here there hmeets hrest =>
          cases hmeets
          exact ⟨rest, rfl, rfl, there, hrest, rfl⟩
    | param name =>
      have hitems : (Segment.param name).items
          = ['/'].map .char ++ [.group (series [.many (.otherThan '/')])] := rfl
      -- A group may stop anywhere before the next slash. That it has to go up to there follows from
      -- what comes after it, which `ih` says.
      rw [List.flatMap_cons, hitems, List.append_assoc, List.append_assoc, spans_chars]
      simp only [List.singleton_append, spans_group_many_otherThan, ih]
      constructor
      . rintro ⟨_, rfl, piece, rest, _, rfl, rfl, hne, hslash, rfl, pairs, hruns, rfl⟩
        refine ⟨rfl, (name, String.ofList piece) :: pairs, .meet (.param name hne hslash) hruns, ?_⟩
        rw [List.map_cons, String.toList_ofList]
      . rintro ⟨rfl, pairs, hruns, rfl⟩
        cases hruns with
        | @meet _ _ piece rest here there hmeets hrest =>
          cases hmeets with
          | param _ hne hslash =>
            refine ⟨piece ++ rest, rfl, piece, rest, _, rfl, ?_, hne, hslash, rfl, there, hrest,
              rfl⟩
            rw [List.singleton_append, List.map_cons, String.toList_ofList]

theorem named_of_runs (h : Runs segments path pairs) :
    named (segments.filterMap Segment.name?) (pairs.map fun e => some e.2.toList) = pairs := by
  induction h with
  | stop => rfl
  | meet hmeets _ ih =>
    cases hmeets with
    | literal text => exact ih
    | param name hne hslash =>
      refine (congrArg ((name, String.ofList (String.ofList _).toList) :: ·) ih).trans ?_
      rw [String.toList_ofList]
      rfl

theorem matches?_iff_finds (hproper : ∀ s ∈ p.segments, s.IsProper) {path : String}
    {params : PathParams} : p.matches? path = some params ↔
    ∃ captures, (series (.start :: p.items)).Finds path.toList captures ∧
      params.pairs = named p.names captures := by
  rw [matches?_iff_runs hproper]
  simp only [items, finds_start_iff, spans_chars, spans_segments]
  constructor
  . rintro ⟨rest, hpath, hruns⟩
    rw [hpath]
    refine ⟨_, ⟨p.root ++ rest, [], (List.append_nil _).symm, rest, rfl, rfl, _, hruns, rfl⟩, ?_⟩
    exact (named_of_runs hruns).symm
  . rintro ⟨_, ⟨_, _, hpath, rest, rfl, rfl, pairs, hruns, rfl⟩, hparams⟩
    rw [List.append_nil] at hpath
    rw [names, named_of_runs hruns] at hparams
    exact ⟨rest, hpath, hparams ▸ hruns⟩

end Expression

theorem get?_eq_some_iff {params : PathParams} {name value : String} :
    params.get? name = some value ↔
    ∃ before after, params.pairs = before ++ (name, value) :: after ∧ ∀ e ∈ before, name ≠ e.1 := by
  unfold PathParams.get?
  rw [List.lookup_eq_some_iff]
  simp only [bne_iff_ne]

/-- What an accepted pattern does with paths. -/
structure Routes (pattern : String) (p : PathPattern) : Prop where
  fits : ∀ (path : String) (params : PathParams), p.matches? path = some params ↔
    ∃ pieces, Fits (spelled pattern) pieces path.toList params.pairs
  /-- Patterns that spell the same match alike. -/
  alike : ∀ other, spelled other = spelled pattern →
    ∃ q, parse other = .ok q ∧ ∀ path, q.matches? path = p.matches? path
  /-- Values in the place of the parameters are captured. -/
  filled : ∀ values : List String, values.length = p.names.length →
    (∀ value ∈ values, value ≠ "" ∧ '/' ∉ value.toList) →
    p.matches? (p.fill values) = some ⟨p.names.zip values⟩
  /-- The regular expression can be read, and it finds the same. -/
  expressed : ∃ r, Regex.read p.expression = some r ∧
    ∀ (path : String) (params : PathParams), p.matches? path = some params ↔
      ∃ captures, r.Finds path.toList captures ∧ params.pairs = named p.names captures

/--
Patterns are refused for a parameter without name only. The others match what they spell, as their
regular expressions do, and of what was captured by one name the first counts.
-/
theorem routes_as_spelled (pattern : String) :
    (∀ e, parse pattern = .error e ↔ ['\x7b', '\x7d'] ∈ spelled pattern ∧ e = ⟨pattern⟩) ∧
    (∀ p, parse pattern = .ok p → Routes pattern p) ∧
    ∀ (params : PathParams) (name value : String), params.get? name = some value ↔
      ∃ before after, params.pairs = before ++ (name, value) :: after ∧
        ∀ e ∈ before, name ≠ e.1 := by
  refine ⟨fun e => parse_eq_error_iff, fun p h => ?_, fun params name value => get?_eq_some_iff⟩
  have hproper := isProper_of_parse h
  exact {
    fits := matches?_iff_fits h
    alike := fun other hspelled => exists_parse_of_spelled_eq hspelled h
    filled := fun values hlength hvalues => matches?_fill hproper hlength hvalues
    expressed := ⟨_, read_expression p, fun path params => matches?_iff_finds hproper⟩
  }

/-- A pattern with one name twice, and with a character that means something in expressions. -/
def releases : PathPattern :=
  ⟨"/\x7bid\x7d//v1.0/\x7bid\x7d", [.param "id", .literal ['v', '1', '.', '0'], .param "id"]⟩

theorem routes_releases :
    parse releases.source = .ok releases ∧ Routes releases.source releases ∧
    releases.expression = "^/([^/]+)/v1\\.0/([^/]+)/?$" ∧
    releases.fill ["a b", "?"] = "/a b/v1.0/?" ∧
    releases.matches? "/a b/v1.0/?" = some ⟨[("id", "a b"), ("id", "?")]⟩ ∧
    PathParams.get? ⟨[("id", "a b"), ("id", "?")]⟩ "id" = some "a b" ∧
    releases.matches? "/a/v1x0/b" = none := by
  have hparse : parse releases.source = .ok releases := by rfl
  have ⟨hrefused, hroutes, hfirst⟩ := routes_as_spelled releases.source
  have hreleases := hroutes releases hparse
  have hfill : releases.fill ["a b", "?"] = "/a b/v1.0/?" := by rfl
  refine ⟨hparse, hreleases, by rfl, hfill, ?_, ?_, by rfl⟩
  . rw [← hfill]
    exact hreleases.filled ["a b", "?"] rfl (by decide)
  . exact (hfirst _ _ _).mpr ⟨[], [("id", "?")], rfl, by simp⟩

end PathPattern
end PageDispatch
