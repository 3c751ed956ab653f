import Mathlib.Data.List.Basic

/-!
This module contains regular expressions, as far as routing needs them: how they are written and
read, and what they match, with the texts that their groups capture.
-/

namespace PageDispatch

inductive Regex where
  | empty
  /-- The start of the text. -/
  | start
  /-- The end of the text. -/
  | finish
  | char (c : Char)
  | otherThan (c : Char)
  | seq (first second : Regex)
  /-- Once or more often. -/
  | many (r : Regex)
  /-- Once or not at all. -/
  | maybe (r : Regex)
  | group (r : Regex)
  deriving DecidableEq, Repr

namespace Regex

abbrev Captures := List (Option (List Char))

def groups : Regex → Nat
  | empty | start | finish | char _ | otherThan _ => 0
  | seq first second => first.groups + second.groups
  | many r | maybe r => r.groups
  | group r => r.groups + 1

/--
Whether an expression matches a piece of a text, between what comes before and after it, and what
its groups capture then. A group that is repeated captures what it was last met by.
-/
inductive Spans : Regex → List Char → List Char → List Char → Captures → Prop
  | empty {before after : List Char} : Spans .empty before [] after []
  | start {after : List Char} : Spans .start [] [] after []
  | finish {before : List Char} : Spans .finish before [] [] []
  | char {before after : List Char} (c : Char) : Spans (.char c) before [c] after []
  | otherThan {before after : List Char} {c d : Char} (h : d ≠ c) :
    Spans (.otherThan c) before [d] after []
  | seq {first second : Regex} {before here there after : List Char} {cs ds : Captures}
    (hfirst : Spans first before here (there ++ after) cs)
    (hsecond : Spans second (before ++ here) there after ds) :
    Spans (.seq first second) before (here ++ there) after (cs ++ ds)
  | once {r : Regex} {before here after : List Char} {cs : Captures}
    (h : Spans r before here after cs) : Spans (.many r) before here after cs
  | more {r : Regex} {before here there after : List Char} {cs ds : Captures}
    (hfirst : Spans r before here (there ++ after) cs)
    (hrest : Spans (.many r) (before ++ here) there after ds) :
    Spans (.many r) before (here ++ there) after (List.zipWith Option.or ds cs)
  | skip {r : Regex} {before after : List Char} :
    Spans (.maybe r) before [] after (List.replicate r.groups none)
  | take {r : Regex} {before here after : List Char} {cs : Captures}
    (h : Spans r before here after cs) : Spans (.maybe r) before here after cs
  | group {r : Regex} {before here after : List Char} {cs : Captures}
    (h : Spans r before here after cs) : Spans (.group r) before here after (some here :: cs)

/-- Whether an expression matches a piece of a text somewhere, and what its groups capture then. -/
def Finds (r : Regex) (text : List Char) (captures : Captures) : Prop :=
  ∃ before here after, text = before ++ (here ++ after) ∧ r.Spans before here after captures

def series (rs : List Regex) : Regex := rs.foldr seq empty

section Syntax

/-- Characters that mean something else than themselves, unless they are escaped. -/
def isMeta (c : Char) : Bool :=
  ['\\', '.', '+', '*', '?', '(', ')', '|', '[', ']', '\x7b', '\x7d', '^', '$', '#', '&', '-',
    '~'].contains c

def escape (cs : List Char) : List Char :=
  cs.flatMap fun c => if isMeta c then ['\\', c] else [c]

inductive Token where
  | item (r : Regex)
  | opens
  | closes
  | many
  | maybe
  deriving DecidableEq, Repr

/-- What a character means, if it is not escaped. -/
def token? (c : Char) : Option Token :=
  match c with
  | '^' => some (.item .start)
  | '$' => some (.item .finish)
  | '(' => some .opens
  | ')' => some .closes
  | '+' => some .many
  | '?' => some .maybe
  | c => if isMeta c then none else some (.item (.char c))

/-- The tokens of a written expression. Of classes, it has only those of all characters but one. -/
def tokens : List Char → Option (List Token)
  | [] => some []
  | '\\' :: c :: rest =>
    if isMeta c then (tokens rest).map (.item (.char c) :: ·) else none
  | '[' :: '^' :: c :: ']' :: rest =>
    if isMeta c then none else (tokens rest).map (.item (.otherThan c) :: ·)
  | c :: rest => (token? c).bind fun t => (tokens rest).map (t :: ·)

/-- Whether a repetition can follow. -/
def isRepeatable : Regex → Bool
  | char _ | otherThan _ | group _ => true
  | empty | start | finish | seq _ _ | many _ | maybe _ => false

def repeated (f : Regex → Regex) : List Regex → Option (List Regex)
  | r :: items => if r.isRepeatable then some (f r :: items) else none
  | [] => none

/--
Puts tokens together. Here `items` is what the innermost group holds so far, last item first, and
`outer` what those around it hold.
-/
def assemble (outer : List (List Regex)) (items : List Regex) : List Token → Option Regex
  | [] =>
    match outer with
    | [] => some (series items.reverse)
    | _ :: _ => none
  | .item r :: rest => assemble outer (r :: items) rest
  | .opens :: rest => assemble (items :: outer) [] rest
  | .closes :: rest =>
    match outer with
    | around :: outer => assemble outer (.group (series items.reverse) :: around) rest
    | [] => none
  | .many :: rest => (repeated .many items).bind fun items => assemble outer items rest
  | .maybe :: rest => (repeated .maybe items).bind fun items => assemble outer items rest

def read (s : String) : Option Regex := (tokens s.toList).bind (assemble [] [])

end Syntax

section Reading

theorem tokens_of_isMeta {c : Char} (hc : isMeta c = true) (rest : List Char) :
    tokens ('\\' :: c :: rest) = (tokens rest).map (.item (.char c) :: ·) := by
  rw [tokens, if_pos hc]

theorem token?_of_not_isMeta {c : Char} (hc : isMeta c = false) :
    token? c = some (.item (.char c)) := by
  unfold token?
  split
  all_goals first | exact absurd hc (by decide) | rw [if_neg (by simp [hc])]

theorem tokens_of_not_isMeta {c : Char} (hc : isMeta c = false) (rest : List Char) :
    tokens (c :: rest) = (tokens rest).map (.item (.char c) :: ·) := by
  have hslash : c ≠ '\\' := by
    rintro rfl
    exact absurd hc (by decide)
  have hbracket : c ≠ '[' := by
    rintro rfl
    exact absurd hc (by decide)
  rw [tokens, token?_of_not_isMeta hc, Option.bind_some]
  . intro d others heq
    exact absurd heq hslash
  . intro d others heq
    exact absurd heq hbracket

/-- What is escaped is read as it is. -/
theorem tokens_escape (cs rest : List Char) :
    tokens (escape cs ++ rest) = (tokens rest).map (cs.map (fun c => .item (.char c)) ++ ·) := by
  induction cs with
  | nil => simp [escape]
  | cons c cs ih =>
    have hcons : escape (c :: cs) ++ rest
        = (if isMeta c then ['\\', c] else [c]) ++ (escape cs ++ rest) := by
      simp [escape]
    have htokens : tokens (escape (c :: cs) ++ rest)
        = (tokens (escape cs ++ rest)).map (.item (.char c) :: ·) := by
      rw [hcons]
      cases hc : isMeta c with
      | true => exact tokens_of_isMeta hc _
      | false => exact tokens_of_not_isMeta hc _
    rw [htokens, ih, Option.map_map]
    rfl

theorem assemble_items (outer : List (List Regex)) (items rs : List Regex) (rest : List Token) :
    assemble outer items (rs.map .item ++ rest) = assemble outer (rs.reverse ++ items) rest := by
  induction rs generalizing items with
  | nil => rfl
  | cons r rs ih =>
    rw [List.map_cons, List.cons_append, assemble, ih, List.reverse_cons, List.append_assoc]
    rfl

end Reading

section Matching

variable {r : Regex} {rs : List Regex} {before here after : List Char} {captures : Captures}

theorem spans_series_cons : (series (r :: rs)).Spans before here after captures ↔
    ∃ first rest cs ds, here = first ++ rest ∧ captures = cs ++ ds ∧
      r.Spans before first (rest ++ after) cs ∧
      (series rs).Spans (before ++ first) rest after ds := by
  constructor
  . intro h
    cases h with
    | seq hfirst hsecond => exact ⟨_, _, _, _, rfl, rfl, hfirst, hsecond⟩
  . rintro ⟨first, rest, cs, ds, rfl, rfl, hfirst, hsecond⟩
    exact .seq hfirst hsecond

/-- What starts with the start of the text is found at the start of the text. -/
theorem finds_start_iff {text : List Char} : (series (.start :: rs)).Finds text captures ↔
    ∃ here after, text = here ++ after ∧ (series rs).Spans [] here after captures := by
  constructor
  . rintro ⟨before, here, after, rfl, h⟩
    obtain ⟨_, rest, _, ds, rfl, rfl, hstart, hrest⟩ := spans_series_cons.mp h
    cases hstart
    exact ⟨rest, after, rfl, hrest⟩
  . rintro ⟨here, after, rfl, h⟩
    refine ⟨[], here, after, rfl, spans_series_cons.mpr ?_⟩
    exact ⟨[], here, [], captures, rfl, rfl, .start, h⟩

theorem spans_series_singleton :
    (series [r]).Spans before here after captures ↔ r.Spans before here after captures := by
  rw [spans_series_cons]
  constructor
  . rintro ⟨first, _, cs, _, rfl, rfl, h, hempty⟩
    cases hempty
    simpa using h
  . intro h
    exact ⟨here, [], captures, [], by simp, by simp, h, .empty⟩

theorem spans_chars (cs : List Char) :
    (series (cs.map .char ++ rs)).Spans before here after captures ↔
    ∃ rest, here = cs ++ rest ∧ (series rs).Spans (before ++ cs) rest after captures := by
  induction cs generalizing before here with
  | nil => simp
  | cons c cs ih =>
    rw [List.map_cons, List.cons_append, spans_series_cons]
    constructor
    . rintro ⟨first, rest, _, ds, rfl, rfl, hfirst, hrest⟩
      cases hfirst
      obtain ⟨rest, rfl, h⟩ := ih.mp hrest
      refine ⟨rest, rfl, ?_⟩
      rwa [List.append_assoc, List.singleton_append] at h
    . rintro ⟨rest, rfl, h⟩
      refine ⟨[c], cs ++ rest, [], captures, rfl, rfl, .char c, ih.mpr ⟨rest, rfl, ?_⟩⟩
      rwa [List.append_assoc, List.singleton_append]

/-- One or more characters other than a certain one. -/
theorem spans_many_otherThan {c : Char} :
    (many (otherThan c)).Spans before here after captures ↔
    here ≠ [] ∧ c ∉ here ∧ captures = [] := by
  constructor
  . intro h
    generalize hr : many (otherThan c) = r at h
    induction h with
    | once h =>
      cases hr
      cases h with
      | otherThan hne => exact ⟨by simp, by simpa using Ne.symm hne, rfl⟩
    | more hfirst _ _ ih =>
      cases hr
      cases hfirst with
      | otherThan hne =>
        obtain ⟨_, hrest, rfl⟩ := ih rfl
        refine ⟨by simp, ?_, rfl⟩
        simpa [hrest] using Ne.symm hne
    | _ => cases hr
  . rintro ⟨hne, hc, rfl⟩
    induction here generalizing before with
    | nil => exact absurd rfl hne
    | cons d rest ih =>
      have hd : c ≠ d := fun heq => hc (heq ▸ List.mem_cons_self)
      have hrest : c ∉ rest := fun hmem => hc (List.mem_cons_of_mem d hmem)
      cases rest with
      | nil => exact .once (.otherThan (Ne.symm hd))
      | cons e others =>
        have hfirst : (otherThan c).Spans before [d] (e :: others ++ after) [] :=
          .otherThan (Ne.symm hd)
        exact hfirst.more (ih (by simp) hrest)

/-- A group of one or more characters other than a certain one, and what follows it. -/
theorem spans_group_many_otherThan {c : Char} :
    (series (group (series [many (otherThan c)]) :: rs)).Spans before here after captures ↔
    ∃ piece rest cs, here = piece ++ rest ∧ captures = some piece :: cs ∧ piece ≠ [] ∧ c ∉ piece ∧
      (series rs).Spans (before ++ piece) rest after cs := by
  rw [spans_series_cons]
  constructor
  . rintro ⟨piece, rest, _, cs, rfl, rfl, hgroup, hrest⟩
    cases hgroup with
    | group hpiece =>
      obtain ⟨hne, hc, rfl⟩ := spans_many_otherThan.mp (spans_series_singleton.mp hpiece)
      exact ⟨piece, rest, cs, rfl, rfl, hne, hc, hrest⟩
  . rintro ⟨piece, rest, cs, rfl, rfl, hne, hc, hrest⟩
    have hpiece : (many (otherThan c)).Spans before piece (rest ++ after) [] :=
      spans_many_otherThan.mpr ⟨hne, hc, rfl⟩
    exact ⟨piece, rest, [some piece], cs, rfl, rfl, .group (spans_series_singleton.mpr hpiece),
      hrest⟩

end Matching
end Regex
end PageDispatch
