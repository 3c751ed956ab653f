import Mathlib.Tactic.Abel
import PageDispatch.Proofs.Run.History

/-!
This module contains the verification of the order in which a run takes elements. What a unit
inserts comes next, what it appends comes last, and so a run goes through the elements depth-first.
-/

namespace PageDispatch

namespace RemnantEdit

def inserted? : RemnantEdit → Option ChainElement
  | insertNext element => some element
  | append _ => none

def appended? : RemnantEdit → Option ChainElement
  | insertNext _ => none
  | append element => some element

end RemnantEdit

def inserted (edits : List RemnantEdit) : List ChainElement :=
  edits.filterMap RemnantEdit.inserted?

def appended (edits : List RemnantEdit) : List ChainElement :=
  edits.filterMap RemnantEdit.appended?

/--
An element and where it comes from. The elements of a chain, and those appended to it, have their
number for a lineage; the elements that a unit inserts have its lineage and their own number.
-/
structure Descendant where
  lineage : List Nat
  element : ChainElement

def descendants (base : List Nat) (start : Nat) (elements : List ChainElement) : List Descendant :=
  elements.mapIdx fun i element => ⟨base ++ [start + i], element⟩

/-- Whether the lineage of an element begins with one of the first numbers. -/
def Descendant.IsRooted (n : Nat) (x : Descendant) : Prop :=
  ∃ i rest, x.lineage = i :: rest ∧ i < n

/-- The elements that no unit inserted. -/
def originals (elements : List ChainElement) (vs : List Visit) : List ChainElement :=
  elements ++ vs.flatMap fun v => appended v.edits

/-- All elements that there were so far, if these were taken by the visits. -/
def born (elements : List ChainElement) (vs : List Visit) (taken : List Descendant) :
    List Descendant :=
  descendants [] 0 (originals elements vs)
    ++ (taken.zip vs).flatMap fun (x, v) => descendants x.lineage 0 (inserted v.edits)

/--
Whether the elements of a chain were taken depth-first: every element is taken once or still to
come, it comes after those that stem from elements before it, and before those that stem from it.
-/
structure DepthFirst (elements : List ChainElement) (vs : List Visit)
    (taken pending : List Descendant) : Prop where
  visited : taken.map Descendant.element = vs.map Visit.element
  once : (taken ++ pending).Perm (born elements vs taken)
  sorted : (taken ++ pending).Pairwise fun a b => a.lineage < b.lineage
  families : pending.Pairwise fun a b => ∀ rest, a.lineage ++ rest < b.lineage
  rooted : ∀ x ∈ taken ++ pending, x.IsRooted (originals elements vs).length

section Edits

variable (element : ChainElement) (edits : List RemnantEdit)

@[simp]
theorem inserted_insertNext :
    inserted (.insertNext element :: edits) = element :: inserted edits := rfl

@[simp]
theorem inserted_append : inserted (.append element :: edits) = inserted edits := rfl

@[simp]
theorem appended_insertNext : appended (.insertNext element :: edits) = appended edits := rfl

@[simp]
theorem appended_append : appended (.append element :: edits) = element :: appended edits := rfl

variable {element}

theorem foldl_edit_eq (before pending after : List ChainElement) :
    edits.foldl Remnant.edit ⟨before ++ pending ++ after, before.length⟩
      =
    ⟨before ++ inserted edits ++ pending ++ (after ++ appended edits),
      (before ++ inserted edits).length⟩ := by
  induction edits generalizing before after with
  | nil => simp [inserted, appended]
  | cons edit rest ih =>
    cases edit with
    | insertNext element =>
      have hstep : Remnant.edit ⟨before ++ pending ++ after, before.length⟩ (.insertNext element)
          = ⟨(before ++ [element]) ++ pending ++ after, (before ++ [element]).length⟩ := by
        simp [Remnant.edit, Remnant.insertNext]
      rw [List.foldl_cons, hstep, ih]
      simp
    | append element =>
      have hstep : Remnant.edit ⟨before ++ pending ++ after, before.length⟩ (.append element)
          = ⟨before ++ pending ++ (after ++ [element]), before.length⟩ := by
        simp [Remnant.edit, Remnant.append]
      rw [List.foldl_cons, hstep, ih]
      simp

/-- However a unit mixes its edits, what it inserts comes first and what it appends comes last. -/
theorem foldl_edit_of_next {r remnant : Remnant} (h : r.next? = some (element, remnant)) :
    (edits.foldl .edit remnant).pending
      = inserted edits ++ remnant.pending ++ appended edits ∧
    (edits.foldl .edit remnant).cursor = (inserted edits).length := by
  have hcursor : remnant = ⟨[] ++ remnant.pending ++ [], ([] : List ChainElement).length⟩ := by
    unfold Remnant.next? at h
    split at h
    . cases h
    . cases h
      simp
  rw [hcursor, foldl_edit_eq]
  simp

end Edits

section Lineages

theorem lineage_lt_append (base : List Nat) (i : Nat) : base < base ++ [i] := by
  induction base with
  | nil => exact List.Lex.nil
  | cons a base ih => exact List.Lex.cons ih

theorem append_lt_append {i j : Nat} (h : i < j) (base rest : List Nat) :
    base ++ [i] ++ rest < base ++ [j] := by
  induction base with
  | nil => exact List.Lex.rel h
  | cons a base ih => exact List.Lex.cons ih

variable {base : List Nat} {start : Nat} {elements more : List ChainElement} {x : Descendant}

theorem mem_descendants (h : x ∈ descendants base start elements) :
    ∃ i, i < elements.length ∧ x.lineage = base ++ [start + i] := by
  unfold descendants at h
  obtain ⟨i, hi, rfl⟩ := List.mem_mapIdx.mp h
  exact ⟨i, hi, rfl⟩

theorem map_element_descendants :
    (descendants base start elements).map Descendant.element = elements := by
  unfold descendants
  apply List.ext_getElem
  . simp
  . simp

theorem descendants_append :
    descendants base start (elements ++ more)
      =
    descendants base start elements ++ descendants base (start + elements.length) more := by
  unfold descendants
  rw [List.mapIdx_append]
  simp only [Nat.add_assoc, Nat.add_comm elements.length]

/-- Of some siblings, the whole family of one comes before the next one. -/
theorem pairwise_descendants :
    (descendants base start elements).Pairwise fun a b => ∀ rest, a.lineage ++ rest < b.lineage := by
  unfold descendants
  rw [List.pairwise_iff_getElem]
  intro i j hi hj hij rest
  rw [List.getElem_mapIdx, List.getElem_mapIdx]
  exact append_lt_append (Nat.add_lt_add_left hij start) base rest

end Lineages

section Steps

variable {elements : List ChainElement} {vs : List Visit} {v : Visit}
  {taken rest : List Descendant} {x y : Descendant}

theorem originals_concat :
    originals elements (vs ++ [v]) = originals elements vs ++ appended v.edits := by
  simp [originals]

theorem born_concat (h : taken.length = vs.length) :
    born elements (vs ++ [v]) (taken ++ [x])
      =
    descendants [] 0 (originals elements vs)
      ++ descendants [] (originals elements vs).length (appended v.edits)
      ++ ((taken.zip vs).flatMap (fun (x, v) => descendants x.lineage 0 (inserted v.edits))
        ++ descendants x.lineage 0 (inserted v.edits)) := by
  unfold born
  rw [originals_concat, descendants_append, Nat.zero_add, List.zip_append h, List.flatMap_append]
  simp

theorem depthFirst_start (elements : List ChainElement) :
    DepthFirst elements [] [] (descendants [] 0 elements) where
  visited := rfl
  once := by simp [born, originals]
  sorted := by
    rw [List.nil_append]
    apply pairwise_descendants.imp
    intro a b h
    simpa using h []
  families := pairwise_descendants
  rooted x hx := by
    obtain ⟨i, hi, hlineage⟩ := mem_descendants hx
    exact ⟨0 + i, [], hlineage, by simpa [originals] using hi⟩

theorem Descendant.IsRooted.of_le {n k : Nat} (h : x.IsRooted n) (hle : n ≤ k) : x.IsRooted k := by
  obtain ⟨i, rest, hlineage, hlt⟩ := h
  exact ⟨i, rest, hlineage, Nat.lt_of_lt_of_le hlt hle⟩

theorem Descendant.IsRooted.child {n : Nat} (h : x.IsRooted n) {start : Nat}
    {more : List ChainElement} (hy : y ∈ descendants x.lineage start more) : y.IsRooted n := by
  obtain ⟨i, rest, hlineage, hlt⟩ := h
  obtain ⟨j, -, hchild⟩ := mem_descendants hy
  exact ⟨i, rest ++ [start + j], by rw [hchild, hlineage]; rfl, hlt⟩

theorem Descendant.IsRooted.lt {n : Nat} (h : x.IsRooted n) {more : List ChainElement}
    (hy : y ∈ descendants [] n more) (rest : List Nat) : x.lineage ++ rest < y.lineage := by
  obtain ⟨i, tail, hlineage, hlt⟩ := h
  obtain ⟨j, -, hroot⟩ := mem_descendants hy
  rw [hlineage, hroot]
  exact List.Lex.rel (Nat.lt_add_right j hlt)

/-- Taking an element, with what its unit inserts and appends, keeps the order. -/
theorem DepthFirst.next (h : DepthFirst elements vs taken (x :: rest)) (hv : x.element = v.element) :
    DepthFirst elements (vs ++ [v]) (taken ++ [x])
      (descendants x.lineage 0 (inserted v.edits) ++ rest
        ++ descendants [] (originals elements vs).length (appended v.edits)) := by
  have hlength : taken.length = vs.length := by
    simpa using congrArg List.length h.visited
  have hsplit : (taken ++ [x]) ++ rest = taken ++ x :: rest := List.append_cons .. |>.symm
  have hrooted : ∀ y ∈ (taken ++ [x]) ++ rest, y.IsRooted (originals elements vs).length :=
    fun y hy => h.rooted y (hsplit ▸ hy)
  have hsorted := h.sorted
  rw [← hsplit, List.pairwise_append] at hsorted
  obtain ⟨htaken, -, hcross⟩ := hsorted
  obtain ⟨hrest, hfamilies⟩ := List.pairwise_cons.mp h.families
  generalize hkids : descendants x.lineage 0 (inserted v.edits) = kids
  generalize hroots : descendants [] (originals elements vs).length (appended v.edits) = roots
  have hx : x.IsRooted (originals elements vs).length := hrooted x (by simp)
  have hkid : ∀ y ∈ kids, ∃ j, y.lineage = x.lineage ++ [j] := by
    intro y hy
    obtain ⟨j, -, hlineage⟩ := mem_descendants (hkids ▸ hy)
    exact ⟨0 + j, hlineage⟩
  have hroot : ∀ y ∈ kids ++ rest, y.IsRooted (originals elements vs).length := by
    intro y hy
    cases List.mem_append.mp hy with
    | inl hchild => exact hx.child (hkids ▸ hchild)
    | inr hold => exact hrooted y (List.mem_append_right _ hold)
  have hpending : (kids ++ rest ++ roots).Pairwise fun a b => ∀ l, a.lineage ++ l < b.lineage := by
    rw [List.pairwise_append, List.pairwise_append]
    refine ⟨⟨hkids ▸ pairwise_descendants, hfamilies, ?_⟩, hroots ▸ pairwise_descendants, ?_⟩
    . intro a ha b hb l
      obtain ⟨j, hlineage⟩ := hkid a ha
      rw [hlineage, List.append_assoc]
      exact hrest b hb ([j] ++ l)
    . intro a ha b hb
      exact (hroot a ha).lt (hroots ▸ hb)
  constructor
  case visited =>
    rw [List.map_append, List.map_append, h.visited]
    simp [hv]
  case families => exact hpending
  case sorted =>
    rw [List.pairwise_append]
    refine ⟨htaken, hpending.imp (fun h => by simpa using h []), ?_⟩
    intro a ha b hb
    obtain (hchild | hold) | hnew := (List.mem_append.mp hb).imp_left List.mem_append.mp
    . obtain ⟨j, hlineage⟩ := hkid b hchild
      have hlt : x.lineage < b.lineage := hlineage ▸ lineage_lt_append x.lineage j
      cases List.mem_append.mp ha with
      | inl hbefore =>
        exact List.lt_trans ((List.pairwise_append.mp htaken).2.2 a hbefore x (by simp)) hlt
      | inr hself =>
        rw [List.mem_singleton.mp hself]
        exact hlt
    . exact hcross a ha b hold
    . simpa using (hrooted a (List.mem_append_left _ ha)).lt (hroots ▸ hnew) []
  case rooted =>
    have hmore : (originals elements (vs ++ [v])).length
        = (originals elements vs).length + (appended v.edits).length := by
      rw [originals_concat, List.length_append]
    intro y hy
    obtain hbefore | (hold | hnew) :=
      (List.mem_append.mp hy).imp_right List.mem_append.mp
    . exact (hrooted y (List.mem_append_left _ hbefore)).of_le (by omega)
    . exact (hroot y hold).of_le (by omega)
    . obtain ⟨j, hj, hlineage⟩ := mem_descendants (hroots.symm ▸ hnew)
      exact ⟨_, [], hlineage, by omega⟩
  case once =>
    have honce := Multiset.coe_eq_coe.mpr h.once
    rw [born_concat hlength, hkids, hroots]
    apply Multiset.coe_eq_coe.mp
    simp only [born, ← Multiset.coe_add, ← Multiset.cons_coe, ← Multiset.singleton_add,
      Multiset.coe_nil, add_zero] at honce ⊢
    calc
      _ = (↑taken + ({x} + ↑rest) : Multiset Descendant) + ↑roots + ↑kids := by abel
      _ = _ := by
        rw [honce]
        abel

end Steps

section Runs

variable {settings : Settings} {first run later : Run} {vs : List Visit} {v : Visit}
  {chain : HandlerChain} {context : Context} {channel outer : ChannelId} {owner : Owner}

theorem pending_of_next? {r remnant : Remnant} {element : ChainElement}
    (h : r.next? = some (element, remnant)) : r.pending = element :: remnant.pending := by
  unfold Remnant.next? at h
  split at h
  . cases h
  . next heq =>
    cases h
    exact heq

theorem pending_eq_nil {r : Remnant} (h : r.next? = none) : r.pending = [] := by
  unfold Remnant.next? at h
  split at h
  . assumption
  . cases h

theorem Run.Passes.pending (h : run.Passes settings v later) :
    ∃ rest, run.remnant.pending = v.element :: rest ∧
      later.remnant.pending = inserted v.edits ++ rest ++ appended v.edits := by
  cases h with
  | @intro _ u remnant name objects locked own hnext htakes hname hdecision =>
    exact ⟨remnant.pending, pending_of_next? hnext, (foldl_edit_of_next _ hnext).1⟩

/-- The elements that a run has taken and those that it will take are in depth-first order. -/
theorem Run.Since.exists_depthFirst
    (h : Since settings (.ofChain chain context channel outer owner) vs run) :
    ∃ taken pending, DepthFirst chain.elements vs taken pending ∧
      pending.map Descendant.element = run.remnant.pending := by
  generalize hfirst : Run.ofChain chain context channel outer owner = first at h
  induction h with
  | start =>
    subst hfirst
    exact ⟨[], _, depthFirst_start chain.elements, map_element_descendants⟩
  | @next vs v before after h hv ih =>
    obtain ⟨taken, pending, hdepth, hpending⟩ := ih
    obtain ⟨rest, hbefore, hafter⟩ := hv.pending
    rw [hbefore] at hpending
    cases pending with
    | nil => cases hpending
    | cons x others =>
      injection hpending with hx hothers
      refine ⟨_, _, hdepth.next hx, ?_⟩
      rw [hafter, List.map_append, List.map_append, map_element_descendants,
        map_element_descendants, hothers]

end Runs

namespace Ruling

/-- The place in the chain that is recorded with a ruling. -/
def place : Ruling → Option Nat
  | decides _ position _ _ | defers _ position _ _ => some position
  | fails _ position _ _ => position
  | runsOut | escapes => none

end Ruling

section Places

variable {settings : Settings} {run : Run} {a : Answer} {isOpen : Bool} {v : Ruling}

/-- Whether an answer, and what is told with it, is about a certain place in the chain. -/
structure Forecast.Places (place : Option Nat) (f : Forecast) : Prop where
  record : ∀ a, f.progress = .ended (.answered a) → a.record.position = place
  reports : ∀ owner report, .reporting owner report ∈ f.events → report.position = place

theorem failing_places (unit : String) (position : Option Nat) (failure : UnitFailure)
    (own : Accumulator) : (run.failing settings unit position failure own).Places position where
  record a h := by
    cases h
    rfl
  reports owner report h := by
    cases List.mem_singleton.mp h
    rfl

theorem Forecast.places_of_quiet {place : Option Nat} {p : Progress}
    (h : ∀ a, p = .ended (.answered a) → a.record.position = place) :
    Forecast.Places place ⟨[], p⟩ where
  record := h
  reports _ _ hmem := nomatch hmem

theorem responding_places (unit : String) (position : Nat) (status : Status)
    (message : Option ResponseMessage) (own : Accumulator) :
    (run.responding settings unit position status message own).Places (some position) := by
  have hanswered : ∀ own : Accumulator, Forecast.Places (some position)
      ⟨[], .ended (.answered (run.answer own unit (some position) .respondWith none))⟩ := by
    intro own
    apply Forecast.places_of_quiet
    intro a h
    cases h
    rfl
  unfold Run.responding
  dsimp only
  split
  . apply hanswered
  . apply hanswered
  . split
    . apply hanswered
    . apply failing_places
    . exact Forecast.places_of_quiet (by simp)

theorem taking_places (isOpen : Bool) (v : Ruling) :
    (run.taking settings isOpen v).Places v.place := by
  cases v with
  | decides unit position outcome own =>
    unfold Run.taking
    dsimp only
    split
    . cases outcome with
      | rejected =>
        unfold Run.applying
        dsimp only
        split
        . apply failing_places
        . exact Forecast.places_of_quiet (by simp)
      | consumed objects locked => exact Forecast.places_of_quiet (by simp)
      | respondWith status message => apply responding_places
    . exact Forecast.places_of_quiet (by simp)
  | fails unit position failure own =>
    cases isOpen with
    | true => apply failing_places
    | false => exact Forecast.places_of_quiet (by simp)
  | defers unit position own plan => exact Forecast.places_of_quiet (by simp)
  | runsOut => exact Forecast.places_of_quiet (by simp)
  | escapes => exact Forecast.places_of_quiet (by simp)

theorem place_standing (position : Nat) (u : HandlerUnit) :
    (run.standing position u).ruling.place = some position ∨
    (run.standing position u).ruling = .escapes := by
  unfold Run.standing
  split
  . exact .inr rfl
  . apply Or.inl
    dsimp only
    cases (u.evaluate run.view).ending <;> rfl

/-- A ruling is about the next element, unless there is none or its name is not known. -/
theorem place_stance (run : Run) :
    (run.stance settings).ruling.place = some run.evaluated ∨
    (run.stance settings).ruling = .escapes ∨
    (run.remnant.next? = none ∧ (run.stance settings).run = run ∧
      (run.stance settings).ruling.place = none) := by
  unfold Run.stance
  cases hnext : run.remnant.next? with
  | none =>
    refine .inr (.inr ⟨rfl, rfl, ?_⟩)
    dsimp only
    split <;> rfl
  | some next =>
    obtain ⟨element, remnant⟩ := next
    cases element with
    | unit u => exact (place_standing run.evaluated u).imp_right .inl
    | spec spec =>
      dsimp only [Run.facing]
      split
      . exact (place_standing run.evaluated _).imp_right .inl
      . exact .inl rfl

theorem Suspension.Halts.position_eq {s : Suspension} {r : Resolved} (h : s.Halts settings run r) :
    s.position = run.evaluated := by
  obtain ⟨es, plan, hstance, -⟩ := h
  obtain hplace | hescapes | ⟨-, -, hplace⟩ := @place_stance settings run
  . rw [hstance] at hplace
    exact Option.some.inj hplace
  . rw [hstance] at hescapes
    cases hescapes
  . rw [hstance] at hplace
    cases hplace

theorem place_ofResolved (unit : String) (position : Nat) (own : Accumulator) (r : Resolved) :
    (Ruling.ofResolved unit position own r).place = some position := by
  match r with
  | .ok ⟨outcome, some more⟩ => rfl
  | .ok ⟨outcome, none⟩ => rfl
  | .error .abandoned => rfl
  | .error (.failed e) => rfl

/-- A chain is rejected as a whole only if it has run out. -/
theorem eq_of_taking_rejected {n : Nat}
    (h : (run.taking settings isOpen v).progress = .ended (.rejected n none)) :
    v = .runsOut ∧ n = run.evaluated := by
  cases v with
  | decides unit position outcome own =>
    unfold Run.taking at h
    dsimp only at h
    split at h
    . cases outcome with
      | rejected =>
        unfold Run.applying at h
        dsimp only at h
        split at h <;> cases h
      | consumed objects locked => cases h
      | respondWith status message =>
        unfold Run.applying Run.responding at h
        dsimp only at h
        split at h
        . cases h
        . cases h
        . split at h <;> cases h
    . cases h
  | fails unit position failure own => cases isOpen <;> cases h
  | defers unit position own plan => cases h
  | runsOut =>
    cases h
    exact ⟨rfl, rfl⟩
  | escapes => cases h

/-- What a job records about the place of its run, if elements were taken before so many. -/
structure Forecast.Locates (run : Run) (f : Forecast) : Prop where
  exhausted : ∀ n, f.progress = .ended (.rejected n none) →
    run.remnant.next? = none ∧ n = run.evaluated
  unplaced : ∀ a, f.progress = .ended (.answered a) → a.record.position = none →
    run.remnant.next? = none
  placed : ∀ a k, f.progress = .ended (.answered a) → a.record.position = some k →
    k = run.evaluated
  reports : ∀ a owner report, f.progress = .ended (.answered a) →
    .reporting owner report ∈ f.events → report.position = a.record.position

theorem isEffort_of_mem_standing {position : Nat} {u : HandlerUnit} {e : Event}
    (he : e ∈ (run.standing position u).events) : e.isEffort = true := by
  unfold Run.standing at he
  split at he
  . cases he
  . rw [List.mem_singleton.mp he]
    rfl

theorem isEffort_of_mem_stance {e : Event} (he : e ∈ (run.stance settings).events) :
    e.isEffort = true := by
  unfold Run.stance at he
  cases hnext : run.remnant.next? with
  | none =>
    rw [hnext] at he
    cases he
  | some next =>
    obtain ⟨element, remnant⟩ := next
    rw [hnext] at he
    cases element with
    | unit u => exact isEffort_of_mem_standing he
    | spec spec =>
      dsimp only [Run.facing] at he
      split at he
      . cases List.mem_cons.mp he with
        | inl hhead =>
          rw [hhead]
          rfl
        | inr htail => exact isEffort_of_mem_standing htail
      . rw [List.mem_singleton.mp he]
        rfl

theorem Stance.locates {t : Stance} (hevents : ∀ e ∈ t.events, e.isEffort = true)
    (hplace : t.ruling.place = some run.evaluated ∨ t.ruling = .escapes ∨
      (run.remnant.next? = none ∧ t.run = run ∧ t.ruling.place = none)) (isOpen : Bool) :
    (t.taken settings isOpen).Locates run := by
  have hplaces := @taking_places settings t.run isOpen t.ruling
  constructor
  case exhausted =>
    intro n h
    obtain ⟨hruling, hn⟩ := eq_of_taking_rejected h
    rw [hruling] at hplace
    obtain hsome | hescapes | ⟨hnext, hrun, -⟩ := hplace
    . cases hsome
    . cases hescapes
    . rw [hrun] at hn
      exact ⟨hnext, hn⟩
  case unplaced =>
    intro a h hnone
    obtain hsome | hescapes | ⟨hnext, -, -⟩ := hplace
    . rw [← hplaces.record a h, hnone] at hsome
      cases hsome
    . unfold Stance.taken at h
      rw [hescapes] at h
      cases h
    . exact hnext
  case placed =>
    intro a k h hsome
    rw [hplaces.record a h] at hsome
    obtain hevaluated | hescapes | ⟨-, -, hnone⟩ := hplace
    . exact Option.some.inj (hsome.symm.trans hevaluated)
    . rw [hescapes] at hsome
      cases hsome
    . rw [hnone] at hsome
      cases hsome
  case reports =>
    intro a owner report h hmem
    rw [hplaces.record a h]
    cases List.mem_append.mp hmem with
    | inl hbefore => exact absurd (hevents _ hbefore) nofun
    | inr htold => exact hplaces.reports owner report htold

/-- Whatever a job records about the place of its run, it is where the run is. -/
theorem locates_of_isAt {job : Job} (h : (Flight.queued job).IsAt settings run) (g : Glance) :
    (job.seeing settings g).Locates run := by
  cases g with
  | unseen => constructor <;> simp [Job.seeing, Run.abandoning]
  | seen isOpen =>
    cases h with
    | step => exact Stance.locates (fun e he => isEffort_of_mem_stance he) (place_stance run) isOpen
    | @resume s r hhalts =>
      apply Stance.locates (List.forall_mem_nil _)
      left
      rw [← hhalts.position_eq]
      exact place_ofResolved _ _ _ _

end Places

theorem Run.Takes.exists_next? {settings : Settings} {run taken : Run} {u : HandlerUnit}
    (h : run.Takes settings u taken) :
    ∃ element, run.remnant.next? = some (element, taken.remnant) := by
  cases h with
  | unit hnext => exact ⟨_, hnext⟩
  | spec hnext hmade => exact ⟨_, hnext⟩

namespace Machine

variable {settings : Settings} {m started : Machine} {run taken : Run} {u : HandlerUnit}
  {name : String} {f : Flight}

theorem remnant_of_taking {isOpen : Bool} {v : Ruling}
    (h : (run.taking settings isOpen v).progress.flight? = some f) :
    f.run.remnant = run.remnant := by
  cases hprogress : (run.taking settings isOpen v).progress with
  | continues later =>
    rw [hprogress] at h
    cases h
    obtain ⟨unit, position, objects, locked, own, -, rfl⟩ := eq_of_taking_continues hprogress
    rfl
  | suspended s plan =>
    rw [hprogress] at h
    cases h
    rw [Suspension.flight_run, (eq_of_taking_suspended hprogress).2]
  | ended result =>
    rw [hprogress] at h
    cases h
  | escaped =>
    rw [hprogress] at h
    cases h

/-- A run goes on with the elements that its unit left, at once or when the unit decides. -/
theorem remnant_of_seeing (htakes : run.Takes settings u taken) (hname : u.name = .ok name)
    {g : Glance} (h : ((Job.step run).seeing settings g).progress.flight? = some f) :
    f.run.remnant = (u.evaluate taken.view).edits.foldl .edit taken.remnant := by
  cases g with
  | unseen => cases h
  | seen isOpen =>
    obtain ⟨before, -, hstance⟩ := Run.stance_of_takes htakes
    have hruns : ((Job.step run).stance settings).run
        = taken.edited (u.evaluate taken.view).edits := by
      dsimp only [Job.stance]
      rw [hstance]
      unfold Run.standing
      rw [hname]
    rw [remnant_of_taking h, hruns]
    rfl

theorem Stirred.does (h : Stirred settings m) {job : Job}
    (hstart : m.startJob? = some (job, started)) :
    started.Does job.run (started.turn job) (job.seeing settings (started.glance job)) := by
  obtain ⟨chain, context, channel, outer, owner, gs, es, hlives, -⟩ :=
    h.traces (holds_of_startJob? hstart)
  exact hlives.does hstart

/--
What a unit inserts is evaluated next, and what it appends is evaluated last, each in the order of
the calls: so a run evaluates its chain depth-first, every element once, and all of them if it ends
because there are no more. The places that it records are the numbers of elements taken before.
-/
theorem Stirred.evaluates_depth_first (h : Stirred settings m) :
    (∀ f, m.Holds f → ∃ chain context channel outer owner gs es,
      Lives settings (.ofChain chain context channel outer owner) m f gs es) ∧
    (∀ run started u taken name, m.startJob? = some (.step run, started) →
      Run.Takes settings run u taken → u.name = .ok name →
      (∃ element, run.remnant.pending = element :: taken.remnant.pending) ∧
      (∀ f, (started.turn (.step run)).2.flight? = some f →
        f.run.remnant.pending
          =
        inserted (u.evaluate taken.view).edits ++ taken.remnant.pending
          ++ appended (u.evaluate taken.view).edits) ∧
      ∀ done, done <+: (u.evaluate taken.view).edits →
        (done.foldl .edit taken.remnant).cursor
          ≤ (done.foldl .edit taken.remnant).pending.length) ∧
    (∀ chain context channel outer owner job started gs es es',
      Lives settings (.ofChain chain context channel outer owner) m (.queued job) gs es →
      m.startJob? = some (job, started) →
      (started.turn job).1.told job.run.owner.id? = started.told job.run.owner.id? ++ es' →
      ∃ vs run last taken pending, (Flight.queued job).IsAt settings run ∧
        Run.Recounts settings (.ofChain chain context channel outer owner) (es ++ es') vs run
          last ∧
        DepthFirst chain.elements vs taken pending ∧
        pending.map Descendant.element = run.remnant.pending ∧
        (∀ (k : Nat) (e : Evaluation),
          ((es ++ es').filterMap Event.evaluation?)[k]? = some e → e.position = k) ∧
        (∀ n, (started.turn job).2 = .ended (.rejected n none) →
          pending = [] ∧ n = taken.length) ∧
        ∀ a, (started.turn job).2 = .ended (.answered a) →
          (a.record.position = none → pending = []) ∧
          (∀ k, a.record.position = some k → k = taken.length) ∧
          ∀ owner report, .reporting owner report ∈ es' → report.position = a.record.position) := by
  refine ⟨?_, ?_, ?_⟩
  . intro f hf
    obtain ⟨chain, context, channel, outer, owner, gs, es, hlives, -⟩ := h.traces hf
    exact ⟨chain, context, channel, outer, owner, gs, es, hlives⟩
  . intro run started u taken name hstart htakes hname
    obtain ⟨element, hnext⟩ := htakes.exists_next?
    refine ⟨⟨element, pending_of_next? hnext⟩, ?_, ?_⟩
    . intro f hf
      rw [(h.does hstart).progress] at hf
      rw [remnant_of_seeing htakes hname hf]
      exact (foldl_edit_of_next _ hnext).1
    . intro done _
      obtain ⟨hpending, hcursor⟩ := foldl_edit_of_next done hnext
      rw [hpending, hcursor, List.length_append, List.length_append, Nat.add_assoc]
      exact Nat.le_add_right _ _
  . intro chain context channel outer owner job started gs es es' hlives hstart htold
    have hdoes := hlives.does hstart
    obtain ⟨vs, run, last, hat, hrecounts⟩ := hlives.exists_recounts_of_turn hstart htold
    obtain ⟨taken, pending, hdepth, hpending⟩ := hrecounts.since.exists_depthFirst
    have hlocates := locates_of_isAt hat (started.glance job)
    rw [hdoes.events_eq htold] at hrecounts ⊢
    rw [hdoes.progress]
    have hevaluated : run.evaluated = taken.length := by
      rw [hrecounts.since.evaluated_eq, ← List.length_map Descendant.element, hdepth.visited,
        List.length_map]
      exact Nat.zero_add _
    have hempty : run.remnant.next? = none → pending = [] := by
      intro hnext
      rw [pending_eq_nil hnext] at hpending
      exact List.map_eq_nil_iff.mp hpending
    refine ⟨vs, run, last, taken, pending, hat, hrecounts, hdepth, hpending, ?_, ?_, ?_⟩
    . intro k e hk
      exact (hrecounts.position_eq hk).trans (Nat.zero_add k)
    . intro n hn
      obtain ⟨hnext, hcount⟩ := hlocates.exhausted n hn
      exact ⟨hempty hnext, hcount.trans hevaluated⟩
    . intro a ha
      refine ⟨?_, ?_, ?_⟩
      . intro hnone
        exact hempty (hlocates.unplaced a ha hnone)
      . intro k hk
        exact (hlocates.placed a k ha hk).trans hevaluated
      . intro owner report hmem
        exact hlocates.reports a owner report ha hmem

def passingUnit (name : String) : HandlerUnit where
  name := .ok name
  evaluate _ := .decide (.consumed [] false)

/-- A unit that first appends an element and then inserts one. -/
def insertingUnit : HandlerUnit where
  name := .ok "Insert"
  evaluate _ := { UnitWork.decide (.consumed [] false) with
    edits := [.append (.unit (passingUnit "Last")), .insertNext (.unit (passingUnit "Inner"))] }

def insertingChain : HandlerChain :=
  ⟨"chain", [.unit insertingUnit, .unit (passingUnit "After")]⟩

def insertingRun : Run :=
  .ofChain insertingChain (.forRequest (.new .zero .get "/")) 0 0 .caller

def inserting (steps : Nat) : Machine := running .plain insertingChain.elements steps

theorem depth_first_of_inserting :
    (∃ f, ((inserting 0).turn (.step insertingRun)).2.flight? = some f ∧
      f.run.remnant.pending
        =
      [.unit (passingUnit "Inner")] ++ [.unit (passingUnit "After")]
        ++ [.unit (passingUnit "Last")]) ∧
    ∃ vs run last taken,
      Run.Recounts .plain insertingRun ((inserting 5).told none) vs run last ∧
      DepthFirst insertingChain.elements vs taken [] ∧ taken.length = 4 ∧
      (((inserting 5).told none).filterMap Event.evaluation?).map Evaluation.unit
        =
      ["Insert", "Inner", "After", "Last"] := by
  have h0 : Lives .plain insertingRun (inserting 0) (.queued (.step insertingRun)) [] [] :=
    .starts (reachable_running .plain _ 0).sane.1 rfl (Multiset.mem_coe.mpr List.mem_cons_self)
  have h1 : Lives .plain insertingRun (inserting 1) (.queued (.step _)) _
      ((inserting 1).told none) := .goes h0 rfl rfl (h0.does rfl).told
  have h2 : Lives .plain insertingRun (inserting 2) (.queued (.step _)) _
      ((inserting 2).told none) := .goes h1 rfl rfl (h1.does rfl).told
  have h3 : Lives .plain insertingRun (inserting 3) (.queued (.step _)) _
      ((inserting 3).told none) := .goes h2 rfl rfl (h2.does rfl).told
  have h4 : Lives .plain insertingRun (inserting 4) (.queued (.step _)) _
      ((inserting 4).told none) := .goes h3 rfl rfl (h3.does rfl).told
  constructor
  . obtain ⟨-, hpending, -⟩ := (Stirred.evaluates_depth_first
      (reachable_running .plain insertingChain.elements 0).stirred).2.1 _ _ insertingUnit _ _ rfl
      (.unit rfl) rfl
    exact ⟨_, rfl, hpending _ rfl⟩
  . obtain ⟨vs, run, last, taken, pending, -, hrecounts, hdepth, -, -, hrejected, -⟩ :=
      (Stirred.evaluates_depth_first
        (reachable_running .plain insertingChain.elements 4).stirred).2.2 _ _ _ _ _ _ _ _ _ _ h4
        rfl (h4.does rfl).told
    obtain ⟨rfl, hlength⟩ := hrejected 4 rfl
    exact ⟨vs, run, last, taken, hrecounts, hdepth, hlength.symm, rfl⟩

end Machine
end PageDispatch
