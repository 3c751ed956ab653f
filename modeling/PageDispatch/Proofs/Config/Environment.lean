import PageDispatch.Config
import PageDispatch.Proofs.Numeral.Reading

/-!
This module contains how the variables of the environment override settings: each has a field of its
own, which takes what the variable says if that is valid, and stays as it is otherwise. Blanks
around numbers and flags do not count, but the name of a mode has to stand by itself.
-/

namespace PageDispatch

namespace Lowercase

theorem lowerChar_of_isBlank {c : Char} (h : Blank.isBlank c = true) : lowerChar c = [c] := by
  have hall : ∀ n ∈ List.range' 0x09 5 ++ [0x20, 0x85, 0xA0, 0x1680] ++ List.range' 0x2000 11
      ++ [0x2028, 0x2029, 0x202F, 0x205F, 0x3000], lowerChar (.ofNat n) = [.ofNat n] := by
    decide +kernel
  have hc := hall c.toNat
  rw [Char.ofNat_toNat] at hc
  apply hc
  unfold Blank.isBlank at h
  simp at h ⊢
  omega

theorem mem_go_of_isBlank {c : Char} {before cs : List Char} (hc : Blank.isBlank c = true)
    (hmem : c ∈ cs) : c ∈ lower.go before cs := by
  have hsigma : c ≠ 'Σ' := by
    rintro rfl
    revert hc
    decide
  induction cs generalizing before with
  | nil => cases hmem
  | cons first rest ih =>
    rw [lower.go, List.mem_append]
    cases hmem with
    | head => simp [hsigma, lowerChar_of_isBlank hc]
    | tail _ hmem => exact Or.inr (ih hmem)

/-- Blanks have no case, so whatever is blank in a text stays in it. -/
theorem trim_eq_self_of_lower {s : String} (h : ∀ c ∈ (lower s).toList, Blank.isBlank c = false) :
    Blank.trim s = s := by
  unfold Blank.trim
  rw [Blank.trimChars_eq_self, String.ofList_toList]
  intro c hc
  by_contra hblank
  have hmem : c ∈ (lower s).toList := by
    unfold lower
    rw [String.toList_ofList]
    exact mem_go_of_isBlank (Bool.eq_true_of_not_eq_false hblank) hc
  exact hblank (h c hmem)

end Lowercase

namespace EngineConfig

variable {s : String} {env other : Environment}

def variableNames : List String := [
  "CHAINR_WORKERS", "CHAINR_QUEUE_BOUND", "CHAINR_BACKPRESSURE_MODE", "CHAINR_STACK_SIZE",
  "CHAINR_EXPOSE_ERRORS"]

/-- Whether the same variables are set, to texts that differ in the blanks around them only. -/
def SameTrimmed (env other : Environment) : Prop :=
  ∀ name ∈ variableNames, (env name).map Blank.trim = (other name).map Blank.trim

instance (env other : Environment) : Decidable (SameTrimmed env other) :=
  List.decidableBAll _ _

/-! What texts say, without blanks around them. -/

def WritesWord (s : String) (n : UInt64) : Prop := Natural.Writes 10 s.toList n.toNat

/-- A size is written in decimal digits, or in hexadecimal ones behind a mark. -/
def WritesSize (s : String) (n : UInt64) : Prop :=
  (∃ digits, (s.toList = '0' :: 'x' :: digits ∨ s.toList = '0' :: 'X' :: digits) ∧
    Natural.Writes 16 digits n.toNat) ∨
  Natural.Writes 10 s.toList n.toNat

def SaysFlag (s : String) (flag : Bool) : Prop :=
  Lowercase.lowerAscii s ∈
    if flag then ["1", "true", "yes", "on"] else ["0", "false", "no", "off"]

def NamesMode (s : String) (mode : Backpressure) : Prop := Lowercase.lower s = mode.name

/-- Whether a field has taken what its variable means, or has stayed as that is not valid. -/
def Follows {α : Type} (means : String → α → Prop) (given : Option String) (old new : α) :
    Prop :=
  (∃ s, given = some s ∧ means s new) ∨
    (∀ s, given = some s → ∀ a, ¬means s a) ∧ new = old

theorem follows_override {α : Type} {means : String → α → Prop} {read : String → Option α}
    (hread : ∀ s a, read s = some a ↔ means s a) (env : Environment) (name : String) (old : α) :
    Follows means (env name) old (override env name read old) := by
  unfold override
  cases env name with
  | none => exact Or.inr ⟨nofun, rfl⟩
  | some s =>
    rw [Option.bind_some]
    cases hs : read s with
    | some a => exact Or.inl ⟨s, rfl, (hread s a).mp hs⟩
    | none =>
      refine Or.inr ⟨?_, rfl⟩
      rintro _ ⟨⟩ a ha
      rw [← hread, hs] at ha
      cases ha

theorem parseWord_eq_some_iff {n : UInt64} :
    parseWord s = some n ↔ WritesWord (Blank.trim s) n := by
  unfold parseWord WritesWord Natural.readWord
  rw [← Natural.readWordIn_eq_ok_iff (by decide) (by decide)]
  cases Natural.readWordIn 10 (Blank.trim s).toList <;> simp [Except.toOption]

theorem parseFlag_eq_some_iff {flag : Bool} :
    parseFlag s = some flag ↔ SaysFlag (Blank.trim s) flag := by
  unfold parseFlag SaysFlag
  split <;> cases flag <;> simp_all

theorem parseMode_eq_some_iff {mode : Backpressure} :
    (Backpressure.parse s).toOption = some mode ↔ NamesMode s mode := by
  have hname : Backpressure.ofName? (Lowercase.lower s) = some mode ↔ NamesMode s mode := by
    unfold Backpressure.ofName? NamesMode
    split <;> cases mode <;> simp_all [Backpressure.name]
  rw [← hname]
  unfold Backpressure.parse
  cases Backpressure.ofName? (Lowercase.lower s) <;> simp [Except.toOption]

theorem toOption_readWordIn_eq_some_iff {base : Nat} {cs : List Char} {n : UInt64}
    (hpos : 0 < base) (hbase : base ≤ 16) :
    (Natural.readWordIn base cs).toOption = some n ↔ Natural.Writes base cs n.toNat := by
  rw [← Natural.readWordIn_eq_ok_iff hpos hbase]
  cases Natural.readWordIn base cs <;> simp [Except.toOption]

theorem not_writes_of_mark {cs : List Char} {c : Char} {n : Nat} (hc : c = 'x' ∨ c = 'X')
    (hmem : c ∈ cs) : ¬Natural.Writes 10 cs n := by
  have hnone : ∀ d < 10, c.toLower ≠ d.digitChar := by
    rcases hc with rfl | rfl <;> decide
  intro h
  have ⟨d, hd, hlower⟩ := h.isDigit_of_mem hmem (by rcases hc with rfl | rfl <;> decide)
  exact hnone d hd hlower

theorem parseStackSize_eq_some_iff {n : UInt64} :
    parseStackSize s = some n ↔ WritesSize (Blank.trim s) n := by
  unfold parseStackSize WritesSize Blank.trim
  rw [String.toList_ofList]
  split
  . next digits heq =>
    have hdecimal : ¬Natural.Writes 10 ('0' :: 'x' :: digits) n.toNat :=
      not_writes_of_mark (Or.inl rfl) (by simp)
    rw [toOption_readWordIn_eq_some_iff (by decide) (by decide), heq]
    simp [hdecimal]
  . next digits heq =>
    have hdecimal : ¬Natural.Writes 10 ('0' :: 'X' :: digits) n.toNat :=
      not_writes_of_mark (Or.inr rfl) (by simp)
    rw [toOption_readWordIn_eq_some_iff (by decide) (by decide), heq]
    simp [hdecimal]
  . next hlower hupper =>
    rw [toOption_readWordIn_eq_some_iff (by decide) (by decide)]
    constructor
    . exact Or.inr
    . rintro (⟨digits, heq | heq, _⟩ | h)
      . exact absurd heq (hlower digits)
      . exact absurd heq (hupper digits)
      . exact h

/-- Blanks do not count in what is read without them. -/
theorem override_congr {α : Type} {read : String → Option α} {valid : String → α → Prop}
    (hread : ∀ s a, read s = some a ↔ valid (Blank.trim s) a) {name : String}
    (h : (env name).map Blank.trim = (other name).map Blank.trim) (old : α) :
    override env name read old = override other name read old := by
  have hvalue : (env name).bind read = (other name).bind read := by
    apply Option.ext
    intro a
    simp only [Option.bind_eq_some_iff, hread]
    constructor
    . rintro ⟨s, hs, ha⟩
      rw [hs] at h
      obtain ⟨t, ht, htrim⟩ := Option.map_eq_some_iff.mp h.symm
      exact ⟨t, ht, htrim ▸ ha⟩
    . rintro ⟨t, ht, ha⟩
      rw [ht] at h
      obtain ⟨s, hs, htrim⟩ := Option.map_eq_some_iff.mp h
      exact ⟨s, hs, htrim ▸ ha⟩
  unfold override
  rw [hvalue]

theorem override_override {α : Type} (env : Environment) (name : String)
    (read : String → Option α) (old : α) :
    override env name read (override env name read old) = override env name read old := by
  unfold override
  cases (env name).bind read <;> rfl

theorem applyEnv_applyEnv (env : Environment) (c : EngineConfig) :
    applyEnv env (applyEnv env c) = applyEnv env c := by
  simp only [applyEnv, applyPoolEnv, override_override]

/-- The name of a mode holds no blanks, so it is not valid with blanks around it. -/
theorem trim_eq_self_of_namesMode {mode : Backpressure} (h : NamesMode s mode) :
    Blank.trim s = s := by
  have hname : mode.name.toList.all (!Blank.isBlank ·) := by cases mode <;> decide
  apply Lowercase.trim_eq_self_of_lower
  unfold NamesMode at h
  rw [h]
  intro c hc
  simpa using List.all_eq_true.mp hname c hc

/--
Two environments that differ in the blanks around variables only override all settings alike, but
for the mode of backpressure; if they do not differ in its variable, they override this one alike
too. In any environment each field takes what its own variable says if that is valid, and stays
otherwise, whatever the other variables say. Of numbers and flags blanks around them do not count; a
mode with blanks around it is not valid. To override settings once more changes nothing.
-/
theorem settings_follow_variables (c : EngineConfig) :
    (∀ env other, SameTrimmed env other →
      (∃ mode, applyEnv other c
        =
      { applyEnv env c with pool := { (applyEnv env c).pool with backpressure := mode } }) ∧
      (env "CHAINR_BACKPRESSURE_MODE" = other "CHAINR_BACKPRESSURE_MODE" →
        applyEnv other c = applyEnv env c)) ∧
    ∀ env,
      let d := applyEnv env c
      Follows (fun s => WritesWord (Blank.trim s)) (env "CHAINR_WORKERS")
        c.pool.workers d.pool.workers ∧
      Follows (fun s => WritesWord (Blank.trim s)) (env "CHAINR_QUEUE_BOUND")
        c.pool.queueBound d.pool.queueBound ∧
      Follows (fun s => WritesSize (Blank.trim s)) (env "CHAINR_STACK_SIZE")
        c.pool.stackSize d.pool.stackSize ∧
      Follows (fun s => SaysFlag (Blank.trim s)) (env "CHAINR_EXPOSE_ERRORS")
        c.exposeDetails d.exposeDetails ∧
      Follows NamesMode (env "CHAINR_BACKPRESSURE_MODE") c.pool.backpressure d.pool.backpressure ∧
      (∀ s, env "CHAINR_BACKPRESSURE_MODE" = some s → Blank.trim s ≠ s →
        d.pool.backpressure = c.pool.backpressure) ∧
      applyEnv env d = d := by
  have hword : ∀ s n, parseWord s = some n ↔ WritesWord (Blank.trim s) n :=
    fun s n => parseWord_eq_some_iff
  have hsize : ∀ s n, parseStackSize s = some n ↔ WritesSize (Blank.trim s) n :=
    fun s n => parseStackSize_eq_some_iff
  have hflag : ∀ s flag, parseFlag s = some flag ↔ SaysFlag (Blank.trim s) flag :=
    fun s flag => parseFlag_eq_some_iff
  have hmode : ∀ s mode, (Backpressure.parse s).toOption = some mode ↔ NamesMode s mode :=
    fun s mode => parseMode_eq_some_iff
  constructor
  . intro env other hsame
    have hworkers := override_congr hword (hsame "CHAINR_WORKERS" (by decide)) c.pool.workers
    have hbound := override_congr hword (hsame "CHAINR_QUEUE_BOUND" (by decide)) c.pool.queueBound
    have hstack := override_congr hsize (hsame "CHAINR_STACK_SIZE" (by decide)) c.pool.stackSize
    have hdetails := override_congr hflag (hsame "CHAINR_EXPOSE_ERRORS" (by decide)) c.exposeDetails
    unfold applyEnv applyPoolEnv
    rw [hworkers, hbound, hstack, hdetails]
    refine ⟨⟨_, rfl⟩, ?_⟩
    intro heq
    unfold override
    rw [heq]
  . intro env d
    have hfollows : Follows NamesMode (env "CHAINR_BACKPRESSURE_MODE") c.pool.backpressure
        d.pool.backpressure := follows_override hmode env _ _
    refine ⟨follows_override hword env _ _, follows_override hword env _ _,
      follows_override hsize env _ _, follows_override hflag env _ _, hfollows, ?_,
      applyEnv_applyEnv env c⟩
    intro s hs hpadded
    rcases hfollows with ⟨t, ht, hnames⟩ | ⟨_, hkept⟩
    . rw [hs, Option.some.injEq] at ht
      exact absurd (trim_eq_self_of_namesMode (ht ▸ hnames)) hpadded
    . exact hkept

/-- Variables with blanks around them all. -/
def padded : Environment := fun name => [
  ("CHAINR_WORKERS", " +8"),
  ("CHAINR_BACKPRESSURE_MODE", " shed "),
  ("CHAINR_STACK_SIZE", "0X4000\t"),
  ("CHAINR_EXPOSE_ERRORS", "\nYes")].lookup name

/-- The same variables without blanks. -/
def bare : Environment := fun name => (padded name).map Blank.trim

theorem follows_of_padded :
    SameTrimmed bare padded ∧
    (∃ mode, applyEnv padded default = ⟨⟨8, 1024, mode, 0x4000⟩, true⟩) ∧
    (applyEnv padded default).pool.backpressure = .block := by
  have hsame : SameTrimmed bare padded := by decide
  have hfollows := settings_follow_variables default
  have ⟨mode, hmode⟩ := (hfollows.1 bare padded hsame).1
  have hkept := (hfollows.2 padded).2.2.2.2.2.1 " shed " rfl (by decide)
  have hbare : applyEnv bare default = ⟨⟨8, 1024, .shed, 0x4000⟩, true⟩ := by decide
  refine ⟨hsame, ⟨mode, ?_⟩, hkept⟩
  rw [hmode, hbare]

/-- Without the blanks around its name, a mode is taken that is not taken with them. -/
theorem not_alike_of_padded :
    SameTrimmed bare padded ∧ applyEnv bare default ≠ applyEnv padded default := by
  decide

end EngineConfig
end PageDispatch
