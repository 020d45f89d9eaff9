import JanetEmbedding.Datum.Kind
import JanetEmbedding.Json.Reading
import JanetEmbedding.Proofs.Tokens
import JanetEmbedding.Toml.Reading

/-!
# What reading a document can fail with

A text that is no JSON and one that is no TOML are refused with an error of one kind, a value that is not
allowed. So are the numbers that are well-formed but have too many digits, and the dates that are on no
calendar. Of another kind is the error of either reader for a document that is nested too deeply. This is
proved reader by reader: a step fails only as its parts do.

## Main results

* `Json.failsOnly_read`: JSON is refused as malformed, for an integer with too many digits, or as nested too
  deeply.
* `Json.read_of_brackets`: more opening brackets than there is room for are too many.
* `Toml.failsOnly_read`: TOML is refused with a value that is not allowed, or as nested too deeply.
-/

namespace JanetEmbedding

/-! ### Steps that may fail -/

section FailsOnly

variable {ε ε' α β : Type} {P : ε → Prop} {x : Except ε α}

/-- A step fails only with errors of which a property holds. -/
def FailsOnly (P : ε → Prop) (x : Except ε α) : Prop := ∀ e, x = .error e → P e

@[simp] theorem failsOnly_ok (a : α) : FailsOnly P (.ok a : Except ε α) := fun _ h => nomatch h

@[simp] theorem failsOnly_pure (a : α) : FailsOnly P (pure a : Except ε α) := failsOnly_ok a

@[simp] theorem failsOnly_error {e : ε} : FailsOnly P (.error e : Except ε α) ↔ P e := by
  constructor
  · intro h
    exact h e rfl
  · intro h e' he
    exact Except.error.inj he ▸ h

@[simp] theorem failsOnly_throw {e : ε} : FailsOnly P (throw e : Except ε α) ↔ P e :=
  failsOnly_error

/-- A step after another fails as the other does, or else as itself. -/
theorem failsOnly_bind_iff {f : α → Except ε β} :
    FailsOnly P (x >>= f) ↔ FailsOnly P x ∧ ∀ a, x = .ok a → FailsOnly P (f a) := by
  cases x with
  | ok a =>
    constructor
    · intro h
      exact ⟨failsOnly_ok a, fun a' ha => Except.ok.inj ha ▸ h⟩
    · intro h
      exact h.2 a rfl
  | error e =>
    constructor
    · intro h
      exact ⟨failsOnly_error.mpr (failsOnly_error.mp h), fun a ha => nomatch ha⟩
    · intro h
      exact failsOnly_error.mpr (failsOnly_error.mp h.1)

@[simp] theorem failsOnly_map {f : α → β} : FailsOnly P (x.map f) ↔ FailsOnly P x := by
  cases x with
  | ok a => exact iff_of_true (failsOnly_ok _) (failsOnly_ok _)
  | error e => exact failsOnly_error.trans failsOnly_error.symm

/-- Errors that are passed on as others. -/
theorem failsOnly_mapError {Q : ε' → Prop} {f : ε → ε'} :
    FailsOnly Q (x.mapError f) ↔ FailsOnly (fun e => Q (f e)) x := by
  cases x with
  | ok a => exact iff_of_true (failsOnly_ok _) (failsOnly_ok _)
  | error e => exact failsOnly_error.trans (failsOnly_error (P := fun e => Q (f e))).symm

/-- A step after another has a result if both have one. -/
theorem exists_bind_ok_iff {f : α → Except ε β} :
    (∃ b, x >>= f = .ok b) ↔ ∃ a, x = .ok a ∧ ∃ b, f a = .ok b := by
  cases x with
  | ok a =>
    constructor
    · rintro ⟨b, hb⟩
      exact ⟨a, rfl, b, hb⟩
    · rintro ⟨a', ha, b, hb⟩
      exact ⟨b, Except.ok.inj ha ▸ hb⟩
  | error e =>
    constructor
    · rintro ⟨b, hb⟩
      exact nomatch hb
    · rintro ⟨a, ha, -⟩
      exact nomatch ha

@[simp] theorem exists_pure_ok (a : α) : ∃ b, (pure a : Except ε α) = .ok b := ⟨a, rfl⟩

namespace FailsOnly

theorem mono {Q : ε → Prop} (hx : FailsOnly P x) (h : ∀ e, P e → Q e) : FailsOnly Q x :=
  fun e he => h e (hx e he)

/-- One step after another fails only as either of them does. -/
theorem bind {f : α → Except ε β} (hx : FailsOnly P x) (hf : ∀ a, FailsOnly P (f a)) :
    FailsOnly P (x >>= f) :=
  failsOnly_bind_iff.mpr ⟨hx, fun a _ => hf a⟩

theorem map {f : α → β} (hx : FailsOnly P x) : FailsOnly P (x.map f) := failsOnly_map.mpr hx

/-- Going inside fails where there is no room, or as what is inside does. -/
theorem within {calls room : Nat} {tooDeep : ε} {inside : Nat → Except ε α} (hdeep : P tooDeep)
    (h : ∀ room, FailsOnly P (inside room)) : FailsOnly P (Nesting.within tooDeep calls room inside) := by
  unfold Nesting.within
  split
  · exact h _
  · exact failsOnly_error.mpr hdeep

/-- Steps that are made for the items of a list, one after the other. -/
theorem mapM {f : β → Except ε α} {xs : List β} (hf : ∀ b ∈ xs, FailsOnly P (f b)) :
    FailsOnly P (xs.mapM f) := by
  induction xs with
  | nil => exact failsOnly_pure _
  | cons b xs ih =>
    rw [List.mapM_cons]
    refine bind (hf b List.mem_cons_self) fun a => ?_
    exact bind (ih fun c hc => hf c (List.mem_cons_of_mem _ hc)) fun _ => failsOnly_pure _

end FailsOnly

end FailsOnly

/-- An error for a value that is not allowed. -/
abbrev DataError.IsValue (e : DataError) : Prop := e.kind = .value

/-! ### JSON -/

namespace Json

/-- What JSON is refused for: it is malformed, an integer in it has too many digits, or it is nested too
deeply. -/
inductive Refusal : DataError → Prop where
  | malformed : Refusal (.malformed .json)
  | tooManyDigits (digits : Nat) : Refusal (.tooManyDigits digits)
  | tooDeep : Refusal .tooDeep

namespace Reader

theorem failsOnly_step (room : Nat) (r : Reader) (t : Token) : FailsOnly Refusal (r.step room t) := by
  rw [step.eq_def]
  split
  case h_3 | h_4 => exact .within .tooDeep fun _ => failsOnly_ok _
  all_goals simp [Refusal.malformed, Refusal.tooManyDigits]

theorem failsOnly_run (room : Nat) (r : Reader) (ts : List Token) : FailsOnly Refusal (r.run room ts) := by
  induction ts generalizing r with
  | nil => exact failsOnly_ok r
  | cons t ts ih => exact (failsOnly_step room r t).bind ih

theorem failsOnly_result (r : Reader) : FailsOnly Refusal r.result := by
  rw [result.eq_def]
  split <;> simp [Refusal.malformed]

end Reader

/-- **JSON is refused as malformed**, for an integer with too many digits, or as nested too deeply. -/
theorem failsOnly_read (room : Nat) (t : Text) : FailsOnly Refusal (read room t) :=
  (Reader.failsOnly_run _ _ _).bind Reader.failsOnly_result

/-- Lists that begin inside of each other, with some more lists around, are refused where there is no room. -/
theorem Reader.run_of_brackets {room n : Nat} {around : List Frame} (h : room < around.length + n)
    (hroom : around.length ≤ room) (atStart : Bool) (ts : List Token) :
    run room (value atStart around) (List.replicate n .beginList ++ ts) = .error .tooDeep := by
  induction n generalizing around atStart with
  | zero => omega
  | succ n ih =>
      rw [List.replicate_succ, List.cons_append, run, step]
      by_cases hnext : around.length + 1 ≤ room
      · have hlength : (Frame.list [] :: around).length = around.length + 1 := rfl
        rw [Nesting.within, if_pos hnext]
        exact ih (by omega) (hlength.le.trans hnext) true
      · rw [Nesting.within_of_lt (Nat.not_le.mp hnext)]
        rfl

/-- **More opening brackets than there is room for** are too many, whatever follows. -/
theorem read_of_brackets {room n : Nat} (h : room < n) (ps : List Text.Point) :
    read room ⟨List.replicate n (.char '[') ++ ps⟩ = .error .tooDeep := by
  have htokens : ∀ n, tokensFrom .between (List.replicate n (.char '[') ++ ps) =
      List.replicate n .beginList ++ tokensFrom .between ps := by
    intro n
    induction n with
    | zero => rfl
    | succ n ih =>
        rw [List.replicate_succ, List.cons_append, tokensFrom_mark rfl, ih]
        rfl
  rw [read, tokens, htokens, Reader.run_of_brackets (by simpa using h) (Nat.zero_le room)]
  rfl

end Json

/-! ### TOML -/

namespace Toml

open Text (Point)

/-- What TOML is refused for: a value that is not allowed, or that it is nested too deeply. -/
inductive Refusal (e : DataError) : Prop where
  | value (h : e.IsValue)
  | tooDeep (h : e = .tooDeep)

/-- A step of reading TOML fails only with what TOML is refused for. -/
abbrev Fair {α : Type} (x : Except DataError α) : Prop := FailsOnly Refusal x

theorem fair_malformed {α : Type} : Fair (.error malformed : Except DataError α) :=
  failsOnly_error.mpr (.value rfl)

/-! #### Texts -/

theorem fair_readNumbered (width : Nat) (ps : List Point) : Fair (readNumbered width ps) := by
  rw [readNumbered]
  split
  next n _ =>
    by_cases h : (ps.take width).length = width ∧ n.isValidChar
    · rw [dif_pos h]
      exact failsOnly_ok _
    · rw [dif_neg h]
      exact fair_malformed
  next => exact fair_malformed

theorem fair_dropLineEnd (ps : List Point) : Fair (dropLineEnd ps) := by
  rw [dropLineEnd]
  split
  · exact failsOnly_ok _
  · split
    · exact failsOnly_ok _
    · exact fair_malformed

theorem fair_basicRest (long : Bool) (fuel : Nat) (out ps : List Point) :
    Fair (basicRest long fuel out ps) := by
  induction fuel generalizing out ps with
  | zero => exact fair_malformed
  | succ fuel ih =>
    unfold basicRest
    split
    · exact fair_malformed
    · split
      · exact failsOnly_ok _
      · split
        · exact failsOnly_ok _
        · exact ih _ _
    · split
      · exact fair_malformed
      · exact fair_malformed
      · split
        · exact (fair_dropLineEnd _).bind fun _ => ih _ _
        · split
          · exact (fair_readNumbered _ _).bind fun _ => ih _ _
          · split
            · exact ih _ _
            · exact fair_malformed
    · split
      · exact fair_malformed
      · exact ih _ _

theorem fair_readBasic (ps : List Point) : Fair (readBasic ps) := fair_basicRest _ _ _ _

theorem fair_readLiteral (ps : List Point) : Fair (readLiteral ps) := by
  rw [readLiteral]
  split
  · split
    · exact fair_malformed
    · exact failsOnly_ok _
  · exact fair_malformed

theorem fair_longLiteralRest (out ps : List Point) : Fair (longLiteralRest out ps) := by
  fun_induction longLiteralRest out ps with
  | case1 => exact failsOnly_ok _
  | case2 => exact fair_malformed
  | case3 _ _ _ _ _ ih => exact ih
  | case4 => exact fair_malformed

theorem fair_readText {ps : List Point} {r : Except DataError (Parsed Text)}
    (h : readText? ps = some r) : Fair r := by
  rw [readText?.eq_def] at h
  split at h
  · obtain rfl := Option.some.inj h
    exact (fair_basicRest _ _ _ _).map
  · obtain rfl := Option.some.inj h
    exact fair_readBasic _
  · obtain rfl := Option.some.inj h
    exact (fair_longLiteralRest _ _).map
  · obtain rfl := Option.some.inj h
    exact fair_readLiteral _
  · cases h

/-! #### Other values -/

theorem fair_decimal {cs : List Char} {r : Except DataError (Split Datum)}
    (h : decimal? cs = some r) : Fair r := by
  rw [decimal?] at h
  simp only [Option.bind_eq_bind] at h
  -- what follows is the same for a single zero before the point and for other digits
  split at h
  all_goals
    obtain ⟨⟨whole, rest⟩, -, h⟩ := Option.bind_eq_some_iff.mp h
    split at h
    · split at h
      · obtain rfl := Option.some.inj h
        exact failsOnly_error.mpr (.value rfl)
      · obtain rfl := Option.some.inj h
        exact failsOnly_ok _
    · split at h
      · obtain rfl := Option.some.inj h
        exact failsOnly_ok _
      · obtain rfl := Option.some.inj h
        exact fair_malformed

theorem fair_stamp {cs : List Char} {r : Except DataError (Split Datum)}
    (h : stamp? cs = some r) : Fair r := by
  rw [stamp?] at h
  simp only [Option.bind_eq_bind, Option.bind_eq_some_iff] at h
  obtain ⟨date, -, h⟩ := h
  split at h
  · obtain rfl := Option.some.inj h
    exact fair_malformed
  · split at h
    · obtain rfl := Option.some.inj h
      exact failsOnly_ok _
    · obtain rfl := Option.some.inj h
      exact failsOnly_ok _

theorem fair_word {cs : List Char} {r : Except DataError (Split Datum)}
    (h : word? cs = some r) : Fair r := by
  obtain ⟨word, -, rfl⟩ := Option.map_eq_some_iff.mp h
  exact failsOnly_ok _

theorem fair_value {cs : List Char} {r : Except DataError (Split Datum)}
    (h : value? cs = some r) : Fair r := by
  rw [value?] at h
  simp only [Option.orElse_eq_orElse, Option.orElse_eq_or, Option.or_eq_some_iff,
    Option.map_eq_some_iff] at h
  obtain h | ⟨-, ⟨_, -, rfl⟩ | ⟨-, ⟨_, -, rfl⟩ | ⟨-, h | ⟨-, h⟩⟩⟩⟩ := h
  · exact fair_stamp h
  · exact failsOnly_ok _
  · exact failsOnly_ok _
  · exact fair_decimal h
  · exact fair_word h

theorem fair_readScalar (ps : List Point) : Fair (readScalar ps) := by
  rw [readScalar]
  split
  next r h => exact (fair_readText h).map
  next =>
    dsimp only
    split
    next r h => exact (fair_value h).map
    next => exact fair_malformed

/-! #### Keys and collections -/

theorem fair_readKeyPart (ps : List Point) : Fair (readKeyPart ps) := by
  rw [readKeyPart.eq_def]
  dsimp only
  split
  · exact failsOnly_ok _
  · split
    · exact fair_readLiteral _
    · exact fair_readBasic _
    · exact fair_malformed

theorem fair_readKey (fuel : Nat) (ps : List Point) : Fair (readKey fuel ps) := by
  induction fuel generalizing ps with
  | zero => exact fair_malformed
  | succ fuel ih =>
    refine (fair_readKeyPart ps).bind fun ⟨part, rest⟩ => ?_
    dsimp only
    split
    · exact (ih _).bind fun _ => failsOnly_pure _
    · exact failsOnly_pure _

theorem fair_dropComment (ps : List Point) : Fair (dropComment ps) := by
  rw [dropComment.eq_def]
  split
  · split
    · exact fair_malformed
    · exact failsOnly_ok _
  · exact failsOnly_ok _

theorem fair_dropArrayGap (fuel : Nat) (ps : List Point) : Fair (dropArrayGap fuel ps) := by
  induction fuel generalizing ps with
  | zero => exact failsOnly_ok _
  | succ fuel ih =>
    refine (fair_dropComment _).bind fun after => ?_
    split
    · exact failsOnly_pure _
    · exact ih _

/-- The four readers of values call each other, each with less fuel. -/
theorem fair_readers (fuel : Nat) :
    (∀ room ps, Fair (readValue fuel room ps)) ∧ (∀ room ps, Fair (readItems fuel room ps)) ∧
      (∀ room fs ps, Fair (readFields fuel room fs ps)) ∧ ∀ room ps, Fair (readField fuel room ps) := by
  induction fuel with
  | zero =>
    refine ⟨fun room ps => ?_, fun room ps => ?_, fun room fs ps => ?_, fun room ps => ?_⟩
    all_goals
      simp only [readValue, readItems, readFields, readField]
      exact fair_malformed
  | succ fuel ih =>
    obtain ⟨hvalue, hitems, hfields, hfield⟩ := ih
    refine ⟨fun room ps => ?value, fun room ps => ?items, fun room fs ps => ?fields,
      fun room ps => ?field⟩
    case value =>
      unfold readValue
      split
      · refine .within (.tooDeep rfl) fun room => (fair_dropArrayGap _ _).bind fun rest => ?_
        split
        · exact failsOnly_pure _
        · exact (hitems _ _).map
      · refine .within (.tooDeep rfl) fun room => ?_
        split
        · exact failsOnly_ok _
        · exact (hfields _ _ _).map
      · exact fair_readScalar _
    case items =>
      rw [readItems]
      refine (hvalue room ps).bind fun first => ?_
      obtain ⟨x, rest⟩ := first
      refine (fair_dropArrayGap _ _).bind fun after => ?_
      split
      · exact failsOnly_pure _
      · refine (fair_dropArrayGap _ _).bind fun next => ?_
        split
        · exact failsOnly_pure _
        · exact (hitems _ _).bind fun _ => failsOnly_pure _
      · exact fair_malformed
    case fields =>
      rw [readFields]
      refine (hfield room ps).bind fun first => ?_
      obtain ⟨⟨key, x⟩, rest⟩ := first
      dsimp only
      split
      · exact fair_malformed
      · split
        · exact failsOnly_pure _
        · exact hfields _ _ _
        · exact fair_malformed
    case field =>
      rw [readField]
      refine (fair_readKey _ ps).bind fun first => ?_
      obtain ⟨key, rest⟩ := first
      dsimp only
      split
      · exact (hvalue _ _).bind fun _ => failsOnly_pure _
      · exact fair_malformed

/-! #### Statements -/

namespace Draft

theorem fair_readHeader (closing ps : List Point) : Fair (readHeader closing ps) := by
  refine (fair_readKey _ _).bind fun ⟨key, rest⟩ => ?_
  dsimp only
  split
  · exact failsOnly_pure _
  · exact fair_malformed

theorem fair_declareTable (d : Draft) (key : Key) : Fair (d.declareTable key) := by
  rw [declareTable]
  split
  · exact fair_malformed
  · split
    · exact failsOnly_ok _
    · exact fair_malformed

theorem fair_declareInArray (d : Draft) (key : Key) : Fair (d.declareInArray key) := by
  rw [declareInArray]
  split
  · exact fair_malformed
  · split
    · exact failsOnly_ok _
    · exact fair_malformed

theorem fair_setValue (d : Draft) (key : Key) (x : Datum) : Fair (d.setValue key x) := by
  rw [setValue]
  split
  · exact fair_malformed
  · split
    · exact failsOnly_ok _
    · exact fair_malformed

theorem fair_readStatement (room : Nat) (d : Draft) (ps : List Point) : Fair (readStatement room d ps) := by
  rw [readStatement.eq_def]
  split
  · refine (fair_readHeader _ _).bind fun ⟨key, rest⟩ => ?_
    exact (fair_declareInArray _ _).bind fun _ => failsOnly_pure _
  · refine (fair_readHeader _ _).bind fun ⟨key, rest⟩ => ?_
    exact (fair_declareTable _ _).bind fun _ => failsOnly_pure _
  · exact failsOnly_ok _
  · split
    · refine ((fair_readers _).2.2.2 _ _).bind fun ⟨⟨key, x⟩, rest⟩ => ?_
      exact (fair_setValue _ _ _).bind fun _ => failsOnly_pure _
    · exact fair_malformed
  · exact failsOnly_ok _

theorem fair_readStatements (room fuel : Nat) (d : Draft) (ps : List Point) :
    Fair (readStatements room fuel d ps) := by
  induction fuel generalizing d ps with
  | zero => exact failsOnly_ok d
  | succ fuel ih =>
    rw [readStatements]
    split
    · exact failsOnly_ok _
    · exact ih _ _
    · refine (fair_readStatement _ _ _).bind fun ⟨d, rest⟩ => (fair_dropComment _).bind fun after => ?_
      split
      · exact failsOnly_pure _
      · exact ih _ _
      · exact fair_malformed

end Draft

/-- **TOML is refused with a value that is not allowed**, or as nested too deeply. -/
theorem failsOnly_read (room : Nat) (t : Text) : FailsOnly Refusal (read room t) :=
  (Draft.fair_readStatements _ _ _ _).bind fun _ => failsOnly_pure _

end Toml

end JanetEmbedding
